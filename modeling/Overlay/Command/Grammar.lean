import Overlay.Command.Switch

/-!
This module contains the levels of the command line, before and after the verb, what can follow on
each, and the summary of this that is printed with help and after usage errors.
-/

namespace Overlay
namespace Command

/--
What can follow on a level of the command line: switches, and operands, which are known by what they
accept. A level is known by its verb. On the level without one, verbs can follow.
-/
structure Grammar where
  verb : Option Verb
  switches : List Switch
  operands : List (String → Bool)

namespace Grammar

def top : Grammar :=
  ⟨none, Switch.shared, []⟩

def ofVerb (v : Verb) : Grammar :=
  match v with
  | .get => ⟨v, Switch.shared ++ [.form, .delimiter], [fun _ => true]⟩
  | .list => ⟨v, Switch.shared ++ [.json, .raw, .start], []⟩
  | .completions =>
    ⟨v, Switch.shared, [fun name => (Variants.ofName? (α := Shell) name).isSome]⟩
  | .check | .version => ⟨v, Switch.shared, []⟩

def ofLong? (g : Grammar) (name : List Char) : Option Switch :=
  g.switches.find? fun s => s.long.toList = name

def ofLetter? (g : Grammar) (c : Char) : Option Switch :=
  g.switches.find? fun s => s.letter? = some c

/--
The verb that a word is on a level, or the call for help that is no verb.
-/
def ofWord? (g : Grammar) (word : String) : Option (Option Verb) :=
  match g.verb with
  | some _ => none
  | none => if word = "help" then some none else (Variants.ofName? word).map some

end Grammar

def Switch.summary (s : Switch) : String :=
  let letter := match s.letter? with
    | none => "    "
    | some c => String.ofList ['-', c] ++ ", "
  "  " ++ letter ++ "--" ++ s.long ++ (if s.takesValue then " <value>" else "")

def summary : String :=
  let verbs := (Variants.listed (α := Verb)).map Prod.fst
  let own := (Variants.listed (α := Verb)).flatMap fun (name, verb) =>
    let own := (Grammar.ofVerb verb).switches.filter fun s => !Switch.shared.contains s
    own.map fun s => s.summary ++ " (" ++ name ++ ")"
  String.intercalate "\n"
    (["usage: keel [switches] (" ++ String.intercalate " | " verbs ++ ")"]
      ++ Switch.shared.map Switch.summary ++ own) ++ "\n"

end Command
end Overlay
