import Overlay.Command.Arguments
import Overlay.Configuration.Load

/-!
This module contains what a command line asks for: a command with its operands, and the settings
that all commands share. A switch given after the verb comes before the same switch given in front
of it.
-/

namespace Overlay
namespace Command

/--
The settings that all commands share. A log level that is missing is left to the configuration.
-/
structure Settings where
  siteDir : Option String
  defines : List (String × String)
  environment : Bool
  siteFile : Bool
  logLevel : Option String
deriving DecidableEq, Repr

inductive Request where
  | get (key : String) (form : Form) (delimiter : String)
  | list (json raw : Bool) (start : String)
  | check
  | version
  | completions (shell : Shell)
deriving DecidableEq, Repr

def definition (text : String) : String × String :=
  (String.ofList (text.toList.takeWhile (· ≠ '=')),
    String.ofList ((text.toList.dropWhile (· ≠ '=')).drop 1))

theorem definition_eq {key value : String} (h : '=' ∉ key.toList) :
    definition (key ++ "=" ++ value) = (key, value) := by
  have hkey : ∀ c ∈ key.toList, decide (c ≠ '=') = true := by
    intro c hc
    simp only [decide_eq_true_eq]
    exact fun heq => h (heq ▸ hc)
  have htake : (key.toList ++ '=' :: value.toList).takeWhile (· ≠ '=') = key.toList := by
    rw [List.takeWhile_append_of_pos hkey]
    simp
  have hdrop : (key.toList ++ '=' :: value.toList).dropWhile (· ≠ '=') = '=' :: value.toList := by
    rw [List.dropWhile_append_of_pos hkey]
    simp
  have htext : (key ++ "=" ++ value).toList = key.toList ++ '=' :: value.toList := by
    simp
  rw [definition, htext, htake, hdrop]
  simp

def values (before after : Arguments) (s : Switch) : List String :=
  if after.has s then after.values s else before.values s

def has (before after : Arguments) (s : Switch) : Bool :=
  before.has s || after.has s

def Settings.ofArguments (before after : Arguments) : Settings where
  siteDir := (values before after .siteDir).head?
  defines := (values before after .define).map definition
  environment := !has before after .noEnvironment
  siteFile := !has before after .noSite
  logLevel :=
    if has before after .verbose then some "debug"
    else if has before after .quiet then some "error"
    else (values before after .logLevel).head?

/--
What to load under settings. Definitions come after the directory of the site, which they can set
too.
-/
def Settings.loadOptions (s : Settings) : LoadOptions :=
  let options : LoadOptions :=
    ⟨if s.siteFile then LoadOptions.standard.siteFile else none, s.environment, .empty⟩
  let siteDirs := s.siteDir.toList.map fun dirs => (Property.siteConfDir, dirs)
  options.override (siteDirs ++ s.defines)

def Request.ofArguments? (v : Verb) (a : Arguments) : Option Request :=
  match v, a.operands with
  | .get, key :: _ =>
    let form := ((a.values .form).head?.bind Variants.ofName?).getD .text
    some (.get key form ((a.values .delimiter).head?.getD ","))
  | .list, _ => some (.list (a.has .json) (a.has .raw) ((a.values .start).head?.getD ""))
  | .check, _ => some .check
  | .version, _ => some .version
  | .completions, name :: _ => (Variants.ofName? name).map .completions
  | _, [] => none

structure Invocation where
  settings : Settings
  request : Request
deriving DecidableEq, Repr

/--
What a command line asks for, without the name of the program. The arguments after the verb are
looked at before those in front of it are complete.
-/
def Invocation.ofWords (words : List String) : Except Halt Invocation := do
  let (before, rest) ← Arguments.empty.readAll .top false words
  match rest with
  | none => .error .usage
  | some (verb, words) =>
    let grammar := Grammar.ofVerb verb
    let (after, _) ← Arguments.empty.readAll grammar false words
    let after ← after.complete grammar
    let before ← before.complete .top
    match Request.ofArguments? verb after with
    | none => .error .usage
    | some request => return ⟨.ofArguments before after, request⟩

end Command
end Overlay
