import Overlay.Command.Grammar

/-!
This module contains the reading of the arguments of one level of the command line. The value of a
switch that stands in the next argument, and an operand, are kept pending and count only when the
argument after them is read, so a verb or a call for help that follows comes before their faults.
-/

namespace Overlay
namespace Command

inductive Halt where
  | usage
  | help
  | version (verb : Option Verb)
deriving DecidableEq, Repr

/--
What has been read and does not count yet: a switch that awaits its value, one with its value, or an
operand.
-/
inductive Pending where
  | nothing
  | awaiting (s : Switch)
  | value (s : Switch) (text : String)
  | operand (text : String)
deriving DecidableEq, Repr

structure Arguments where
  given : List (Switch × String)
  operands : List String
  pending : Pending
deriving DecidableEq, Repr

namespace Arguments

def empty : Arguments := ⟨[], [], .nothing⟩

def values (a : Arguments) (s : Switch) : List String :=
  (a.given.filter fun entry => entry.1 = s).map Prod.snd

def has (a : Arguments) (s : Switch) : Bool :=
  a.given.any fun entry => entry.1 = s

theorem has_iff {a : Arguments} {s : Switch} : a.has s = true ↔ a.values s ≠ [] := by
  simp only [has, values, List.any_eq_true, decide_eq_true_eq, ne_eq, List.map_eq_nil_iff,
    List.filter_eq_nil_iff]
  constructor
  . intro ⟨entry, hmem, heq⟩ hall
    exact hall entry hmem heq
  . intro h
    apply Classical.byContradiction
    intro hnone
    exact h fun entry hmem heq => hnone ⟨entry, hmem, heq⟩

def isAwaiting (a : Arguments) : Bool :=
  match a.pending with
  | .awaiting _ => true
  | _ => false

def give (g : Grammar) (a : Arguments) (s : Switch) (text : String) : Except Halt Arguments :=
  if s = .help then
    .error .help
  else if s = .version then
    .error (.version g.verb)
  else if (a.has s && !s.repeats) || !s.accepts text then
    .error .usage
  else
    .ok { a with given := a.given ++ [(s, text)] }

def settle (g : Grammar) (a : Arguments) : Except Halt Arguments :=
  match a.pending with
  | .nothing => .ok a
  | .awaiting _ => .error .usage
  | .value s text => give g { a with pending := .nothing } s text
  | .operand text =>
    if (g.operands[a.operands.length]?).any (· text) then
      .ok { a with operands := a.operands ++ [text], pending := .nothing }
    else
      .error .usage

def readSwitch (g : Grammar) (a : Arguments) (s : Switch) : Except Halt Arguments := do
  let a ← settle g a
  if s.takesValue then
    return { a with pending := .awaiting s }
  else
    give g a s ""

def readAttached (g : Grammar) (a : Arguments) (s : Switch) (text : List Char) :
    Except Halt Arguments := do
  let a ← settle g a
  give g a s (String.ofList text)

def readLong (g : Grammar) (a : Arguments) (cs : List Char) : Except Halt Arguments :=
  match g.ofLong? (cs.takeWhile (· ≠ '=')), cs.dropWhile (· ≠ '=') with
  | none, _ => .error .usage
  | some s, [] => readSwitch g a s
  | some s, _ :: text => if s.takesValue then readAttached g a s text else .error .usage

/--
Read letters of switches. What follows on the letter of a switch that takes a value is that value,
after an equals sign that can be left out.
-/
def readLetters (g : Grammar) (a : Arguments) : List Char → Except Halt Arguments
  | [] => .ok a
  | c :: cs =>
    match g.ofLetter? c with
    | none => .error .usage
    | some s =>
      match s.takesValue, cs with
      | true, '=' :: text => readAttached g a s text
      | true, c :: text => readAttached g a s (c :: text)
      | _, cs => do readLetters g (← readSwitch g a s) cs

def readOperand (g : Grammar) (a : Arguments) (text : String) : Except Halt Arguments := do
  let a ← settle g a
  if a.operands.length < g.operands.length then
    return { a with pending := .operand text }
  else
    .error .usage

/--
Read an argument before the end of the switches. A dash alone is no switch.
-/
def read (g : Grammar) (a : Arguments) (text : String) : Except Halt Arguments :=
  match text.toList with
  | '-' :: '-' :: cs => readLong g a cs
  | '-' :: c :: cs => readLetters g a (c :: cs)
  | _ =>
    match a.pending with
    | .awaiting s => .ok { a with pending := .value s text }
    | _ => readOperand g a text

def helpAbout : List String → Halt
  | [] => .help
  | [word] => if word = "help" || (Variants.ofName? (α := Verb) word).isSome then .help else .usage
  | _ => .usage

/--
Read arguments up to a verb, which is returned with the arguments after it. After two dashes there
are neither switches nor verbs.
-/
def readAll (g : Grammar) (a : Arguments) :
    Bool → List String → Except Halt (Arguments × Option (Verb × List String))
  | _, [] => .ok (a, none)
  | true, text :: rest => do readAll g (← readOperand g a text) true rest
  | false, text :: rest =>
    match a.isAwaiting, g.ofWord? text with
    | false, some none => .error (helpAbout rest)
    | false, some (some verb) => .ok (a, some (verb, rest))
    | _, _ => do
      if text = "--" then
        readAll g a true rest
      else
        readAll g (← read g a text) false rest

/--
Arguments that are complete: nothing is pending, no operand is missing, and they do not ask to log
both more and less.
-/
def complete (g : Grammar) (a : Arguments) : Except Halt Arguments := do
  let a ← settle g a
  if a.operands.length < g.operands.length || (a.has .verbose && a.has .quiet) then
    .error .usage
  else
    return a

end Arguments
end Command
end Overlay
