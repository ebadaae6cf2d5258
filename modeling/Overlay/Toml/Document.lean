import Overlay.Toml.DateKey
import Overlay.Toml.Draft
import Overlay.Toml.Outline

/-!
This module contains the reading of TOML documents. The outline of the whole document comes first,
then its keys and values are read in the order in which they are written, and then come the rules on
what the values are: the ranges of numbers and the date key. A document that breaks a rule has no
meaning, and the first rule that it breaks says why.
-/

namespace Overlay
namespace Toml

/--
What is wrong with a text that is no TOML document: that one of its keys has too many parts, or
anything else.
-/
inductive Fault where
  | malformed
  | keyTooDeep
deriving DecidableEq, Repr

abbrev Meaning (α : Type) := Except Fault α

def Meaning.ofOption {α : Type} : Option α → Meaning α
  | some a => .ok a
  | none => .error .malformed

def maxParts : Nat := 80

def isBare (c : Char) : Bool :=
  c.isAlphanum || c = '_' || c = '-'

def Part.read? : Part → Option String
  | .bare text => if !text.isEmpty && text.all isBare then some (String.ofList text) else none
  | .quoted q => if q.lines then none else q.decode?

def readKey (parts : List Part) : Meaning (List String × String) := do
  let keys ← Meaning.ofOption (parts.mapM Part.read?)
  if maxParts < keys.length then
    .error .keyTooDeep
  else
    return (keys.dropLast, ← Meaning.ofOption keys.getLast?)

mutual

def Writing.read : Writing → Meaning Value
  | .scalar text => Meaning.ofOption (scalar? text)
  | .quoted q => Meaning.ofOption (q.decode?.map .string)
  | .array items => (readItems items).map .array
  | .table entries => (readEntries [] entries).map fun entries => .table (Draft.toEntries entries)

def readItems : List Writing → Meaning (List Value)
  | [] => .ok []
  | w :: ws => do
    let v ← w.read
    return v :: (← readItems ws)

def readEntries (table : Entries) : List (List Part × Writing) → Meaning Entries
  | [] => .ok table
  | (parts, w) :: rest => do
    let (path, key) ← readKey parts
    let v ← w.read
    let table ← Meaning.ofOption (Draft.assign? path key v table)
    readEntries table rest

end

mutual

def Writing.isInRange : Writing → Bool
  | .scalar text => Toml.isInRange text
  | .quoted _ => true
  | .array items => itemsInRange items
  | .table entries => entriesInRange entries

def itemsInRange : List Writing → Bool
  | [] => true
  | w :: ws => w.isInRange && itemsInRange ws

def entriesInRange : List (List Part × Writing) → Bool
  | [] => true
  | (_, w) :: rest => w.isInRange && entriesInRange rest

end

def Statement.isInRange : Statement → Bool
  | .table _ | .item _ => true
  | .assignment _ w => w.isInRange

structure Sheet where
  entries : Entries
  header : List String

def Sheet.enter (sheet : Sheet) (open? : String → Entries → Option Entries) (parts : List Part) :
    Meaning Sheet := do
  let (path, key) ← readKey parts
  let entries ← Meaning.ofOption (Draft.changeUnder? (open? key) path sheet.entries)
  return ⟨entries, path ++ [key]⟩

def Sheet.read (sheet : Sheet) : Statement → Meaning Sheet
  | .table parts => sheet.enter Draft.declare? parts
  | .item parts => sheet.enter Draft.append? parts
  | .assignment parts w => do
    let (path, key) ← readKey parts
    let v ← w.read
    let entries ← Meaning.ofOption
      (Draft.changeUnder? (Draft.assign? path key v) sheet.header sheet.entries)
    return { sheet with entries }

/--
The entries of the document that a text writes. Below them, tables with the date key are dates.
-/
def read (text : String) : Meaning (List (String × Value)) := do
  let statements ← Meaning.ofOption (outline? text)
  let sheet ← statements.foldlM Sheet.read ⟨[], []⟩
  if statements.all Statement.isInRange then
    Meaning.ofOption (settleEntries? (Draft.toEntries sheet.entries))
  else
    .error .malformed

end Toml
end Overlay
