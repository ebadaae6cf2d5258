import Overlay.Toml.Value

/-!
This module contains tables of TOML documents while they are being written. A table can be named by
a header once, and can be added to only in the way in which it came about: by dotted keys, by
headers of tables below it, or, if it is the last item of an array of tables, by what follows the
item's header.
-/

namespace Overlay
namespace Toml

/--
How a table came about: on the way to a table with a header, by a dotted key, or by its own header.
-/
inductive Standing where
  | implied
  | dotted
  | declared
deriving DecidableEq, Repr

/--
What a key of a table being written stands for: a value, which is complete, a table, or an array of
tables, each with its entries.
-/
inductive Draft where
  | value (v : Value)
  | table (standing : Standing) (entries : List (String × Draft))
  | tables (items : List (List (String × Draft)))

abbrev Entries := List (String × Draft)

namespace Draft

mutual

def toValue : Draft → Value
  | .value v => v
  | .table _ entries => .table (toEntries entries)
  | .tables items => .array (toItems items)

def toEntries : List (String × Draft) → List (String × Value)
  | [] => []
  | (key, draft) :: rest => (key, draft.toValue) :: toEntries rest

def toItems : List (List (String × Draft)) → List Value
  | [] => []
  | entries :: rest => .table (toEntries entries) :: toItems rest

end

def changeLast? {α : Type} (f : α → Option α) : List α → Option (List α)
  | [] => none
  | [a] => (f a).map ([·])
  | a :: as => (changeLast? f as).map (a :: ·)

/--
Change the table that `path` leads to from a table of a standing. Tables that are missing on the way
get the standing `fresh`, `enter?` says which tables can be entered and what standing they have
then, and an array of tables leads to its last item.
-/
def changeAt? (fresh : Standing) (enter? : Standing → Option Standing)
    (f : Standing → Entries → Option Entries) : List String → Standing → Entries → Option Entries
  | [], standing, entries => f standing entries
  | key :: path, _, entries =>
    match Dictionary.assoc? key entries with
    | none => do
      let inner ← changeAt? fresh enter? f path fresh []
      some (Dictionary.insertEntry key (.table fresh inner) entries)
    | some (.table standing inner) => do
      let standing ← enter? standing
      let inner ← changeAt? fresh enter? f path standing inner
      some (Dictionary.insertEntry key (.table standing inner) entries)
    | some (.tables items) => do
      let items ← changeLast? (changeAt? fresh enter? f path .declared) items
      some (Dictionary.insertEntry key (.tables items) entries)
    | some (.value _) => none

def addEntry? (key : String) (v : Value) (entries : Entries) : Option Entries :=
  match Dictionary.assoc? key entries with
  | none => some (Dictionary.insertEntry key (.value v) entries)
  | some _ => none

def enterDotted? : Standing → Option Standing
  | .implied | .dotted => some .dotted
  | .declared => none

/--
Write an assignment into a table. A key with dots cannot end in an item of an array of tables, nor
in a table with a header.
-/
def assign? (path : List String) (key : String) (v : Value) (entries : Entries) : Option Entries :=
  changeAt? .dotted enterDotted?
    (fun standing inner =>
      if (standing == .dotted) == path.isEmpty then none else addEntry? key v inner)
    path .declared entries

def changeUnder? (f : Entries → Option Entries) (path : List String) (entries : Entries) :
    Option Entries :=
  changeAt? .implied some (fun _ inner => f inner) path .declared entries

/--
Give a key of a table a table with a header of its own. Such a table may be there only if it has
come about on the way to another one.
-/
def declare? (key : String) (entries : Entries) : Option Entries :=
  match Dictionary.assoc? key entries with
  | none => some (Dictionary.insertEntry key (.table .declared []) entries)
  | some (.table .implied inner) =>
    some (Dictionary.insertEntry key (.table .declared inner) entries)
  | some _ => none

def append? (key : String) (entries : Entries) : Option Entries :=
  match Dictionary.assoc? key entries with
  | none => some (Dictionary.insertEntry key (.tables [[]]) entries)
  | some (.tables items) => some (Dictionary.insertEntry key (.tables (items ++ [[]])) entries)
  | some _ => none

end Draft
end Toml
end Overlay
