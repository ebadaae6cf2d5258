import Overlay.Dictionary

/-!
This module contains layers of properties. A configuration is put together from layers, of which the
later ones override the earlier ones.
-/

namespace Overlay

/--
Where a layer comes from, in the order of precedence.
-/
inductive Origin where
  | defaults
  | site
  | process
  | runtime
deriving DecidableEq, Repr

namespace Origin

def name : Origin → String
  | defaults => "defaults"
  | site => "site"
  | process => "process"
  | runtime => "runtime"

def rank : Origin → Nat
  | defaults => 0
  | site => 1
  | process => 2
  | runtime => 3

instance : LE Origin := ⟨fun a b => a.rank ≤ b.rank⟩

instance (a b : Origin) : Decidable (a ≤ b) := inferInstanceAs (Decidable (a.rank ≤ b.rank))

def ofName? (name : String) : Option Origin :=
  match name with
  | "defaults" => some defaults
  | "site" => some site
  | "process" => some process
  | "runtime" => some runtime
  | _ => none

end Origin

structure Layer where
  name : String
  origin : Origin
  path : Option String
  properties : Properties

namespace Layer

def new (name : String) (origin : Origin) : Layer :=
  ⟨name, origin, none, .empty⟩

def insert (l : Layer) (key value : String) : Layer :=
  { l with properties := l.properties.insert key value }

def insertAll (l : Layer) (pairs : List (String × String)) : Layer :=
  { l with properties := l.properties.insertAll pairs }

def contains (l : Layer) (key : String) : Bool :=
  l.properties.contains key

def merge (layers : List Layer) : Properties :=
  layers.foldl (fun merged l => merged.insertAll l.properties.toList) .empty

end Layer
end Overlay
