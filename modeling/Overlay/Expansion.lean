import Overlay.Dictionary
import Overlay.Error
import Overlay.Placeholder

/-!
This module contains the expansion of placeholders. A token whose name has a value is replaced by
the expansion of that value, and a token whose name has none stays as it is. Within one run each
name is looked up at most once. Names refer to each other at most `maxDepth` deep and never in a
cycle.
-/

namespace Overlay
namespace Expansion

def maxDepth : Nat := 64

/--
What a run has learnt and done so far: the expansions of names, `none` for a name without a value,
the names that were looked up, in order, and the number of tokens that were replaced.
-/
structure Pass where
  memo : Dictionary (Option String)
  asked : List String
  replaced : Nat

namespace Pass

def fresh : Pass := ⟨.empty, [], 0⟩

def known? (p : Pass) (name : String) : Option (Option String) :=
  p.memo.get? name

def ask (p : Pass) (name : String) : Pass :=
  { p with asked := p.asked ++ [name] }

def learn (p : Pass) (name : String) (value : Option String) : Pass :=
  { p with memo := p.memo.insert name value }

def replace (p : Pass) : Pass :=
  { p with replaced := p.replaced + 1 }

end Pass

abbrev Step (α : Type) := Pass → Except ConfigError α × Pass

/--
What a name stands for in a run: what the run knows, or else what `find` finds, which the run knows
then.
-/
def consult (find : String → Step (Option String)) (name : String) : Step (Option String) :=
  fun p =>
  match p.known? name with
  | some value => (.ok value, p)
  | none =>
    match find name p with
    | (.ok value, p) => (.ok value, p.learn name value)
    | (.error e, p) => (.error e, p)

/--
The text of pieces in order, where a token is replaced by what its name stands for, if it stands for
anything.
-/
def substitute (find : String → Step (Option String)) : List Piece → Step (List Char)
  | [], p => (.ok [], p)
  | .char c :: pieces, p =>
    match substitute find pieces p with
    | (.ok rest, p) => (.ok (c :: rest), p)
    | (.error e, p) => (.error e, p)
  | .token inner :: pieces, p =>
    match consult find (Placeholder.name inner) p with
    | (.error e, p) => (.error e, p)
    | (.ok none, p) =>
      match substitute find pieces p with
      | (.ok rest, p) => (.ok ((Piece.token inner).text ++ rest), p)
      | (.error e, p) => (.error e, p)
    | (.ok (some value), p) =>
      match substitute find pieces p.replace with
      | (.ok rest, p) => (.ok (value.toList ++ rest), p)
      | (.error e, p) => (.error e, p)

/--
The expansion of a name's value, `none` if it has no value. The names of `active` are being
expanded, the later ones for the earlier ones, and `room` more may join them.
-/
def expandName (look : String → Option String) (room : Nat) (active : List String) (name : String) :
    Step (Option String) := fun p =>
  if name ∈ active then
    (.error (.cyclicReference (active ++ [name])), p)
  else
    match look name with
    | none => (.ok none, p.ask name)
    | some raw =>
      match room with
      | 0 => (.error (.referenceTooDeep name maxDepth), p.ask name)
      | room + 1 =>
        match substitute (expandName look room (active ++ [name])) (Placeholder.scan raw.toList)
          (p.ask name) with
        | (.ok text, p) => (.ok (some (String.ofList text)), p)
        | (.error e, p) => (.error e, p)

def expand (look : String → Option String) (active : List String) (raw : String) : Step String :=
  fun p =>
  let find := expandName look (maxDepth - active.length) active
  match substitute find (Placeholder.scan raw.toList) p with
  | (.ok text, p) => (.ok (String.ofList text), p)
  | (.error e, p) => (.error e, p)

def resolve (look : String → Option String) (raw : String) : Except ConfigError String × Pass :=
  expand look [] raw .fresh

def resolveProperty (look : String → Option String) (key raw : String) :
    Except ConfigError String × Pass :=
  expand look [key] raw .fresh

end Expansion
end Overlay
