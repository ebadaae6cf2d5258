/-!
This module contains the splitting of a text at a delimiter. Delimiters are found from the left and
do not overlap, and a text with `n` of them has `n + 1` pieces, some of which may be empty.
-/

namespace Overlay
namespace Text

def consHead (c : Char) : List (List Char) → List (List Char)
  | [] => [[c]]
  | piece :: pieces => (c :: piece) :: pieces

/--
The pieces of a text between the occurrences of `delimiter`, after `skip` characters that belong to
an occurrence already found.
-/
def splitAfter (delimiter : List Char) : Nat → List Char → List (List Char)
  | _, [] => [[]]
  | skip + 1, _ :: cs => splitAfter delimiter skip cs
  | 0, c :: cs =>
    if delimiter.isPrefixOf (c :: cs) then
      [] :: splitAfter delimiter (delimiter.length - 1) cs
    else
      consHead c (splitAfter delimiter 0 cs)

def split (delimiter cs : List Char) : List (List Char) :=
  splitAfter delimiter 0 cs

@[simp]
theorem split_nil {delimiter : List Char} : split delimiter [] = [[]] := rfl

theorem consHead_ne_nil {c : Char} {pieces : List (List Char)} : consHead c pieces ≠ [] := by
  cases pieces <;> simp [consHead]

theorem splitAfter_ne_nil {delimiter : List Char} (skip : Nat) (cs : List Char) :
    splitAfter delimiter skip cs ≠ [] := by
  induction cs generalizing skip with
  | nil => cases skip <;> simp [splitAfter]
  | cons c cs ih =>
    cases skip with
    | zero =>
      rw [splitAfter]
      split
      . simp
      . exact consHead_ne_nil
    | succ skip =>
      rw [splitAfter]
      exact ih skip

theorem splitAfter_eq_drop {delimiter : List Char} (skip : Nat) (cs : List Char) :
    splitAfter delimiter skip cs = splitAfter delimiter 0 (cs.drop skip) := by
  induction cs generalizing skip with
  | nil => cases skip <;> simp [splitAfter]
  | cons c cs ih =>
    cases skip with
    | zero => simp
    | succ skip =>
      rw [splitAfter, ih skip]
      simp

def join (separator : List Char) : List (List Char) → List Char
  | [] => []
  | [cs] => cs
  | cs :: css => cs ++ separator ++ join separator css

end Text
end Overlay
