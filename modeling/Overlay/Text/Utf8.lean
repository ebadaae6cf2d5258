/-!
This module contains the decoding of UTF-8. A sequence that cannot go on to a character is malformed
up to its last octet that could, so that each longest beginning of a character counts as one
malformed part.
-/

namespace Overlay
namespace Text
namespace Utf8

/--
The beginning of a character: how many octets are owed, the least and the greatest octet that may
come next, and the code point so far.
-/
structure Partial where
  owed : Nat
  low : Nat
  high : Nat
  codePoint : Nat
deriving DecidableEq, Repr

/--
What the first octet of a character tells: a character of one octet, the beginning of a longer one,
or nothing if no character begins so.
-/
def first? (b : Nat) : Option (Char ⊕ Partial) :=
  if b < 0x80 then some (.inl (Char.ofNat b))
  else if b < 0xC2 then none
  else if b < 0xE0 then some (.inr ⟨1, 0x80, 0xBF, b % 32⟩)
  else if b = 0xE0 then some (.inr ⟨2, 0xA0, 0xBF, 0⟩)
  else if b = 0xED then some (.inr ⟨2, 0x80, 0x9F, 13⟩)
  else if b < 0xF0 then some (.inr ⟨2, 0x80, 0xBF, b % 16⟩)
  else if b = 0xF0 then some (.inr ⟨3, 0x90, 0xBF, 0⟩)
  else if b < 0xF4 then some (.inr ⟨3, 0x80, 0xBF, b % 8⟩)
  else if b = 0xF4 then some (.inr ⟨3, 0x80, 0x8F, 4⟩)
  else none

/--
The parts that are complete after an octet between characters, and the character that it begins. A
part is a character, or `none` for a malformed one.
-/
def start (b : Nat) : List (Option Char) × Option Partial :=
  match first? b with
  | none => ([none], none)
  | some (.inl c) => ([some c], none)
  | some (.inr p) => ([], some p)

def step (state : Option Partial) (b : Nat) : List (Option Char) × Option Partial :=
  match state with
  | none => start b
  | some p =>
    if p.low ≤ b && b ≤ p.high then
      let codePoint := p.codePoint * 64 + b % 64
      if p.owed ≤ 1 then
        ([some (Char.ofNat codePoint)], none)
      else
        ([], some ⟨p.owed - 1, 0x80, 0xBF, codePoint⟩)
    else
      (none :: (start b).1, (start b).2)

def partsFrom : Option Partial → List UInt8 → List (Option Char)
  | none, [] => []
  | some _, [] => [none]
  | state, b :: bs => (step state b.toNat).1 ++ partsFrom (step state b.toNat).2 bs

def parts (bs : List UInt8) : List (Option Char) :=
  partsFrom none bs

def decode? (bs : List UInt8) : Option (List Char) :=
  (parts bs).mapM id

def decodeLossy (bs : List UInt8) : List Char :=
  (parts bs).map (fun part => part.getD '\uFFFD')

end Utf8
end Text
end Overlay
