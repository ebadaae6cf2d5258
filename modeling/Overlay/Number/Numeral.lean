import Overlay.Number.Binary
import Overlay.Text.Basic

/-!
This module contains the reading of numbers from decimal text: whole numbers that must fit a width,
and reals that are rounded to a binary format. Digits are the ASCII digits and nothing is skipped,
neither blanks nor separators.
-/

namespace Overlay
namespace Number

def digitValue (c : Char) : Nat :=
  c.toNat - '0'.toNat

def ofDigits (digits : List Char) : Nat :=
  digits.foldl (fun n c => 10 * n + digitValue c) 0

def takeSign : List Char → Bool × List Char
  | '-' :: cs => (true, cs)
  | '+' :: cs => (false, cs)
  | cs => (false, cs)

def integer? (cs : List Char) : Option Int :=
  let (negative, digits) := takeSign cs
  if digits.isEmpty || !digits.all Char.isDigit then
    none
  else if negative then
    some (-(ofDigits digits : Int))
  else
    some (ofDigits digits)

def fits (bits : Nat) (n : Int) : Bool :=
  let limit : Int := Nat.pow 2 (bits - 1)
  n < limit && -limit ≤ n

def boundedInteger? (bits : Nat) (cs : List Char) : Option Int :=
  (integer? cs).filter (fits bits)

structure Numeral where
  negative : Bool
  digits : Nat
  exponent : Int
deriving DecidableEq, Repr

def exponentPart? : List Char → Option Int
  | [] => some 0
  | c :: cs => if c = 'e' || c = 'E' then integer? cs else none

/--
Read a numeral without sign: digits with an optional point, at least one digit in all, and an
optional exponent.
-/
def Numeral.unsigned? (negative : Bool) (cs : List Char) : Option Numeral :=
  let whole := cs.takeWhile Char.isDigit
  let afterWhole := cs.dropWhile Char.isDigit
  let (fraction, afterFraction) := match afterWhole with
    | '.' :: rest => (rest.takeWhile Char.isDigit, rest.dropWhile Char.isDigit)
    | rest => ([], rest)
  if whole.isEmpty && fraction.isEmpty then
    none
  else
    (exponentPart? afterFraction).map fun e =>
      ⟨negative, ofDigits (whole ++ fraction), e - fraction.length⟩

def Numeral.read? (cs : List Char) : Option Numeral :=
  let (negative, rest) := takeSign cs
  unsigned? negative rest

def Numeral.toBinary (f : Format) (n : Numeral) : Binary :=
  f.ofDecimal n.negative n.digits n.exponent

/--
Read a real number: a numeral, or one of the words for infinity and the indeterminate result in any
letter case, after an optional sign.
-/
def real? (f : Format) (cs : List Char) : Option Binary :=
  let (negative, rest) := takeSign cs
  let word := String.ofList (Text.lower rest)
  if word = "inf" || word = "infinity" then
    some (.infinity negative)
  else if word = "nan" then
    some .nan
  else
    (Numeral.unsigned? negative rest).map (Numeral.toBinary f)

end Number
end Overlay
