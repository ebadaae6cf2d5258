import Overlay.Text.Basic
import Overlay.Toml.Value

/-!
This module contains the reading of the TOML values that are written without quotes: truth values,
numbers, dates and times. Digits may be grouped by single underscores, and a number has no
superfluous leading zero. Whether a number is within the range of its kind is a question of its own.
-/

namespace Overlay
namespace Toml

/--
The digits of a grouped number. An underscore must stand between two digits.
-/
def ungroup? (isDigit : Char → Bool) : List Char → Option (List Char)
  | [] => none
  | [c] => if isDigit c then some [c] else none
  | c :: '_' :: cs => if isDigit c then (ungroup? isDigit cs).map (c :: ·) else none
  | c :: cs => if isDigit c then (ungroup? isDigit cs).map (c :: ·) else none

def wholeDigits? (cs : List Char) : Option (List Char) :=
  (ungroup? Char.isDigit cs).filter fun digits => digits.length = 1 || digits.head? != some '0'

def isDigitIn (base : Nat) (c : Char) : Bool :=
  match Text.hexDigit? c with
  | some d => d < base
  | none => false

def ofDigitsIn (base : Nat) (digits : List Char) : Nat :=
  digits.foldl (fun n c => base * n + (Text.hexDigit? c).getD 0) 0

def integer? (cs : List Char) : Option Int :=
  match cs with
  | '0' :: 'x' :: digits => (ungroup? (isDigitIn 16) digits).map fun ds => ofDigitsIn 16 ds
  | '0' :: 'o' :: digits => (ungroup? (isDigitIn 8) digits).map fun ds => ofDigitsIn 8 ds
  | '0' :: 'b' :: digits => (ungroup? (isDigitIn 2) digits).map fun ds => ofDigitsIn 2 ds
  | _ =>
    let (negative, rest) := Number.takeSign cs
    (wholeDigits? rest).map fun ds =>
      if negative then -(Number.ofDigits ds : Int) else Number.ofDigits ds

def exponent? (cs : List Char) : Option Int :=
  let (negative, rest) := Number.takeSign cs
  (ungroup? Char.isDigit rest).map fun ds =>
    if negative then -(Number.ofDigits ds : Int) else Number.ofDigits ds

def isExponentLetter (c : Char) : Bool :=
  c = 'e' || c = 'E'

def numeral? (cs : List Char) : Option Number.Numeral := do
  let (negative, rest) := Number.takeSign cs
  let (mantissa, scale) := rest.span (fun c => !isExponentLetter c)
  let (whole, point) := mantissa.span (· != '.')
  let wholeDigits ← wholeDigits? whole
  let fraction ← match point with
    | [] => some []
    | _ :: digits => ungroup? Char.isDigit digits
  let exponent ← match scale with
    | [] => if point.isEmpty then none else some 0
    | _ :: digits => exponent? digits
  some ⟨negative, Number.ofDigits (wholeDigits ++ fraction), exponent - fraction.length⟩

def float? (cs : List Char) : Option Number.Binary :=
  let (negative, rest) := Number.takeSign cs
  if rest = ['i', 'n', 'f'] then
    some (.infinity negative)
  else if rest = ['n', 'a', 'n'] then
    some .nan
  else
    (numeral? cs).map (Number.Numeral.toBinary Number.binary64)

/--
Is the number that a text writes, if it writes one, within the range of its kind? Whole numbers must
fit in 64 bits, and other numerals must not be past the greatest finite number.
-/
def isInRange (cs : List Char) : Bool :=
  match integer? cs, numeral? cs with
  | some n, _ => Number.fits 64 n
  | none, some n =>
    match n.toBinary Number.binary64 with
    | .infinity _ => false
    | _ => true
  | none, none => true

def scalar? (cs : List Char) : Option Value :=
  if cs = ['t', 'r', 'u', 'e'] then
    some (.boolean true)
  else if cs = ['f', 'a', 'l', 's', 'e'] then
    some (.boolean false)
  else
    (integer? cs).map Value.integer
      <|> (float? cs).map Value.float
      <|> (DateTime.read? cs).map Value.dateTime

end Toml
end Overlay
