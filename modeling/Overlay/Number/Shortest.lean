import Overlay.Number.Binary

/-!
This module contains the printing of floating-point numbers. A finite number is written with the
fewest decimal digits that read back as the same number of its format, the nearest ones where
several rows of that length do, and the greater where two are equally near. The notation is
positional at every magnitude.
-/

namespace Overlay
namespace Number

structure Decimal where
  digits : Nat
  exponent : Int
deriving DecidableEq, Repr

/--
The numbers that round to a given one, on a grid of step `10 ^ exponent`: `value` is the number
itself, `low` and `high` are the ends, and `closed` says whether the ends round to the number too.
-/
structure Window where
  low : Nat
  value : Nat
  high : Nat
  closed : Bool
  exponent : Int
deriving Repr

def Window.has (w : Window) (n : Nat) : Bool :=
  if w.closed then w.low ≤ n && n ≤ w.high else w.low < n && n < w.high

/--
The numbers that round to `m * 2 ^ e`, for a positive significand. Below a significand that is a
power of two the neighbour is half as far away as above. Grid steps are a power of ten at which the
ends are whole, `10 ^ (e - 2)` or one.
-/
def Format.window (f : Format) (m : Nat) (e : Int) : Window :=
  let below := if m = Nat.pow 2 (f.precision - 1) && f.minExp < e then 1 else 2
  let scale (n : Nat) : Nat :=
    if 2 ≤ e then n * Nat.pow 2 (e - 2).toNat else n * Nat.pow 5 (2 - e).toNat
  { low := scale (4 * m - below)
    value := scale (4 * m)
    high := scale (4 * m + 2)
    closed := m % 2 == 0
    exponent := min 0 (e - 2) }

def Window.atPlace? (w : Window) (k : Nat) : Option Nat :=
  let step := Nat.pow 10 k
  let below := w.value / step
  let above := below + 1
  match w.has (below * step), w.has (above * step) with
  | false, false => none
  | true, false => some below
  | false, true => some above
  | true, true => some (if 2 * (w.value % step) < step then below else above)

def Window.shortest (w : Window) : Nat → Decimal
  | 0 => ⟨w.value, w.exponent⟩
  | k + 1 =>
    match w.atPlace? (k + 1) with
    | some digits => ⟨digits, w.exponent + (k + 1)⟩
    | none => w.shortest k

/--
The shortest decimal number that reads back as `m * 2 ^ e`. The search starts at a place above the
first digit of the window's upper end, as `log 2 / log 10 < 0.30103`.
-/
def Format.shortest (f : Format) (m : Nat) (e : Int) : Decimal :=
  let w := f.window m e
  w.shortest ((w.high.log2 + 1) * 30103 / 100000 + 1)

def digitsOf (n : Nat) : List Char :=
  Nat.toDigits 10 n

def Decimal.positional (d : Decimal) : List Char :=
  if 0 ≤ d.exponent then
    digitsOf d.digits ++ List.replicate d.exponent.toNat '0'
  else
    let places := (-d.exponent).toNat
    let digits := digitsOf d.digits
    let padded := List.replicate (places + 1 - digits.length) '0' ++ digits
    let split := padded.length - places
    padded.take split ++ '.' :: padded.drop split

def Format.print (f : Format) : Binary → String
  | .nan => "NaN"
  | .infinity negative => if negative then "-inf" else "inf"
  | .finite negative m e =>
    let magnitude := if m = 0 then ['0'] else (f.shortest m e).positional
    String.ofList (if negative then '-' :: magnitude else magnitude)

def printInteger (n : Int) : String :=
  String.ofList (if n < 0 then '-' :: digitsOf n.natAbs else digitsOf n.natAbs)

end Number
end Overlay
