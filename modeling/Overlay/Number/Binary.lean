/-!
This module contains binary floating-point numbers in exact integer arithmetic. A finite number is a
signed significand times a power of two, and every operation is the exact result on fractions,
rounded once to the nearest number of the format, a tie going to the even significand.
-/

namespace Overlay
namespace Number

/--
A binary floating-point format: the numbers `m * 2 ^ e` with `m < 2 ^ precision` and
`minExp ≤ e ≤ maxExp`, besides the infinities and the indeterminate result.
-/
structure Format where
  precision : Nat
  minExp : Int
  maxExp : Int
deriving DecidableEq, Repr

def binary64 : Format := ⟨53, -1074, 971⟩

def binary32 : Format := ⟨24, -149, 104⟩

/--
A floating-point number, where `finite negative significand exponent` is
`± significand * 2 ^ exponent`.
-/
inductive Binary where
  | finite (negative : Bool) (significand : Nat) (exponent : Int)
  | infinity (negative : Bool)
  | nan
deriving DecidableEq, Repr

/--
The integer nearest to `num / den`, the even one if two are equally near.
-/
def roundQuotient (num den : Nat) : Nat :=
  let quotient := num / den
  let rest := num % den
  if 2 * rest < den then
    quotient
  else if den < 2 * rest then
    quotient + 1
  else
    quotient + quotient % 2

def scaleDown (num den : Nat) (e : Int) : Nat × Nat :=
  if 0 ≤ e then (num, den * Nat.pow 2 e.toNat) else (num * Nat.pow 2 (-e).toNat, den)

/--
The greatest `k` with `2 ^ k ≤ num / den`, for a positive fraction.
-/
def floorLog2 (num den : Nat) : Int :=
  let k : Int := (num.log2 : Int) - (den.log2 : Int)
  let scaled := scaleDown num den k
  if scaled.2 ≤ scaled.1 then k else k - 1

namespace Format

variable (f : Format)

def zero (negative : Bool) : Binary :=
  .finite negative 0 f.minExp

def place (negative : Bool) (significand : Nat) (e : Int) : Binary :=
  if f.maxExp < e then .infinity negative else .finite negative significand e

/--
The number of the format nearest to `± num / den`, the one with the even significand if two are
equally near. The exponent is the least one at which the significand fits.
-/
def round (negative : Bool) (num den : Nat) : Binary :=
  if num = 0 then
    f.zero negative
  else
    let e := max f.minExp (floorLog2 num den - ((f.precision : Int) - 1))
    let scaled := scaleDown num den e
    let significand := roundQuotient scaled.1 scaled.2
    if significand < Nat.pow 2 f.precision then
      f.place negative significand e
    else
      f.place negative (Nat.pow 2 (f.precision - 1)) (e + 1)

def roundScaled (negative : Bool) (m : Nat) (e : Int) : Binary :=
  if 0 ≤ e then
    f.round negative (m * Nat.pow 2 e.toNat) 1
  else
    f.round negative m (Nat.pow 2 (-e).toNat)

/--
The number of the format nearest to `± digits * 10 ^ e`. Two cases need no arithmetic on large
powers: a value of at least `2 ^ (maxExp + precision)` is an infinity, and one of at most `2 ^
(minExp - 1)` is zero.
-/
def ofDecimal (negative : Bool) (digits : Nat) (e : Int) : Binary :=
  if digits = 0 then
    f.zero negative
  else if f.maxExp + f.precision ≤ e then
    .infinity negative
  else if 0 ≤ e then
    f.round negative (digits * Nat.pow 10 e.toNat) 1
  else if e + (digits.log2 + 1) < f.minExp then
    f.zero negative
  else
    f.round negative digits (Nat.pow 10 (-e).toNat)

def mul : Binary → Binary → Binary
  | .nan, _ => .nan
  | _, .nan => .nan
  | .infinity n₁, .infinity n₂ => .infinity (n₁ != n₂)
  | .infinity n₁, .finite n₂ m₂ _ => if m₂ = 0 then .nan else .infinity (n₁ != n₂)
  | .finite n₁ m₁ _, .infinity n₂ => if m₁ = 0 then .nan else .infinity (n₁ != n₂)
  | .finite n₁ m₁ e₁, .finite n₂ m₂ e₂ => f.roundScaled (n₁ != n₂) (m₁ * m₂) (e₁ + e₂)

/--
The sum, rounded to the format. An exact sum of zero is positive unless both terms are negative.
-/
def add : Binary → Binary → Binary
  | .nan, _ => .nan
  | _, .nan => .nan
  | .infinity n₁, .infinity n₂ => if n₁ = n₂ then .infinity n₁ else .nan
  | .infinity n₁, .finite _ _ _ => .infinity n₁
  | .finite _ _ _, .infinity n₂ => .infinity n₂
  | .finite n₁ m₁ e₁, .finite n₂ m₂ e₂ =>
    let e := min e₁ e₂
    let a : Int := (m₁ * Nat.pow 2 (e₁ - e).toNat : Nat)
    let b : Int := (m₂ * Nat.pow 2 (e₂ - e).toNat : Nat)
    let sum := (if n₁ then -a else a) + (if n₂ then -b else b)
    if sum = 0 then
      f.zero (n₁ && n₂)
    else
      f.roundScaled (decide (sum < 0)) sum.natAbs e

end Format

def Binary.truncate? : Binary → Option Int
  | .finite negative m e =>
    let magnitude : Nat := if 0 ≤ e then m * Nat.pow 2 e.toNat else m / Nat.pow 2 (-e).toNat
    some (if negative then -magnitude else magnitude)
  | .infinity _ => none
  | .nan => none

end Number
end Overlay
