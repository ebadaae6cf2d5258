import Overlay.Number.Numeral
import Overlay.Number.Shortest

/-!
This module contains the dates and times of TOML documents. A value is a date, a time of day, or
both with or without an offset from universal time. Seconds may be missing and stay missing, and of
their fraction nine digits are kept.
-/

namespace Overlay
namespace Toml

structure Date where
  year : Nat
  month : Nat
  day : Nat
deriving DecidableEq, Repr

/--
A time of day. The seconds may have a fraction, in units of `10 ^ -9`.
-/
structure Time where
  hour : Nat
  minute : Nat
  second : Option (Nat × Option Nat)
deriving DecidableEq, Repr

inductive Offset where
  | universal
  | minutes (n : Int)
deriving DecidableEq, Repr

inductive DateTime where
  | date (d : Date)
  | time (t : Time)
  | instant (d : Date) (t : Time) (offset : Option Offset)
deriving DecidableEq, Repr

def daysInMonth (year month : Nat) : Nat :=
  if month = 2 then
    if year % 4 = 0 && (year % 100 != 0 || year % 400 = 0) then 29 else 28
  else if month = 4 || month = 6 || month = 9 || month = 11 then
    30
  else
    31

def takeNumber? (count : Nat) (cs : List Char) : Option (Nat × List Char) :=
  let digits := cs.take count
  if digits.length = count && digits.all Char.isDigit then
    some (Number.ofDigits digits, cs.drop count)
  else
    none

def after? (c : Char) : List Char → Option (List Char)
  | d :: cs => if c = d then some cs else none
  | [] => none

def Date.take? (cs : List Char) : Option (Date × List Char) := do
  let (year, cs) ← takeNumber? 4 cs
  let cs ← after? '-' cs
  let (month, cs) ← takeNumber? 2 cs
  let cs ← after? '-' cs
  let (day, cs) ← takeNumber? 2 cs
  if 1 ≤ month && month ≤ 12 && 1 ≤ day && day ≤ daysInMonth year month then
    some (⟨year, month, day⟩, cs)
  else
    none

def takeFraction? : List Char → Option (Option Nat × List Char)
  | '.' :: cs =>
    let digits := cs.takeWhile Char.isDigit
    if digits.isEmpty then
      none
    else
      let kept := digits.take 9
      some (some (Number.ofDigits kept * Nat.pow 10 (9 - kept.length)), cs.dropWhile Char.isDigit)
  | cs => some (none, cs)

/--
Take a time of day such as `07:32` or `07:32:00.5` off a text. A minute may have a leap second.
-/
def Time.take? (cs : List Char) : Option (Time × List Char) := do
  let (hour, cs) ← takeNumber? 2 cs
  let cs ← after? ':' cs
  let (minute, cs) ← takeNumber? 2 cs
  if 23 < hour || 59 < minute then
    none
  else
    match cs with
    | ':' :: cs =>
      let (second, cs) ← takeNumber? 2 cs
      let (fraction, cs) ← takeFraction? cs
      if 60 < second then none else some (⟨hour, minute, some (second, fraction)⟩, cs)
    | cs => some (⟨hour, minute, none⟩, cs)

def Offset.read? : List Char → Option (Option Offset)
  | [] => some none
  | [c] => if c = 'Z' || c = 'z' then some (some .universal) else none
  | sign :: cs => do
    let (hour, cs) ← takeNumber? 2 cs
    let cs ← after? ':' cs
    let (minute, cs) ← takeNumber? 2 cs
    let n : Int := (60 * hour + minute : Nat)
    if 23 < hour || 59 < minute || !cs.isEmpty then none
    else if sign = '+' then some (some (.minutes n))
    else if sign = '-' then some (some (.minutes (-n)))
    else none

def DateTime.read? (cs : List Char) : Option DateTime :=
  match Date.take? cs with
  | none =>
    match Time.take? cs with
    | some (t, []) => some (.time t)
    | _ => none
  | some (d, []) => some (.date d)
  | some (d, c :: cs) =>
    if c = 'T' || c = 't' || c = ' ' then do
      let (t, cs) ← Time.take? cs
      let offset ← Offset.read? cs
      some (.instant d t offset)
    else
      none

def padded (width n : Nat) : List Char :=
  let digits := Number.digitsOf n
  List.replicate (width - digits.length) '0' ++ digits

def Date.text (d : Date) : List Char :=
  padded 4 d.year ++ '-' :: padded 2 d.month ++ '-' :: padded 2 d.day

def dropZeros (digits : List Char) : List Char :=
  let kept := (digits.reverse.dropWhile (· = '0')).reverse
  if kept.isEmpty then digits.take 1 else kept

def Time.text (t : Time) : List Char :=
  padded 2 t.hour ++ ':' :: padded 2 t.minute ++
    match t.second with
    | none => []
    | some (second, none) => ':' :: padded 2 second
    | some (second, some fraction) => ':' :: padded 2 second ++ '.' :: dropZeros (padded 9 fraction)

def Offset.text : Offset → List Char
  | .universal => ['Z']
  | .minutes n =>
    (if n < 0 then '-' else '+') :: padded 2 (n.natAbs / 60) ++ ':' :: padded 2 (n.natAbs % 60)

/--
The text of a date, time or both. Whatever stood between the two is written as `T`.
-/
def DateTime.text : DateTime → List Char
  | .date d => d.text
  | .time t => t.text
  | .instant d t offset => d.text ++ 'T' :: t.text ++ (offset.map Offset.text).getD []

end Toml
end Overlay
