import Overlay.Number.Numeral
import Overlay.Text.Basic

/-!
This module contains byte sizes such as `512MB`, `1.5g` or `4096`: a decimal number, then a unit in
any letter case. The number ends at the last ASCII digit of the text and the unit is what follows
it. Sizes are computed in double width arithmetic.
-/

namespace Overlay

inductive SizeUnit where
  | byte
  | kilo
  | mega
  | giga
  | tera
  | peta
deriving DecidableEq, Repr

namespace SizeUnit

def bytes : SizeUnit → Nat
  | byte => 1
  | kilo => 1024
  | mega => 1024 * 1024
  | giga => 1024 * 1024 * 1024
  | tera => 1024 * 1024 * 1024 * 1024
  | peta => 1024 * 1024 * 1024 * 1024 * 1024

/--
The unit with a name in small letters. The empty name is that of single bytes.
-/
def ofName? (name : String) : Option SizeUnit :=
  match name with
  | "" | "b" => some byte
  | "k" | "kb" => some kilo
  | "m" | "mb" => some mega
  | "g" | "gb" => some giga
  | "t" | "tb" => some tera
  | "p" | "pb" => some peta
  | _ => none

end SizeUnit

inductive SizeError where
  | missingNumber (input : String)
  | invalidNumber (input : String)
  | unknownUnit (input unit : String)
  | overflow (input : String)
deriving DecidableEq, Repr

def SizeError.message : SizeError → String
  | missingNumber input => "'" ++ input ++ "' has no numeric part"
  | invalidNumber input => "'" ++ input ++ "' is not a number"
  | unknownUnit input unit => "unknown size unit '" ++ unit ++ "' in '" ++ input ++ "'"
  | overflow input => "'" ++ input ++ "' does not fit in 64 bits"

namespace ByteSize

open Number (Binary binary64)

def cut (cs : List Char) : List Char × List Char :=
  let (unit, number) := cs.reverse.span (fun c => !c.isDigit)
  (number.reverse, unit.reverse)

/--
What is added to a size before its fraction is dropped, so that a size just below a whole number of
bytes counts as that number.
-/
def margin : Binary :=
  binary64.round false 1 10000

def total? (value : Binary) (unit : SizeUnit) : Option Int :=
  let exact := binary64.add (binary64.mul value (binary64.round false unit.bytes 1)) margin
  exact.truncate?.filter fun n => n.natAbs < Nat.pow 2 63

def parse (input : String) : Except SizeError Int :=
  let (number, rest) := cut (Text.trim input.toList)
  if number.isEmpty then
    .error (.missingNumber input)
  else
    match Number.real? binary64 (Text.trim number) with
    | none => .error (.invalidNumber input)
    | some value =>
      let name := String.ofList (Text.lower (Text.trim rest))
      match SizeUnit.ofName? name with
      | none => .error (.unknownUnit input name)
      | some unit =>
        match total? value unit with
        | none => .error (.overflow input)
        | some bytes => .ok bytes

end ByteSize
end Overlay
