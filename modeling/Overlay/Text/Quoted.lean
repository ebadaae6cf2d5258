import Overlay.Text.Visible

/-!
This module contains the two ways to write a text between double quotes: with the escapes of JSON,
and with those of diagnostics, which also name every character that does not show by itself.
-/

namespace Overlay
namespace Text

def hexDigits (n : Nat) : List Char :=
  Nat.toDigits 16 n

/--
The escape of a character in JSON, which is the character itself unless it is a quote, a backslash
or a control character.
-/
def jsonEscape (c : Char) : List Char :=
  match c with
  | '"' => ['\\', '"']
  | '\\' => ['\\', '\\']
  | '\x08' => ['\\', 'b']
  | '\x0c' => ['\\', 'f']
  | '\n' => ['\\', 'n']
  | '\r' => ['\\', 'r']
  | '\t' => ['\\', 't']
  | c =>
    if c.toNat < 0x20 then
      let digits := hexDigits c.toNat
      '\\' :: 'u' :: List.replicate (4 - digits.length) '0' ++ digits
    else
      [c]

def diagnosticEscape (c : Char) : List Char :=
  match c with
  | '"' => ['\\', '"']
  | '\\' => ['\\', '\\']
  | '\x00' => ['\\', '0']
  | '\n' => ['\\', 'n']
  | '\r' => ['\\', 'r']
  | '\t' => ['\\', 't']
  | c => if isVisible c then [c] else '\\' :: 'u' :: '{' :: hexDigits c.toNat ++ ['}']

def quote (escape : Char → List Char) (s : String) : String :=
  String.ofList ('"' :: s.toList.flatMap escape ++ ['"'])

end Text
end Overlay
