import Overlay.Toml.Scalar

/-!
This module contains the quoted texts of TOML documents. Basic texts stand between double quotes and
have escapes, literal texts stand between single quotes and have none. Either kind may go over
several lines between tripled quotes, where up to two quotes may stand just before the closing ones.
-/

namespace Overlay
namespace Toml

def isPlain (c : Char) : Bool :=
  c = '\t' || (0x20 ≤ c.toNat && c.toNat != 0x7F)

/--
A quoted text as it is written: whether it can have escapes and whether it can go over several
lines, what stands between its quotes, and whether it has closing quotes.
-/
structure Quotation where
  escapes : Bool
  lines : Bool
  inner : List Char
  closed : Bool
deriving DecidableEq, Repr

def Quotation.cons (c : Char) (q : Quotation) : Quotation :=
  { q with inner := c :: q.inner }

/--
The text up to the closing quote, and what follows it. A text that is not closed ends with its line.
The flag says that the next character is escaped, which is possible only where `escapes` are.
-/
def untilQuote (quote : Char) (escapes escaped : Bool) : List Char → Quotation × List Char
  | [] => (⟨escapes, false, [], false⟩, [])
  | c :: cs =>
    if c = '\n' then
      (⟨escapes, false, [], false⟩, c :: cs)
    else if c = quote && !escaped then
      (⟨escapes, false, [], true⟩, cs)
    else
      let (q, rest) := untilQuote quote escapes (escapes && c = '\\' && !escaped) cs
      (q.cons c, rest)

/--
The text up to the closing three quotes, and what follows them. So far `run` quotes stand in a row,
of which three close the text and up to two before those belong to it.
-/
def untilQuotes (quote : Char) (escapes : Bool) (run : Nat) (escaped : Bool) :
    List Char → Quotation × List Char
  | [] => (⟨escapes, true, List.replicate (run - 3) quote, 3 ≤ run⟩, [])
  | c :: cs =>
    if c = quote && !escaped then
      if run = 4 then
        (⟨escapes, true, [quote, quote], true⟩, cs)
      else
        untilQuotes quote escapes (run + 1) false cs
    else if 3 ≤ run then
      (⟨escapes, true, List.replicate (run - 3) quote, true⟩, c :: cs)
    else
      let (q, rest) := untilQuotes quote escapes 0 (escapes && c = '\\' && !escaped) cs
      ((List.replicate run quote).foldr Quotation.cons (q.cons c), rest)

def Quotation.take? : List Char → Option (Quotation × List Char)
  | '"' :: '"' :: '"' :: cs => some (untilQuotes '"' true 0 false cs)
  | '\'' :: '\'' :: '\'' :: cs => some (untilQuotes '\'' false 0 false cs)
  | '"' :: cs => some (untilQuote '"' true false cs)
  | '\'' :: cs => some (untilQuote '\'' false false cs)
  | _ => none

def dropLineBreak : List Char → List Char
  | '\n' :: cs => cs
  | '\r' :: '\n' :: cs => cs
  | cs => cs

/--
Where the decoding of a text stands: in plain text, after a backslash, in the digits of a
character's code, or in one of the parts of an escaped line break, which goes up to the next
character that is no blank.
-/
inductive Mode where
  | plain
  | backslash
  | code (owed value : Nat)
  | carriage
  | lineEnd
  | lineEndCarriage
  | indent
  | indentCarriage
deriving DecidableEq, Repr

def escape? (c : Char) : Option Char :=
  match c with
  | 'b' => some '\x08'
  | 't' => some '\t'
  | 'n' => some '\n'
  | 'f' => some '\x0c'
  | 'r' => some '\r'
  | 'e' => some '\x1b'
  | '"' => some '"'
  | '\\' => some '\\'
  | _ => none

def Mode.plainStep (lines : Bool) (c : Char) : Option (List Char × Mode) :=
  if c = '\\' then some ([], backslash)
  else if lines && c = '\r' then some ([c], carriage)
  else if lines && c = '\n' then some ([c], plain)
  else if isPlain c then some ([c], plain)
  else none

def Mode.step (lines : Bool) (mode : Mode) (c : Char) : Option (List Char × Mode) :=
  match mode with
  | plain => plainStep lines c
  | carriage => if c = '\n' then some ([c], plain) else none
  | code owed value => do
    let d ← Text.hexDigit? c
    let value := 16 * value + d
    if owed ≤ 1 then
      let decoded ← Text.ofCode? value
      some ([decoded], plain)
    else
      some ([], code (owed - 1) value)
  | backslash =>
    match escape? c, Text.codeLength? c with
    | some decoded, _ => some ([decoded], plain)
    | none, some length => some ([], code length 0)
    | none, none =>
      if lines then
        lineEndStep c
      else
        none
  | lineEnd => lineEndStep c
  | lineEndCarriage => if c = '\n' then some ([], indent) else none
  | indent =>
    if c = ' ' || c = '\t' || c = '\n' then some ([], indent)
    else if c = '\r' then some ([], indentCarriage)
    else plainStep lines c
  | indentCarriage => if c = '\n' then some ([], indent) else none
where
  /--
  Between a backslash and the line break that it escapes only blanks may stand.
  -/
  lineEndStep (c : Char) : Option (List Char × Mode) :=
    if c = ' ' || c = '\t' then some ([], lineEnd)
    else if c = '\n' then some ([], indent)
    else if c = '\r' then some ([], lineEndCarriage)
    else none

def decodeFrom? (lines : Bool) : Mode → List Char → Option (List Char)
  | .plain, [] => some []
  | .indent, [] => some []
  | _, [] => none
  | mode, c :: cs => do
    let (decoded, mode) ← mode.step lines c
    let rest ← decodeFrom? lines mode cs
    some (decoded ++ rest)

/--
The characters that the inside of a literal text stands for, which are its own. A carriage return
must be part of a line break.
-/
def checkLiteral? (lines : Bool) : List Char → Option (List Char)
  | [] => some []
  | '\r' :: '\n' :: cs =>
    if lines then (checkLiteral? lines cs).map fun cs => '\r' :: '\n' :: cs else none
  | c :: cs =>
    if isPlain c || (lines && c = '\n') then (checkLiteral? lines cs).map (c :: ·) else none

/--
The text that a quoted text stands for. A line break just after the opening quotes does not count.
-/
def Quotation.decode? (q : Quotation) : Option String :=
  if q.closed then
    let inner := if q.lines then dropLineBreak q.inner else q.inner
    (if q.escapes then decodeFrom? q.lines .plain inner else checkLiteral? q.lines inner).map
      String.ofList
  else
    none

end Toml
end Overlay
