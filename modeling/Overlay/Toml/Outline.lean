import Overlay.Toml.DateTime
import Overlay.Toml.Quoted

/-!
This module contains the outlines of TOML documents, version 1.1: which headers, keys and values
they have, each as it is written. Blanks, line breaks and comments are gone from an outline. Whether
the keys and values mean anything is left open, but their punctuation is complete: every bracket is
closed, every key has its equals sign, and nothing follows a value or header on its line.
-/

namespace Overlay
namespace Toml

/--
A part of a key as it is written. A part without quotes can be empty where a key is missing.
-/
inductive Part where
  | bare (text : List Char)
  | quoted (q : Quotation)
deriving DecidableEq, Repr

/--
A value as it is written. A scalar is a value without quotes, and is empty where a value is missing.
-/
inductive Writing where
  | scalar (text : List Char)
  | quoted (q : Quotation)
  | array (items : List Writing)
  | table (entries : List (List Part × Writing))
deriving Repr

inductive Statement where
  | table (key : List Part)
  | item (key : List Part)
  | assignment (key : List Part) (value : Writing)
deriving Repr

def maxNesting : Nat := 80

abbrev Reader (α : Type) := List Char → Option (α × List Char)

def isSpace (c : Char) : Bool :=
  c = ' ' || c = '\t'

def skipSpace (cs : List Char) : List Char :=
  cs.dropWhile isSpace

def skipLine? (inComment : Bool) : List Char → Option (List Char)
  | [] => some []
  | '\n' :: cs => some cs
  | '\r' :: '\n' :: cs => some cs
  | c :: cs =>
    if inComment then
      if isPlain c then skipLine? true cs else none
    else if isSpace c then
      skipLine? false cs
    else if c = '#' then
      skipLine? true cs
    else
      none

/--
Skip blanks, line breaks and comments. The flag says that the text is inside of a comment.
-/
def skipBlank? (inComment : Bool) : List Char → Option (List Char)
  | [] => some []
  | '\n' :: cs => skipBlank? false cs
  | '\r' :: '\n' :: cs => skipBlank? false cs
  | c :: cs =>
    if inComment then
      if isPlain c then skipBlank? true cs else none
    else if isSpace c then
      skipBlank? false cs
    else if c = '#' then
      skipBlank? true cs
    else
      some (c :: cs)

def isDelimiter (c : Char) : Bool :=
  ".=,[]{} \t#\r\n".toList.contains c

def takePart (cs : List Char) : Part × List Char :=
  match Quotation.take? cs with
  | some (q, cs) => (.quoted q, cs)
  | none => (.bare (cs.takeWhile (!isDelimiter ·)), cs.dropWhile (!isDelimiter ·))

def takeKey : Nat → List Char → List Part × List Char
  | 0, cs => ([], cs)
  | count + 1, cs =>
    let (part, cs) := takePart cs
    match skipSpace cs with
    | '.' :: cs =>
      let (parts, cs) := takeKey count (skipSpace cs)
      (part :: parts, cs)
    | cs => ([part], cs)

def takeWholeKey (cs : List Char) : List Part × List Char :=
  takeKey (cs.length + 1) cs

/--
Take words and the dots between them off a text. A quote cannot begin a word, and the flag says that
one would.
-/
def takeRun (atStart : Bool) : List Char → List Char × List Char
  | [] => ([], [])
  | c :: cs =>
    if c = '.' || !(isDelimiter c || (atStart && (c = '"' || c = '\''))) then
      let (run, rest) := takeRun (c = '.') cs
      (c :: run, rest)
    else
      ([], c :: cs)

def looksLikeDate (cs : List Char) : Bool :=
  cs.map (fun c => if c.isDigit then '0' else c) = "0000-00-00".toList

/--
Take a value without quotes off a text. A blank belongs to it where it stands between a date and the
digit of a time.
-/
def takeScalar (cs : List Char) : List Char × List Char :=
  match takeRun true cs with
  | (date, ' ' :: c :: rest) =>
    if looksLikeDate date && c.isDigit then
      let (time, rest) := takeRun true (c :: rest)
      (date ++ ' ' :: time, rest)
    else
      (date, ' ' :: c :: rest)
  | taken => taken

/--
Take a value that is no array and no inline table off a text. It may be missing where the line ends,
if `missing` says so.
-/
def takeLeaf? (missing : Bool) : Reader Writing := fun cs =>
  match Quotation.take? cs with
  | some (q, cs) => some (.quoted q, cs)
  | none =>
    let (text, rest) := takeScalar cs
    if text.isEmpty && !missing then none else some (.scalar text, rest)

def takeItems? (value : Reader Writing) : Nat → Reader (List Writing)
  | 0, _ => none
  | count + 1, cs => do
    let cs ← skipBlank? false cs
    match cs with
    | ']' :: cs => some ([], cs)
    | cs =>
      let (v, cs) ← value cs
      let cs ← skipBlank? false cs
      match cs with
      | ',' :: cs =>
        let (vs, cs) ← takeItems? value count cs
        some (v :: vs, cs)
      | ']' :: cs => some ([v], cs)
      | _ => none

/--
Take at most `count` assignments of an inline table off a text, with the closing brace. A comma may
follow the last assignment, and an assignment may go over several lines, except for its key.
-/
def takeEntries? (value : Reader Writing) : Nat → Reader (List (List Part × Writing))
  | 0, _ => none
  | count + 1, cs => do
    let cs ← skipBlank? false cs
    match cs with
    | '}' :: cs => some ([], cs)
    | cs =>
      let (key, cs) := takeWholeKey cs
      let cs ← (skipBlank? false cs).bind (after? '=')
      let (v, cs) ← (skipBlank? false cs).bind value
      let cs ← skipBlank? false cs
      match cs with
      | ',' :: cs =>
        let (entries, cs) ← takeEntries? value count cs
        some ((key, v) :: entries, cs)
      | '}' :: cs => some ([(key, v)], cs)
      | _ => none

/--
Take a value off a text, in which arrays and inline tables are nested at most `nesting` deep. It may
be missing where the line ends, if `missing` says so.
-/
def takeValue? (missing : Bool) : Nat → Reader Writing
  | 0, cs => takeLeaf? missing cs
  | nesting + 1, cs =>
    match cs with
    | '[' :: cs =>
      (takeItems? (takeValue? false nesting) (cs.length + 1) cs).map fun (items, cs) =>
        (.array items, cs)
    | '{' :: cs =>
      (takeEntries? (takeValue? false nesting) (cs.length + 1) cs).map fun (entries, cs) =>
        (.table entries, cs)
    | cs => takeLeaf? missing cs

def takeStatement? : Reader Statement := fun cs =>
  match cs with
  | '[' :: '[' :: cs => do
    let (key, cs) := takeWholeKey (skipSpace cs)
    let cs ← (after? ']' cs).bind (after? ']')
    some (.item key, ← skipLine? false cs)
  | '[' :: cs => do
    let (key, cs) := takeWholeKey (skipSpace cs)
    let cs ← after? ']' cs
    some (.table key, ← skipLine? false cs)
  | cs => do
    let (key, cs) := takeWholeKey cs
    let cs ← after? '=' cs
    let (value, cs) ← takeValue? true maxNesting (skipSpace cs)
    some (.assignment key value, ← skipLine? false cs)

def takeStatements? : Nat → List Char → Option (List Statement)
  | 0, _ => none
  | count + 1, cs => do
    let cs ← skipBlank? false cs
    match cs with
    | [] => some []
    | cs =>
      let (statement, cs) ← takeStatement? cs
      let statements ← takeStatements? count cs
      some (statement :: statements)

def dropMark : List Char → List Char
  | '\uFEFF' :: cs => cs
  | cs => cs

def outline? (text : String) : Option (List Statement) :=
  let cs := dropMark text.toList
  takeStatements? (cs.length + 1) cs

end Toml
end Overlay
