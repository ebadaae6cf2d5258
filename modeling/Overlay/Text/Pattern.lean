import Overlay.Text.Alphanumeric
import Overlay.Text.Basic

/-!
This module contains the patterns that texts can be matched with, which are regular expressions:
groups, alternatives, repetitions, bracketed classes, escapes and flags. Only whether a pattern is
well formed is decided here. A pattern has no counted repetitions, no references to groups, and no
conditions on what lies around a match but the ends of the text and, where only ASCII counts, of
words. Its parts are nested at most `maxDepth` deep.
-/

namespace Overlay
namespace Text
namespace Pattern

inductive Item where
  | character (c : Char)
  | category
  | place
deriving DecidableEq, Repr

/--
How a part of a pattern is to be read: in a spaced part blanks and comments do not count, and in a
wide part characters beyond ASCII can be matched as well as ASCII.
-/
structure Mode where
  spaced : Bool
  wide : Bool
deriving DecidableEq, Repr

/--
A pattern without the blanks and comments it begins with. A comment goes from a number sign to the
end of the line, and the flag says that the pattern begins inside of one.
-/
def skipComments (inComment : Bool) : List Char → List Char
  | [] => []
  | c :: cs =>
    if inComment then skipComments (c ≠ '\n') cs
    else if isBlank c then skipComments false cs
    else if c = '#' then skipComments true cs
    else c :: cs

def Mode.skip (m : Mode) (cs : List Char) : List Char :=
  if m.spaced then skipComments false cs else cs

def takeCode? (m : Mode) : Nat → Nat → List Char → Option (Char × List Char)
  | 0, value, cs => (ofCode? value).map fun c => (c, cs)
  | count + 1, value, c :: cs => do
    let d ← hexDigit? c
    takeCode? m count (16 * value + d) (m.skip cs)
  | _ + 1, _, [] => none

def escape? (c : Char) : Option Char :=
  match c with
  | 'a' => some '\x07'
  | 't' => some '\t'
  | 'n' => some '\n'
  | 'v' => some '\x0b'
  | 'f' => some '\x0c'
  | 'r' => some '\r'
  | _ => none

def isEscapable (c : Char) : Bool :=
  c.toNat < 128 && !c.isAlphanum && c != '<' && c != '>'

/--
Take what follows a backslash off a pattern. The general categories have names of one letter. Where
only ASCII counts there are no categories and no complements, and a code of two digits must be
that of an ASCII character.
-/
def takeEscape? (m : Mode) : List Char → Option (Item × List Char)
  | [] => none
  | c :: cs =>
    match codeLength? c, escape? c with
    | some count, _ => do
      let (d, cs) ← takeCode? m count 0 (m.skip cs)
      if m.wide || count ≠ 2 || d.toNat < 128 then some (.character d, cs) else none
    | none, some d => some (.character d, cs)
    | none, none =>
      if c = 'p' || c = 'P' then
        match m.skip cs with
        | [] => none
        | name :: cs =>
          if m.wide && "CLMNPSZ".toList.contains name.toUpper then some (.category, cs) else none
      else if "dsw".toList.contains c || (m.wide && "DSW".toList.contains c) then
        some (.category, cs)
      else if "Az".toList.contains c || (!m.wide && "bB<>".toList.contains c) then
        some (.place, cs)
      else if isEscapable c then
        some (.character c, cs)
      else
        none

/--
Take an item of a bracketed class off a pattern. Places belong to no class, and where only ASCII
counts characters beyond it do not either.
-/
def takeItem? (m : Mode) (cs : List Char) : Option (Item × List Char) := do
  let (item, cs) ← match cs with
    | [] => none
    | '\\' :: cs => takeEscape? m cs
    | c :: cs => some (.character c, cs)
  match item with
  | .place => none
  | .category => some (item, cs)
  | .character c => if m.wide || c.toNat < 128 then some (item, cs) else none

/--
Take an item of a bracketed class or a range of characters off a pattern. A hyphen in front of the
closing bracket or of another hyphen makes no range.
-/
def takeRange? (m : Mode) (cs : List Char) : Option (List Char) := do
  let (first, cs) ← takeItem? m cs
  match m.skip cs with
  | '-' :: rest =>
    match m.skip rest with
    | ']' :: _ => some ('-' :: rest)
    | '-' :: _ => some ('-' :: rest)
    | last =>
      match first, ← takeItem? m last with
      | .character a, (.character b, cs) => if a ≤ b then some cs else none
      | _, _ => none
  | cs => some cs

def asciiClasses : List String :=
  ["alnum", "alpha", "ascii", "blank", "cntrl", "digit", "graph", "lower", "print", "punct",
    "space", "upper", "word", "xdigit"]

/--
Take the rest of a named class such as `[:alpha:]` off a pattern, after its bracket. The flag says
that the class is the complement of what it names.
-/
def takeNamedClass? : List Char → Option (Bool × List Char)
  | ':' :: cs =>
    let complement := cs.head? = some '^'
    let cs := if complement then cs.tail else cs
    let name := cs.takeWhile (· ≠ ':')
    match cs.drop name.length with
    | ':' :: ']' :: rest =>
      if asciiClasses.contains (String.ofList name) then some (complement, rest) else none
    | _ => none
  | _ => none

def maxDepth : Nat := 250

/--
How deep parts of given depths are nested when they stand side by side. One part is not nested in
anything, and no part counts as a character does.
-/
def depthOfRow : List Nat → Nat
  | [] => 0
  | [d] => d
  | ds => ds.foldl max 0 + 1

/--
A bracketed class being read: the depth of what stands before its last operator, if it has one, the
depths of the items after it, and whether there has been nothing but hyphens.
-/
structure Bracket where
  left : Option Nat
  items : List Nat
  fresh : Bool
deriving DecidableEq, Repr

/--
How deep the inside of a bracketed class is nested. Operators are nested to the left.
-/
def Bracket.depth (b : Bracket) : Nat :=
  match b.left with
  | none => depthOfRow b.items
  | some d => max d (depthOfRow b.items) + 1

def Bracket.operate (b : Bracket) : Bracket :=
  ⟨some b.depth, [], false⟩

def Bracket.add (d : Nat) (b : Bracket) : Bracket :=
  { b with items := d :: b.items, fresh := false }

def Bracket.addHyphen (b : Bracket) : Bracket :=
  { b with items := 0 :: b.items }

/--
Enter a bracketed class after its bracket. A closing bracket belongs to a class that it begins.
-/
def enterClass? (m : Mode) (cs : List Char) : Option (Bracket × List Char) :=
  match m.skip cs with
  | '^' :: cs => if m.wide then some (afterFirst (m.skip cs)) else none
  | cs => some (afterFirst cs)
where
  /--
  The class after a closing bracket at the beginning, and what follows.
  -/
  afterFirst : List Char → Bracket × List Char
    | ']' :: cs => (⟨none, [0], false⟩, cs)
    | cs => (⟨none, [], true⟩, cs)

/--
Take at most `count` parts of bracketed classes off a pattern, until the outermost class is closed,
which says how deep it is nested. The class `b` is inside of the classes `around`. Hyphens that a
class begins with stand for themselves, and elsewhere two hyphens are an operator.
-/
def takeClass? (m : Mode) : Nat → List Bracket → Bracket → List Char → Option (Nat × List Char)
  | 0, _, _, _ => none
  | count + 1, around, b, cs =>
    match m.skip cs with
    | [] => none
    | '[' :: cs =>
      match takeNamedClass? cs with
      | some (complement, cs) =>
        if complement && !m.wide then none else takeClass? m count around (b.add 0) cs
      | none => do
        let (inner, cs) ← enterClass? m cs
        takeClass? m count (b :: around) inner cs
    | ']' :: cs =>
      match around with
      | [] => some (b.depth + 1, cs)
      | outer :: around => takeClass? m count around (outer.add (b.depth + 1)) cs
    | '&' :: '&' :: cs => takeClass? m count around b.operate cs
    | '~' :: '~' :: cs => takeClass? m count around b.operate cs
    | '-' :: cs =>
      if b.fresh then
        takeClass? m count around b.addHyphen cs
      else
        match cs with
        | '-' :: cs => takeClass? m count around b.operate cs
        | cs => (takeRange? m ('-' :: cs)).bind (takeClass? m count around (b.add 0))
    | cs => (takeRange? m cs).bind (takeClass? m count around (b.add 0))

/--
A group being read, or the whole pattern: how to read on in it, the depths of its alternatives but
the last one and of the items of that, from the latest to the first, and whether the latest item can
be repeated.
-/
structure Group where
  mode : Mode
  branches : List Nat
  items : List Nat
  operand : Bool
deriving DecidableEq, Repr

def Group.ofMode (m : Mode) : Group :=
  ⟨m, [], [], false⟩

def Group.depth (g : Group) : Nat :=
  depthOfRow (depthOfRow g.items :: g.branches)

def Group.add (d : Nat) (g : Group) : Group :=
  { g with items := d :: g.items, operand := true }

def Group.change (m : Mode) (g : Group) : Group :=
  { g with mode := m, items := 0 :: g.items, operand := false }

def Group.repeat? (g : Group) : Option Group :=
  match g.items with
  | d :: items => if g.operand then some { g with items := (d + 1) :: items } else none
  | [] => none

def Group.alternate (g : Group) : Group :=
  { g with branches := depthOfRow g.items :: g.branches, items := [], operand := false }

/--
How far a pattern has been read: the innermost open group, the groups around it, from the inside
out, and the names of the groups.
-/
structure Progress where
  group : Group
  around : List Group
  names : List (List Char)

def Progress.enter (p : Progress) (m : Mode) : Progress :=
  { p with group := .ofMode m, around := p.group :: p.around }

def Progress.add (p : Progress) (d : Nat) : Progress :=
  { p with group := p.group.add d }

def isNamePart (c : Char) : Bool :=
  isAlphanumeric c || "_.[]".toList.contains c

def takeName? (taken : List (List Char)) (cs : List Char) : Option (List Char × List Char) :=
  let name := cs.takeWhile (· ≠ '>')
  match name, cs.drop name.length with
  | first :: more, _ :: cs =>
    if (first = '_' || isLetter first) && more.all isNamePart && !taken.contains name then
      some (name, cs)
    else
      none
  | _, _ => none

/--
Take flags off a pattern, up to what ends them. Each flag comes once, and those after a hyphen are
off.
-/
def takeFlags? (cs : List Char) : Option (List Char × List Char) :=
  let flags := cs.takeWhile fun c => c ≠ ':' && c ≠ ')'
  if flags.all ("imsRUux-".toList.contains ·) && flags.eraseDups.length = flags.length
      && flags.getLast? ≠ some '-' then
    some (flags, cs.drop flags.length)
  else
    none

def setting? (flag : Char) (flags : List Char) : Option Bool :=
  if flags.contains flag then some ((flags.takeWhile (· ≠ '-')).contains flag) else none

def Mode.change (m : Mode) (flags : List Char) : Mode :=
  ⟨(setting? 'x' flags).getD m.spaced, (setting? 'u' flags).getD m.wide⟩

/--
Take the opening of a group off a pattern, after its bracket. Flags that are closed at once hold for
the rest of the pattern or group that they stand in.
-/
def Progress.open? (p : Progress) (cs : List Char) : Option (Progress × List Char) :=
  match p.group.mode.skip cs with
  | '?' :: 'P' :: '<' :: cs => named cs
  | '?' :: '<' :: cs => named cs
  | '?' :: cs => do
    let (flags, cs) ← takeFlags? cs
    let m := p.group.mode.change flags
    match cs with
    | [] => none
    | ':' :: cs => some (p.enter m, cs)
    | _ :: cs => if flags.isEmpty then none else some ({ p with group := p.group.change m }, cs)
  | cs => some (p.enter p.group.mode, cs)
where
  /--
  A group with a name.
  -/
  named (cs : List Char) : Option (Progress × List Char) :=
    (takeName? p.names cs).map fun (name, cs) =>
      ({ p.enter p.group.mode with names := name :: p.names }, cs)

/--
Take the next part off a pattern. A repetition may ask for as few as possible.
-/
def Progress.step? (p : Progress) : List Char → Option (Progress × List Char)
  | [] => none
  | '(' :: cs => p.open? cs
  | ')' :: cs =>
    match p.around with
    | [] => none
    | g :: around => some (⟨g.add (p.group.depth + 1), around, p.names⟩, cs)
  | '|' :: cs => some ({ p with group := p.group.alternate }, cs)
  | '[' :: cs => do
    let (b, cs) ← enterClass? p.group.mode cs
    let (d, cs) ← takeClass? p.group.mode (cs.length + 1) [] b cs
    some (p.add d, cs)
  | '\\' :: cs => (takeEscape? p.group.mode cs).map fun (_, cs) => (p.add 0, cs)
  | '{' :: _ => none
  | '.' :: cs => if p.group.mode.wide then some (p.add 0, cs) else none
  | c :: cs =>
    if c = '*' || c = '+' || c = '?' then do
      let g ← p.group.repeat?
      some ({ p with group := g }, if cs.head? = some '?' then cs.tail else cs)
    else
      some (p.add 0, cs)

def Progress.finishes : Nat → Progress → List Char → Bool
  | 0, _, _ => false
  | count + 1, p, cs =>
    match p.group.mode.skip cs with
    | [] => p.around.isEmpty && p.group.depth ≤ maxDepth
    | cs =>
      match p.step? cs with
      | none => false
      | some (p, cs) => finishes count p cs

def isWellFormed (cs : List Char) : Bool :=
  Progress.finishes (cs.length + 1) ⟨.ofMode ⟨false, true⟩, [], []⟩ cs

end Pattern
end Text
end Overlay
