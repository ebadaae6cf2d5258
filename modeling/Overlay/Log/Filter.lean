import Overlay.Log.Event
import Overlay.Number.Numeral
import Overlay.Text.Basic
import Overlay.Text.Pattern
import Overlay.Text.Split
import Overlay.Text.Utf8

/-!
This module contains log filters. A filter is a list of directives, separated by commas in its text.
A directive bounds the level of the events whose target starts with a given text, or that have a
given field, or of all events. Of several directives about an event the one with the longest target
decides.
-/

namespace Overlay
namespace Log

abbrev Bound := Option Level

def Bound.admits (b : Bound) (level : Level) : Bool :=
  match b with
  | none => false
  | some bound => level.verbosity ≤ bound.verbosity

def Bound.listed : List (String × Bound) :=
  [("off", none), ("error", some .error), ("warn", some .warn), ("info", some .info),
    ("debug", some .debug), ("trace", some .trace)]

/--
The bound of a word: its name in any letter case, or its place in the list.
-/
def Bound.ofText? (cs : List Char) : Option Bound :=
  match Bound.listed.find? (fun entry => Text.lower cs = entry.1.toList) with
  | some (_, bound) => some bound
  | none =>
    if cs.head? = some '-' then
      none
    else
      (Number.integer? cs).bind fun n => (Bound.listed[n.toNat]?).map Prod.snd

/--
The events that a directive is about: their target starts with a text, which may be empty, and they
have a field, if one is given.
-/
structure Scope where
  target : String
  field : Option String
deriving DecidableEq, Repr

namespace Scope

def all : Scope := ⟨"", none⟩

def covers (s : Scope) (e : Event) : Bool :=
  s.target.toList.isPrefixOf e.area.target.toList && s.field.all fun name => e.fields.contains name

/--
Is a scope at least as narrow as another one that has events in common with it? A longer target is
narrower, then a field, and then the field whose name is greater.
-/
def isWithin (s t : Scope) : Bool :=
  if s.target.length = t.target.length then
    match s.field, t.field with
    | _, none => true
    | none, some _ => false
    | some a, some b => b ≤ a
  else
    t.target.length < s.target.length

end Scope

/--
A directive about events, or one about what happens inside of spans, of which this program has none.
-/
inductive Directive where
  | events (scope : Scope) (bound : Bound)
  | spans
deriving DecidableEq, Repr

namespace Directive

def canStart (c : Char) : Bool :=
  Text.isAlphanumeric c || c = '-' || c = ':' || c = '_'

def isValue (cs : List Char) : Bool :=
  (Number.real? Number.binary64 cs).isSome || Text.Pattern.isWellFormed cs

/--
The directive with a target, the text of a field and a bound. A field with a value is one of a span,
and whatever follows the value after an equals sign does not count.
-/
def ofField? (target : String) (field : List Char) (bound : Bound) : Option Directive :=
  match Text.split ['='] field with
  | _ :: value :: _ => if isValue value then some .spans else none
  | _ => some (.events ⟨target, some (String.ofList field)⟩ bound)

def size (cs : List Char) : Nat :=
  (String.ofList cs).utf8ByteSize

def cut (whole : List Char) (start stop : Nat) : List Char :=
  Text.Utf8.decodeLossy (((String.ofList whole).toUTF8.toList.take stop).drop start)

/--
The bound after an equals sign, which goes from a place of the whole text to its end. Nothing shows
everything.
-/
def boundFrom? (whole : List Char) (place : Nat) : Option Bound :=
  let text := cut whole place (size whole)
  if text.isEmpty then some (some .trace) else Bound.ofText? text

/--
The bound after a closed bracket, of which `rest` is what follows the bracket, at `place` of the
whole text. There may be no bound, which shows everything.
-/
def ofEnd? (whole : List Char) (place : Nat) (rest : List Char) : Option Bound :=
  match rest with
  | [] => some (some .trace)
  | '=' :: _ => boundFrom? whole (place + 1)
  | _ => none

/--
The directive with a target and brackets, of which `inner` is what follows the opening one, at
`place` of the whole text. In the brackets stand the name of a span, if there is one, and a field in
braces, if there is one.
-/
def ofBrackets? (whole : List Char) (target : String) (place : Nat) (inner : List Char) :
    Option Directive :=
  let span := inner.takeWhile fun c => c ≠ ']' && c ≠ '{'
  let start := place + size span + 1
  match inner.drop span.length with
  | ']' :: rest => (ofEnd? whole start rest).map fun _ => .spans
  | '{' :: rest =>
    let field := rest.takeWhile (· ≠ '}')
    let stop := start + size field
    match rest.drop field.length with
    | '}' :: ']' :: rest =>
      if field.isEmpty then
        none
      else do
        let bound ← ofEnd? whole (stop + 2) rest
        let directive ← ofField? target (cut whole start stop) bound
        if span.isEmpty then some directive else some .spans
    | _ => none
  | _ => none

/--
The directive that a text writes: a bound, a target, or a target and a bound after an equals sign.
After the target there may be brackets. A target without a bound shows everything. The places of the
parts are those in the text without the blanks at its ends, but the parts are cut out of the text
with its blanks.
-/
def ofText? (cs : List Char) : Option Directive :=
  let bare := Text.trim cs
  let head := bare.takeWhile fun c => c ≠ '=' && c ≠ '['
  if bare.head?.all fun c => c ≠ '[' && !canStart c then
    none
  else
    let place := size head
    let target := String.ofList (cut cs 0 place)
    match bare.drop head.length with
    | [] =>
      match Bound.ofText? cs with
      | some bound => some (.events .all bound)
      | none => some (.events ⟨String.ofList cs, none⟩ (some .trace))
    | '=' :: _ => (boundFrom? cs (place + 1)).map (.events ⟨target, none⟩)
    | _ :: inner => ofBrackets? cs target (place + 1) inner

/--
The directives of a text, each of which may fail to be one. Nothing between two commas is no
directive.
-/
def readAll (s : String) : List (Option Directive) :=
  ((Text.split [','] s.toList).filter fun cs => !cs.isEmpty).map ofText?

end Directive

structure Filter where
  directives : List Directive
deriving DecidableEq, Repr

namespace Filter

def ofText? (s : String) : Option Filter :=
  ((Directive.readAll s).mapM id).map Filter.mk

/--
The filter of the well formed directives of a text. If there are none it shows errors.
-/
def ofWellFormed (s : String) : Filter :=
  match (Directive.readAll s).filterMap id with
  | [] => ⟨[.events .all (some .error)]⟩
  | directives => ⟨directives⟩

/--
Of the directives about an event the one that decides: the narrowest, and of equal ones the last.
-/
def decisive (e : Event) (best : Option (Scope × Bound)) : Directive → Option (Scope × Bound)
  | .spans => best
  | .events scope bound =>
    if scope.covers e && best.all (fun entry => scope.isWithin entry.1) then
      some (scope, bound)
    else
      best

def boundOf (f : Filter) (e : Event) : Bound :=
  (f.directives.foldl (decisive e) none).bind Prod.snd

def shows (f : Filter) (e : Event) : Bool :=
  (f.boundOf e).admits e.level

end Filter
end Log
end Overlay
