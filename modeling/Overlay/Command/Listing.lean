import Overlay.Layer.Basic
import Overlay.Reading
import Overlay.Text.Quoted

/-!
This module contains the listing of properties: which of them are listed, what is shown as their
values, and the two ways to print them.
-/

namespace Overlay
namespace Command

structure Entry where
  key : String
  shown : String
  events : List Log.Event
deriving DecidableEq, Repr

namespace Entry

def textOf : Except ConfigError String → String
  | .ok text => text
  | .error e => "<" ++ e.message ++ ">"

def ofRaw (key value : String) : Entry :=
  ⟨key, value, []⟩

def ofExpanded (p : Properties) (key : String) : Entry :=
  ⟨key, textOf (p.value key).result, (p.value key).events⟩

def all (p : Properties) (raw : Bool) (start : String) : List Entry :=
  (p.toList.filter fun (key, _) => start.toList.isPrefixOf key.toList).map fun (key, value) =>
    if raw then ofRaw key value else ofExpanded p key

def isUnresolved (e : Entry) : Bool :=
  1 < (Text.split ['$', '{'] e.shown.toList).length || e.shown.toList.head? = some '<'

end Entry

def padded (width : Nat) (s : String) : String :=
  s ++ String.ofList (List.replicate (width - s.length) ' ')

/--
The listing as a table. The column of the keys has as many characters as the longest of them has
octets.
-/
def table (entries : List Entry) : String :=
  let width := (entries.map fun e => e.key.utf8ByteSize).foldl max 0
  String.join <| entries.map fun e => padded width e.key ++ " = " ++ e.shown ++ "\n"

def object (entries : List Entry) : String :=
  let fields := entries.map fun e =>
    "  " ++ Text.quote Text.jsonEscape e.key ++ ": " ++ Text.quote Text.jsonEscape e.shown
  if fields.isEmpty then "\x7b\x7d\n" else "\x7b\n" ++ String.intercalate ",\n" fields ++ "\n\x7d\n"

end Command
end Overlay
