import Overlay.ByteSize
import Overlay.Expansion
import Overlay.Log.Event
import Overlay.Text.Split
import Overlay.Variants

/-!
This module contains the reading of properties: as text, with all placeholders expanded, and as
values of the kinds that configuration is made of. A reader that finds a text of the wrong form logs
a warning.
-/

namespace Overlay
namespace Properties

def raw (p : Properties) (key : String) : Except ConfigError String :=
  match p.get? key with
  | none => .error (.keyNotFound key)
  | some text => .ok text

def value (p : Properties) (key : String) : Logged String :=
  match p.raw key with
  | .error e => .fail e
  | .ok text =>
    let (result, pass) := Expansion.resolveProperty p.get? key text
    ⟨List.replicate pass.replaced .tokenReplaced, result⟩

def mismatch {α : Type} (key : String) (kind : ValueKind) : Logged α := do
  Logged.log .valueMismatched
  Logged.fail (.typeMismatch key kind)

def parsed {α : Type} (p : Properties) (key : String) (kind : ValueKind)
    (read : String → Option α) : Logged α := do
  let text ← p.value key
  match read text with
  | some a => pure a
  | none => mismatch key kind

def int (p : Properties) (key : String) : Logged Int :=
  p.parsed key .integer fun text => Number.boundedInteger? 32 text.toList

def long (p : Properties) (key : String) : Logged Int :=
  p.parsed key .long fun text => Number.boundedInteger? 64 text.toList

def double (p : Properties) (key : String) : Logged Number.Binary :=
  p.parsed key .double fun text => Number.real? Number.binary64 (Text.trim text.toList)

def float (p : Properties) (key : String) : Logged Number.Binary :=
  p.parsed key .float fun text => Number.real? Number.binary32 (Text.trim text.toList)

def truth? (text : String) : Option Bool :=
  if Text.sameIgnoringCase text "true" then some true
  else if Text.sameIgnoringCase text "false" then some false
  else none

def boolean (p : Properties) (key : String) : Logged Bool :=
  p.parsed key .boolean truth?

/--
The value of a key as a number of bytes. A text that is no byte size is logged with its fault first.
-/
def bytes (p : Properties) (key : String) : Logged Int := do
  let text ← p.value key
  match ByteSize.parse text with
  | .ok n => pure n
  | .error _ => do
    Logged.log .sizeMalformed
    mismatch key .bytes

/--
The items of a list in a text: what stands between delimiters, without blanks at the ends, if
anything is left.
-/
def items (delimiter text : String) : List String :=
  (((Text.split delimiter.toList text.toList).map Text.trim).filter fun cs => !cs.isEmpty).map
    String.ofList

def list (p : Properties) (key delimiter : String) : Logged (List String) :=
  if delimiter.isEmpty then
    Logged.fail .emptyDelimiter
  else do
    let text ← p.value key
    pure (items delimiter text)

def variant {α : Type} [Variants α] (p : Properties) (key : String) : Logged α := do
  let text ← p.value key
  match Variants.ofName? text with
  | some variant => pure variant
  | none => Logged.fail (.unknownVariant key text)

def implementation {α : Type} (p : Properties) (key : String) (registry : Registry α) :
    Logged α := do
  let text ← p.value key
  match Registry.load registry text with
  | .ok found => pure found
  | .error e => do
    Logged.log .implementationMissing
    Logged.fail e

end Properties
end Overlay
