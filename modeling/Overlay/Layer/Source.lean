import Overlay.Error
import Overlay.Layer.Basic
import Overlay.Text.Basic
import Overlay.Text.Utf8
import Overlay.Toml.Document
import Overlay.World

/-!
This module contains the layers that are read from the machine: those of files, which are written as
TOML documents, and that of the environment. A variable sets a property if its name begins with
`KEEL_`: the rest of the name, in small letters and with dots for underscores, is that of the
property below `keel`.
-/

namespace Overlay
namespace Layer

def ofText (name : String) (origin : Origin) (text : String) : Except ConfigError Layer :=
  match Toml.read text with
  | .error .malformed => .error (.malformedSource name)
  | .error .keyTooDeep => .error (.keyTooDeep name)
  | .ok entries => .ok ⟨name, origin, none, Toml.flatten entries⟩

def ofFile (w : World) (path : String) (origin : Origin) : Except ConfigError Layer :=
  match w.look path with
  | .absent => .error (.unreadableSource path "No such file or directory (os error 2)")
  | .belowFile => .error (.unreadableSource path "Not a directory (os error 20)")
  | .tooLong => .error (.unreadableSource path "File name too long (os error 36)")
  | .notPath => .error (.unreadableSource path "file name contained an unexpected NUL byte")
  | .directory => .error (.unreadableSource path "Is a directory (os error 21)")
  | .file contents =>
    match Text.Utf8.decode? contents with
    | none => .error (.unreadableSource path "stream did not contain valid UTF-8")
    | some text => do
      let l ← ofText path origin (String.ofList text)
      return { l with path := some path }

end Layer

namespace Environment

def marker : String := "KEEL_"

def toDotted (cs : List Char) : List Char :=
  (Text.lower cs).map fun c => if c = '_' then '.' else c

def rest? : List Char → List Char → Option (List Char)
  | [], cs => some cs
  | _ :: _, [] => none
  | m :: ms, c :: cs => if m = c then rest? ms cs else none

def property? (variableName : String) : Option String :=
  match rest? marker.toList variableName.toList with
  | none => none
  | some [] => none
  | some rest => some ("keel." ++ String.ofList (toDotted rest))

def layer (environment : List (String × String)) : Layer :=
  (Layer.new "environment" .process).insertAll <|
    environment.filterMap fun (name, value) => (property? name).map fun key => (key, value)

end Environment
end Overlay
