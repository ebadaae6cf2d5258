import Overlay.Number.Shortest
import Overlay.Property
import Overlay.Reading

/-!
This module contains rules that the properties of a configuration must obey.
-/

namespace Overlay

structure Rule where
  name : String
  check : Properties → Logged Unit

namespace Rule

def maxBufferBytes : Int := 2147483647

def userFileBufferBytes : Rule where
  name := "user-file-buffer-bytes"
  check p :=
    if p.contains Property.userFileBufferBytes then do
      let bytes ← p.bytes Property.userFileBufferBytes
      if 0 ≤ bytes && bytes ≤ maxBufferBytes then
        pure ()
      else
        Logged.fail <| .invalid Property.userFileBufferBytes <|
          "invalid value " ++ Number.printInteger bytes ++ ", must be between 0 and "
            ++ Number.printInteger maxBufferBytes
    else
      pure ()

def builtin : List Rule := [userFileBufferBytes]

def checkAll : List Rule → Properties → Logged Unit
  | [], _ => pure ()
  | rule :: rules, p =>
    match (rule.check p).result with
    | .error e => ⟨(rule.check p).events ++ [.ruleBroken], .error e⟩
    | .ok () => ⟨(rule.check p).events ++ (checkAll rules p).events, (checkAll rules p).result⟩

end Rule
end Overlay
