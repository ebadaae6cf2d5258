import Overlay.Text.Basic
import Overlay.Text.Utf8

/-!
This module contains what the program sees of the machine that it runs on, and the name of the local
host. The system's name comes first, then two environment variables. A blank name is no name, and
blanks around a name do not belong to it.
-/

namespace Overlay

/--
What a path leads to: nothing, because there is no such file, because the path goes on below a file,
because one of its names is too long or because it is not a path at all; or a directory, or a file
with its contents.
-/
inductive FileState where
  | absent
  | belowFile
  | tooLong
  | notPath
  | directory
  | file (contents : List UInt8)
deriving DecidableEq, Repr

/--
The machine: the octets of its host name, if the system tells them, the environment variables in
order, the home directory of the user's account, if there is one, and what paths lead to.
-/
structure World where
  hostName : Option (List UInt8)
  environment : List (String × String)
  accountHome : Option String
  look : String → FileState

def World.env? (w : World) (name : String) : Option String :=
  (w.environment.find? (fun entry => entry.1 = name)).map Prod.snd

namespace Host

def maxOctets : Nat := 256

def fallback : String := "localhost"

def ofOctets (octets : List UInt8) : List Char :=
  Text.Utf8.decodeLossy ((octets.take maxOctets).takeWhile (· != 0))

def name (w : World) : String :=
  let found := (w.hostName.map ofOctets)
    <|> (w.env? "HOSTNAME").map String.toList
    <|> (w.env? "COMPUTERNAME").map String.toList
  let trimmed := Text.trim (found.getD [])
  if trimmed.isEmpty then fallback else String.ofList trimmed

end Host
end Overlay
