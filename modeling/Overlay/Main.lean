import Overlay.Command.Grammar
import Overlay.Command.Run

/-!
This module contains the program: it reads what it needs of the machine, runs the command line on
that, and writes what the reply says.
-/

namespace Overlay

def contents? (path : String) : IO (Option (List UInt8)) := do
  match ← (IO.FS.readBinFile path).toBaseIO with
  | .ok contents => return some contents.toList
  | .error _ => return none

def observe (path : String) : IO FileState := do
  return ((← contents? path).map FileState.file).getD .absent

def environmentOf (octets : List UInt8) : List (String × String) :=
  let entries := Text.split [Char.ofNat 0] (Text.Utf8.decodeLossy octets)
  (entries.filter fun cs => !cs.isEmpty).map fun cs => Command.definition (String.ofList cs)

/--
The machine, as far as it can be told before any path is looked at. The user's account is not asked
for.
-/
def machine : IO World := do
  let hostName ← contents? "/proc/sys/kernel/hostname"
  let environment ← contents? "/proc/self/environ"
  let name := hostName.map fun octets => octets.takeWhile (· != 10)
  return ⟨name, environmentOf (environment.getD []), none, fun _ => .absent⟩

def World.withPaths (w : World) (paths : List (String × FileState)) : World :=
  let find path := (paths.find? fun entry => entry.1 = path).map Prod.snd
  { w with look := fun path => (find path).getD .absent }

def Command.paths (w : World) (words : List String) : List String :=
  match Invocation.ofWords words with
  | .error _ => []
  | .ok invocation => invocation.settings.loadOptions.sitePaths w

end Overlay

open Overlay in
def main (words : List String) : IO UInt32 := do
  let w ← machine
  let states ← (Command.paths w words).mapM fun path => return (path, ← observe path)
  let reply := Command.run (w.withPaths states) words
  for event in reply.shown do
    IO.eprintln (event.line reply.format)
  IO.print reply.printed
  if !reply.printed.isEmpty && reply.printed.toList.getLast? != some '\n' then
    IO.println ""
  match reply.ending with
  | .success => pure ()
  | .help => IO.print Command.summary
  | .failure e => IO.eprintln ("❌ Error: " ++ e.message)
  | .usage => IO.eprint Command.summary
  return UInt32.ofNat reply.ending.exitCode
