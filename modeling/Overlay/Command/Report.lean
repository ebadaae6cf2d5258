import Overlay.Command.Listing
import Overlay.Command.Switch
import Overlay.Configuration.Basic
import Overlay.Number.Shortest

/-!
This module contains the commands that look into a configuration: what they print and log, and how
they end.
-/

namespace Overlay
namespace Command

structure Report where
  printed : String
  events : List Log.Event
  failure : Option ConfigError
deriving DecidableEq, Repr

namespace Report

def ofLogged (x : Logged String) : Report :=
  match x.result with
  | .ok text => ⟨text ++ "\n", x.events, none⟩
  | .error e => ⟨"", x.events, some e⟩

def reading (p : Properties) (key : String) (form : Form) (delimiter : String) : Logged String :=
  match form with
  | .text => p.value key
  | .int => do return Number.printInteger (← p.int key)
  | .long => do return Number.printInteger (← p.long key)
  | .double => do return Number.binary64.print (← p.double key)
  | .float => do return Number.binary32.print (← p.float key)
  | .boolean => do return if ← p.boolean key then "true" else "false"
  | .bytes => do return Number.printInteger (← p.bytes key)
  | .list => do return String.intercalate "\n" (← p.list key delimiter)

def get (conf : Configuration) (key : String) (form : Form) (delimiter : String) : Report :=
  ofLogged (reading conf.properties key form delimiter)

def list (conf : Configuration) (json raw : Bool) (start : String) : Report :=
  let entries := Entry.all conf.properties raw start
  ⟨if json then object entries else table entries, entries.flatMap Entry.events, none⟩

def layerLine (l : LayerSummary) : String :=
  let path := match l.path with
    | none => ""
    | some path => ", " ++ path
  "  " ++ padded 9 l.origin.name ++ " " ++ l.name ++ " (" ++ l.keys.repr ++ " keys" ++ path ++ ")\n"

def unresolvedLines (conf : Configuration) (unresolved : List Entry) : String :=
  "\n" ++ String.join (unresolved.map fun e =>
      "  ⚠️  " ++ e.key ++ ": value still contains unresolved placeholders\n")
    ++ "  ✅ " ++ conf.properties.size.repr ++ " properties, " ++ conf.layers.length.repr
    ++ " layers, validation passed, ⚠️  " ++ unresolved.length.repr ++ " unresolved\n"

def check (conf : Configuration) : Report :=
  let layers := "🩺 Keel Check — Configuration Audit\n\n" ++ String.join (conf.layers.map layerLine)
  let entries := Entry.all conf.properties false ""
  match conf.validate.result with
  | .error e => ⟨layers, conf.validate.events, some e⟩
  | .ok () =>
    ⟨layers ++ unresolvedLines conf (entries.filter Entry.isUnresolved),
      conf.validate.events ++ entries.flatMap Entry.events, none⟩

end Report
end Command
end Overlay
