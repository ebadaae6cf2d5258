import Overlay.Configuration.Basic

/-!
This module contains the making of configurations from layers. Later layers override earlier ones.
Then the address of the master is derived, the rules are checked, and last the ports of workers are
released if there can be several workers on a host.
-/

namespace Overlay
namespace Configuration

def scheme (faultTolerant : Bool) : String :=
  if faultTolerant then "keel-ft://" else "keel://"

/--
Do properties ask for a fault tolerant master? They do if the value is `true` in any letter case,
and any other value counts as a no.
-/
def faultTolerant (p : Properties) : Except ConfigError Bool :=
  if p.contains Property.zookeeperEnabled then
    (p.value Property.zookeeperEnabled).result.map fun text => Text.sameIgnoringCase text "true"
  else
    .ok false

/--
Set the master's address to its host and port, whose placeholders are kept.
-/
def deriveMasterAddress (p : Properties) : Except ConfigError Properties := do
  let host ← p.raw Property.masterHostname
  let port ← p.raw Property.masterRpcPort
  let faultTolerant ← faultTolerant p
  return p.insert Property.masterAddress (scheme faultTolerant ++ host ++ ":" ++ port)

def isPinned (layers : List Layer) (key : String) : Bool :=
  layers.any fun l => decide (Origin.process ≤ l.origin) && l.contains key

/--
Release the ports of workers if there can be several workers on a host, that is, let each worker
find its own. Then the process must not have set any of them.
-/
def releaseWorkerPorts (layers : List Layer) (p : Properties) : Except ConfigError Properties := do
  let max ← (p.int Property.workersPerHostMax).result
  if max ≤ 1 then
    return p
  match Property.workerPorts.find? (isPinned layers) with
  | some key =>
    throw <| .invalid key <|
      "cannot be specified when allowing multiple workers per host with "
        ++ Property.workersPerHostMax ++ "=" ++ Number.printInteger max
  | none => return p.insertAll (Property.workerPorts.map fun key => (key, "0"))

def ofLayers (rules : List Rule) (layers : List Layer) : Except ConfigError Configuration := do
  let p ← deriveMasterAddress (Layer.merge layers)
  (Rule.checkAll rules p).result
  let p ← releaseWorkerPorts layers p
  return ⟨p, rules, layers.map Layer.summary⟩

end Configuration
end Overlay
