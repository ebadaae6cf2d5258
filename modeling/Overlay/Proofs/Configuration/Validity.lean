import Overlay.Proofs.Configuration.Layered
import Overlay.Proofs.Rule

/-!
This module contains which rules hold of a configuration made from layers. They are checked before
the ports of workers are released, so a rule about these ports can be broken afterwards.
-/

namespace Overlay

def Rule.Ignores (rule : Rule) (keys : List String) : Prop :=
  ∀ p q : Properties, (∀ key, key ∉ keys → p.get? key = q.get? key) →
    (rule.check p).result = (rule.check q).result

def Rule.distinct (first second : String) : Rule where
  name := "distinct"
  check p :=
    if p.contains first && p.contains second then do
      let value ← p.value first
      let value' ← p.value second
      if value = value' then
        Logged.fail (.invalid first ("same as " ++ second))
      else
        pure ()
    else
      pure ()

namespace Configuration

variable {rules : List Rule} {layers : List Layer} {conf : Configuration}

/--
Layers with two workers on a host, whose ports are given and differ.
-/
def released : List Layer :=
  [⟨"site", .site, none, .ofList
    [(Property.masterHostname, "master"), (Property.masterRpcPort, "19998"),
      (Property.workersPerHostMax, "2"), (Property.workerDataPort, "29999"),
      (Property.workerRpcPort, "29998")]⟩]

def portsDiffer : Rule :=
  .distinct Property.workerRpcPort Property.workerDataPort

theorem ofLayers_not_valid_after_release :
    ¬∀ rules layers conf, ofLayers rules layers = .ok conf → conf.validate.result = .ok () := by
  intro h
  have hbroken : (ofLayers [portsDiffer] released).toOption.map
      (fun conf => conf.validate.result.isOk) = some false := by
    decide +kernel
  cases hconf : ofLayers [portsDiffer] released with
  | error e =>
    rw [hconf] at hbroken
    contradiction
  | ok conf =>
    rw [hconf] at hbroken
    simp [Except.toOption, Except.isOk, Except.toBool, h _ _ conf hconf] at hbroken

/--
What is checked of a configuration made from layers: the rules held of the properties `p`, which
include the address of the master, made up of `scheme`, `host` and `port`. The configuration differs
from them in the ports of workers only, and only if `n` workers on a host are more than one.
-/
structure Checked (rules : List Rule) (layers : List Layer) (scheme host port : String)
    (p : Properties) (n : Int) (conf : Configuration) : Prop where
  merged : ∀ key, key ≠ Property.masterAddress → p.get? key = Layer.topmost layers key
  hostname : p.get? Property.masterHostname = some host
  rpcPort : p.get? Property.masterRpcPort = some port
  faultTolerant : (scheme = "keel-ft://" ∧ AsksForFaultTolerance (Layer.topmost layers))
    ∨ (scheme = "keel://" ∧ ¬AsksForFaultTolerance (Layer.topmost layers))
  derived : p.get? Property.masterAddress = some (scheme ++ host ++ ":" ++ port)
  address : conf.properties.get? Property.masterAddress = p.get? Property.masterAddress
  workers : (p.int Property.workersPerHostMax).result = .ok n
  held : ∀ rule ∈ rules, (rule.check p).result = .ok ()
  released : ∀ key, conf.properties.get? key
    = if 1 < n ∧ key ∈ Property.workerPorts then some "0" else p.get? key
  valid_of_le_one : n ≤ 1 → conf.properties = p ∧ conf.validate.result = .ok ()
  holds : ∀ rule ∈ rules, rule.Ignores Property.workerPorts →
    (rule.check conf.properties).result = .ok ()
  valid_iff : conf.validate.result = .ok ()
    ↔ ∀ rule ∈ rules, ¬rule.Ignores Property.workerPorts →
        (rule.check conf.properties).result = .ok ()

theorem ofLayers_checked (h : ofLayers rules layers = .ok conf) :
    ∃ scheme host port p n, Checked rules layers scheme host port p n conf := by
  obtain ⟨p, q, hp, hrules, hq, rfl⟩ := ofLayers_eq_ok_iff.1 h
  obtain ⟨host, port, b, hhost, hport, hb, hinsert⟩ := deriveMasterAddress_eq_ok_iff.1 hp
  obtain ⟨n, hn, hcases⟩ := releaseWorkerPorts_eq_ok_iff.1 hq
  have hget := get?_of_releaseWorkerPorts hn hq
  have hheld := Rule.result_checkAll_eq_ok_iff.1 hrules
  have hholds : ∀ rule ∈ rules, rule.Ignores Property.workerPorts →
      (rule.check q).result = .ok () := by
    intro rule hrule hignores
    rw [hignores q p, hheld rule hrule]
    intro key hkey
    rw [hget]
    simp [hkey]
  have hmerged : ∀ key, key ≠ Property.masterAddress → p.get? key = Layer.topmost layers key := by
    intro key hkey
    rw [hinsert, Dictionary.get?_insert_of_ne _ _ hkey, Layer.get?_merge]
  refine ⟨scheme b, host, port, p, n, ?_⟩
  constructor
  case merged => exact hmerged
  case hostname => rw [hmerged _ (by decide), ← Layer.get?_merge, hhost]
  case rpcPort => rw [hmerged _ (by decide), ← Layer.get?_merge, hport]
  case faultTolerant =>
    have hmerge : (Layer.merge layers).get? = Layer.topmost layers :=
      funext (Layer.get?_merge layers)
    rw [← hmerge]
    exact scheme_of_faultTolerant hb
  case derived =>
    rw [hinsert]
    apply Dictionary.get?_insert_self
  case address =>
    rw [hget, if_neg]
    rintro ⟨_, hmem⟩
    exact workerPorts_ne_masterAddress _ hmem rfl
  case workers => exact hn
  case held => exact hheld
  case released => exact hget
  case valid_of_le_one =>
    intro hle
    rcases hcases with ⟨_, rfl⟩ | ⟨hlt, _⟩
    . exact ⟨rfl, hrules⟩
    . omega
  case holds => exact hholds
  case valid_iff =>
    unfold validate
    rw [Rule.result_checkAll_eq_ok_iff]
    constructor
    . intro hall rule hrule _
      exact hall rule hrule
    . intro hall rule hrule
      by_cases hignores : rule.Ignores Property.workerPorts
      . exact hholds rule hrule hignores
      . exact hall rule hrule hignores

theorem ofLayers_checked_released :
    ∃ conf, ofLayers [portsDiffer] released = .ok conf
      ∧ ∃ scheme host port p n, Checked [portsDiffer] released scheme host port p n conf := by
  obtain ⟨conf, hconf⟩ : ∃ conf, ofLayers [portsDiffer] released = .ok conf := by
    apply exists_of_isOk
    decide +kernel
  exact ⟨conf, hconf, ofLayers_checked hconf⟩

end Configuration
end Overlay
