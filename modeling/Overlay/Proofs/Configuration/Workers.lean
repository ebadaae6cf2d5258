import Overlay.Proofs.Configuration.Layered
import Overlay.Proofs.Expansion.Concatenation

/-!
This module contains what becomes of the ports of workers when a configuration is made from layers.
One worker on a host keeps them. Several workers cannot share them, so they are released, unless the
process has set one of them.
-/

namespace Overlay
namespace Configuration

variable {rules : List Rule} {layers : List Layer} {p : Properties} {key : String} {n : Int}

/--
A layer of the process, or one that is made at run time, has a value for the key.
-/
def Pinned (layers : List Layer) (key : String) : Prop :=
  ∃ l ∈ layers, (l.origin = .process ∨ l.origin = .runtime) ∧ (l.properties.get? key).isSome

def FirstPinned (layers : List Layer) (key : String) : Prop :=
  ∃ before after, Property.workerPorts = before ++ key :: after
    ∧ (∀ earlier ∈ before, ¬Pinned layers earlier) ∧ Pinned layers key

def refusal (n : Int) : String :=
  "cannot be specified when allowing multiple workers per host with "
    ++ "keel.integration.yarn.workers.per.host.max" ++ "=" ++ Number.printInteger n

theorem process_le_iff (o : Origin) : Origin.process ≤ o ↔ o = .process ∨ o = .runtime := by
  cases o <;> decide

theorem isPinned_iff : isPinned layers key = true ↔ Pinned layers key := by
  simp [isPinned, Pinned, process_le_iff, Layer.contains, Dictionary.contains]

theorem find?_isPinned_eq_some_iff :
    Property.workerPorts.find? (isPinned layers) = some key ↔ FirstPinned layers key := by
  rw [List.find?_eq_some_iff_append]
  simp only [FirstPinned, Bool.not_eq_true', ← Bool.not_eq_true, isPinned_iff]
  constructor
  . rintro ⟨hpinned, before, after, hports, hbefore⟩
    exact ⟨before, after, hports, hbefore, hpinned⟩
  . rintro ⟨before, after, hports, hbefore, hpinned⟩
    exact ⟨hpinned, before, after, hports, hbefore⟩

theorem exists_firstPinned (h : ∃ key ∈ Property.workerPorts, Pinned layers key) :
    ∃ key, FirstPinned layers key := by
  cases hfind : Property.workerPorts.find? (isPinned layers) with
  | some key => exact ⟨key, find?_isPinned_eq_some_iff.1 hfind⟩
  | none =>
    obtain ⟨key, hkey, hpinned⟩ := h
    exact absurd (isPinned_iff.2 hpinned) (List.find?_eq_none.1 hfind key hkey)

theorem releaseWorkerPorts_of_error {e : ConfigError}
    (h : (p.int Property.workersPerHostMax).result = .error e) :
    releaseWorkerPorts layers p = .error e := by
  unfold releaseWorkerPorts
  rw [h]
  rfl

theorem releaseWorkerPorts_of_firstPinned
    (hn : (p.int Property.workersPerHostMax).result = .ok n) (hlt : 1 < n)
    (h : FirstPinned layers key) :
    releaseWorkerPorts layers p = .error (.invalid key (refusal n)) := by
  have hle : ¬n ≤ 1 := by omega
  unfold releaseWorkerPorts
  rw [hn, find?_isPinned_eq_some_iff.2 h]
  simp only [bind, Except.bind, if_neg hle]
  rfl

theorem ofLayers_of_checked (hp : deriveMasterAddress (Layer.merge layers) = .ok p)
    (hrules : (Rule.checkAll rules p).result = .ok ()) :
    ofLayers rules layers
      =
    (releaseWorkerPorts layers p).map fun q => ⟨q, rules, layers.map Layer.summary⟩ := by
  unfold ofLayers
  rw [hp]
  simp only [bind, Except.bind, hrules]
  cases releaseWorkerPorts layers p <;> rfl

theorem get?_workerPort_of_checked (hp : deriveMasterAddress (Layer.merge layers) = .ok p)
    (hkey : key ∈ Property.workerPorts) : p.get? key = Layer.topmost layers key := by
  obtain ⟨_, _, _, _, _, _, rfl⟩ := deriveMasterAddress_eq_ok_iff.1 hp
  rw [Dictionary.get?_insert_of_ne _ _ (workerPorts_ne_masterAddress key hkey), Layer.get?_merge]

/--
What follows from the number of workers on a host, as it is read from the properties `p` of layers
that have been put together and checked.
-/
structure Guarded (rules : List Rule) (layers : List Layer) (p : Properties) : Prop where
  unread : ∀ e, (p.int Property.workersPerHostMax).result = .error e →
    ofLayers rules layers = .error e
  kept : ∀ n, (p.int Property.workersPerHostMax).result = .ok n → n ≤ 1 →
    ∃ conf, ofLayers rules layers = .ok conf ∧ conf.properties = p
      ∧ ∀ key ∈ Property.workerPorts, conf.properties.get? key = Layer.topmost layers key
  refused : ∀ n, (p.int Property.workersPerHostMax).result = .ok n → 1 < n →
    (∃ key ∈ Property.workerPorts, Pinned layers key) →
    ∃ key, FirstPinned layers key ∧ ofLayers rules layers = .error (.invalid key (refusal n))
  released : ∀ n, (p.int Property.workersPerHostMax).result = .ok n → 1 < n →
    (∀ key ∈ Property.workerPorts, ¬Pinned layers key) →
    ∃ conf, ofLayers rules layers = .ok conf
      ∧ (∀ key ∈ Property.workerPorts, (conf.properties.value key).result = .ok "0")
      ∧ (∀ key, key ∉ Property.workerPorts → conf.properties.get? key = p.get? key)
  free : ∀ n conf, (p.int Property.workersPerHostMax).result = .ok n → 1 < n →
    ofLayers rules layers = .ok conf →
    ∀ key ∈ Property.workerPorts, conf.properties.get? key = some "0"

theorem ofLayers_guarded (hp : deriveMasterAddress (Layer.merge layers) = .ok p)
    (hrules : (Rule.checkAll rules p).result = .ok ()) : Guarded rules layers p := by
  have hmade := ofLayers_of_checked hp hrules
  have hports : ∀ n q, (p.int Property.workersPerHostMax).result = .ok n → 1 < n →
      releaseWorkerPorts layers p = .ok q →
      ∀ key ∈ Property.workerPorts, q.get? key = some "0" := by
    intro n q hn hlt hq key hkey
    rw [get?_of_releaseWorkerPorts hn hq, if_pos ⟨hlt, hkey⟩]
  constructor
  case unread =>
    intro e he
    rw [hmade, releaseWorkerPorts_of_error he]
    rfl
  case kept =>
    intro n hn hle
    have hq : releaseWorkerPorts layers p = .ok p :=
      releaseWorkerPorts_eq_ok_iff.2 ⟨n, hn, .inl ⟨hle, rfl⟩⟩
    rw [hmade, hq]
    refine ⟨_, rfl, rfl, ?_⟩
    intro key hkey
    exact get?_workerPort_of_checked hp hkey
  case refused =>
    intro n hn hlt hpinned
    obtain ⟨key, hkey⟩ := exists_firstPinned hpinned
    refine ⟨key, hkey, ?_⟩
    rw [hmade, releaseWorkerPorts_of_firstPinned hn hlt hkey]
    rfl
  case released =>
    intro n hn hlt hnone
    have hfree : ∀ key ∈ Property.workerPorts, isPinned layers key = false := by
      intro key hkey
      rw [← Bool.not_eq_true, isPinned_iff]
      exact hnone key hkey
    have hq := releaseWorkerPorts_eq_ok_iff.2 ⟨n, hn, .inr ⟨hlt, hfree, rfl⟩⟩
    rw [hmade, hq]
    refine ⟨_, rfl, ?_, ?_⟩
    . intro key hkey
      exact Expansion.value_of_plain (hports n _ hn hlt hq key hkey) (by decide)
    . intro key hkey
      rw [get?_of_releaseWorkerPorts hn hq, if_neg]
      exact fun h => hkey h.2
  case free =>
    intro n conf hn hlt hconf
    obtain ⟨p', q, hp', _, hq, rfl⟩ := ofLayers_eq_ok_iff.1 hconf
    rw [hp] at hp'
    injection hp' with hp'
    subst hp'
    exact hports n q hn hlt hq

/--
Layers of which the environment sets two ports of workers, one of which the site's file sets again
above it. The number of workers is behind a placeholder.
-/
def contested : List Layer :=
  [⟨"defaults", .defaults, none, .ofList
      [(Property.masterHostname, "localhost"), (Property.masterRpcPort, "19998"),
        (Property.workersPerHostMax, "${slots}"), (Property.workerDataPort, "29999")]⟩,
    ⟨"environment", .process, none, .ofList
      [(Property.workerWebPort, "30000"), (Property.workerRpcPort, "29998"), ("slots", "+2")]⟩,
    ⟨"site", .site, none, .ofList [(Property.workerRpcPort, "0")]⟩]

def contestedProperties : Properties :=
  (Layer.merge contested).insert Property.masterAddress "keel://localhost:19998"

theorem ofLayers_guarded_contested :
    deriveMasterAddress (Layer.merge contested) = .ok contestedProperties
    ∧ (Rule.checkAll Rule.builtin contestedProperties).result = .ok ()
    ∧ (contestedProperties.int Property.workersPerHostMax).result = .ok 2
    ∧ (∃ key ∈ Property.workerPorts, Pinned contested key)
    ∧ ∃ key, FirstPinned contested key
      ∧ ofLayers Rule.builtin contested = .error (.invalid key (refusal 2)) := by
  have hfaultTolerant : faultTolerant (Layer.merge contested) = .ok false :=
    faultTolerant_eq_ok_iff.2 (.inl ⟨by decide +kernel, rfl⟩)
  have hp : deriveMasterAddress (Layer.merge contested) = .ok contestedProperties :=
    deriveMasterAddress_eq_ok_iff.2
      ⟨"localhost", "19998", false, by decide +kernel, by decide +kernel, hfaultTolerant, rfl⟩
  have hrules : (Rule.checkAll Rule.builtin contestedProperties).result = .ok () := by
    decide +kernel
  have hn : (contestedProperties.int Property.workersPerHostMax).result = .ok 2 := by
    decide +kernel
  have hpinned : ∃ key ∈ Property.workerPorts, Pinned contested key := by
    refine ⟨Property.workerRpcPort, by decide, ?_⟩
    rw [← isPinned_iff]
    decide +kernel
  exact ⟨hp, hrules, hn, hpinned, (ofLayers_guarded hp hrules).refused 2 hn (by decide) hpinned⟩

end Configuration
end Overlay
