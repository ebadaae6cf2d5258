import Overlay.Configuration.Layered
import Overlay.Proofs.Dictionary
import Overlay.Proofs.Reading

/-!
This module contains what a configuration made from layers holds: for every key where its value
comes from, among them the address of the master and the released ports of workers, and the
summaries of its layers.
-/

namespace Overlay
namespace Configuration

variable {rules : List Rule} {layers : List Layer} {conf : Configuration} {p q : Properties}

theorem faultTolerant_eq_ok_iff {b : Bool} :
    faultTolerant p = .ok b
      ↔
    (p.get? Property.zookeeperEnabled = none ∧ b = false)
      ∨ ∃ text, (p.value Property.zookeeperEnabled).result = .ok text
          ∧ b = Text.sameIgnoringCase text "true" := by
  unfold faultTolerant Dictionary.contains
  cases hget : p.get? Property.zookeeperEnabled with
  | none =>
    rw [Properties.result_value_of_get?_eq_none hget]
    simp [eq_comm]
  | some raw =>
    cases (p.value Property.zookeeperEnabled).result with
    | error e => simp [Except.map]
    | ok text => simp [Except.map, eq_comm]

/--
The key of fault tolerance has a value whose expansion is `true`, in any letter case.
-/
def AsksForFaultTolerance (look : String → Option String) : Prop :=
  ∃ raw text, look Property.zookeeperEnabled = some raw
    ∧ (Expansion.resolveProperty look Property.zookeeperEnabled raw).1 = .ok text
    ∧ Text.lower text.toList = "true".toList

theorem eq_true_iff_of_faultTolerant {b : Bool} (h : faultTolerant p = .ok b) :
    b = true ↔ AsksForFaultTolerance p.get? := by
  have hlower : Text.lower "true".toList = "true".toList := by decide
  rcases faultTolerant_eq_ok_iff.1 h with ⟨hnone, rfl⟩ | ⟨text, htext, rfl⟩
  . constructor
    . intro h
      contradiction
    . rintro ⟨raw, _, hraw, _⟩
      rw [hnone] at hraw
      contradiction
  . rw [Text.sameIgnoringCase_iff, hlower]
    obtain ⟨raw, hraw, hok⟩ := Properties.result_value_eq_ok_iff.1 htext
    constructor
    . intro h
      exact ⟨raw, text, hraw, hok, h⟩
    . rintro ⟨raw', text', hraw', hok', h⟩
      rw [hraw] at hraw'
      injection hraw' with hraw'
      subst hraw'
      rw [hok] at hok'
      injection hok' with hok'
      rw [hok']
      exact h

theorem scheme_of_faultTolerant {b : Bool} (h : faultTolerant p = .ok b) :
    (scheme b = "keel-ft://" ∧ AsksForFaultTolerance p.get?)
      ∨ (scheme b = "keel://" ∧ ¬AsksForFaultTolerance p.get?) := by
  have hb := eq_true_iff_of_faultTolerant h
  cases b with
  | true => exact .inl ⟨rfl, hb.1 rfl⟩
  | false => exact .inr ⟨rfl, fun hasks => nomatch hb.2 hasks⟩

theorem deriveMasterAddress_eq_ok_iff :
    deriveMasterAddress p = .ok q
      ↔
    ∃ host port b, p.get? Property.masterHostname = some host
      ∧ p.get? Property.masterRpcPort = some port
      ∧ faultTolerant p = .ok b
      ∧ q = p.insert Property.masterAddress (scheme b ++ host ++ ":" ++ port) := by
  unfold deriveMasterAddress
  simp only [bind_eq_ok_iff, Properties.raw_eq_ok_iff, pure, Except.pure, Except.ok.injEq]
  constructor
  . rintro ⟨host, hhost, port, hport, b, hb, rfl⟩
    exact ⟨host, port, b, hhost, hport, hb, rfl⟩
  . rintro ⟨host, port, b, hhost, hport, hb, rfl⟩
    exact ⟨host, hhost, port, hport, b, hb, rfl⟩

theorem releaseWorkerPorts_eq_ok_iff :
    releaseWorkerPorts layers p = .ok q
      ↔
    ∃ n, (p.int Property.workersPerHostMax).result = .ok n
      ∧ ((n ≤ 1 ∧ q = p)
        ∨ (1 < n ∧ (∀ key ∈ Property.workerPorts, isPinned layers key = false)
          ∧ q = p.insertAll (Property.workerPorts.map fun key => (key, "0")))) := by
  unfold releaseWorkerPorts
  rw [bind_eq_ok_iff]
  apply exists_congr
  intro n
  apply and_congr_right
  intro _
  by_cases hn : n ≤ 1
  . have hlt : ¬1 < n := by omega
    rw [if_pos hn]
    simp only [pure, Except.pure, Except.ok.injEq, hn, hlt, true_and, false_and, or_false]
    exact eq_comm
  . have hlt : 1 < n := by omega
    rw [if_neg hn]
    cases hfind : Property.workerPorts.find? (isPinned layers) with
    | some key =>
      have hpinned := List.find?_some hfind
      have hmem := List.mem_of_find?_eq_some hfind
      simp only [throw, throwThe, MonadExceptOf.throw, reduceCtorEq, hn, false_and, false_or,
        false_iff, not_and]
      intro _ hfree
      rw [hfree key hmem] at hpinned
      contradiction
    | none =>
      have hfree : ∀ key ∈ Property.workerPorts, isPinned layers key = false := by
        intro key hkey
        simpa using List.find?_eq_none.1 hfind key hkey
      simp only [pure, Except.pure, Except.ok.injEq, hn, hlt, false_and, false_or, true_and]
      constructor
      . intro h
        exact ⟨hfree, h.symm⟩
      . intro h
        exact h.2.symm

theorem ofLayers_eq_ok_iff :
    ofLayers rules layers = .ok conf
      ↔
    ∃ p q, deriveMasterAddress (Layer.merge layers) = .ok p
      ∧ (Rule.checkAll rules p).result = .ok ()
      ∧ releaseWorkerPorts layers p = .ok q
      ∧ conf = ⟨q, rules, layers.map Layer.summary⟩ := by
  unfold ofLayers
  simp only [bind_eq_ok_iff, pure, Except.pure, Except.ok.injEq]
  constructor
  . rintro ⟨p, hp, _, hrules, q, hq, rfl⟩
    exact ⟨p, q, hp, hrules, hq, rfl⟩
  . rintro ⟨p, q, hp, hrules, hq, rfl⟩
    exact ⟨p, hp, (), hrules, q, hq, rfl⟩

theorem get?_of_releaseWorkerPorts {n : Int}
    (hn : (p.int Property.workersPerHostMax).result = .ok n)
    (h : releaseWorkerPorts layers p = .ok q) (key : String) :
    q.get? key = if 1 < n ∧ key ∈ Property.workerPorts then some "0" else p.get? key := by
  obtain ⟨n', hn', hq⟩ := releaseWorkerPorts_eq_ok_iff.1 h
  rw [hn] at hn'
  injection hn' with hn'
  subst hn'
  rcases hq with ⟨hle, rfl⟩ | ⟨hlt, _, rfl⟩
  . rw [if_neg]
    omega
  . rw [Dictionary.get?_insertAll_map]
    simp [hlt]

/--
Where everything in a configuration made from layers comes from: `m` are the layers put together, in
which `scheme`, `host` and `port` make up the address of the master, and `n` is the number of
workers on a host that decides about their ports.
-/
structure Assembled (layers : List Layer) (m : Properties) (scheme host port : String) (n : Int)
    (conf : Configuration) : Prop where
  merged : ∀ key, m.get? key = Layer.topmost layers key
  hostname : m.get? Property.masterHostname = some host
  rpcPort : m.get? Property.masterRpcPort = some port
  faultTolerant : (scheme = "keel-ft://" ∧ AsksForFaultTolerance m.get?)
    ∨ (scheme = "keel://" ∧ ¬AsksForFaultTolerance m.get?)
  address : conf.properties.get? Property.masterAddress = some (scheme ++ host ++ ":" ++ port)
  workers : (Properties.int (m.insert Property.masterAddress (scheme ++ host ++ ":" ++ port))
    Property.workersPerHostMax).result = .ok n
  ports : ∀ key ∈ Property.workerPorts,
    conf.properties.get? key = if 1 < n then some "0" else m.get? key
  others : ∀ key, key ≠ Property.masterAddress → key ∉ Property.workerPorts →
    conf.properties.get? key = m.get? key
  summaries : conf.layers = layers.map fun l => ⟨l.name, l.origin, l.path, l.properties.size⟩

theorem workerPorts_ne_masterAddress :
    ∀ key ∈ Property.workerPorts, key ≠ Property.masterAddress := by
  decide

theorem ofLayers_assembled (h : ofLayers rules layers = .ok conf) :
    ∃ m scheme host port n, Assembled layers m scheme host port n conf := by
  obtain ⟨p, q, hp, _, hq, rfl⟩ := ofLayers_eq_ok_iff.1 h
  obtain ⟨host, port, b, hhost, hport, hb, rfl⟩ := deriveMasterAddress_eq_ok_iff.1 hp
  obtain ⟨n, hn, _⟩ := releaseWorkerPorts_eq_ok_iff.1 hq
  have hget := get?_of_releaseWorkerPorts hn hq
  refine ⟨Layer.merge layers, scheme b, host, port, n, ?_⟩
  constructor
  case merged => exact Layer.get?_merge layers
  case hostname => exact hhost
  case rpcPort => exact hport
  case faultTolerant => exact scheme_of_faultTolerant hb
  case address =>
    rw [hget, if_neg]
    . apply Dictionary.get?_insert_self
    . rintro ⟨_, hmem⟩
      exact workerPorts_ne_masterAddress _ hmem rfl
  case workers => exact hn
  case ports =>
    intro key hkey
    rw [hget, Dictionary.get?_insert_of_ne _ _ (workerPorts_ne_masterAddress key hkey)]
    simp [hkey]
  case others =>
    intro key hne hkey
    rw [hget, Dictionary.get?_insert_of_ne _ _ hne]
    simp [hkey]
  case summaries => rfl

/--
Layers that overlap in the parts of the master's address, in the address itself and in a port of
workers, which there may be two of on a host.
-/
def overlapping : List Layer :=
  [⟨"defaults", .defaults, none, .ofList
      [(Property.masterHostname, "localhost"), (Property.masterRpcPort, "19998"),
        (Property.zookeeperEnabled, "false"), (Property.workersPerHostMax, "1"),
        (Property.workerDataPort, "29999")]⟩,
    ⟨"conf/keel-site.toml", .site, some "conf/keel-site.toml", .ofList
      [(Property.masterHostname, "${rack}-master"), (Property.zookeeperEnabled, "${ha}"),
        (Property.masterAddress, "keel://elsewhere:1"), ("rack", "r1"), ("ha", "True")]⟩,
    ⟨"environment", .process, none, .ofList [(Property.workersPerHostMax, "2"), ("rack", "r2")]⟩]

theorem ofLayers_assembled_overlapping :
    ∃ conf, ofLayers Rule.builtin overlapping = .ok conf
      ∧ ∃ m scheme host port n, Assembled overlapping m scheme host port n conf := by
  obtain ⟨conf, hconf⟩ : ∃ conf, ofLayers Rule.builtin overlapping = .ok conf := by
    apply exists_of_isOk
    decide +kernel
  exact ⟨conf, hconf, ofLayers_assembled hconf⟩

end Configuration
end Overlay
