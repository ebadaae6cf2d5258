import Mathlib.Data.List.Find
import Overlay.Proofs.Configuration.Workers

/-!
This module contains which layers make the same configuration. All that matters is the value that
layers give a key together and which ports of workers they pin, so layers can be swapped, split and
dropped if this stays the same.
-/

namespace Overlay
namespace Configuration

variable {rules : List Rule} {layers layers' before before' after after' : List Layer}
  {l l' : Layer} {p : Properties} {key : String}

/--
All keys have the same values in two lists of layers, and the same ports of workers are pinned.
-/
structure SamePrecedence (layers layers' : List Layer) : Prop where
  topmost : ∀ key, Layer.topmost layers key = Layer.topmost layers' key
  pinned : ∀ key ∈ Property.workerPorts, (Pinned layers key ↔ Pinned layers' key)

/--
The same error, or configurations that differ at most in the summaries of their layers.
-/
inductive SameOutcome :
    Except ConfigError Configuration → Except ConfigError Configuration → Prop where
  | failed (e : ConfigError) : SameOutcome (.error e) (.error e)
  | made (p : Properties) (rules : List Rule) (summaries summaries' : List LayerSummary) :
    SameOutcome (.ok ⟨p, rules, summaries⟩) (.ok ⟨p, rules, summaries'⟩)

theorem SameOutcome.exists_of_ok {x y : Except ConfigError Configuration} {conf : Configuration}
    (h : SameOutcome x y) (hx : x = .ok conf) :
    ∃ conf', y = .ok conf' ∧ conf.properties = conf'.properties := by
  cases h with
  | failed e => contradiction
  | made p rules summaries summaries' =>
    injection hx with hx
    subst hx
    exact ⟨_, rfl, rfl⟩

theorem SameOutcome.eq_error {x y : Except ConfigError Configuration} {e : ConfigError}
    (h : SameOutcome x y) (hx : x = .error e) : y = .error e := by
  cases h with
  | failed _ => exact hx
  | made _ _ _ _ => contradiction

theorem isSome_topmost_iff :
    (Layer.topmost layers key).isSome ↔ ∃ l ∈ layers, (l.properties.get? key).isSome := by
  simp [Layer.topmost, List.findSome?_isSome_iff]

theorem not_pinned_nil : ¬Pinned [] key := by
  simp [Pinned]

theorem pinned_append : Pinned (before ++ after) key ↔ Pinned before key ∨ Pinned after key := by
  simp only [Pinned, List.mem_append, or_and_right, exists_or]

theorem pinned_cons :
    Pinned (l :: after) key
      ↔
    ((l.origin = .process ∨ l.origin = .runtime) ∧ (l.properties.get? key).isSome)
      ∨ Pinned after key := by
  simp only [Pinned, List.mem_cons, or_and_right, exists_or, exists_eq_left]

namespace SamePrecedence

theorem refl (layers : List Layer) : SamePrecedence layers layers :=
  ⟨fun _ => rfl, fun _ _ => .rfl⟩

theorem append (h : SamePrecedence before before') (h' : SamePrecedence after after') :
    SamePrecedence (before ++ after) (before' ++ after') := by
  constructor
  case topmost =>
    intro key
    rw [Layer.topmost_append, Layer.topmost_append, h.topmost, h'.topmost]
  case pinned =>
    intro key hkey
    rw [pinned_append, pinned_append, h.pinned key hkey, h'.pinned key hkey]

theorem swap (h : ∀ key, l.properties.get? key = none ∨ l'.properties.get? key = none) :
    SamePrecedence [l, l'] [l', l] := by
  constructor
  case topmost =>
    intro key
    simp only [Layer.topmost_cons, Layer.topmost_nil, Option.none_or]
    rcases h key with hnone | hnone
    . rw [hnone, Option.or_none, Option.none_or]
    . rw [hnone, Option.or_none, Option.none_or]
  case pinned =>
    intro key _
    simp only [pinned_cons, not_pinned_nil, or_false]
    exact or_comm

theorem split {l₁ l₂ : Layer} (h₁ : l₁.origin = l.origin) (h₂ : l₂.origin = l.origin)
    (h : ∀ key, l.properties.get? key
      = (l₂.properties.get? key).or (l₁.properties.get? key)) :
    SamePrecedence [l] [l₁, l₂] := by
  constructor
  case topmost =>
    intro key
    simp only [Layer.topmost_cons, Layer.topmost_nil, Option.none_or]
    exact h key
  case pinned =>
    intro key _
    simp only [pinned_cons, not_pinned_nil, or_false, h₁, h₂, h, Option.isSome_or, Bool.or_eq_true]
    rw [← and_or_left, or_comm (b := (l₁.properties.get? key).isSome = true)]

theorem drop (horigin : l.origin = .defaults ∨ l.origin = .site)
    (h : ∀ key, (l.properties.get? key).isSome → ∃ l' ∈ after, (l'.properties.get? key).isSome) :
    SamePrecedence (l :: after) after := by
  constructor
  case topmost =>
    intro key
    rw [Layer.topmost_cons]
    cases hget : l.properties.get? key with
    | none => rw [Option.or_none]
    | some value =>
      apply Option.or_of_isSome
      apply isSome_topmost_iff.2
      apply h
      rw [hget]
      rfl
  case pinned =>
    intro key _
    rw [pinned_cons]
    rcases horigin with horigin | horigin <;> simp [horigin]

theorem merge_eq (h : SamePrecedence layers layers') :
    Layer.merge layers = Layer.merge layers' := by
  apply Dictionary.ext_get?
  intro key
  rw [Layer.get?_merge, Layer.get?_merge, h.topmost]

theorem releaseWorkerPorts_eq (h : SamePrecedence layers layers') (p : Properties) :
    releaseWorkerPorts layers p = releaseWorkerPorts layers' p := by
  have hfind : Property.workerPorts.find? (isPinned layers)
      = Property.workerPorts.find? (isPinned layers') := by
    apply List.find?_congr
    intro key hkey
    rw [Bool.eq_iff_iff, isPinned_iff, isPinned_iff, h.pinned key hkey]
  unfold releaseWorkerPorts
  rw [hfind]

end SamePrecedence

def assemble (rules : List Rule) (layers : List Layer) : Except ConfigError Properties := do
  let p ← deriveMasterAddress (Layer.merge layers)
  (Rule.checkAll rules p).result
  releaseWorkerPorts layers p

theorem ofLayers_eq_map_assemble :
    ofLayers rules layers
      =
    (assemble rules layers).map fun p => ⟨p, rules, layers.map Layer.summary⟩ := by
  unfold ofLayers assemble
  cases deriveMasterAddress (Layer.merge layers) with
  | error e => rfl
  | ok p =>
    simp only [bind, Except.bind]
    cases (Rule.checkAll rules p).result with
    | error e => rfl
    | ok _ => cases releaseWorkerPorts layers p <;> rfl

theorem assemble_eq (h : SamePrecedence layers layers') :
    assemble rules layers = assemble rules layers' := by
  unfold assemble
  rw [h.merge_eq]
  simp only [h.releaseWorkerPorts_eq]

theorem sameOutcome_of_samePrecedence (h : SamePrecedence layers layers') :
    SameOutcome (ofLayers rules layers) (ofLayers rules layers') := by
  rw [ofLayers_eq_map_assemble, ofLayers_eq_map_assemble, assemble_eq h]
  cases assemble rules layers' with
  | error e => exact .failed e
  | ok p => exact .made p rules _ _

structure Regroupable (rules : List Rule) : Prop where
  precedence : ∀ layers layers', SamePrecedence layers layers' →
    SameOutcome (ofLayers rules layers) (ofLayers rules layers')
  swapped : ∀ before l l' after,
    (∀ key, l.properties.get? key = none ∨ l'.properties.get? key = none) →
    SameOutcome (ofLayers rules (before ++ l :: l' :: after))
      (ofLayers rules (before ++ l' :: l :: after))
  split : ∀ before l l₁ l₂ after, l₁.origin = l.origin → l₂.origin = l.origin →
    (∀ key, l.properties.get? key = (l₂.properties.get? key).or (l₁.properties.get? key)) →
    SameOutcome (ofLayers rules (before ++ l :: after))
      (ofLayers rules (before ++ l₁ :: l₂ :: after))
  dropped : ∀ before l after, l.origin = .defaults ∨ l.origin = .site →
    (∀ key, (l.properties.get? key).isSome →
      ∃ l' ∈ after, (l'.properties.get? key).isSome) →
    SameOutcome (ofLayers rules (before ++ l :: after)) (ofLayers rules (before ++ after))

theorem ofLayers_regroupable (rules : List Rule) : Regroupable rules := by
  constructor
  case precedence =>
    intro layers layers' h
    exact sameOutcome_of_samePrecedence h
  case swapped =>
    intro before l l' after h
    apply sameOutcome_of_samePrecedence
    exact (SamePrecedence.refl before).append ((SamePrecedence.swap h).append (.refl after))
  case split =>
    intro before l l₁ l₂ after h₁ h₂ h
    apply sameOutcome_of_samePrecedence
    exact (SamePrecedence.refl before).append ((SamePrecedence.split h₁ h₂ h).append (.refl after))
  case dropped =>
    intro before l after horigin h
    apply sameOutcome_of_samePrecedence
    exact (SamePrecedence.refl before).append (.drop horigin h)

def bootstrap : Layer :=
  ⟨"bootstrap", .defaults, none, .ofList
    [(Property.workersPerHostMax, "many"), ("rack", "r0")]⟩

def somePorts : Layer :=
  ⟨"ports", .process, none, .ofList
    [(Property.workerWebPort, "30000"), (Property.workerRpcPort, "29998")]⟩

def twoSlots : Layer :=
  ⟨"slots", .process, none, .ofList [("slots", "+2")]⟩

theorem ofLayers_regroupable_contested :
    (∃ conf conf', ofLayers Rule.builtin (bootstrap :: overlapping) = .ok conf
      ∧ ofLayers Rule.builtin overlapping = .ok conf' ∧ conf.properties = conf'.properties)
    ∧ ∃ e, ofLayers Rule.builtin contested = .error e
      ∧ ofLayers Rule.builtin (contested.take 1 ++ somePorts :: twoSlots :: contested.drop 2)
        = .error e := by
  have hshadowed : ∀ key, (bootstrap.properties.get? key).isSome →
      ∃ l ∈ overlapping, (l.properties.get? key).isSome := by
    intro key hkey
    have hkeys : ∀ key ∈ bootstrap.properties.keys,
        ∃ l ∈ overlapping, (l.properties.get? key).isSome := by
      decide +kernel
    exact hkeys key (Dictionary.mem_keys_iff.2 hkey)
  have happart : ∀ key, contested[1].properties.get? key
      = (twoSlots.properties.get? key).or (somePorts.properties.get? key) := by
    intro key
    exact Dictionary.get?_ofList_append
      [(Property.workerWebPort, "30000"), (Property.workerRpcPort, "29998")] [("slots", "+2")]
  have hdropped := (ofLayers_regroupable Rule.builtin).dropped [] bootstrap overlapping
    (.inl rfl) hshadowed
  have hsplit := (ofLayers_regroupable Rule.builtin).split (contested.take 1) contested[1]
    somePorts twoSlots (contested.drop 2) rfl rfl happart
  constructor
  . obtain ⟨conf, hconf⟩ : ∃ conf, ofLayers Rule.builtin (bootstrap :: overlapping) = .ok conf := by
      apply exists_of_isOk
      decide +kernel
    obtain ⟨conf', hconf', heq⟩ := hdropped.exists_of_ok hconf
    exact ⟨conf, conf', hconf, hconf', heq⟩
  . obtain ⟨e, he⟩ : ∃ e, ofLayers Rule.builtin contested = .error e := by
      apply exists_of_isOk_eq_false
      decide +kernel
    exact ⟨e, he, hsplit.eq_error he⟩

end Configuration
end Overlay
