import Mathlib.Data.List.Forall2
import Overlay.Layer.Source
import Overlay.Proofs.Dictionary

/-!
This module contains which properties the environment can set, and by which variables. In the name
of a variable capitals stand for small letters and underscores for dots, so nothing stands for a
capital or an underscore in the name of a property. Small letters and dots stand for themselves, so
most properties have several variables, of which the last one in the environment decides.
-/

namespace Overlay
namespace Environment

variable {c d : Char} {cs ds : List Char} {name key : String}

structure Dotted (r : String) : Prop where
  nonempty : r ≠ ""
  no_underscore : '_' ∉ r.toList
  small : ∀ c ∈ r.toList, c.isUpper = false

def variableOf (r : String) : String :=
  "KEEL_" ++ String.ofList (r.toList.map fun c => if c = '.' then '_' else c.toUpper)

def Alike (c d : Char) : Prop :=
  c.toLower = d.toLower ∨ (c = '.' ∨ c = '_') ∧ (d = '.' ∨ d = '_')

def meaning (c : Char) : Char :=
  if c.toLower = '_' then '.' else c.toLower

theorem toDotted_eq_map : toDotted cs = cs.map meaning :=
  List.map_map

theorem isLower_toLower (h : c.isUpper = true) : c.toLower.isLower = true := by
  unfold Char.isUpper at h
  unfold Char.isLower Char.toLower
  simp only [Bool.and_eq_true, decide_eq_true_eq] at *
  split <;> grind

theorem isUpper_toLower (c : Char) : c.toLower.isUpper = false := by
  unfold Char.isUpper Char.toLower
  split <;> grind

theorem toLower_eq_self (h : c.isUpper = false) : c.toLower = c := by
  unfold Char.isUpper at h
  unfold Char.toLower
  grind

theorem toLower_toUpper (h : c.isUpper = false) : c.toUpper.toLower = c := by
  unfold Char.isUpper at h
  unfold Char.toLower Char.toUpper
  rw [Char.ext_iff]
  split <;> split <;> grind

theorem toLower_eq_iff (h : d.isAlpha = false) : c.toLower = d ↔ c = d := by
  by_cases hupper : c.isUpper
  . have hlower := isLower_toLower hupper
    constructor
    . rintro rfl
      unfold Char.isAlpha at h
      rw [hlower, Bool.or_true] at h
      contradiction
    . rintro rfl
      unfold Char.isAlpha at h
      rw [hupper, Bool.true_or] at h
      contradiction
  . rw [toLower_eq_self (Bool.eq_false_iff.2 hupper)]

theorem meaning_eq_iff : meaning c = meaning d ↔ Alike c d := by
  have hc := @toLower_eq_iff c '_' rfl
  have hd := @toLower_eq_iff d '_' rfl
  have hc' := @toLower_eq_iff c '.' rfl
  have hd' := @toLower_eq_iff d '.' rfl
  unfold meaning Alike
  grind

theorem meaning_ne_underscore (c : Char) : meaning c ≠ '_' := by
  unfold meaning
  split
  . decide
  . assumption

theorem isUpper_meaning (c : Char) : (meaning c).isUpper = false := by
  unfold meaning
  split
  . decide
  . exact isUpper_toLower c

theorem meaning_of_small (hunderscore : c ≠ '_') (hsmall : c.isUpper = false) :
    meaning (if c = '.' then '_' else c.toUpper) = c := by
  split
  . next hdot =>
    subst hdot
    decide
  . rw [meaning, toLower_toUpper hsmall, if_neg hunderscore]

theorem rest?_eq_some_iff {ms rest : List Char} : rest? ms cs = some rest ↔ cs = ms ++ rest := by
  induction ms generalizing cs with
  | nil => simp [rest?]
  | cons m ms ih =>
    cases cs with
    | nil => simp [rest?]
    | cons c cs =>
      rw [rest?]
      split
      . next heq => simp [heq, ih]
      . next hne => simp [Ne.symm hne]

theorem property?_eq_some_iff :
    property? name = some key
      ↔
    ∃ part, part ≠ "" ∧ name = "KEEL_" ++ part
      ∧ key = "keel." ++ String.ofList (toDotted part.toList) := by
  unfold property?
  constructor
  . intro h
    split at h
    . contradiction
    . contradiction
    . next rest hne hrest =>
      injection h with h
      refine ⟨String.ofList rest, ?_, ?_, ?_⟩
      . rintro hempty
        exact hne (String.ofList_eq_empty_iff.1 hempty)
      . simp [← String.toList_inj, rest?_eq_some_iff.1 hrest, marker]
      . rw [String.toList_ofList, h]
  . rintro ⟨part, hpart, rfl, rfl⟩
    have hrest : rest? marker.toList ("KEEL_" ++ part).toList = some part.toList := by
      rw [rest?_eq_some_iff, String.toList_append]
      rfl
    rw [hrest]
    split
    . contradiction
    . next hempty =>
      injection hempty with hempty
      exact absurd (String.toList_eq_nil_iff.1 hempty) hpart
    . next rest _ heq =>
      injection heq with heq
      rw [heq]

theorem property?_variableOf {r : String} (h : Dotted r) :
    property? (variableOf r) = some ("keel." ++ r) := by
  rw [property?_eq_some_iff]
  refine ⟨_, ?_, rfl, ?_⟩
  . simpa using h.nonempty
  . have hmap : r.toList.map (meaning ∘ fun c => if c = '.' then '_' else c.toUpper)
        = r.toList.map id := by
      apply List.map_congr_left
      intro c hc
      exact meaning_of_small (ne_of_mem_of_not_mem hc h.no_underscore) (h.small c hc)
    rw [toDotted_eq_map, String.toList_ofList, List.map_map, hmap, List.map_id,
      String.ofList_toList]

theorem dotted_of_property? (h : property? name = some key) :
    ∃ r, Dotted r ∧ key = "keel." ++ r := by
  obtain ⟨part, hpart, _, rfl⟩ := property?_eq_some_iff.1 h
  refine ⟨_, ?_, rfl⟩
  constructor
  case nonempty => simpa [toDotted_eq_map] using hpart
  case no_underscore =>
    rw [String.toList_ofList, toDotted_eq_map, List.mem_map]
    rintro ⟨c, _, hc⟩
    exact meaning_ne_underscore c hc
  case small =>
    rw [String.toList_ofList, toDotted_eq_map, List.forall_mem_map]
    intro c _
    exact isUpper_meaning c

theorem property?_eq_iff {part part' : String} (h : part ≠ "") (h' : part' ≠ "") :
    property? ("KEEL_" ++ part) = property? ("KEEL_" ++ part')
      ↔
    List.Forall₂ Alike part.toList part'.toList := by
  rw [property?_eq_some_iff.2 ⟨part, h, rfl, rfl⟩, property?_eq_some_iff.2 ⟨part', h', rfl, rfl⟩]
  rw [Option.some_inj, String.append_right_inj, String.ofList_inj, toDotted_eq_map, toDotted_eq_map]
  rw [← List.forall₂_eq_eq_eq, List.forall₂_map_left_iff, List.forall₂_map_right_iff]
  simp only [meaning_eq_iff]

/--
A variable is one for a key if its name is `KEEL_` and more, and the key is `keel.` and the same in
small letters, with a dot for each underscore.
-/
def Sets (name key : String) : Prop :=
  ∃ part, part ≠ "" ∧ name = "KEEL_" ++ part
    ∧ key = "keel." ++ String.ofList (part.toList.map fun c => if c = '_' then '.' else c.toLower)

theorem sets_iff : Sets name key ↔ property? name = some key := by
  have hmeaning : (fun c : Char => if c = '_' then '.' else c.toLower) = meaning := by
    funext c
    simp only [meaning, @toLower_eq_iff c '_' rfl]
  rw [property?_eq_some_iff, Sets, hmeaning]
  simp only [toDotted_eq_map]

instance : Decidable (Sets name key) := decidable_of_iff _ sets_iff.symm

def lastSetting? (environment : List (String × String)) (key : String) : Option String :=
  (environment.reverse.find? fun entry => Sets entry.1 key).map Prod.snd

theorem assoc?_filterMap (key : String) (environment : List (String × String)) :
    Dictionary.assoc? key
        (environment.filterMap fun entry => (property? entry.1).map fun k => (k, entry.2))
      =
    (environment.find? fun entry => Sets entry.1 key).map Prod.snd := by
  induction environment with
  | nil => rfl
  | cons entry rest ih =>
    cases hproperty : property? entry.1 with
    | none => simp [sets_iff, hproperty, ih]
    | some key' =>
      by_cases hkey : key = key'
      . simp [sets_iff, hproperty, hkey, Dictionary.assoc?]
      . have hne : ¬key' = key := fun h => hkey h.symm
        simp [sets_iff, hproperty, hkey, hne, Dictionary.assoc?, ih]

theorem get?_layer (environment : List (String × String)) (key : String) :
    (layer environment).properties.get? key = lastSetting? environment key := by
  unfold layer Layer.insertAll Layer.new
  rw [Dictionary.get?_insertAll, Dictionary.get?_empty, Option.or_none, Dictionary.lastValue?,
    ← List.filterMap_reverse, assoc?_filterMap, lastSetting?]

theorem get?_layer_eq_some_iff {environment : List (String × String)} {value : String} :
    (layer environment).properties.get? key = some value
      ↔
    ∃ before name after, environment = before ++ (name, value) :: after
      ∧ property? name = some key ∧ ∀ entry ∈ after, property? entry.1 ≠ some key := by
  rw [get?_layer, lastSetting?, Option.map_eq_some_iff]
  constructor
  . rintro ⟨⟨name, value⟩, hfind, rfl⟩
    obtain ⟨hname, after, before, hsplit, hafter⟩ := List.find?_eq_some_iff_append.1 hfind
    refine ⟨before.reverse, name, after.reverse, ?_, by simpa [sets_iff] using hname, ?_⟩
    . rw [← List.reverse_inj, hsplit]
      simp
    . intro entry hentry
      simpa [sets_iff] using hafter entry (List.mem_reverse.1 hentry)
  . rintro ⟨before, name, after, rfl, hname, hafter⟩
    have hsets : decide (Sets name key) = true := by simpa [sets_iff] using hname
    refine ⟨(name, value), List.find?_eq_some_iff_append.2 ⟨hsets, ?_⟩, rfl⟩
    refine ⟨after.reverse, before.reverse, by simp, ?_⟩
    intro entry hentry
    simpa [sets_iff] using hafter entry (List.mem_reverse.1 hentry)

theorem get?_layer_eq_none {environment : List (String × String)}
    (h : '_' ∈ key.toList ∨ (∃ c ∈ key.toList, c.isUpper = true) ∨ ¬"keel.".toList <+: key.toList) :
    (layer environment).properties.get? key = none := by
  rw [Option.eq_none_iff_forall_ne_some]
  intro value hget
  obtain ⟨_, name, _, _, hname, _⟩ := get?_layer_eq_some_iff.1 hget
  obtain ⟨r, hr, rfl⟩ := dotted_of_property? hname
  rw [String.toList_append, List.mem_append] at h
  obtain (hmem | hmem) | ⟨c, hmem, hc⟩ | hmissing := h
  . have hmarker : '_' ∉ "keel.".toList := by decide
    exact hmarker hmem
  . exact hr.no_underscore hmem
  . have hsmall : ∀ c ∈ "keel.".toList ++ r.toList, c.isUpper = false := by
      rw [List.forall_mem_append]
      exact ⟨by simp, hr.small⟩
    rw [hsmall c hmem] at hc
    contradiction
  . exact hmissing (List.prefix_append _ _)

/--
Which properties the environment can set, and which variables set the same one.
-/
structure Reversible : Prop where
  forth : ∀ r, Dotted r → property? (variableOf r) = some ("keel." ++ r)
  back : ∀ name key, property? name = some key → ∃ r, Dotted r ∧ key = "keel." ++ r
  unset : ∀ environment key,
    ('_' ∈ key.toList ∨ (∃ c ∈ key.toList, c.isUpper = true) ∨ ¬"keel.".toList <+: key.toList) →
    (layer environment).properties.get? key = none
  maps_iff : ∀ name, (property? name).isSome ↔ ∃ part, part ≠ "" ∧ name = "KEEL_" ++ part
  same_iff : ∀ part part', part ≠ "" → part' ≠ "" →
    (property? ("KEEL_" ++ part) = property? ("KEEL_" ++ part')
      ↔ List.Forall₂ Alike part.toList part'.toList)
  last : ∀ environment key value, (layer environment).properties.get? key = some value
    ↔ ∃ before name after, environment = before ++ (name, value) :: after
        ∧ property? name = some key ∧ ∀ entry ∈ after, property? entry.1 ≠ some key

theorem property?_reversible : Reversible := by
  constructor
  case forth =>
    intro r hr
    exact property?_variableOf hr
  case back =>
    intro name key h
    exact dotted_of_property? h
  case unset =>
    intro environment key h
    exact get?_layer_eq_none h
  case maps_iff =>
    intro name
    rw [Option.isSome_iff_exists]
    simp only [property?_eq_some_iff]
    constructor
    . rintro ⟨_, part, hpart, hname, _⟩
      exact ⟨part, hpart, hname⟩
    . rintro ⟨part, hpart, hname⟩
      exact ⟨_, part, hpart, hname, rfl⟩
  case same_iff =>
    intro part part' h h'
    exact property?_eq_iff h h'
  case last =>
    intro environment key value
    exact get?_layer_eq_some_iff

def colliding : List (String × String) :=
  [("KEEL_Master.RPC_port", "1"), ("keel_MASTER_RPC_PORT", "2"), ("KEEL_MASTER_RPC.PORT", "3"),
    ("KEEL_", "4"), ("KEEL_MASTER-RPC-PORT", "5")]

theorem property?_reversible_colliding :
    (layer colliding).properties.get? "keel.master.rpc.port" = some "3"
    ∧ List.Forall₂ Alike "Master.RPC_port".toList "MASTER_RPC.PORT".toList
    ∧ property? (variableOf "master-rpc-port") = some ("keel." ++ "master-rpc-port") := by
  refine ⟨?_, ?_, ?_⟩
  . rw [property?_reversible.last]
    refine ⟨colliding.take 2, "KEEL_MASTER_RPC.PORT", colliding.drop 3, rfl, ?_, ?_⟩
    . decide +kernel
    . decide +kernel
  . rw [← property?_reversible.same_iff _ _ (by decide) (by decide)]
    decide +kernel
  . apply property?_reversible.forth
    exact ⟨by decide, by decide, by simp⟩

end Environment
end Overlay
