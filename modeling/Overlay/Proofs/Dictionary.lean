import Overlay.Layer.Basic

/-!
This module contains what dictionaries answer after many insertions, that their answers determine
them, and from that what the layers of a configuration put together answer.
-/

namespace Overlay
namespace Dictionary

variable {α : Type} {key : String}

theorem assoc?_append (l l' : List (String × α)) :
    assoc? key (l ++ l') = (assoc? key l).or (assoc? key l') := by
  induction l with
  | nil => rfl
  | cons entry rest ih =>
    rw [List.cons_append, assoc?, assoc?]
    split
    . rfl
    . exact ih

theorem assoc?_eq_none {l : List (String × α)} (h : ∀ entry ∈ l, key ≠ entry.1) :
    assoc? key l = none := by
  induction l with
  | nil => rfl
  | cons entry rest ih =>
    rw [assoc?, if_neg (h entry List.mem_cons_self)]
    apply ih
    intro entry' hentry'
    exact h entry' (List.mem_cons_of_mem entry hentry')

theorem mem_of_assoc? {l : List (String × α)} {value : α} (h : assoc? key l = some value) :
    (key, value) ∈ l := by
  induction l with
  | nil => contradiction
  | cons entry rest ih =>
    rw [assoc?] at h
    split at h
    . next heq =>
      injection h with h
      simp [heq, ← h]
    . exact List.mem_cons_of_mem entry (ih h)

theorem assoc?_eq_none_of_lt {l : List (String × α)} (h : ∀ entry ∈ l, key < entry.1) :
    assoc? key l = none := by
  apply assoc?_eq_none
  rintro entry hentry rfl
  exact String.lt_irrefl _ (h entry hentry)

theorem mem_map_fst_iff {l : List (String × α)} : key ∈ l.map Prod.fst ↔ (assoc? key l).isSome := by
  induction l with
  | nil => simp [assoc?]
  | cons entry rest ih =>
    rw [List.map_cons, List.mem_cons, ih, assoc?]
    split
    . next heq => simp [heq]
    . next hne => simp [hne]

theorem assoc?_map (keys : List String) (f : String → α) :
    assoc? key (keys.map fun k => (k, f k)) = if key ∈ keys then some (f key) else none := by
  induction keys with
  | nil => rfl
  | cons k keys ih =>
    rw [List.map_cons, assoc?, ih]
    by_cases hkey : key = k
    . simp [hkey]
    . simp [hkey]

-- No key occurs twice, so it does not matter from which end one looks.
theorem assoc?_reverse {l : List (String × α)} (h : l.Pairwise (fun a b => a.1 < b.1)) :
    assoc? key l.reverse = assoc? key l := by
  induction l with
  | nil => rfl
  | cons entry rest ih =>
    obtain ⟨hentry, hrest⟩ := List.pairwise_cons.1 h
    rw [List.reverse_cons, assoc?_append, ih hrest]
    by_cases heq : key = entry.1
    . rw [heq, assoc?_eq_none_of_lt hentry]
      simp [assoc?]
    . simp [assoc?, heq]

def lastValue? (key : String) (pairs : List (String × α)) : Option α :=
  assoc? key pairs.reverse

theorem lastValue?_nil : lastValue? key ([] : List (String × α)) = none := rfl

theorem lastValue?_append (pairs pairs' : List (String × α)) :
    lastValue? key (pairs ++ pairs') = (lastValue? key pairs').or (lastValue? key pairs) := by
  rw [lastValue?, List.reverse_append, assoc?_append]
  rfl

theorem lastValue?_singleton (key' : String) (value : α) :
    lastValue? key [(key', value)] = if key = key' then some value else none := rfl

theorem lastValue?_eq_none {pairs : List (String × α)} (h : ∀ pair ∈ pairs, key ≠ pair.1) :
    lastValue? key pairs = none := by
  apply assoc?_eq_none
  intro pair hpair
  exact h pair (List.mem_reverse.1 hpair)

theorem lastValue?_cons (pair : String × α) (pairs : List (String × α)) :
    lastValue? key (pair :: pairs)
      =
    (lastValue? key pairs).or (if key = pair.1 then some pair.2 else none) := by
  rw [← List.singleton_append, lastValue?_append]
  rfl

theorem isSome_lastValue?_iff {pairs : List (String × α)} :
    (lastValue? key pairs).isSome ↔ key ∈ pairs.map Prod.fst := by
  rw [lastValue?, ← mem_map_fst_iff, List.map_reverse, List.mem_reverse]

-- The pairs are those of a list in ascending order, so the last pair is that of the greatest.
theorem exists_greatest_of_lastValue? {β : Type} {lt : β → β → Prop} {name : β → String}
    {f : β → α} {l : List β} {value : α} (h : l.Pairwise lt)
    (hlast : lastValue? key (l.map fun b => (name b, f b)) = some value) :
    ∃ b ∈ l, name b = key ∧ f b = value ∧ ∀ b' ∈ l, name b' = key → b' ≠ b → lt b' b := by
  induction l with
  | nil => contradiction
  | cons b bs ih =>
    obtain ⟨hb, hbs⟩ := List.pairwise_cons.1 h
    rw [List.map_cons, lastValue?_cons, Option.or_eq_some_iff] at hlast
    cases hlast with
    | inl hrest =>
      obtain ⟨c, hc, hname, hvalue, hgreatest⟩ := ih hbs hrest
      refine ⟨c, List.mem_cons_of_mem b hc, hname, hvalue, ?_⟩
      rw [List.forall_mem_cons]
      exact ⟨fun _ _ => hb c hc, hgreatest⟩
    | inr hfirst =>
      obtain ⟨hnone, hfirst⟩ := hfirst
      split at hfirst
      . next hkey =>
        injection hfirst with hfirst
        refine ⟨b, List.mem_cons_self, hkey.symm, hfirst, ?_⟩
        rw [List.forall_mem_cons]
        refine ⟨fun _ hne => absurd rfl hne, ?_⟩
        intro b' hb' hname
        have hmem : key ∈ (bs.map fun b => (name b, f b)).map Prod.fst := by
          rw [List.map_map, ← hname]
          exact List.mem_map_of_mem hb'
        rw [← isSome_lastValue?_iff, hnone] at hmem
        contradiction
      . contradiction

theorem get?_insertAll (d : Dictionary α) (pairs : List (String × α)) :
    (d.insertAll pairs).get? key = (lastValue? key pairs).or (d.get? key) := by
  induction pairs generalizing d with
  | nil => rfl
  | cons pair pairs ih =>
    have hstep : d.insertAll (pair :: pairs) = (d.insert pair.1 pair.2).insertAll pairs := rfl
    rw [hstep, ih, lastValue?_cons, get?_insert, Option.or_assoc]
    congr 1
    split
    . rfl
    . rfl

theorem get?_ofList (pairs : List (String × α)) :
    (ofList pairs).get? key = lastValue? key pairs := by
  rw [ofList, get?_insertAll, get?_empty, Option.or_none]

theorem get?_ofList_append (pairs pairs' : List (String × α)) :
    (ofList (pairs ++ pairs')).get? key
      =
    ((ofList pairs').get? key).or ((ofList pairs).get? key) := by
  rw [get?_ofList, get?_ofList, get?_ofList, lastValue?_append]

theorem get?_insertAll_toList (d d' : Dictionary α) :
    (d.insertAll d'.toList).get? key = (d'.get? key).or (d.get? key) := by
  rw [get?_insertAll, lastValue?, toList, assoc?_reverse d'.ascending]
  rfl

theorem get?_insertAll_map (d : Dictionary α) (keys : List String) (f : String → α) :
    (d.insertAll (keys.map fun k => (k, f k))).get? key
      =
    if key ∈ keys then some (f key) else d.get? key := by
  rw [get?_insertAll, lastValue?, ← List.map_reverse, assoc?_map]
  by_cases hkey : key ∈ keys
  . simp [hkey]
  . simp [hkey]

theorem mem_keys_iff {d : Dictionary α} : key ∈ d.keys ↔ (d.get? key).isSome :=
  mem_map_fst_iff

theorem ascending_keys (d : Dictionary α) : d.keys.Pairwise (· < ·) :=
  List.pairwise_map.2 d.ascending

theorem nodup_keys (d : Dictionary α) : d.keys.Nodup := by
  apply d.ascending_keys.imp
  rintro a _ hlt rfl
  exact String.lt_irrefl a hlt

theorem keys_eq_of_isSome {β : Type} {d : Dictionary α} {d' : Dictionary β}
    (h : ∀ key, (d.get? key).isSome = (d'.get? key).isSome) : d.keys = d'.keys := by
  have hperm : d.keys.Perm d'.keys := by
    rw [List.perm_ext_iff_of_nodup d.nodup_keys d'.nodup_keys]
    intro key
    rw [mem_keys_iff, mem_keys_iff, h]
  apply hperm.eq_of_pairwise _ d.ascending_keys d'.ascending_keys
  intro a b _ _ hlt hgt
  exact absurd (String.lt_trans hlt hgt) (String.lt_irrefl a)

theorem get?_eq_none_of_size_eq_zero {d : Dictionary α} (h : d.size = 0) : d.get? key = none := by
  unfold get?
  rw [List.length_eq_zero_iff.1 h]
  rfl

theorem insertAll_append (d : Dictionary α) (pairs pairs' : List (String × α)) :
    d.insertAll (pairs ++ pairs') = (d.insertAll pairs).insertAll pairs' :=
  List.foldl_append

-- The first key of each list occurs in the other one, where it is the first key or a later one. It
-- cannot be a later one in both.
theorem fst_eq_of_assoc? {entry entry' : String × α} {rest rest' : List (String × α)}
    (h : ∀ e ∈ rest, entry.1 < e.1) (h' : ∀ e ∈ rest', entry'.1 < e.1)
    (heq : ∀ key, assoc? key (entry :: rest) = assoc? key (entry' :: rest')) :
    entry.1 = entry'.1 := by
  have hmem : (entry.1, entry.2) ∈ entry' :: rest' := by
    apply mem_of_assoc?
    rw [← heq]
    simp [assoc?]
  have hmem' : (entry'.1, entry'.2) ∈ entry :: rest := by
    apply mem_of_assoc?
    rw [heq]
    simp [assoc?]
  cases List.mem_cons.1 hmem with
  | inl hfirst => rw [← hfirst]
  | inr hlater =>
    cases List.mem_cons.1 hmem' with
    | inl hfirst' => rw [← hfirst']
    | inr hlater' =>
      have hlt := String.lt_trans (h _ hlater') (h' _ hlater)
      exact absurd hlt (String.lt_irrefl _)

theorem eq_of_assoc? {l l' : List (String × α)} (h : l.Pairwise (fun a b => a.1 < b.1))
    (h' : l'.Pairwise (fun a b => a.1 < b.1)) (heq : ∀ key, assoc? key l = assoc? key l') :
    l = l' := by
  induction l generalizing l' with
  | nil =>
    cases l' with
    | nil => rfl
    | cons entry' rest' => simpa [assoc?] using heq entry'.1
  | cons entry rest ih =>
    cases l' with
    | nil => simpa [assoc?] using heq entry.1
    | cons entry' rest' =>
      obtain ⟨hentry, hrest⟩ := List.pairwise_cons.1 h
      obtain ⟨hentry', hrest'⟩ := List.pairwise_cons.1 h'
      have hkey := fst_eq_of_assoc? hentry hentry' heq
      have hvalue : entry.2 = entry'.2 := by simpa [assoc?, hkey] using heq entry.1
      have hrests : rest = rest' := by
        apply ih hrest hrest'
        intro key
        by_cases hfirst : key = entry.1
        . subst hfirst
          rw [assoc?_eq_none_of_lt hentry, assoc?_eq_none_of_lt (hkey ▸ hentry')]
        . simpa [assoc?, hfirst, ← hkey] using heq key
      rw [hrests, Prod.ext hkey hvalue]

theorem ext_get? {d d' : Dictionary α} (h : ∀ key, d.get? key = d'.get? key) : d = d' := by
  obtain ⟨l, hl⟩ := d
  obtain ⟨l', hl'⟩ := d'
  have heq : l = l' := eq_of_assoc? hl hl' h
  subst heq
  rfl

theorem insertAll_insertAll_self (d : Dictionary α) (pairs : List (String × α)) :
    (d.insertAll pairs).insertAll pairs = d.insertAll pairs := by
  apply ext_get?
  intro key
  rw [get?_insertAll (d.insertAll pairs), get?_insertAll, ← Option.or_assoc, Option.or_self]

end Dictionary

namespace Layer

def topmost (layers : List Layer) (key : String) : Option String :=
  layers.reverse.findSome? fun l => l.properties.get? key

@[simp]
theorem topmost_nil (key : String) : topmost [] key = none := rfl

theorem topmost_append (layers layers' : List Layer) (key : String) :
    topmost (layers ++ layers') key = (topmost layers' key).or (topmost layers key) := by
  simp only [topmost, List.reverse_append, List.findSome?_append]

@[simp]
theorem topmost_singleton (l : Layer) (key : String) : topmost [l] key = l.properties.get? key := by
  simp [topmost]

theorem topmost_cons (l : Layer) (layers : List Layer) (key : String) :
    topmost (l :: layers) key = (topmost layers key).or (l.properties.get? key) := by
  rw [← topmost_singleton, ← topmost_append]
  rfl

theorem get?_merge (layers : List Layer) (key : String) :
    (merge layers).get? key = topmost layers key := by
  -- the properties from which the fold starts are those of the layers before
  have hfold : ∀ d : Properties,
      (layers.foldl (fun merged l => merged.insertAll l.properties.toList) d).get? key
        = (topmost layers key).or (d.get? key) := by
    induction layers with
    | nil =>
      intro d
      rfl
    | cons l layers ih =>
      intro d
      rw [List.foldl_cons, ih, Dictionary.get?_insertAll_toList, topmost_cons, Option.or_assoc]
  rw [merge, hfold]
  simp

end Layer
end Overlay
