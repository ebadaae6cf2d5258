import Mathlib.Data.Set.Card
import Overlay.Layer.Source
import Overlay.Proofs.Toml.Order

/-!
This module contains what the properties of a TOML document are. Its leaf paths are the lists of
keys that lead to a value that is no table, and several of them can have the same name. The greatest
of these gives the name its value.
-/

namespace Overlay

theorem Dictionary.size_eq_ncard {α : Type} (d : Dictionary α) :
    d.size = {key | (d.get? key).isSome}.ncard := by
  have hkeys : {key | (d.get? key).isSome} = (d.keys.toFinset : Set String) := by
    ext key
    rw [List.coe_toFinset, Set.mem_ofPred_eq, Set.mem_ofPred_eq, Dictionary.mem_keys_iff]
  rw [hkeys, Set.ncard_coe_finset, List.toFinset_card_of_nodup d.nodup_keys, Dictionary.keys,
    List.length_map]
  rfl

namespace Toml

def Value.isTable : Value → Bool
  | .table _ => true
  | _ => false

/--
The leaf paths of a value: the lists of keys that lead from it to a value that is no table.
-/
inductive Value.LeafAt : Value → List String → Value → Prop where
  | here {v : Value} (h : v.isTable = false) : LeafAt v [] v
  | inside {entries : List (String × Value)} {key : String} {v leaf : Value} {path : List String}
      (hmem : (key, v) ∈ entries) (h : LeafAt v path leaf) :
      LeafAt (.table entries) (key :: path) leaf

/--
The name of a path: its keys joined with dots, without the empty keys that it starts with.
-/
def pathName (path : List String) : String :=
  String.intercalate "." (path.dropWhile String.isEmpty)

/--
The greatest leaf path with a name, and the value that it leads to. Paths are compared key by key.
-/
structure Value.GreatestAt (v : Value) (name : String) (path : List String) (leaf : Value) :
    Prop where
  leafAt : v.LeafAt path leaf
  named : pathName path = name
  greatest : ∀ path' leaf', v.LeafAt path' leaf' → pathName path' = name → path' ≠ path →
    path' < path

theorem foldl_extend_eq_intercalate {path : String} (h : path.isEmpty = false)
    (keys : List String) : keys.foldl extend path = String.intercalate "." (path :: keys) := by
  induction keys generalizing path with
  | nil => rw [List.foldl_nil, String.intercalate_singleton]
  | cons key keys ih =>
    have hextend : extend path key = path ++ "." ++ key := by simp [extend, h]
    have hne : (path ++ "." ++ key).isEmpty = false := by simp [String.isEmpty_eq_false_iff]
    rw [List.foldl_cons, hextend, ih hne, String.intercalate_cons_append,
      String.intercalate_cons_cons]

theorem foldl_extend (path : List String) : path.foldl extend "" = pathName path := by
  induction path with
  | nil => rfl
  | cons key path ih =>
    have hextend : extend "" key = key := rfl
    rw [List.foldl_cons, hextend, pathName, List.dropWhile_cons]
    split
    . next hempty =>
      rw [String.isEmpty_iff.1 hempty]
      exact ih
    . next hne => exact foldl_extend_eq_intercalate (Bool.eq_false_iff.2 hne) path

mutual

def Value.leafPaths : Value → List (List String × Value)
  | .table entries => entryPaths entries
  | v => [([], v)]

def entryPaths : List (String × Value) → List (List String × Value)
  | [] => []
  | (key, v) :: rest =>
    v.leafPaths.map (fun leaf => (key :: leaf.1, leaf.2)) ++ entryPaths rest

end

theorem Value.exists_of_isTable {v : Value} (h : v.isTable = true) :
    ∃ entries, v = .table entries := by
  cases v with
  | table entries => exact ⟨entries, rfl⟩
  | _ => contradiction

theorem Value.leafPaths_of_isTable_eq_false {v : Value} (h : v.isTable = false) :
    v.leafPaths = [([], v)] := by
  cases v with
  | table entries => contradiction
  | _ => rfl

theorem entryPaths_eq_flatMap (entries : List (String × Value)) :
    entryPaths entries = entries.flatMap fun entry =>
      entry.2.leafPaths.map fun leaf => (entry.1 :: leaf.1, leaf.2) := by
  induction entries with
  | nil => rfl
  | cons entry rest ih => rw [entryPaths, ih, List.flatMap_cons]

theorem mem_entryPaths_iff {entries : List (String × Value)} {path : List String} {leaf : Value} :
    (path, leaf) ∈ entryPaths entries
      ↔
    ∃ key path' v, (key, v) ∈ entries ∧ (path', leaf) ∈ v.leafPaths ∧ path = key :: path' := by
  rw [entryPaths_eq_flatMap]
  simp only [List.mem_flatMap, List.mem_map, Prod.mk.injEq, Prod.exists]
  grind

theorem Value.mem_leafPaths_iff {v leaf : Value} {path : List String} :
    (path, leaf) ∈ v.leafPaths ↔ v.LeafAt path leaf := by
  constructor
  . intro h
    induction path generalizing v with
    | nil =>
      cases hv : v.isTable with
      | false =>
        rw [leafPaths_of_isTable_eq_false hv, List.mem_singleton, Prod.mk.injEq] at h
        rw [h.2]
        exact .here hv
      | true =>
        obtain ⟨entries, rfl⟩ := exists_of_isTable hv
        rw [Value.leafPaths, mem_entryPaths_iff] at h
        obtain ⟨key, path, v, -, -, hpath⟩ := h
        contradiction
    | cons key path ih =>
      cases hv : v.isTable with
      | false => simp [leafPaths_of_isTable_eq_false hv] at h
      | true =>
        obtain ⟨entries, rfl⟩ := exists_of_isTable hv
        rw [Value.leafPaths, mem_entryPaths_iff] at h
        obtain ⟨key', path', v', hmem, hleaf, hpath⟩ := h
        injection hpath with hkey hpath
        subst hkey hpath
        exact .inside hmem (ih hleaf)
  . intro h
    induction h with
    | here h => simp [leafPaths_of_isTable_eq_false h]
    | inside hmem h ih =>
      rw [Value.leafPaths, mem_entryPaths_iff]
      exact ⟨_, _, _, hmem, ih, rfl⟩

theorem Value.Ordered.pairwise_leafPaths {v : Value} (h : v.Ordered) :
    v.leafPaths.Pairwise (fun a b => a.1 < b.1) := by
  induction h with
  | table hkeys hvalues ih =>
    rw [Value.leafPaths, entryPaths_eq_flatMap, List.pairwise_flatMap]
    constructor
    . intro entry hentry
      rw [List.pairwise_map]
      apply (ih entry hentry).imp
      intro a b hlt
      exact List.cons_lt_cons_iff.2 (.inr ⟨rfl, hlt⟩)
    . apply hkeys.imp
      intro entry entry' hlt leaf hleaf leaf' hleaf'
      obtain ⟨below, -, rfl⟩ := List.mem_map.1 hleaf
      obtain ⟨below', -, rfl⟩ := List.mem_map.1 hleaf'
      exact List.cons_lt_cons_iff.2 (.inl hlt)
  | _ => exact List.pairwise_singleton _ _

mutual

theorem Value.leavesAt_eq_map (path : String) (v : Value) :
    v.leavesAt path = v.leafPaths.map fun leaf => (leaf.1.foldl extend path, leaf.2.text) := by
  cases v with
  | table entries =>
    rw [Value.leavesAt, Value.leafPaths]
    exact leaves_eq_map path entries
  | string s => rfl
  | integer n => rfl
  | float x => rfl
  | boolean b => rfl
  | dateTime t => rfl
  | array items => rfl

theorem leaves_eq_map (path : String) (entries : List (String × Value)) :
    leaves path entries
      =
    (entryPaths entries).map fun leaf => (leaf.1.foldl extend path, leaf.2.text) := by
  cases entries with
  | nil => rfl
  | cons entry rest =>
    rw [leaves, entryPaths, List.map_append, List.map_map, Value.leavesAt_eq_map, leaves_eq_map]
    rfl

end

/--
The properties of a table: which names have a value, which value that is, and how many names there
are.
-/
structure Flattened (v : Value) (p : Properties) : Prop where
  contains_iff : ∀ name,
    p.contains name = true ↔ ∃ path leaf, v.LeafAt path leaf ∧ pathName path = name
  get?_eq_some_iff : ∀ name text,
    p.get? name = some text ↔ ∃ path leaf, v.GreatestAt name path leaf ∧ leaf.text = text
  size_eq : p.size = {name | ∃ path leaf, v.LeafAt path leaf ∧ pathName path = name}.ncard

theorem get?_flatten (entries : List (String × Value)) (name : String) :
    (flatten entries).get? name
      =
    Dictionary.lastValue? name
      ((entryPaths entries).map fun leaf => (pathName leaf.1, leaf.2.text)) := by
  rw [flatten, Dictionary.get?_ofList, leaves_eq_map]
  simp only [foldl_extend]

theorem contains_flatten_iff {entries : List (String × Value)} {name : String} :
    (flatten entries).contains name = true
      ↔
    ∃ path leaf, (Value.table entries).LeafAt path leaf ∧ pathName path = name := by
  rw [Dictionary.contains, get?_flatten, Dictionary.isSome_lastValue?_iff, List.map_map,
    List.mem_map]
  simp only [Prod.exists, ← Value.mem_leafPaths_iff]
  rfl

theorem exists_greatestAt_of_get?_flatten {entries : List (String × Value)} {name text : String}
    (h : (Value.table entries).Ordered) (htext : (flatten entries).get? name = some text) :
    ∃ path leaf, (Value.table entries).GreatestAt name path leaf ∧ leaf.text = text := by
  rw [get?_flatten] at htext
  obtain ⟨⟨path, leaf⟩, hleaf, hnamed, hvalue, hgreatest⟩ :=
    Dictionary.exists_greatest_of_lastValue? h.pairwise_leafPaths htext
  refine ⟨path, leaf, ⟨Value.mem_leafPaths_iff.1 hleaf, hnamed, ?_⟩, hvalue⟩
  intro path' leaf' hleaf' hnamed' hne
  apply hgreatest (path', leaf') (Value.mem_leafPaths_iff.2 hleaf') hnamed'
  simp [hne]

theorem Value.GreatestAt.get?_flatten {entries : List (String × Value)} {name : String}
    {path : List String} {leaf : Value} (h : (Value.table entries).Ordered)
    (hgreatest : (Value.table entries).GreatestAt name path leaf) :
    (flatten entries).get? name = some leaf.text := by
  have hcontains := contains_flatten_iff.2 ⟨path, leaf, hgreatest.leafAt, hgreatest.named⟩
  obtain ⟨text, htext⟩ := Option.isSome_iff_exists.1 hcontains
  rw [htext]
  rw [Toml.get?_flatten] at htext
  obtain ⟨⟨path', leaf'⟩, hleaf', hnamed', hvalue', hgreatest'⟩ :=
    Dictionary.exists_greatest_of_lastValue? h.pairwise_leafPaths htext
  have hlt : (path, leaf) ≠ (path', leaf') → path < path' :=
    hgreatest' (path, leaf) (Value.mem_leafPaths_iff.2 hgreatest.leafAt) hgreatest.named
  have hgt : path' ≠ path → path' < path :=
    hgreatest.greatest path' leaf' (Value.mem_leafPaths_iff.1 hleaf') hnamed'
  by_cases heq : (path, leaf) = (path', leaf')
  . injection heq with _ hleaf
    rw [← hvalue', hleaf]
  . have hne : path' ≠ path := by
      rintro rfl
      exact List.lt_irrefl _ (hlt heq)
    exact absurd (hlt heq) (List.lt_asymm (hgt hne))

theorem flattened_flatten {entries : List (String × Value)} (h : (Value.table entries).Ordered) :
    Flattened (.table entries) (flatten entries) where
  contains_iff _ := contains_flatten_iff
  get?_eq_some_iff name text := by
    constructor
    . exact exists_greatestAt_of_get?_flatten h
    . rintro ⟨path, leaf, hgreatest, rfl⟩
      exact hgreatest.get?_flatten h
  size_eq := by
    rw [Dictionary.size_eq_ncard]
    congr 1
    ext name
    exact contains_flatten_iff

-- The leaf paths determine which of them is the greatest with a name, and with it every value.
theorem Flattened.eq_of_leafAt_iff {v v' : Value} {p p' : Properties} (h : Flattened v p)
    (h' : Flattened v' p') (hleaf : ∀ path leaf, v.LeafAt path leaf ↔ v'.LeafAt path leaf) :
    p = p' := by
  have hgreatest : ∀ name path leaf,
      v.GreatestAt name path leaf ↔ v'.GreatestAt name path leaf := by
    intro name path leaf
    constructor
    . rintro ⟨hat, hnamed, hmax⟩
      exact ⟨(hleaf path leaf).1 hat, hnamed,
        fun path' leaf' hat' => hmax path' leaf' ((hleaf path' leaf').2 hat')⟩
    . rintro ⟨hat, hnamed, hmax⟩
      exact ⟨(hleaf path leaf).2 hat, hnamed,
        fun path' leaf' hat' => hmax path' leaf' ((hleaf path' leaf').1 hat')⟩
  apply Dictionary.ext_get?
  intro name
  apply Option.ext
  intro text
  simp only [h.get?_eq_some_iff, h'.get?_eq_some_iff, hgreatest]

mutual

/--
A value without the tables in it that have no values below them. Arrays stay as they are.
-/
def Value.pruned : Value → Value
  | .table entries => .table (pruneEntries entries)
  | v => v

def pruneEntries : List (String × Value) → List (String × Value)
  | [] => []
  | (key, v) :: rest =>
    match v.pruned with
    | .table [] => pruneEntries rest
    | v => (key, v) :: pruneEntries rest

end

mutual

theorem Value.leafPaths_pruned (v : Value) : v.pruned.leafPaths = v.leafPaths := by
  cases v with
  | table entries => exact entryPaths_pruneEntries entries
  | _ => rfl

theorem entryPaths_pruneEntries (entries : List (String × Value)) :
    entryPaths (pruneEntries entries) = entryPaths entries := by
  cases entries with
  | nil => rfl
  | cons entry rest =>
    rw [pruneEntries, entryPaths, ← Value.leafPaths_pruned entry.2, ← entryPaths_pruneEntries rest]
    split
    . next hempty =>
      rw [hempty]
      rfl
    . rw [entryPaths]

end

theorem flatten_pruneEntries (entries : List (String × Value)) :
    flatten (pruneEntries entries) = flatten entries := by
  apply Dictionary.ext_get?
  intro name
  rw [get?_flatten, get?_flatten, entryPaths_pruneEntries]

/--
The layer of a document has exactly the properties that the leaf paths of its table give it. It does
not depend on the order in which the document writes them, and tables without values add nothing.
-/
theorem ofText_flattened (name : String) (origin : Origin) {text : String}
    {entries : List (String × Value)} (h : read text = .ok entries) :
    (Value.table entries).Ordered
      ∧ Layer.ofText name origin text = .ok ⟨name, origin, none, flatten entries⟩
      ∧ Flattened (.table entries) (flatten entries)
      ∧ flatten (pruneEntries entries) = flatten entries
      ∧ ∀ text' entries', read text' = .ok entries' →
          (∀ path leaf,
            (Value.table entries').LeafAt path leaf ↔ (Value.table entries).LeafAt path leaf) →
          Layer.ofText name origin text' = Layer.ofText name origin text := by
  have hlayer : ∀ {text entries}, read text = .ok entries →
      Layer.ofText name origin text = .ok ⟨name, origin, none, flatten entries⟩ := by
    intro text entries h
    unfold Layer.ofText
    rw [h]
  have hflattened := flattened_flatten (ordered_read h)
  refine ⟨ordered_read h, hlayer h, hflattened, flatten_pruneEntries entries, ?_⟩
  intro text' entries' h' hleaf
  have hflattened' := flattened_flatten (ordered_read h')
  rw [hlayer h, hlayer h', hflattened'.eq_of_leafAt_iff hflattened hleaf]

def collision : String :=
  "\"a.b\" = 1\n\"\".c = 2\nc = 3\n[a]\nb = 4\n[e.f]\n"

theorem ofText_flattened_collision :
    ∃ entries,
      read collision = .ok entries
        ∧ (flatten entries).toList = [("a.b", "1"), ("c", "3")]
        ∧ Flattened (.table entries) (flatten entries) := by
  have hread : (read collision).map (fun entries => (flatten entries).toList)
      = .ok [("a.b", "1"), ("c", "3")] := by
    decide +kernel
  obtain ⟨entries, hentries, hflatten⟩ := map_eq_ok_iff.1 hread
  exact ⟨entries, hentries, hflatten, (ofText_flattened "site" .site hentries).2.2.1⟩

end Toml
end Overlay
