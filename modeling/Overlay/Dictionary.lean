/-!
This module contains dictionaries with text keys. Their entries are kept in ascending order of the
keys by code point, which is also the order of the keys' UTF-8 bytes, so that a dictionary is
determined by what it answers to look-ups.
-/

namespace Overlay

structure Dictionary (α : Type) where
  entries : List (String × α)
  ascending : entries.Pairwise (fun a b => a.1 < b.1)

abbrev Properties := Dictionary String

namespace Dictionary

variable {α : Type}

def insertEntry (key : String) (value : α) : List (String × α) → List (String × α)
  | [] => [(key, value)]
  | entry :: rest =>
    if key < entry.1 then
      (key, value) :: entry :: rest
    else if key = entry.1 then
      (key, value) :: rest
    else
      entry :: insertEntry key value rest

theorem mem_insertEntry {key : String} {value : α} {l : List (String × α)} {e : String × α}
    (h : e ∈ insertEntry key value l) : e = (key, value) ∨ e ∈ l := by
  induction l with
  | nil => simpa [insertEntry] using h
  | cons entry rest ih =>
    rw [insertEntry] at h
    split at h
    . simpa using h
    . split at h
      . rcases List.mem_cons.1 h with h | h <;> simp [h]
      . rcases List.mem_cons.1 h with h | h
        . simp [h]
        . rcases ih h with h | h <;> simp [h]

theorem ascending_insertEntry {key : String} {value : α} {l : List (String × α)}
    (h : l.Pairwise (fun a b => a.1 < b.1)) :
    (insertEntry key value l).Pairwise (fun a b => a.1 < b.1) := by
  induction l with
  | nil => simp [insertEntry]
  | cons entry rest ih =>
    obtain ⟨hentry, hrest⟩ := List.pairwise_cons.1 h
    rw [insertEntry]
    split
    . next hlt =>
      refine List.pairwise_cons.2 ⟨fun e he => ?_, h⟩
      rcases List.mem_cons.1 he with he | he
      . exact he ▸ hlt
      . exact String.lt_trans hlt (hentry e he)
    . next hnlt =>
      split
      . next heq =>
        subst heq
        exact List.pairwise_cons.2 ⟨hentry, hrest⟩
      . next hne =>
        refine List.pairwise_cons.2 ⟨fun e he => ?_, ih hrest⟩
        rcases mem_insertEntry he with he | he
        . subst he
          refine Decidable.byContradiction fun hge => hne ?_
          exact String.le_antisymm (String.not_lt.1 hge) (String.not_lt.1 hnlt)
        . exact hentry e he

def assoc? (key : String) : List (String × α) → Option α
  | [] => none
  | entry :: rest => if key = entry.1 then some entry.2 else assoc? key rest

def empty : Dictionary α := ⟨[], .nil⟩

instance : Inhabited (Dictionary α) := ⟨empty⟩

def get? (d : Dictionary α) (key : String) : Option α :=
  assoc? key d.entries

def contains (d : Dictionary α) (key : String) : Bool :=
  (d.get? key).isSome

def insert (d : Dictionary α) (key : String) (value : α) : Dictionary α :=
  ⟨insertEntry key value d.entries, ascending_insertEntry d.ascending⟩

def insertAll (d : Dictionary α) (pairs : List (String × α)) : Dictionary α :=
  pairs.foldl (fun d pair => d.insert pair.1 pair.2) d

def ofList (pairs : List (String × α)) : Dictionary α :=
  empty.insertAll pairs

def toList (d : Dictionary α) : List (String × α) :=
  d.entries

def keys (d : Dictionary α) : List String :=
  d.entries.map Prod.fst

def size (d : Dictionary α) : Nat :=
  d.entries.length

@[simp]
theorem get?_empty {key : String} : (empty : Dictionary α).get? key = none := rfl

theorem assoc?_insertEntry (key key' : String) (value : α) (l : List (String × α)) :
    assoc? key' (insertEntry key value l)
      = if key' = key then some value else assoc? key' l := by
  induction l with
  | nil => simp [insertEntry, assoc?]
  | cons entry rest ih =>
    rw [insertEntry]
    split
    . simp [assoc?]
    . split
      . next heq => by_cases h : key' = key <;> simp [assoc?, h, ← heq]
      . next hne =>
        by_cases h : key' = entry.1
        . have : ¬entry.1 = key := fun h' => hne h'.symm
          simp [assoc?, h, this]
        . simp [assoc?, h, ih]

theorem get?_insert (d : Dictionary α) (key key' : String) (value : α) :
    (d.insert key value).get? key' = if key' = key then some value else d.get? key' :=
  assoc?_insertEntry key key' value d.entries

@[simp]
theorem get?_insert_self (d : Dictionary α) (key : String) (value : α) :
    (d.insert key value).get? key = some value := by
  simp [get?_insert]

theorem get?_insert_of_ne (d : Dictionary α) {key key' : String} (value : α) (h : key' ≠ key) :
    (d.insert key value).get? key' = d.get? key' := by
  simp [get?_insert, h]

end Dictionary
end Overlay
