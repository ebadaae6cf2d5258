import Overlay.Proofs.Text
import Overlay.Proofs.Toml.ReadBack

/-!
This module contains how a list of items is read from a text in which they are written between
delimiters, with blanks around them. Delimiters are looked for from the left, and what they consist
of can be blank, or overlap with itself or with blanks in front of it. If a delimiter has a
character that is not blank, none is found before the end of what stands in front of the first one
that was written. If it has not, blanks and delimiters are all the same, and one that is found too
early leaves blanks behind.
-/

namespace Overlay
namespace Text

variable {c : Char} {d cs rest seg item t t' left right tail : List Char} {segs : List (List Char)}

theorem split_cons_of_not_starts (h : ¬d <+: c :: cs) :
    split d (c :: cs) = consHead c (split d cs) := by
  rw [← List.isPrefixOf_iff_prefix] at h
  rw [split, splitAfter, if_neg h, split]

theorem split_delimiter_append (hd : d ≠ []) (rest : List Char) :
    split d (d ++ rest) = [] :: split d rest := by
  obtain ⟨c, cs, rfl⟩ := List.exists_cons_of_ne_nil hd
  have hstarts : (c :: cs).isPrefixOf (c :: (cs ++ rest)) = true :=
    List.isPrefixOf_iff_prefix.2 ⟨rest, rfl⟩
  rw [List.cons_append, split, splitAfter, if_pos hstarts, splitAfter_eq_drop]
  simp [split]

theorem exists_split_eq (d cs : List Char) : ∃ seg segs, split d cs = seg :: segs :=
  List.exists_cons_of_ne_nil (splitAfter_ne_nil 0 cs)

theorem isPrefix_of_split_eq (h : split d cs = seg :: segs) : seg <+: cs := by
  induction cs generalizing seg segs with
  | nil =>
    cases h
    exact List.nil_prefix
  | cons c cs ih =>
    by_cases hstarts : d <+: c :: cs
    . rw [split, splitAfter, if_pos (List.isPrefixOf_iff_prefix.2 hstarts)] at h
      cases h
      exact List.nil_prefix
    . obtain ⟨seg', segs', hsplit⟩ := exists_split_eq d cs
      rw [split_cons_of_not_starts hstarts, hsplit] at h
      cases h
      exact (List.prefix_cons_inj c).2 (ih hsplit)

theorem not_infix_of_mem_splitAfter (hd : d ≠ []) (skip : Nat) (h : seg ∈ splitAfter d skip cs) :
    ¬d <:+: seg := by
  induction cs generalizing skip seg with
  | nil =>
    rw [splitAfter, List.mem_singleton] at h
    rwa [h, List.infix_nil]
  | cons c cs ih =>
    cases skip with
    | succ skip => exact ih skip h
    | zero =>
      by_cases hstarts : d <+: c :: cs
      . rw [splitAfter, if_pos (List.isPrefixOf_iff_prefix.2 hstarts), List.mem_cons] at h
        cases h with
        | inl hnil => rwa [hnil, List.infix_nil]
        | inr hmem => exact ih _ hmem
      . obtain ⟨head, segs, hsplit⟩ := exists_split_eq d cs
        have hall : ∀ seg ∈ head :: segs, ¬d <:+: seg := by
          intro seg hseg
          rw [← hsplit] at hseg
          exact ih 0 hseg
        change seg ∈ split d (c :: cs) at h
        rw [split_cons_of_not_starts hstarts, hsplit, consHead, List.mem_cons] at h
        cases h with
        | inr hmem => exact hall seg (List.mem_cons_of_mem _ hmem)
        | inl hhead =>
          rw [hhead, List.infix_cons_iff, not_or]
          refine ⟨?_, hall head List.mem_cons_self⟩
          intro hfront
          exact hstarts (hfront.trans ((List.prefix_cons_inj c).2 (isPrefix_of_split_eq hsplit)))

def kept (segs : List (List Char)) : List (List Char) :=
  (segs.map trim).filter fun cs => !cs.isEmpty

def fields (d cs : List Char) : List (List Char) :=
  kept (split d cs)

theorem kept_cons_of_blank (h : trim seg = []) : kept (seg :: segs) = kept segs := by
  simp [kept, h]

theorem kept_cons (h : trim seg = item) (hne : item ≠ []) :
    kept (seg :: segs) = item :: kept segs := by
  simp [kept, h, hne]

theorem trim_of_blank (h : ∀ c ∈ cs, isBlank c = true) : trim cs = [] := by
  have hpad := trim_pad trim_nil h (List.forall_mem_nil _)
  rwa [List.append_nil, List.append_nil] at hpad

theorem fields_delimiter_append (hd : d ≠ []) (rest : List Char) :
    fields d (d ++ rest) = fields d rest := by
  rw [fields, split_delimiter_append hd, kept_cons_of_blank rfl, fields]

theorem trim_within (cs : List Char) : trim cs <:+: cs := by
  obtain ⟨left, right, _, _, hcs⟩ := exists_pad cs
  exact ⟨left, right, hcs.symm⟩

/--
An item can be told from what is around it: it is not empty, it does not begin or end with a blank,
and it does not contain the delimiter.
-/
structure Clean (d item : List Char) : Prop where
  ne_nil : item ≠ []
  head : ∀ c ∈ item.head?, isBlank c = false
  last : ∀ c ∈ item.getLast?, isBlank c = false
  delimiterFree : ¬d <:+: item

theorem clean_of_mem_fields (hd : d ≠ []) (h : item ∈ fields d cs) : Clean d item := by
  rw [fields, kept, List.mem_filter, List.mem_map] at h
  obtain ⟨⟨seg, hseg, rfl⟩, hne⟩ := h
  constructor
  case ne_nil => simpa using hne
  case head =>
    intro c hc
    exact not_isBlank_of_mem_head?_trim hc
  case last =>
    intro c hc
    exact not_isBlank_of_mem_getLast? hc
  case delimiterFree =>
    intro hwithin
    exact not_infix_of_mem_splitAfter hd 0 hseg (hwithin.trans (trim_within seg))

/--
An item that can be written between delimiters: it has no character in common with them.
-/
structure Item (d item : List Char) : Prop where
  ne_nil : item ≠ []
  trim_eq : trim item = item
  disjoint : ∀ c ∈ item, c ∉ d

instance (d item : List Char) : Decidable (Item d item) :=
  decidable_of_iff (item ≠ [] ∧ trim item = item ∧ item.all (fun c => !d.elem c) = true) <| by
    simp only [List.all_eq_true, Bool.not_eq_true', List.elem_eq_mem, decide_eq_false_iff_not]
    exact ⟨fun h => ⟨h.1, h.2.1, h.2.2⟩, fun h => ⟨h.ne_nil, h.trim_eq, h.disjoint⟩⟩

def Continues (d tail : List Char) : Prop :=
  tail = [] ∨ d <+: tail

theorem Continues.exists_split (h : Continues d tail) (hd : d ≠ []) :
    ∃ segs, split d tail = [] :: segs ∧ kept segs = fields d tail := by
  rcases h with rfl | ⟨rest, rfl⟩
  . exact ⟨[], rfl, rfl⟩
  . exact ⟨split d rest, split_delimiter_append hd rest, (fields_delimiter_append hd rest).symm⟩

section Visible

/-!
Delimiters with a character that is not blank.
-/

theorem forall_mem_of_period {p : Char → Prop} (hd : d = t ++ t') (ht' : t' <+: d) (ht : t ≠ [])
    (h : ∀ c ∈ t, p c) : ∀ c ∈ d, p c := by
  have hindex : ∀ i (hi : i < d.length), p d[i] := by
    intro i
    induction i using Nat.strongRecOn with
    | ind i ih =>
      intro hi
      by_cases hlt : i < t.length
      . have hget : d[i] = t[i] := by
          simp only [hd]
          exact List.getElem_append_left hlt
        rw [hget]
        exact h _ (List.getElem_mem hlt)
      . have hpos := List.length_pos_iff.2 ht
        have hlength : d.length = t.length + t'.length := by
          rw [hd, List.length_append]
        have hshifted : i - t.length < t'.length := by omega
        have hget : d[i] = d[i - t.length] := by
          calc d[i]
            _ = t'[i - t.length] := by
              simp only [hd]
              exact List.getElem_append_right (by omega)
            _ = d[i - t.length] := ht'.getElem hshifted
        rw [hget]
        exact ih _ (by omega) _
  intro c hc
  obtain ⟨i, hi, rfl⟩ := List.getElem_of_mem hc
  exact hindex i hi

theorem not_prefix_of_visible (hvisible : ∃ c ∈ d, isBlank c = false)
    (ht : ∀ c ∈ t, isBlank c = true ∨ c ∉ d) (hne : t ≠ []) (htail : Continues d tail) :
    ¬d <+: t ++ tail := by
  obtain ⟨c, hc, hblank⟩ := hvisible
  have hnotMem : c ∉ t := by
    intro hmem
    cases ht c hmem with
    | inl h => rw [h] at hblank; contradiction
    | inr h => exact h hc
  intro hstarts
  rcases List.prefix_or_prefix_of_prefix hstarts (List.prefix_append t tail) with h | ⟨t', ht'⟩
  . exact hnotMem (h.subset hc)
  . rcases htail with rfl | ⟨rest, rfl⟩
    . rw [List.append_nil] at hstarts
      exact hnotMem (hstarts.subset hc)
    . -- The delimiter that is found and the one that was written overlap, so its period is blank.
      have hshift : t' <+: d := by
        have hrest : t' <+: d ++ rest := by
          rwa [← List.prefix_append_right_inj t, ht']
        apply List.prefix_of_prefix_length_le hrest (List.prefix_append d rest)
        rw [← ht', List.length_append]
        omega
      have hperiod : ∀ c ∈ t, isBlank c = true := by
        intro c hc
        apply (ht c hc).resolve_right
        rw [not_not, ← ht']
        exact List.mem_append_left t' hc
      rw [forall_mem_of_period ht'.symm hshift hne hperiod c hc] at hblank
      contradiction

theorem split_append_of_visible (hd : d ≠ []) (hvisible : ∃ c ∈ d, isBlank c = false)
    (hseg : ∀ c ∈ seg, isBlank c = true ∨ c ∉ d) (htail : Continues d tail) :
    ∃ segs, split d (seg ++ tail) = seg :: segs ∧ kept segs = fields d tail := by
  induction seg with
  | nil => exact htail.exists_split hd
  | cons c seg ih =>
    obtain ⟨segs, hsplit, hkept⟩ := ih fun c hc => hseg c (List.mem_cons_of_mem _ hc)
    refine ⟨segs, ?_, hkept⟩
    have hnot := not_prefix_of_visible hvisible hseg (List.cons_ne_nil c seg) htail
    rw [List.cons_append] at hnot ⊢
    rw [split_cons_of_not_starts hnot, hsplit, consHead]

end Visible

section Blank

/-!
Delimiters of blanks only.
-/

variable (hd : d ≠ []) (hblank : ∀ c ∈ d, isBlank c = true)

include hd hblank

theorem fields_trimStart (cs : List Char) : fields d (trimStart cs) = fields d cs := by
  cases cs with
  | nil => rfl
  | cons c cs =>
    by_cases hc : isBlank c = true
    . by_cases hstarts : d <+: c :: cs
      . obtain ⟨rest, hrest⟩ := hstarts
        have hlt : rest.length < (c :: cs).length := by
          rw [← hrest, List.length_append]
          have hpos := List.length_pos_iff.2 hd
          omega
        rw [← hrest, trimStart_append hblank, fields_delimiter_append hd]
        exact fields_trimStart rest
      . have hstart : trimStart (c :: cs) = trimStart cs := List.dropWhile_cons_of_pos hc
        obtain ⟨seg, segs, hsplit⟩ := exists_split_eq d cs
        have htrim : trim (c :: seg) = trim seg := by
          rw [trim, trim]
          congr 1
          exact List.dropWhile_cons_of_pos hc
        rw [hstart, fields_trimStart cs, fields, fields, split_cons_of_not_starts hstarts, hsplit]
        simp [consHead, kept, htrim]
    . rw [trimStart, List.dropWhile_cons_of_neg hc]
termination_by cs.length
decreasing_by
  . exact hlt
  . exact Nat.lt_succ_self _

theorem fields_append_of_blank (hseg : ∀ c ∈ seg, isBlank c = true) (cs : List Char) :
    fields d (seg ++ cs) = fields d cs := by
  rw [← fields_trimStart hd hblank, trimStart_append hseg, fields_trimStart hd hblank]

theorem split_append_of_blank (hseg : ∀ c ∈ seg, isBlank c = true) (htail : Continues d tail) :
    ∃ seg' segs, split d (seg ++ tail) = seg' :: segs ∧ (∀ c ∈ seg', isBlank c = true)
      ∧ kept segs = fields d tail := by
  induction seg with
  | nil =>
    obtain ⟨segs, hsplit, hkept⟩ := htail.exists_split hd
    exact ⟨[], segs, hsplit, List.forall_mem_nil _, hkept⟩
  | cons c seg ih =>
    obtain ⟨hc, hrest⟩ := List.forall_mem_cons.1 hseg
    by_cases hstarts : d <+: c :: (seg ++ tail)
    . obtain ⟨rest, heq⟩ := hstarts
      refine ⟨[], split d rest, ?_, List.forall_mem_nil _, ?_⟩
      . rw [List.cons_append, ← heq, split_delimiter_append hd]
      . rw [← fields, ← fields_delimiter_append hd, heq, ← List.cons_append,
          fields_append_of_blank hd hblank hseg]
    . obtain ⟨seg', segs, hsplit, hseg', hkept⟩ := ih hrest
      refine ⟨c :: seg', segs, ?_, List.forall_mem_cons.2 ⟨hc, hseg'⟩, hkept⟩
      rw [List.cons_append, split_cons_of_not_starts hstarts, hsplit, consHead]

end Blank

theorem split_append_of_disjoint (hd : d ≠ []) (hcs : ∀ c ∈ cs, c ∉ d)
    (h : split d rest = seg :: segs) : split d (cs ++ rest) = (cs ++ seg) :: segs := by
  induction cs with
  | nil => exact h
  | cons c cs ih =>
    obtain ⟨hc, hrest⟩ := List.forall_mem_cons.1 hcs
    have hstarts : ¬d <+: c :: (cs ++ rest) := by
      rintro ⟨after, heq⟩
      obtain ⟨c', d', rfl⟩ := List.exists_cons_of_ne_nil hd
      rw [List.cons_append, List.cons.injEq] at heq
      rw [heq.1] at hc
      exact hc List.mem_cons_self
    rw [List.cons_append, split_cons_of_not_starts hstarts, ih hrest, consHead, List.cons_append]

theorem fields_blank_append (hd : d ≠ []) (hseg : ∀ c ∈ seg, isBlank c = true)
    (htail : Continues d tail) : fields d (seg ++ tail) = fields d tail := by
  by_cases hvisible : ∃ c ∈ d, isBlank c = false
  . obtain ⟨segs, hsplit, hkept⟩ :=
      split_append_of_visible hd hvisible (fun c hc => .inl (hseg c hc)) htail
    rw [fields, hsplit, kept_cons_of_blank (trim_of_blank hseg), hkept]
  . simp only [not_exists, not_and, Bool.not_eq_false] at hvisible
    exact fields_append_of_blank hd hvisible hseg tail

theorem fields_item_append (hd : d ≠ []) (hitem : Item d item)
    (hleft : ∀ c ∈ left, isBlank c = true) (hright : ∀ c ∈ right, isBlank c = true)
    (htail : Continues d tail) :
    fields d (left ++ item ++ right ++ tail) = item :: fields d tail := by
  by_cases hvisible : ∃ c ∈ d, isBlank c = false
  . have hseg : ∀ c ∈ left ++ item ++ right, isBlank c = true ∨ c ∉ d := by
      intro c hc
      rw [List.mem_append, List.mem_append] at hc
      rcases hc with (hc | hc) | hc
      . exact .inl (hleft c hc)
      . exact .inr (hitem.disjoint c hc)
      . exact .inl (hright c hc)
    obtain ⟨segs, hsplit, hkept⟩ := split_append_of_visible hd hvisible hseg htail
    rw [fields, hsplit, kept_cons (trim_pad hitem.trim_eq hleft hright) hitem.ne_nil, hkept]
  . simp only [not_exists, not_and, Bool.not_eq_false] at hvisible
    obtain ⟨seg, segs, hsplit, hseg, hkept⟩ := split_append_of_blank hd hvisible hright htail
    have htrim : trim (item ++ seg) = item :=
      trim_pad hitem.trim_eq (List.forall_mem_nil _) hseg
    rw [List.append_assoc, List.append_assoc, fields_append_of_blank hd hvisible hleft, fields,
      split_append_of_disjoint hd hitem.disjoint hsplit, kept_cons htrim hitem.ne_nil, hkept]

/--
Segments of a text between delimiters: items with blanks around them, and in addition segments of
blanks only.
-/
inductive Padded (d : List Char) : List (List Char) → List (List Char) → Prop where
  | nil : Padded d [] []
  | blank {seg : List Char} {segs items : List (List Char)}
    (hseg : ∀ c ∈ seg, isBlank c = true) (hsegs : Padded d segs items) :
    Padded d (seg :: segs) items
  | item {left item right : List Char} {segs items : List (List Char)}
    (hleft : ∀ c ∈ left, isBlank c = true) (hitem : Item d item)
    (hright : ∀ c ∈ right, isBlank c = true) (hsegs : Padded d segs items) :
    Padded d ((left ++ item ++ right) :: segs) (item :: items)

theorem exists_join_cons (hd : d ≠ []) (seg : List Char) (segs : List (List Char)) :
    ∃ tail, join d (seg :: segs) = seg ++ tail ∧ Continues d tail
      ∧ fields d tail = fields d (join d segs) := by
  cases segs with
  | nil => exact ⟨[], (List.append_nil seg).symm, .inl rfl, rfl⟩
  | cons seg' segs =>
    refine ⟨d ++ join d (seg' :: segs), ?_, .inr (List.prefix_append _ _), ?_⟩
    . rw [join, List.append_assoc]
      exact List.cons_ne_nil seg' segs
    . exact fields_delimiter_append hd _

theorem fields_join (hd : d ≠ []) {items : List (List Char)} (h : Padded d segs items) :
    fields d (join d segs) = items := by
  induction h with
  | nil => rfl
  | @blank seg segs items hseg hsegs ih =>
    obtain ⟨tail, hjoin, htail, hfields⟩ := exists_join_cons hd seg segs
    rw [hjoin, fields_blank_append hd hseg htail, hfields, ih]
  | @item left item right segs items hleft hitem hright hsegs ih =>
    obtain ⟨tail, hjoin, htail, hfields⟩ := exists_join_cons hd (left ++ item ++ right) segs
    rw [hjoin, fields_item_append hd hitem hleft hright htail, hfields, ih]

end Text

namespace Properties

variable {p : Properties} {key delimiter : String}

theorem items_eq (delimiter text : String) :
    items delimiter text = (Text.fields delimiter.toList text.toList).map String.ofList := rfl

/--
What the items of a list are, if a value is read as one: they can be told apart, and they are those
that were put into the text.
-/
structure ListRead (p : Properties) (key delimiter : String) : Prop where
  clean : ∀ text, (p.value key).result = .ok text →
    ∃ items, (p.list key delimiter).result = .ok items
      ∧ ∀ item ∈ items, Text.Clean delimiter.toList item.toList
  decoded : ∀ raw segs (items : List String), p.get? key = some raw → ¬['$', '{'] <:+: raw.toList →
    raw.toList = Text.join delimiter.toList segs →
    Text.Padded delimiter.toList segs (items.map String.toList) →
    (p.list key delimiter).result = .ok items

theorem list_read (p : Properties) (key : String) (hdelimiter : delimiter ≠ "") :
    p.ListRead key delimiter := by
  have hd : delimiter.toList ≠ [] := by simpa using hdelimiter
  constructor
  case clean =>
    intro text htext
    refine ⟨_, result_list hdelimiter htext, ?_⟩
    intro item hitem
    rw [items_eq, List.mem_map] at hitem
    obtain ⟨cs, hcs, rfl⟩ := hitem
    rw [String.toList_ofList]
    exact Text.clean_of_mem_fields hd hcs
  case decoded =>
    intro raw segs items hraw hplain hjoin hpadded
    have hvalue := value_of_not_infix hraw hplain
    rw [result_list hdelimiter hvalue, items_eq, hjoin, Text.fields_join hd hpadded, List.map_map]
    simp [Function.comp_def]

def overlapping : Properties :=
  .ofList [("queue", " a; ; ; ;b\tc ; ;a"), ("columns", "x   y\t  x")]

theorem list_read_overlapping :
    (overlapping.list "queue" "; ;").result = .ok ["a", "b\tc", "a"]
      ∧ (overlapping.list "columns" "  ").result = .ok ["x", "y", "x"] := by
  have hspace : ∀ c ∈ [' '], Text.isBlank c = true := List.forall_mem_singleton.2 rfl
  have htab : ∀ c ∈ ['\t'], Text.isBlank c = true := List.forall_mem_singleton.2 rfl
  have hnone : ∀ c ∈ [], Text.isBlank c = true := List.forall_mem_nil _
  constructor
  . have hread := list_read overlapping "queue" (by decide : "; ;" ≠ "")
    refine hread.decoded " a; ; ; ;b\tc ; ;a" [" a".toList, " ".toList, "b\tc ".toList, "a".toList]
      ["a", "b\tc", "a"] (by decide +kernel) (by decide +kernel) (by decide) ?_
    have ha : Text.Item "; ;".toList "a".toList := by decide
    have hb : Text.Item "; ;".toList "b\tc".toList := by decide
    have hlast := Text.Padded.item hnone ha hnone .nil
    have hrest := Text.Padded.item hnone hb hspace hlast
    exact .item hspace ha hnone (.blank hspace hrest)
  . have hread := list_read overlapping "columns" (by decide : "  " ≠ "")
    refine hread.decoded "x   y\t  x" ["x".toList, " y\t".toList, "x".toList] ["x", "y", "x"]
      (by decide +kernel) (by decide +kernel) (by decide) ?_
    have hx : Text.Item "  ".toList "x".toList := by decide
    have hy : Text.Item "  ".toList "y".toList := by decide
    have hlast := Text.Padded.item hnone hx hnone .nil
    have hrest := Text.Padded.item hspace hy htab hlast
    exact .item hnone hx hnone hrest

end Properties
end Overlay
