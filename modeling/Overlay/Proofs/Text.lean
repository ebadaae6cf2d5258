import Overlay.Text.Basic
import Overlay.Text.Split

/-!
This module contains how texts that are put together are trimmed and split: blanks around a trimmed
text are taken off again, and a text is split where two texts were joined with the delimiter.
-/

namespace Overlay
namespace Text

variable {c d : Char} {cs cs' left right : List Char}

theorem trimStart_append (h : ∀ c ∈ left, isBlank c = true) :
    trimStart (left ++ cs) = trimStart cs :=
  List.dropWhile_append_of_pos h

theorem trimEnd_append (h : ∀ c ∈ right, isBlank c = true) :
    trimEnd (cs ++ right) = trimEnd cs := by
  rw [trimEnd_eq_reverse, trimEnd_eq_reverse, List.reverse_append, trimStart_append]
  intro c hc
  exact h c (List.mem_reverse.1 hc)

theorem trimStart_of_trim_eq (h : trim cs = cs) : trimStart cs = cs := by
  have hlength : cs.length ≤ (trimStart cs).length := by
    conv => lhs; rw [← h]
    exact (trimEnd_isPrefix (trimStart cs)).length_le
  exact (List.dropWhile_suffix isBlank).eq_of_length_le hlength

theorem trim_pad (h : trim cs = cs) (hleft : ∀ c ∈ left, isBlank c = true)
    (hright : ∀ c ∈ right, isBlank c = true) : trim (left ++ cs ++ right) = cs := by
  have hstart := trimStart_of_trim_eq h
  rw [trim, List.append_assoc, trimStart_append hleft]
  cases cs with
  | nil =>
    have hblank : trimStart (right ++ []) = trimStart [] := trimStart_append hright
    rw [List.append_nil] at hblank
    rw [List.nil_append, hblank]
    rfl
  | cons c cs =>
    have hc : ∀ d ∈ (c :: cs ++ right).head?, isBlank d = false := by
      intro d hd
      apply @not_isBlank_of_mem_head? (c :: cs)
      rw [hstart]
      simpa using hd
    rw [trimStart_eq_self hc, trimEnd_append hright]
    rw [trim, hstart] at h
    exact h

theorem trim_eq_self_of_ends (hhead : ∀ c ∈ cs.head?, isBlank c = false)
    (hlast : ∀ c ∈ cs.getLast?, isBlank c = false) : trim cs = cs := by
  have hend : trimStart cs.reverse = cs.reverse := by
    apply trimStart_eq_self
    rwa [List.head?_reverse]
  rw [trim, trimStart_eq_self hhead, trimEnd_eq_reverse, hend, List.reverse_reverse]

theorem trim_eq_self (h : ∀ c ∈ cs, isBlank c = false) : trim cs = cs :=
  trim_eq_self_of_ends (fun c hc => h c (List.mem_of_mem_head? hc))
    fun c hc => h c (List.mem_of_mem_getLast? hc)

theorem not_isBlank_of_mem_getLast? (h : c ∈ (trim cs).getLast?) : isBlank c = false := by
  rw [trim, trimEnd_eq_reverse, List.getLast?_reverse] at h
  exact not_isBlank_of_mem_head? h

theorem not_isBlank_of_mem_head?_trim (h : c ∈ (trim cs).head?) : isBlank c = false := by
  apply @not_isBlank_of_mem_head? (trim cs)
  rwa [trimStart_of_trim_eq (trim_trim cs)]

theorem exists_pad (cs : List Char) :
    ∃ left right, (∀ c ∈ left, isBlank c = true) ∧ (∀ c ∈ right, isBlank c = true)
      ∧ cs = left ++ trim cs ++ right := by
  have hblank : ∀ cs : List Char, ∀ c ∈ cs.takeWhile isBlank, isBlank c = true :=
    fun cs => List.all_eq_true.1 List.all_takeWhile
  have hstart : cs = cs.takeWhile isBlank ++ trimStart cs := List.takeWhile_append_dropWhile.symm
  have hend : (trimStart cs).reverse
      = (trimStart cs).reverse.takeWhile isBlank ++ trimStart (trimStart cs).reverse :=
    List.takeWhile_append_dropWhile.symm
  refine ⟨cs.takeWhile isBlank, ((trimStart cs).reverse.takeWhile isBlank).reverse,
    hblank _, ?_, ?_⟩
  . intro c hc
    exact hblank _ c (List.mem_reverse.1 hc)
  . have hrest : trimStart cs
        = trim cs ++ ((trimStart cs).reverse.takeWhile isBlank).reverse := by
      rw [trim, trimEnd_eq_reverse, ← List.reverse_append, ← hend, List.reverse_reverse]
    rw [List.append_assoc, ← hrest, ← hstart]

theorem mem_trim (hc : c ∈ cs) (hblank : isBlank c = false) :
    c ∈ trim cs := by
  obtain ⟨left, right, hleft, hright, hcs⟩ := exists_pad cs
  rw [hcs, List.mem_append, List.mem_append] at hc
  obtain (hmem | hmem) | hmem := hc
  . rw [hleft c hmem] at hblank
    contradiction
  . exact hmem
  . rw [hright c hmem] at hblank
    contradiction

theorem toLower_eq_self_or (c : Char) : c.toLower = c ∨ 65 ≤ c.toNat ∧ c.toNat ≤ 90 := by
  unfold Char.toLower
  split
  . next h => exact .inr ⟨h.1, h.2⟩
  . exact .inl rfl

theorem not_isBlank_of_toLower (h : isBlank c.toLower = false) : isBlank c = false := by
  cases toLower_eq_self_or c with
  | inl heq => rwa [heq] at h
  | inr hupper =>
    rw [Bool.eq_false_iff]
    intro hblank
    simp only [isBlank, Bool.or_eq_true, Bool.and_eq_true, decide_eq_true_eq, beq_iff_eq] at hblank
    omega

theorem consHead_append {pieces : List (List Char)} (h : pieces ≠ []) (pieces' : List (List Char)) :
    consHead c (pieces ++ pieces') = consHead c pieces ++ pieces' := by
  cases pieces with
  | nil => contradiction
  | cons piece pieces => rfl

theorem split_singleton_cons :
    split [d] (c :: cs) = if d = c then [] :: split [d] cs else consHead c (split [d] cs) := by
  unfold split
  rw [splitAfter]
  simp

theorem split_singleton_append (cs cs' : List Char) :
    split [d] (cs ++ d :: cs') = split [d] cs ++ split [d] cs' := by
  induction cs with
  | nil => simp [split_singleton_cons]
  | cons c cs ih =>
    rw [List.cons_append, split_singleton_cons, split_singleton_cons, ih]
    split
    . rfl
    . exact consHead_append (splitAfter_ne_nil 0 cs) _

theorem split_singleton_of_not_mem (h : d ∉ cs) : split [d] cs = [cs] := by
  induction cs with
  | nil => rfl
  | cons c cs ih =>
    rw [List.mem_cons, not_or] at h
    rw [split_singleton_cons, if_neg h.1, ih h.2]
    rfl

theorem join_consHead {pieces : List (List Char)} (h : pieces ≠ []) :
    join [d] (consHead c pieces) = c :: join [d] pieces := by
  cases pieces with
  | nil => contradiction
  | cons piece pieces => cases pieces <;> rfl

theorem join_nil_cons {pieces : List (List Char)} (h : pieces ≠ []) :
    join [d] ([] :: pieces) = d :: join [d] pieces := by
  rw [join]
  . rfl
  . exact h

theorem join_split_singleton (cs : List Char) : join [d] (split [d] cs) = cs := by
  induction cs with
  | nil => rfl
  | cons c cs ih =>
    have hne : split [d] cs ≠ [] := splitAfter_ne_nil 0 cs
    rw [split_singleton_cons]
    split
    . next heq => rw [join_nil_cons hne, ih, heq]
    . rw [join_consHead hne, ih]

end Text
end Overlay
