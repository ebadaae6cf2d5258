import Mathlib.Data.List.Chain
import Mathlib.Logic.Relation
import Overlay.Proofs.Placeholder

/-!
This module contains the graph of names: which names refer to each other, the chains of references
that begin at given names, and the cycles that such chains can run into.
-/

namespace Overlay
namespace Expansion

open Placeholder
open Relation

def Refers (look : String → Option String) (n m : String) : Prop :=
  ∃ raw, look n = some raw ∧ Mentions raw.toList m

/--
Names of which each refers to the next one, the first of them being a starting name.
-/
structure Chain (look : String → Option String) (start : String → Prop) (names : List String) :
    Prop where
  head : ∀ n ∈ names.head?, start n
  refers : names.IsChain (Refers look)

def references (look : String → Option String) (n : String) : List String :=
  match look n with
  | none => []
  | some raw => Placeholder.names raw.toList

def CycleFree (look : String → Option String) (n : String) : Prop :=
  ∀ m, ReflTransGen (Refers look) n m → ¬TransGen (Refers look) m m

/--
From one of the starting names, references lead to a name that refers back to itself.
-/
def MeetsCycle (look : String → Option String) (start : String → Prop) : Prop :=
  ∃ n m, start n ∧ ReflTransGen (Refers look) n m ∧ TransGen (Refers look) m m

variable {look : String → Option String} {start : String → Prop}
variable {names : List String} {n m : String}

theorem refers_iff {raw : String} (h : look n = some raw) :
    Refers look n m ↔ Mentions raw.toList m := by
  simp [Refers, h]

theorem not_refers_of_eq_none (h : look n = none) : ¬Refers look n m := by
  simp [Refers, h]

theorem references_eq_names {raw : String} (h : look n = some raw) :
    references look n = Placeholder.names raw.toList := by
  unfold references
  rw [h]

theorem references_eq_nil (h : look n = none) : references look n = [] := by
  unfold references
  rw [h]

theorem mem_references_iff : m ∈ references look n ↔ Refers look n m := by
  cases h : look n with
  | none => simp [references_eq_nil h, not_refers_of_eq_none h]
  | some raw => rw [references_eq_names h, refers_iff h, mem_names_iff]

instance : Decidable (Refers look n m) := decidable_of_iff _ mem_references_iff

theorem not_meetsCycle_of_cycleFree (h : ∀ n, start n → CycleFree look n) :
    ¬MeetsCycle look start := by
  rintro ⟨n, m, hn, hreach, hcycle⟩
  exact h n hn m hreach hcycle

theorem cycleFree_of_refers (h : ∀ m, Refers look n m → CycleFree look m) : CycleFree look n := by
  intro m hreach hcycle
  cases hreach.cases_head with
  | inl heq =>
    subst heq
    obtain ⟨next, hnext, hback⟩ := TransGen.head'_iff.1 hcycle
    exact h next hnext n hback hcycle
  | inr hstep =>
    obtain ⟨next, hnext, hreach⟩ := hstep
    exact h next hnext m hreach hcycle

-- Names that hold all names their values refer to also hold all that references lead to from them.
theorem mem_of_reachable {l : List String}
    (h : ∀ n ∈ l, ∀ raw ∈ look n, ∀ m ∈ Placeholder.names raw.toList, m ∈ l) (hn : n ∈ l)
    (hreach : ReflTransGen (Refers look) n m) : m ∈ l := by
  induction hreach with
  | refl => exact hn
  | tail _ hstep ih =>
    obtain ⟨raw, hraw, hm⟩ := hstep
    exact h _ ih raw hraw _ (mem_names_iff.2 hm)

namespace Chain

theorem singleton (h : start n) : Chain look start [n] := by
  constructor
  . intro m hm
    simp only [List.head?_cons, Option.mem_some_iff] at hm
    rw [← hm]
    exact h
  . exact List.isChain_singleton n

theorem snoc (h : Chain look start (names ++ [n])) (hm : Refers look n m) :
    Chain look start (names ++ [n] ++ [m]) := by
  constructor
  . intro k hk
    apply h.head
    simpa [List.head?_append] using hk
  . apply h.refers.append (List.isChain_singleton m)
    intro x hx y hy
    simp only [List.getLast?_concat, Option.mem_some_iff, List.head?_cons] at hx hy
    rw [← hx, ← hy]
    exact hm

theorem leads (h : Chain look start (names ++ [n])) (hm : m ∈ names) :
    TransGen (Refers look) m n := by
  have hpairwise : (names ++ [n]).Pairwise (TransGen (Refers look)) := by
    apply List.IsChain.pairwise
    apply h.refers.imp
    intro a b hab
    exact .single hab
  exact (List.pairwise_append.1 hpairwise).2.2 m hm n (by simp)

theorem isSome (h : Chain look start (names ++ [n])) (hm : m ∈ names) : (look m).isSome := by
  obtain ⟨_, ⟨raw, hraw, _⟩, _⟩ := TransGen.head'_iff.1 (h.leads hm)
  rw [hraw]
  rfl

theorem forall_isSome (h : Chain look start (names ++ [n])) (hn : (look n).isSome) :
    ∀ m ∈ names ++ [n], (look m).isSome := by
  intro m hm
  rcases List.mem_append.1 hm with hm | hm
  . exact h.isSome hm
  . rw [List.mem_singleton.1 hm]
    exact hn

theorem exists_start (h : Chain look start names) (hm : m ∈ names) :
    ∃ n, start n ∧ ReflTransGen (Refers look) n m := by
  obtain ⟨before, after, rfl⟩ := List.append_of_mem hm
  have hchain : Chain look start (before ++ [m]) := by
    have hsplit : before ++ m :: after = (before ++ [m]) ++ after := by simp
    rw [hsplit] at h
    constructor
    . intro n hn
      apply h.head
      rw [List.head?_append, hn]
      rfl
    . exact h.refers.left_of_append
  cases before with
  | nil => exact ⟨m, hchain.head m (by simp), .refl⟩
  | cons n before =>
    exact ⟨n, hchain.head n (by simp), (hchain.leads (by simp)).to_reflTransGen⟩

theorem meetsCycle (h : Chain look start (names ++ [n])) (hn : n ∈ names) :
    MeetsCycle look start := by
  obtain ⟨s, hs, hreach⟩ := h.exists_start (m := n) (by simp)
  exact ⟨s, n, hs, hreach, h.leads hn⟩

end Chain
end Expansion
end Overlay
