import Overlay.Rule

/-!
This module contains when a list of rules holds, and which error it ends with otherwise.
-/

namespace Overlay
namespace Rule

theorem result_checkAll_eq_ok_iff {rules : List Rule} {p : Properties} :
    (checkAll rules p).result = .ok () ↔ ∀ rule ∈ rules, (rule.check p).result = .ok () := by
  induction rules with
  | nil => simp [checkAll]
  | cons rule rules ih =>
    rw [checkAll, List.forall_mem_cons, ← ih]
    split
    . next e hrule => simp [hrule]
    . next hrule => simp [hrule]

def FirstFails (rules : List Rule) (p : Properties) (e : ConfigError) : Prop :=
  ∃ before rule after, rules = before ++ rule :: after
    ∧ (∀ earlier ∈ before, (earlier.check p).result = .ok ())
    ∧ (rule.check p).result = .error e

theorem not_firstFails_nil {p : Properties} {e : ConfigError} : ¬FirstFails [] p e := by
  rintro ⟨before, rule, after, hrules, _, _⟩
  simp at hrules

theorem firstFails_cons_iff {rule : Rule} {rules : List Rule} {p : Properties} {e : ConfigError} :
    FirstFails (rule :: rules) p e
      ↔
    (rule.check p).result = .error e
      ∨ ((rule.check p).result = .ok () ∧ FirstFails rules p e) := by
  constructor
  . rintro ⟨before, failing, after, hrules, hbefore, hfails⟩
    cases before with
    | nil =>
      obtain ⟨rfl, _⟩ := List.cons.inj hrules
      exact .inl hfails
    | cons earlier before =>
      obtain ⟨rfl, hrest⟩ := List.cons.inj hrules
      rw [List.forall_mem_cons] at hbefore
      exact .inr ⟨hbefore.1, before, failing, after, hrest, hbefore.2, hfails⟩
  . rintro (hfails | ⟨hrule, before, failing, after, hrules, hbefore, hfails⟩)
    . exact ⟨[], rule, rules, rfl, by simp, hfails⟩
    . refine ⟨rule :: before, failing, after, by simp [hrules], ?_, hfails⟩
      rw [List.forall_mem_cons]
      exact ⟨hrule, hbefore⟩

theorem result_checkAll_eq_error_iff {rules : List Rule} {p : Properties} {e : ConfigError} :
    (checkAll rules p).result = .error e ↔ FirstFails rules p e := by
  induction rules with
  | nil => simp [checkAll, not_firstFails_nil]
  | cons rule rules ih =>
    rw [checkAll, firstFails_cons_iff, ← ih]
    split
    . next e hrule => simp [hrule]
    . next hrule => simp [hrule]

end Rule
end Overlay
