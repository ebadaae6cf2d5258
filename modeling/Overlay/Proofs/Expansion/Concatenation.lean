import Overlay.Proofs.Expansion.Memo
import Overlay.Proofs.Expansion.Outcome

/-!
This module contains the expansion of texts that are put together from others. If the values of two
keys can be expanded each on its own, then so can a value that consists of both, and it expands to
both expansions in order.
-/

namespace Overlay
namespace Expansion

open Placeholder
open Relation

variable {look : String → Option String} {find : String → Step (Option String)}
variable {cs cs' out out' : List Char} {p p' q : Pass}

theorem Runs.append (h : Runs find cs p out q) (h' : Runs find cs' q out' p')
    (hopen : ¬EndsOpen cs) (hhead : cs'.head? ≠ some '{') :
    Runs find (cs ++ cs') p (out ++ out') p' := by
  induction h with
  | nil => exact h'
  | @char c cs _ _ _ hc _ ih =>
    have hopen' : ¬EndsOpen cs := @not_endsOpen_of_append cs [c] hopen
    exact .char (tokenless_append hc hopen hhead) (ih h' hopen')
  | kept hinner hconsult _ ih =>
    rw [List.append_assoc, List.append_assoc]
    exact .kept hinner hconsult (ih h' (not_endsOpen_of_append hopen))
  | replaced hinner hconsult _ ih =>
    rw [List.append_assoc, List.append_assoc]
    exact .replaced hinner hconsult (ih h' (not_endsOpen_of_append hopen))

theorem Runs.plain_append (hplain : '$' ∉ cs) (h : Runs find cs' p out p') :
    Runs find (cs ++ cs') p (cs ++ out) p' := by
  induction cs with
  | nil => exact h
  | cons c cs ih =>
    rw [List.mem_cons, not_or] at hplain
    exact .char (tokenless_of_ne fun hc => hplain.1 hc.symm) (ih hplain.2)

theorem value_of_plain {props : Properties} {key raw : String} (h : props.get? key = some raw)
    (hplain : '$' ∉ raw.toList) : (props.value key).result = .ok raw := by
  have hrun : Runs (expandName props.get? (maxDepth - 1) [key]) (raw.toList ++ []) .fresh
      (raw.toList ++ []) .fresh := Runs.nil.plain_append hplain
  rw [List.append_nil] at hrun
  have hexpand : expand props.get? [key] raw .fresh = (.ok raw, .fresh) :=
    expand_eq_ok_iff.2 ⟨_, String.ofList_toList.symm, substitute_of_runs hrun⟩
  rw [Properties.result_value_of_get?_eq_some h, resolveProperty, hexpand]

theorem not_reachable_of_refers_back {n m : String} (hfree : CycleFree look n)
    (hback : Refers look m n) : ¬ReflTransGen (Refers look) n m := by
  intro hreach
  exact hfree m hreach (.head' hback hreach)

/--
A text that can be expanded as the value of a key can also be expanded as a part of the value of
`whole`, whatever is known by then. No reference leads back to `whole`, which would close a cycle.
-/
theorem runs_of_resolveProperty {key whole raw s : String}
    (h : (resolveProperty look key raw).1 = .ok s)
    (hwhole : ∀ n, Mentions raw.toList n → Refers look whole n)
    (hsound : p.Sound look) (hclosed : p.Closed look) :
    ∃ q, Runs (expandName look (maxDepth - 1) [whole]) raw.toList p s.toList q
      ∧ q.Sound look ∧ q.Closed look := by
  have hexpands : Expands look raw.toList s.toList := (expands_iff_of_expand_fresh h _).2 rfl
  obtain ⟨_, _, hrun⟩ := exists_runs_of_expand h
  have htransfer : ∀ n, Mentions raw.toList n →
      Transfers look (expandName look (maxDepth - 1) [key])
        (expandName look (maxDepth - 1) [whole]) n := by
    intro n hn
    apply expandName_transfers (Nat.le_refl _)
    intro m hm
    rw [List.mem_singleton.1 hm]
    exact .inr (not_reachable_of_refers_back (hexpands.cycleFree n hn) (hwhole n hn))
  have hle : ∀ m, Pass.fresh.Knows m → p.Knows m := by
    intro m hm
    simp [Pass.Knows] at hm
  obtain ⟨out', q, hrun'⟩ := hrun.transfer (expandName_teaches _ _) (expandName_teaches _ _)
    htransfer p hle hclosed
  obtain ⟨hq, hexpands'⟩ := hrun'.sound (expandName_faithful _ _) hsound
  have hlearnt := hrun'.learnt (expandName_teaches _ _)
  rw [hexpands'.unique hexpands] at hrun'
  exact ⟨q, hrun', hq, hlearnt.closed hclosed⟩

end Expansion
end Overlay
