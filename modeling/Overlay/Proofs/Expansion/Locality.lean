import Overlay.Proofs.Expansion.Reference
import Overlay.Proofs.Expansion.Step
import Overlay.Reading

/-!
This module contains what an expansion depends on: the values of the names that references lead to,
and nothing else. Properties that agree on these names are not told apart, neither by the text that
comes out nor by the errors, the memo and the order in which names are asked.
-/

namespace Overlay
namespace Expansion

open Placeholder
open Relation

variable {find find' : String → Step (Option String)} {look look' : String → Option String}
variable {n : String}

theorem consult_congr (h : find n = find' n) : consult find n = consult find' n := by
  funext p
  rw [consult, consult, h]

theorem substitute_congr {cs : List Char} (h : ∀ n, Mentions cs n → find n = find' n) :
    substitute find (scan cs) = substitute find' (scan cs) := by
  induction cs using scan_induction with
  | nil => rfl
  | char c cs hc ih =>
    have hrest := ih fun n hn => h n ((mentions_char hc).2 hn)
    funext p
    rw [scan_char hc, substitute, substitute, hrest]
  | token inner rest hinner ih =>
    have hname := h (name inner) ((mentions_token hinner).2 (.inl rfl))
    have hrest := ih fun n hn => h n ((mentions_token hinner).2 (.inr hn))
    funext p
    rw [scan_token hinner, substitute, substitute, consult_congr hname, hrest]

/--
Two look-ups give the same values to all names that references lead to from a name.
-/
def AgreeFrom (look look' : String → Option String) (n : String) : Prop :=
  ∀ m, ReflTransGen (Refers look) n m → look m = look' m

theorem AgreeFrom.of_refers {m : String} (h : AgreeFrom look look' n) (hm : Refers look n m) :
    AgreeFrom look look' m := by
  intro k hk
  exact h k (.head hm hk)

theorem expandName_congr (room : Nat) (active : List String) (h : AgreeFrom look look' n) :
    expandName look room active n = expandName look' room active n := by
  have hn : look n = look' n := h n .refl
  induction room generalizing active n with
  | zero =>
    funext p
    rw [expandName.eq_def, expandName.eq_def look', hn]
  | succ room ih =>
    funext p
    rw [expandName.eq_def, expandName.eq_def look', ← hn]
    cases hraw : look n with
    | none => rfl
    | some raw =>
      have hinner : substitute (expandName look room (active ++ [n])) (scan raw.toList)
          = substitute (expandName look' room (active ++ [n])) (scan raw.toList) := by
        apply substitute_congr
        intro m hm
        have hagree := h.of_refers ⟨raw, hraw, hm⟩
        exact ih _ hagree (hagree m .refl)
      simp only [hinner]

theorem expand_congr {active : List String} {raw : String}
    (h : ∀ n, Mentions raw.toList n → AgreeFrom look look' n) :
    expand look active raw = expand look' active raw := by
  have hinner : substitute (expandName look (maxDepth - active.length) active) (scan raw.toList)
      = substitute (expandName look' (maxDepth - active.length) active) (scan raw.toList) := by
    apply substitute_congr
    intro n hn
    exact expandName_congr _ _ (h n hn)
  funext p
  simp only [expand, hinner]

end Expansion

theorem Properties.value_congr {p p' : Properties} {key : String}
    (h : Expansion.AgreeFrom p.get? p'.get? key) : p.value key = p'.value key := by
  have hkey : p.get? key = p'.get? key := h key .refl
  unfold value raw
  rw [← hkey]
  cases hraw : p.get? key with
  | none => rfl
  | some raw =>
    have hexpand : Expansion.resolveProperty p.get? key raw
        = Expansion.resolveProperty p'.get? key raw := by
      unfold Expansion.resolveProperty
      rw [Expansion.expand_congr]
      intro n hn
      exact h.of_refers ⟨raw, hraw, hn⟩
    simp only [hexpand]

end Overlay
