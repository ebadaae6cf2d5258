import Mathlib.Data.List.Nodup
import Overlay.Proofs.Expansion.Meaning
import Overlay.Proofs.Expansion.Reference

/-!
This module contains when expansion succeeds and which errors it ends with otherwise. A run that
succeeds has met no cycle, as the derivation of a full expansion cannot be circular. A run that
fails does so with a chain of references that bears its error out.
-/

namespace Overlay
namespace Expansion

open Placeholder
open Relation

variable {look : String → Option String} {start : String → Prop}
variable {active : List String} {room : Nat} {n : String} {p p' : Pass}

-- Following a reference leads from a derivation to a smaller one, so this is an induction on it.
theorem Expands.cycleFree {cs out : List Char} (h : Expands look cs out) :
    ∀ n, Mentions cs n → CycleFree look n := by
  induction h with
  | nil =>
    intro n hn
    exact absurd hn not_mentions_nil
  | char hc _ ih =>
    intro n hn
    exact ih n ((mentions_char hc).1 hn)
  | undefined hinner hlook _ ih =>
    intro n hn
    rcases (mentions_token hinner).1 hn with rfl | hn
    . apply cycleFree_of_refers
      rintro m ⟨raw, hraw, _⟩
      rw [hlook] at hraw
      contradiction
    . exact ih n hn
  | defined hinner hlook _ _ ihvalue ih =>
    intro n hn
    rcases (mentions_token hinner).1 hn with rfl | hn
    . apply cycleFree_of_refers
      rintro m ⟨raw, hraw, hm⟩
      rw [hlook] at hraw
      injection hraw with hraw
      subst hraw
      exact ihvalue m hm
    . exact ih n hn

/--
Errors of which a chain of references from the starting names shows that they are justified.
-/
inductive Blamed (look : String → Option String) (start : String → Prop) : ConfigError → Prop where
  | cycle {names : List String} {n : String} : Chain look start (names ++ [n]) → names.Nodup →
      n ∈ names → names.length ≤ maxDepth → Blamed look start (.cyclicReference (names ++ [n]))
  | depth {names : List String} {n : String} : Chain look start (names ++ [n]) →
      (names ++ [n]).Nodup → (look n).isSome → names.length = maxDepth →
      Blamed look start (.referenceTooDeep n maxDepth)

-- The active names are the chain that leads to the text being expanded, so the chain grows by the
-- name of the token at which the run over that text stops.
theorem expandName_blamed {e : ConfigError} (hroom : active.length + room = maxDepth)
    (hnodup : active.Nodup) (hchain : Chain look start (active ++ [n]))
    (h : expandName look room active n p = (.error e, p')) : Blamed look start e := by
  induction room generalizing active n p with
  | zero =>
    rcases expandName_eq_error_iff.1 h with
      ⟨hmem, rfl, _⟩ | ⟨hmem, raw, hlook, ⟨_, rfl, _⟩ | ⟨less, hless, _⟩⟩
    . exact .cycle hchain hnodup hmem (by omega)
    . apply Blamed.depth hchain
      . rw [← List.concat_eq_append]
        exact hnodup.concat hmem
      . rw [hlook]
        rfl
      . omega
    . contradiction
  | succ room ih =>
    rcases expandName_eq_error_iff.1 h with
      ⟨hmem, rfl, _⟩ | ⟨hmem, raw, hlook, ⟨hzero, _⟩ | ⟨less, hless, hrun⟩⟩
    . exact .cycle hchain hnodup hmem (by omega)
    . contradiction
    . injection hless with hless
      subst hless
      obtain ⟨m, q, hm, hfind⟩ := (stops_of_substitute hrun).exists_find
      refine ih ?_ ?_ ?_ hfind
      . simp only [List.length_append, List.length_singleton]
        omega
      . rw [← List.concat_eq_append]
        exact hnodup.concat hmem
      . exact hchain.snoc ⟨raw, hlook, hm⟩

theorem expand_blamed {raw : String} {e : ConfigError} (hlength : active.length ≤ maxDepth)
    (hnodup : active.Nodup)
    (hchain : ∀ n, Mentions raw.toList n → Chain look start (active ++ [n]))
    (h : (expand look active raw p).1 = .error e) : Blamed look start e := by
  obtain ⟨_, _, hstop⟩ := exists_stops_of_expand h
  obtain ⟨n, q, hn, hfind⟩ := hstop.exists_find
  exact expandName_blamed (by omega) hnodup (hchain n hn) hfind

theorem resolve_blamed {raw : String} {e : ConfigError} (h : (resolve look raw).1 = .error e) :
    Blamed look (Mentions raw.toList) e := by
  apply expand_blamed (by simp) .nil _ h
  intro n hn
  exact .singleton hn

-- The key counts as the first name of every chain, and its value leads to the others.
theorem value_blamed {props : Properties} {key raw : String} {e : ConfigError}
    (hraw : props.get? key = some raw) (h : (props.value key).result = .error e) :
    Blamed props.get? (· = key) e := by
  rw [Properties.result_value_of_get?_eq_some hraw] at h
  apply expand_blamed (by simp [maxDepth]) (List.nodup_singleton key) _ h
  intro n hn
  have hkey : Chain props.get? (· = key) ([] ++ [key]) := .singleton rfl
  exact hkey.snoc ⟨raw, hraw, hn⟩

structure Outcome (look : String → Option String) (start : String → Prop)
    (result : Except ConfigError String) : Prop where
  succeeds : ¬MeetsCycle look start →
    (∀ names, Chain look start names → (∀ n ∈ names, (look n).isSome) →
      names.length ≤ maxDepth) →
    ∃ s, result = .ok s
  stops : MeetsCycle look start →
    ∃ e, result = .error e ∧
      ((∃ chain, e = .cyclicReference chain) ∨ ∃ n, e = .referenceTooDeep n maxDepth)
  spares : ¬MeetsCycle look start → ∀ chain, result ≠ .error (.cyclicReference chain)

theorem Outcome.of_blamed {result : Except ConfigError String}
    (hok : ∀ s, result = .ok s → ¬MeetsCycle look start)
    (herror : ∀ e, result = .error e → Blamed look start e) : Outcome look start result := by
  constructor
  . intro hcycle hshort
    cases hresult : result with
    | ok s => exact ⟨s, rfl⟩
    | error e =>
      cases herror e hresult with
      | cycle hchain _ hmem _ => exact absurd (hchain.meetsCycle hmem) hcycle
      | @depth names n hchain _ hdefined hlength =>
        -- with the name that is one too many, the chain is longer than any chain is supposed to be
        have hbound := hshort (names ++ [n]) hchain (hchain.forall_isSome hdefined)
        simp only [List.length_append, List.length_singleton] at hbound
        omega
  . intro hcycle
    cases hresult : result with
    | ok s => exact absurd hcycle (hok s hresult)
    | error e =>
      cases herror e hresult with
      | cycle _ _ _ _ => exact ⟨_, rfl, .inl ⟨_, rfl⟩⟩
      | depth _ _ _ _ => exact ⟨_, rfl, .inr ⟨_, rfl⟩⟩
  . intro hcycle chain hresult
    generalize herr : ConfigError.cyclicReference chain = e at hresult
    cases herror e hresult with
    | cycle hchain _ hmem _ => exact hcycle (hchain.meetsCycle hmem)
    | depth _ _ _ _ => contradiction

theorem resolve_outcome (look : String → Option String) (raw : String) :
    Outcome look (Mentions raw.toList) (resolve look raw).1 := by
  apply Outcome.of_blamed
  . intro s h
    apply not_meetsCycle_of_cycleFree
    exact ((expands_iff_of_expand_fresh h _).2 rfl).cycleFree
  . intro e h
    exact resolve_blamed h

theorem value_outcome {props : Properties} {key raw : String}
    (hraw : props.get? key = some raw) :
    Outcome props.get? (· = key) (props.value key).result := by
  apply Outcome.of_blamed
  . intro s h
    rw [Properties.result_value_of_get?_eq_some hraw] at h
    apply not_meetsCycle_of_cycleFree
    rintro n rfl
    apply cycleFree_of_refers
    rintro m ⟨raw', hraw', hm⟩
    rw [hraw] at hraw'
    injection hraw' with hraw'
    subst hraw'
    exact ((expands_iff_of_expand_fresh h _).2 rfl).cycleFree m hm
  . intro e h
    exact value_blamed hraw h

theorem expansion_outcome :
    (∀ look raw, Outcome look (Mentions raw.toList) (resolve look raw).1)
    ∧ (∀ (conf : Configuration) key raw, conf.properties.get? key = some raw →
      Outcome conf.properties.get? (· = key) (conf.properties.value key).result) := by
  constructor
  . intro look raw
    exact resolve_outcome look raw
  . intro conf key raw hraw
    exact value_outcome hraw

/--
Properties whose names refer to each other in a cycle, behind a name that does not belong to it.
-/
def looping : Properties :=
  .ofList [("a", "${z}/${b}"), ("b", "x${ c }"), ("c", "${b}")]

theorem expansion_outcome_looping :
    looping.get? "a" = some "${z}/${b}"
    ∧ MeetsCycle looping.get? (· = "a")
    ∧ ∃ e, (looping.value "a").result = .error e
      ∧ ((∃ chain, e = .cyclicReference chain) ∨ ∃ n, e = .referenceTooDeep n maxDepth) := by
  have ha : looping.get? "a" = some "${z}/${b}" := by decide +kernel
  have hb : looping.get? "b" = some "x${ c }" := by decide +kernel
  have hc : looping.get? "c" = some "${b}" := by decide +kernel
  have hab : Refers looping.get? "a" "b" := ⟨_, ha, mem_names_iff.1 (by decide +kernel)⟩
  have hbc : Refers looping.get? "b" "c" := ⟨_, hb, mem_names_iff.1 (by decide +kernel)⟩
  have hcb : Refers looping.get? "c" "b" := ⟨_, hc, mem_names_iff.1 (by decide +kernel)⟩
  have hcycle : MeetsCycle looping.get? (· = "a") :=
    ⟨"a", "b", rfl, .single hab, .tail (.single hbc) hcb⟩
  exact ⟨ha, hcycle, (expansion_outcome.2 ⟨looping, [], []⟩ "a" _ ha).stops hcycle⟩

end Expansion
end Overlay
