import Overlay.Expansion
import Overlay.Proofs.Placeholder

/-!
This module contains what the steps of an expansion do: looking a name up in the memo, going over
the tokens of a text and expanding a name, each with all the ways in which it ends. Everything else
about expansion is derived from these.
-/

namespace Overlay
namespace Expansion

open Placeholder

variable {find : String → Step (Option String)} {look : String → Option String}
variable {active : List String} {room : Nat} {n : String} {p p' q : Pass}

namespace Pass

@[simp]
theorem known?_fresh : fresh.known? n = none := rfl

@[simp]
theorem known?_ask {m : String} : (p.ask m).known? n = p.known? n := rfl

@[simp]
theorem known?_replace : p.replace.known? n = p.known? n := rfl

theorem known?_learn {m : String} {value : Option String} :
    (p.learn m value).known? n = if n = m then some value else p.known? n := by
  unfold learn known?
  apply Dictionary.get?_insert

end Pass

theorem consult_eq_ok_iff {value : Option String} :
    consult find n p = (.ok value, p')
      ↔
    (p.known? n = some value ∧ p' = p)
      ∨ (p.known? n = none ∧ ∃ q, find n p = (.ok value, q) ∧ p' = q.learn n value) := by
  unfold consult
  cases hknown : p.known? n with
  | some value' =>
    simp
    intro _
    exact eq_comm
  | none =>
    simp only [reduceCtorEq, false_and, true_and, false_or]
    rcases find n p with ⟨result, q⟩
    cases result with
    | error e => simp
    | ok value' =>
      simp only [Prod.mk.injEq, Except.ok.injEq]
      constructor
      . rintro ⟨rfl, rfl⟩
        exact ⟨q, ⟨rfl, rfl⟩, rfl⟩
      . rintro ⟨q', ⟨rfl, rfl⟩, rfl⟩
        exact ⟨rfl, rfl⟩

theorem consult_eq_error_iff {e : ConfigError} :
    consult find n p = (.error e, p') ↔ p.known? n = none ∧ find n p = (.error e, p') := by
  unfold consult
  cases hknown : p.known? n with
  | some value => simp
  | none =>
    rcases find n p with ⟨result, q⟩
    cases result with
    | error e' => simp
    | ok value => simp

def mapOk {α β σ : Type} (f : α → β) (outcome : Except ConfigError α × σ) :
    Except ConfigError β × σ :=
  (outcome.1.map f, outcome.2)

theorem mapOk_mapOk {α β γ σ : Type} (f : α → β) (g : β → γ)
    (outcome : Except ConfigError α × σ) :
    mapOk g (mapOk f outcome) = mapOk (fun a => g (f a)) outcome := by
  rcases outcome with ⟨_ | a, p⟩ <;> rfl

theorem mapOk_eq_ok_iff {α β σ : Type} {f : α → β} {outcome : Except ConfigError α × σ} {b : β}
    {s : σ} :
    mapOk f outcome = (.ok b, s) ↔ ∃ a, outcome = (.ok a, s) ∧ f a = b := by
  rcases outcome with ⟨_ | a, p⟩
  . simp [mapOk, Except.map]
  . simp only [mapOk, Except.map, Prod.mk.injEq, Except.ok.injEq]
    constructor
    . rintro ⟨hb, hs⟩
      exact ⟨a, ⟨rfl, hs⟩, hb⟩
    . rintro ⟨_, ⟨rfl, hs⟩, hb⟩
      exact ⟨hb, hs⟩

theorem substitute_char {c : Char} {pieces : List Piece} :
    substitute find (.char c :: pieces) p = mapOk (c :: ·) (substitute find pieces p) := by
  rw [substitute]
  rcases substitute find pieces p with ⟨_ | out, q⟩ <;> rfl

theorem substitute_token {inner : List Char} {pieces : List Piece} :
    substitute find (.token inner :: pieces) p
      =
    match consult find (name inner) p with
    | (.error e, p) => (.error e, p)
    | (.ok none, p) => mapOk ((Piece.token inner).text ++ ·) (substitute find pieces p)
    | (.ok (some value), p) => mapOk (value.toList ++ ·) (substitute find pieces p.replace) := by
  rw [substitute]
  rcases consult find (name inner) p with ⟨_ | _ | value, q⟩
  . rfl
  . dsimp only
    rcases substitute find pieces q with ⟨_ | out, r⟩ <;> rfl
  . dsimp only
    rcases substitute find pieces q.replace with ⟨_ | out, r⟩ <;> rfl

/--
A run over a text that succeeds, from what is known before to the text that comes out and what is
known after.
-/
inductive Runs (find : String → Step (Option String)) :
    List Char → Pass → List Char → Pass → Prop where
  | nil {p : Pass} : Runs find [] p [] p
  | char {c : Char} {cs out : List Char} {p p' : Pass} : Tokenless (c :: cs) →
      Runs find cs p out p' → Runs find (c :: cs) p (c :: out) p'
  | kept {inner rest out : List Char} {p q p' : Pass} : BraceFree inner →
      consult find (name inner) p = (.ok none, q) → Runs find rest q out p' →
      Runs find ((Piece.token inner).text ++ rest) p ((Piece.token inner).text ++ out) p'
  | replaced {inner rest out : List Char} {value : String} {p q p' : Pass} : BraceFree inner →
      consult find (name inner) p = (.ok (some value), q) → Runs find rest q.replace out p' →
      Runs find ((Piece.token inner).text ++ rest) p (value.toList ++ out) p'

inductive Stops (find : String → Step (Option String)) :
    List Char → Pass → ConfigError → Pass → Prop where
  | here {inner rest : List Char} {e : ConfigError} {p p' : Pass} : BraceFree inner →
      consult find (name inner) p = (.error e, p') →
      Stops find ((Piece.token inner).text ++ rest) p e p'
  | char {c : Char} {cs : List Char} {e : ConfigError} {p p' : Pass} : Tokenless (c :: cs) →
      Stops find cs p e p' → Stops find (c :: cs) p e p'
  | kept {inner rest : List Char} {e : ConfigError} {p q p' : Pass} : BraceFree inner →
      consult find (name inner) p = (.ok none, q) → Stops find rest q e p' →
      Stops find ((Piece.token inner).text ++ rest) p e p'
  | replaced {inner rest : List Char} {value : String} {e : ConfigError} {p q p' : Pass} :
      BraceFree inner → consult find (name inner) p = (.ok (some value), q) →
      Stops find rest q.replace e p' → Stops find ((Piece.token inner).text ++ rest) p e p'

-- Every run either succeeds or fails, so that the two relations cover `substitute`.
theorem substitute_cases (cs : List Char) (p : Pass) :
    (∃ out p', substitute find (scan cs) p = (.ok out, p') ∧ Runs find cs p out p')
      ∨ (∃ e p', substitute find (scan cs) p = (.error e, p') ∧ Stops find cs p e p') := by
  induction cs using scan_induction generalizing p with
  | nil => exact .inl ⟨[], p, rfl, .nil⟩
  | char c cs hc ih =>
    rw [scan_char hc, substitute]
    rcases ih p with ⟨out, p', heq, hrun⟩ | ⟨e, p', heq, hstop⟩
    . rw [heq]
      exact .inl ⟨_, _, rfl, .char hc hrun⟩
    . rw [heq]
      exact .inr ⟨_, _, rfl, .char hc hstop⟩
  | token inner rest hinner ih =>
    rw [scan_token hinner, substitute]
    rcases hconsult : consult find (name inner) p with ⟨result, q⟩
    match result with
    | .error e => exact .inr ⟨e, q, rfl, .here hinner hconsult⟩
    | .ok none =>
      rcases ih q with ⟨out, p', heq, hrun⟩ | ⟨e, p', heq, hstop⟩
      . dsimp only
        rw [heq]
        exact .inl ⟨_, _, rfl, .kept hinner hconsult hrun⟩
      . dsimp only
        rw [heq]
        exact .inr ⟨_, _, rfl, .kept hinner hconsult hstop⟩
    | .ok (some value) =>
      rcases ih q.replace with ⟨out, p', heq, hrun⟩ | ⟨e, p', heq, hstop⟩
      . dsimp only
        rw [heq]
        exact .inl ⟨_, _, rfl, .replaced hinner hconsult hrun⟩
      . dsimp only
        rw [heq]
        exact .inr ⟨_, _, rfl, .replaced hinner hconsult hstop⟩

theorem runs_of_substitute {cs out : List Char}
    (h : substitute find (scan cs) p = (.ok out, p')) : Runs find cs p out p' := by
  rcases substitute_cases cs p with ⟨out', q, heq, hrun⟩ | ⟨e, q, heq, _⟩
  . rw [h] at heq
    simp only [Prod.mk.injEq, Except.ok.injEq] at heq
    rw [heq.1, heq.2]
    exact hrun
  . rw [h] at heq
    simp at heq

theorem substitute_of_runs {cs out : List Char} (h : Runs find cs p out p') :
    substitute find (scan cs) p = (.ok out, p') := by
  induction h with
  | nil => rfl
  | char hc _ ih => rw [scan_char hc, substitute, ih]
  | kept hinner hconsult _ ih =>
    rw [scan_token hinner, substitute, hconsult]
    dsimp only
    rw [ih]
  | replaced hinner hconsult _ ih =>
    rw [scan_token hinner, substitute, hconsult]
    dsimp only
    rw [ih]

theorem stops_of_substitute {cs : List Char} {e : ConfigError}
    (h : substitute find (scan cs) p = (.error e, p')) : Stops find cs p e p' := by
  rcases substitute_cases cs p with ⟨out, q, heq, _⟩ | ⟨e', q, heq, hstop⟩
  . rw [h] at heq
    simp at heq
  . rw [h] at heq
    simp only [Prod.mk.injEq, Except.error.injEq] at heq
    rw [heq.1, heq.2]
    exact hstop

theorem Stops.exists_find {cs : List Char} {e : ConfigError} (h : Stops find cs p e p') :
    ∃ n q, Mentions cs n ∧ find n q = (.error e, p') := by
  induction h with
  | here hinner hconsult =>
    exact ⟨_, _, (mentions_token hinner).2 (.inl rfl), (consult_eq_error_iff.1 hconsult).2⟩
  | char hc _ ih =>
    obtain ⟨n, q, hn, hfind⟩ := ih
    exact ⟨n, q, (mentions_char hc).2 hn, hfind⟩
  | kept hinner _ _ ih =>
    obtain ⟨n, q, hn, hfind⟩ := ih
    exact ⟨n, q, (mentions_token hinner).2 (.inr hn), hfind⟩
  | replaced hinner _ _ ih =>
    obtain ⟨n, q, hn, hfind⟩ := ih
    exact ⟨n, q, (mentions_token hinner).2 (.inr hn), hfind⟩

theorem expandName_eq_ok_iff {value : Option String} :
    expandName look room active n p = (.ok value, p')
      ↔
    n ∉ active ∧
      ((look n = none ∧ value = none ∧ p' = p.ask n)
        ∨ ∃ raw less out, look n = some raw ∧ room = less + 1 ∧ value = some (String.ofList out) ∧
            substitute (expandName look less (active ++ [n])) (scan raw.toList) (p.ask n)
              = (.ok out, p')) := by
  rw [expandName.eq_def]
  by_cases hactive : n ∈ active
  . simp [hactive]
  . rw [if_neg hactive]
    cases hlook : look n with
    | none =>
      simp [hactive, eq_comm]
    | some raw =>
      cases room with
      | zero => simp
      | succ less =>
        simp only [hactive, not_false_eq_true, true_and, reduceCtorEq, false_and, false_or,
          Option.some.injEq, Nat.add_right_cancel_iff]
        split
        . next text q hrun =>
          simp only [Prod.mk.injEq, Except.ok.injEq]
          constructor
          . rintro ⟨rfl, rfl⟩
            exact ⟨raw, less, text, rfl, rfl, rfl, hrun⟩
          . rintro ⟨_, _, out, rfl, rfl, rfl, hrun'⟩
            rw [hrun] at hrun'
            simp only [Prod.mk.injEq, Except.ok.injEq] at hrun'
            simp [hrun']
        . next e q hrun =>
          simp only [Prod.mk.injEq, reduceCtorEq, false_and, false_iff, not_exists, not_and]
          rintro _ _ out rfl rfl _ hrun'
          rw [hrun] at hrun'
          simp at hrun'

theorem expandName_eq_error_iff {e : ConfigError} :
    expandName look room active n p = (.error e, p')
      ↔
    (n ∈ active ∧ e = .cyclicReference (active ++ [n]) ∧ p' = p)
      ∨ (n ∉ active ∧ ∃ raw, look n = some raw ∧
          ((room = 0 ∧ e = .referenceTooDeep n maxDepth ∧ p' = p.ask n)
            ∨ ∃ less, room = less + 1 ∧
                substitute (expandName look less (active ++ [n])) (scan raw.toList) (p.ask n)
                  = (.error e, p'))) := by
  rw [expandName.eq_def]
  by_cases hactive : n ∈ active
  . simp [hactive, eq_comm]
  . rw [if_neg hactive]
    cases hlook : look n with
    | none => simp [hactive]
    | some raw =>
      cases room with
      | zero => simp [hactive, eq_comm]
      | succ less =>
        simp only [hactive, not_false_eq_true, true_and, false_and, false_or, Option.some.injEq,
          Nat.add_right_cancel_iff, exists_eq_left', Nat.add_one_ne_zero]
        split
        . next text q hrun => simp [hrun]
        . next e' q hrun => simp [hrun]

theorem expand_eq_ok_iff {raw s : String} :
    expand look active raw p = (.ok s, p')
      ↔
    ∃ out, s = String.ofList out ∧
      substitute (expandName look (maxDepth - active.length) active) (scan raw.toList) p
        = (.ok out, p') := by
  unfold expand
  dsimp only
  split
  . next out q hrun =>
    simp only [hrun, Prod.mk.injEq, Except.ok.injEq]
    constructor
    . rintro ⟨rfl, rfl⟩
      exact ⟨out, rfl, rfl, rfl⟩
    . rintro ⟨_, rfl, rfl, rfl⟩
      exact ⟨rfl, rfl⟩
  . next e q hrun => simp [hrun]

theorem expand_eq_error_iff {raw : String} {e : ConfigError} :
    expand look active raw p = (.error e, p')
      ↔
    substitute (expandName look (maxDepth - active.length) active) (scan raw.toList) p
      = (.error e, p') := by
  unfold expand
  dsimp only
  split
  . next out q hrun => simp [hrun]
  . next e' q hrun => simp [hrun]

theorem expand_eq_mapOk {raw : String} :
    expand look active raw p
      =
    mapOk String.ofList
      (substitute (expandName look (maxDepth - active.length) active) (scan raw.toList) p) := by
  rw [expand]
  rcases substitute _ (scan raw.toList) p with ⟨_ | out, q⟩ <;> rfl

theorem exists_runs_of_expand {raw s : String} (h : (expand look active raw p).1 = .ok s) :
    ∃ p', expand look active raw p = (.ok s, p')
      ∧ Runs (expandName look (maxDepth - active.length) active) raw.toList p s.toList p' := by
  rcases hexpand : expand look active raw p with ⟨result, p'⟩
  rw [hexpand] at h
  subst h
  obtain ⟨out, rfl, hrun⟩ := expand_eq_ok_iff.1 hexpand
  rw [String.toList_ofList]
  exact ⟨p', rfl, runs_of_substitute hrun⟩

theorem exists_stops_of_expand {raw : String} {e : ConfigError}
    (h : (expand look active raw p).1 = .error e) :
    ∃ p', expand look active raw p = (.error e, p')
      ∧ Stops (expandName look (maxDepth - active.length) active) raw.toList p e p' := by
  rcases hexpand : expand look active raw p with ⟨result, p'⟩
  rw [hexpand] at h
  subst h
  exact ⟨p', rfl, stops_of_substitute (expand_eq_error_iff.1 hexpand)⟩

end Expansion
end Overlay
