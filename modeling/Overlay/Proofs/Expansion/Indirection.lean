import Overlay.Proofs.Expansion.Concatenation
import Overlay.Proofs.Expansion.Evidence
import Overlay.Proofs.Text

/-!
This module contains that a value is read through a token as it is read directly, with the same
errors. A key whose value is nothing but a token is one name further away from the limit, and this
is the only thing that can keep it from being read.
-/

namespace Overlay
namespace Expansion

open Placeholder
open Relation

variable {α : Type} {look : String → Option String} {find : String → Step (Option String)}
variable {active : List String} {n raw s : String} {inner : List Char} {p : Pass}

/--
What is known before a step decides about its result and about what is known afterwards. The other
records of the run do not matter.
-/
def GoesByMemo (step : Step α) : Prop :=
  ∀ p p' : Pass, p.memo = p'.memo →
    ∃ result q q', step p = (result, q) ∧ step p' = (result, q') ∧ q.memo = q'.memo

theorem consult_goesByMemo (h : GoesByMemo (find n)) : GoesByMemo (consult find n) := by
  intro p p' hmemo
  have hknown : p.known? n = p'.known? n := by
    unfold Pass.known?
    rw [hmemo]
  rw [consult, consult, hknown]
  cases p'.known? n with
  | some value => exact ⟨_, _, _, rfl, rfl, hmemo⟩
  | none =>
    obtain ⟨result, q, q', hfind, hfind', hq⟩ := h p p' hmemo
    rw [hfind, hfind']
    cases result with
    | error e => exact ⟨_, _, _, rfl, rfl, hq⟩
    | ok value => exact ⟨_, _, _, rfl, rfl, congrArg (fun memo => memo.insert n value) hq⟩

theorem substitute_goesByMemo (h : ∀ n, GoesByMemo (find n)) (pieces : List Piece) :
    GoesByMemo (substitute find pieces) := by
  induction pieces with
  | nil => exact fun _ _ hmemo => ⟨_, _, _, rfl, rfl, hmemo⟩
  | cons piece pieces ih =>
    intro p p' hmemo
    cases piece with
    | char c =>
      obtain ⟨result, q, q', hrest, hrest', hq⟩ := ih p p' hmemo
      rw [substitute, substitute, hrest, hrest']
      cases result with
      | error e => exact ⟨_, _, _, rfl, rfl, hq⟩
      | ok rest => exact ⟨_, _, _, rfl, rfl, hq⟩
    | token inner =>
      obtain ⟨result, q, q', hconsult, hconsult', hq⟩ :=
        consult_goesByMemo (h (name inner)) p p' hmemo
      rw [substitute, substitute, hconsult, hconsult']
      cases result with
      | error e => exact ⟨_, _, _, rfl, rfl, hq⟩
      | ok value? =>
        cases value? with
        | none =>
          obtain ⟨result, r, r', hrest, hrest', hr⟩ := ih q q' hq
          dsimp only
          rw [hrest, hrest']
          cases result with
          | error e => exact ⟨_, _, _, rfl, rfl, hr⟩
          | ok rest => exact ⟨_, _, _, rfl, rfl, hr⟩
        | some value =>
          obtain ⟨result, r, r', hrest, hrest', hr⟩ := ih q.replace q'.replace hq
          dsimp only
          rw [hrest, hrest']
          cases result with
          | error e => exact ⟨_, _, _, rfl, rfl, hr⟩
          | ok rest => exact ⟨_, _, _, rfl, rfl, hr⟩

theorem expandName_goesByMemo (room : Nat) (active : List String) (n : String) :
    GoesByMemo (expandName look room active n) := by
  induction room generalizing active n with
  | zero =>
    intro p p' hmemo
    rw [expandName.eq_def, expandName.eq_def]
    split
    . exact ⟨_, _, _, rfl, rfl, hmemo⟩
    . split
      . exact ⟨_, _, _, rfl, rfl, hmemo⟩
      . exact ⟨_, _, _, rfl, rfl, hmemo⟩
  | succ room ih =>
    intro p p' hmemo
    rw [expandName.eq_def, expandName.eq_def]
    split
    . exact ⟨_, _, _, rfl, rfl, hmemo⟩
    . split
      . exact ⟨_, _, _, rfl, rfl, hmemo⟩
      . next raw _ =>
        obtain ⟨result, q, q', hrun, hrun', hq⟩ :=
          substitute_goesByMemo (ih (active ++ [n])) (scan raw.toList) (p.ask n) (p'.ask n) hmemo
        dsimp only
        rw [hrun, hrun']
        cases result with
        | error e => exact ⟨_, _, _, rfl, rfl, hq⟩
        | ok text => exact ⟨_, _, _, rfl, rfl, hq⟩

theorem scan_token_text (hinner : BraceFree inner) :
    scan (Piece.token inner).text = [.token inner] := by
  have h : scan ((Piece.token inner).text ++ []) = .token inner :: scan [] := scan_token hinner
  rw [List.append_nil] at h
  exact h

-- Both runs go over the value with the name as the only active one and with the same room. The one
-- over the token has asked for the name before.
theorem result_resolve_token (hinner : BraceFree inner) (hraw : look (name inner) = some raw) :
    (resolve look (String.ofList (Piece.token inner).text)).1
      =
    (resolveProperty look (name inner) raw).1 := by
  obtain ⟨result, q, q', hrun, hrun', _⟩ :=
    substitute_goesByMemo (@expandName_goesByMemo look (maxDepth - 1) [name inner])
      (scan raw.toList) (Pass.fresh.ask (name inner)) .fresh rfl
  cases result with
  | error e =>
    have hfind : expandName look maxDepth [] (name inner) .fresh = (.error e, q) :=
      expandName_eq_error_iff.2 (.inr ⟨List.not_mem_nil, raw, hraw, .inr ⟨_, rfl, hrun⟩⟩)
    have hresolve : resolve look (String.ofList (Piece.token inner).text) = (.error e, q) := by
      apply expand_eq_error_iff.2
      rw [String.toList_ofList, scan_token_text hinner, List.length_nil, Nat.sub_zero, substitute,
        consult_eq_error_iff.2 ⟨rfl, hfind⟩]
    have hproperty : resolveProperty look (name inner) raw = (.error e, q') :=
      expand_eq_error_iff.2 hrun'
    rw [hresolve, hproperty]
  | ok out =>
    have hfind : expandName look maxDepth [] (name inner) .fresh
        = (.ok (some (String.ofList out)), q) :=
      expandName_eq_ok_iff.2 ⟨List.not_mem_nil, .inr ⟨raw, _, out, hraw, rfl, rfl, hrun⟩⟩
    have hresolve : resolve look (String.ofList (Piece.token inner).text)
        = (.ok (String.ofList out), (q.learn (name inner) (some (String.ofList out))).replace) := by
      apply expand_eq_ok_iff.2
      refine ⟨out, rfl, ?_⟩
      rw [String.toList_ofList, scan_token_text hinner, List.length_nil, Nat.sub_zero, substitute,
        consult_eq_ok_iff.2 (.inr ⟨rfl, q, hfind, rfl⟩)]
      simp [substitute]
    have hproperty : resolveProperty look (name inner) raw = (.ok (String.ofList out), q') :=
      expand_eq_ok_iff.2 ⟨out, rfl, hrun'⟩
    rw [hresolve, hproperty]

-- Which names are active does not matter for what comes out.
theorem expand_fresh_unique {active' : List String} {s' : String}
    (h : (expand look active raw .fresh).1 = .ok s)
    (h' : (expand look active' raw .fresh).1 = .ok s') : s' = s := by
  have hexpands : Expands look raw.toList s'.toList := (expands_iff_of_expand_fresh h' _).2 rfl
  exact String.toList_inj.1 ((expands_iff_of_expand_fresh h _).1 hexpands)

-- With no active name and more room, what succeeds with one also succeeds.
theorem resolve_of_resolveProperty {key : String} (h : (resolveProperty look key raw).1 = .ok s) :
    (resolve look raw).1 = .ok s := by
  obtain ⟨_, _, hrun⟩ := exists_runs_of_expand h
  have htransfer : ∀ n, Mentions raw.toList n →
      Transfers look (expandName look (maxDepth - 1) [key]) (expandName look maxDepth []) n := by
    intro n _
    apply expandName_transfers (Nat.sub_le _ _)
    intro m hm
    exact absurd hm List.not_mem_nil
  obtain ⟨out, q, hrun'⟩ := hrun.transfer (expandName_teaches _ _) (expandName_teaches _ _)
    htransfer .fresh (fun _ hm => hm) Pass.closed_fresh
  have hresolve : resolve look raw = (.ok (String.ofList out), q) :=
    expand_eq_ok_iff.2 ⟨out, rfl, substitute_of_runs hrun'⟩
  have hout : String.ofList out = s := by
    apply expand_fresh_unique h
    rw [← resolve, hresolve]
  rw [hresolve, hout]

section Alias

variable {props : Properties} {other : String}

theorem value_of_value_alias (hinner : BraceFree inner) (hraw : props.get? (name inner) = some raw)
    (hother : props.get? other = some (String.ofList (Piece.token inner).text))
    (h : (props.value other).result = .ok s) : (props.value (name inner)).result = .ok s := by
  rw [Properties.result_value_of_get?_eq_some hother] at h
  rw [Properties.result_value_of_get?_eq_some hraw, ← result_resolve_token hinner hraw]
  exact resolve_of_resolveProperty h

theorem value_alias (hinner : BraceFree inner) (hraw : props.get? (name inner) = some raw)
    (hother : props.get? other = some (String.ofList (Piece.token inner).text))
    (h : (props.value (name inner)).result = .ok s) :
    (props.value other).result = .ok s
      ∨ ∃ n, (props.value other).result = .error (.referenceTooDeep n maxDepth) := by
  rw [Properties.result_value_of_get?_eq_some hraw, ← result_resolve_token hinner hraw] at h
  cases hresult : (props.value other).result with
  | ok s' =>
    rw [Properties.result_value_of_get?_eq_some hother] at hresult
    rw [expand_fresh_unique h hresult]
    exact .inl rfl
  | error e =>
    cases value_blamed hother hresult with
    | cycle hchain _ hmem _ =>
      have hexpands : Expands props.get? _ s.toList := (expands_iff_of_expand_fresh h _).2 rfl
      have hfree : CycleFree props.get? other := by
        apply cycleFree_of_refers
        intro m hm
        exact hexpands.cycleFree m ((refers_iff hother).1 hm)
      obtain ⟨_, m, rfl, hreach, hcycle⟩ := hchain.meetsCycle hmem
      exact absurd hcycle (hfree m hreach)
    | @depth _ n _ _ _ _ => exact .inr ⟨n, rfl⟩

end Alias

def tokenText (left : List Char) (n : String) (right : List Char) : String :=
  String.ofList (Piece.token (left ++ n.toList ++ right)).text

theorem braceFree_of_blank {cs : List Char} (h : ∀ c ∈ cs, Text.isBlank c = true) :
    BraceFree cs := by
  intro c hc
  have hblank := h c hc
  constructor
  . rintro rfl
    contradiction
  . rintro rfl
    contradiction

theorem value_through_token {conf : Configuration} {key : String} {left right : List Char}
    (hkey : conf.properties.contains key = true) (hfree : BraceFree key.toList)
    (htrim : Text.trim key.toList = key.toList) (hleft : ∀ c ∈ left, Text.isBlank c = true)
    (hright : ∀ c ∈ right, Text.isBlank c = true) :
    (resolve conf.properties.get? (tokenText left key right)).1 = (conf.properties.value key).result
    ∧ ∀ other, conf.properties.get? other = some (tokenText left key right) → ∀ s,
      ((conf.properties.value other).result = .ok s → (conf.properties.value key).result = .ok s)
      ∧ ((conf.properties.value key).result = .ok s →
        (conf.properties.value other).result = .ok s
        ∨ ∃ n, (conf.properties.value other).result = .error (.referenceTooDeep n 64)) := by
  have hinner : BraceFree (left ++ key.toList ++ right) := by
    intro c hc
    rcases List.mem_append.1 hc with hc | hc
    . rcases List.mem_append.1 hc with hc | hc
      . exact braceFree_of_blank hleft c hc
      . exact hfree c hc
    . exact braceFree_of_blank hright c hc
  have hname : name (left ++ key.toList ++ right) = key := by
    rw [name, Text.trim_pad htrim hleft hright, String.ofList_toList]
  obtain ⟨raw, hraw⟩ := Option.isSome_iff_exists.1 hkey
  rw [← hname] at hraw
  refine ⟨?_, ?_⟩
  . rw [tokenText, result_resolve_token hinner hraw, ← Properties.result_value_of_get?_eq_some hraw,
      hname]
  . intro other hother s
    have hdirect := value_of_value_alias hinner hraw hother (s := s)
    have hthrough := value_alias hinner hraw hother (s := s)
    rw [hname] at hdirect hthrough
    exact ⟨hdirect, hthrough⟩

-- The second name of the ladder is just near enough to its end, and the first one is its alias.
theorem value_through_token_ladder :
    (resolve ladder.get? "${ 1  }").1 = .ok "end"
    ∧ (ladder.value "1").result = .ok "end"
    ∧ ladder.get? "0" = some "${1}"
    ∧ ((ladder.value "0").result = .ok "end"
      ∨ ∃ n, (ladder.value "0").result = .error (.referenceTooDeep n 64))
    ∧ (ladder.value "0").result = .error (.referenceTooDeep (rung 64) 64) := by
  have hkey : ladder.contains "1" = true := by decide +kernel
  have hfree : BraceFree "1".toList := by simp [BraceFree]
  have htrim : Text.trim "1".toList = "1".toList := by decide
  have hend : (ladder.value "1").result = .ok "end" := by decide +kernel
  have hother : ladder.get? "0" = some "${1}" := by decide +kernel
  have hpadded := (@value_through_token ⟨ladder, [], []⟩ "1" [' '] [' ', ' '] hkey hfree htrim
    (List.all_eq_true.1 (by decide)) (List.all_eq_true.1 (by decide))).1
  have hplain := (@value_through_token ⟨ladder, [], []⟩ "1" [] [] hkey hfree htrim
    (List.forall_mem_nil _) (List.forall_mem_nil _)).2 "0" hother "end"
  refine ⟨?_, hend, hother, hplain.2 hend, by decide +kernel⟩
  rw [← hend]
  exact hpadded

end Expansion
end Overlay
