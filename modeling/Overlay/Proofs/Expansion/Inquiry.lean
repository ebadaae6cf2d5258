import Mathlib.Data.List.Nodup
import Mathlib.Data.List.Perm.Subperm
import Overlay.Proofs.Expansion.Memo

/-!
This module contains which names a run asks for. It asks for none twice, however it ends. If it
succeeds, it has asked for the names that references lead to, in the order in which a depth-first
traversal first visits them.
-/

namespace Overlay
namespace Expansion

open Placeholder
open Relation

/--
The depth-first traversal of the references that lead from the names of a list, from left to right,
takes the names visited before to those visited afterwards, in the order of their first visits.
-/
inductive Visits (look : String → Option String) :
    List String → List String → List String → Prop where
  | done {seen : List String} : Visits look [] seen seen
  | again {n : String} {rest seen seen' : List String} : n ∈ seen → Visits look rest seen seen' →
      Visits look (n :: rest) seen seen'
  | first {n : String} {rest seen mid seen' : List String} : n ∉ seen →
      Visits look (references look n) (seen ++ [n]) mid → Visits look rest mid seen' →
      Visits look (n :: rest) seen seen'

variable {look : String → Option String} {find : String → Step (Option String)}
variable {active l l' seen mid seen' seen'' : List String} {n m : String}
variable {P : String → Prop} {p p' q : Pass} {cs out : List Char}

namespace Visits

theorem unique (h : Visits look l seen seen') (h' : Visits look l seen seen'') :
    seen' = seen'' := by
  induction h generalizing seen'' with
  | done =>
    cases h' with
    | done => rfl
  | again hn _ ih =>
    cases h' with
    | again _ hrest => exact ih hrest
    | first hn' _ _ => exact absurd hn hn'
  | first hn _ _ ihinner ih =>
    cases h' with
    | again hn' _ => exact absurd hn' hn
    | first _ hinner hrest =>
      rw [← ihinner hinner] at hrest
      exact ih hrest

theorem append (h : Visits look l seen mid) (h' : Visits look l' mid seen') :
    Visits look (l ++ l') seen seen' := by
  induction h with
  | done => exact h'
  | again hn _ ih => exact .again hn (ih h')
  | first hn hinner _ _ ih => exact .first hn hinner (ih h')

theorem keeps (h : Visits look l seen seen') (hn : n ∈ seen) : n ∈ seen' := by
  induction h with
  | done => exact hn
  | again _ _ ih => exact ih hn
  | first _ _ _ ihinner ih => exact ih (ihinner (List.mem_append_left _ hn))

end Visits

namespace Pass

structure Accounts (active : List String) (p : Pass) : Prop where
  asked : ∀ n, p.Knows n → n ∈ p.asked
  settled : ∀ n ∈ p.asked, p.Knows n ∨ n ∈ active

theorem accounts_fresh : fresh.Accounts active := by
  constructor
  . intro n hn
    simp [Knows] at hn
  . intro n hn
    simp [fresh] at hn

namespace Accounts

theorem not_mem_asked (h : p.Accounts active) (hn : ¬p.Knows n) (hactive : n ∉ active) :
    n ∉ p.asked := by
  intro hmem
  rcases h.settled n hmem with hknows | hmem
  . exact hn hknows
  . exact hactive hmem

theorem ask (h : p.Accounts active) : (p.ask n).Accounts (active ++ [n]) := by
  constructor
  . intro m hm
    exact List.mem_append_left [n] (h.asked m hm)
  . intro m hm
    rcases List.mem_append.1 hm with hm | hm
    . rcases h.settled m hm with hknows | hmem
      . exact .inl hknows
      . exact .inr (List.mem_append_left [n] hmem)
    . exact .inr (List.mem_append_right active hm)

theorem learn {value : Option String} (h : p.Accounts (active ++ [n])) (hn : n ∈ p.asked) :
    (p.learn n value).Accounts active := by
  constructor
  . intro m hm
    rcases knows_learn.1 hm with rfl | hm
    . exact hn
    . exact h.asked m hm
  . intro m hm
    rw [knows_learn]
    rcases h.settled m hm with hknows | hmem
    . exact .inl (.inr hknows)
    . rcases List.mem_append.1 hmem with hmem | hmem
      . exact .inr hmem
      . exact .inl (.inl (List.mem_singleton.1 hmem))

end Accounts
end Pass

/--
What is asked between two passes: no name that was asked before or is being expanded, and only names
of a kind.
-/
structure Asks (P : String → Prop) (active : List String) (p p' : Pass) : Prop where
  once : p.asked.Nodup → p'.asked.Nodup
  only : ∀ n ∈ p'.asked, n ∈ p.asked ∨ (n ∉ active ∧ P n)

namespace Asks

theorem refl (p : Pass) : Asks P active p p :=
  ⟨id, fun _ => .inl⟩

theorem trans (h : Asks P active p q) (h' : Asks P active q p') : Asks P active p p' := by
  constructor
  . intro hnodup
    exact h'.once (h.once hnodup)
  . intro n hn
    rcases h'.only n hn with hn | hn
    . exact h.only n hn
    . exact .inr hn

theorem ask (hn : n ∉ p.asked) (hactive : n ∉ active) (hP : P n) : Asks P active p (p.ask n) := by
  constructor
  . intro hnodup
    rw [Pass.ask, ← List.concat_eq_append]
    exact hnodup.concat hn
  . intro m hm
    rcases List.mem_append.1 hm with hm | hm
    . exact .inl hm
    . rw [List.mem_singleton.1 hm]
      exact .inr ⟨hactive, hP⟩

theorem of_snoc (h : Asks P (active ++ [n]) p p') : Asks P active p p' := by
  constructor
  . exact h.once
  . intro m hm
    rcases h.only m hm with hm | ⟨hactive, hm⟩
    . exact .inl hm
    . exact .inr ⟨fun hmem => hactive (List.mem_append_left [n] hmem), hm⟩

end Asks

/--
What a run does that succeeds: it asks for the names of a traversal, and knows them afterwards.
-/
structure Traverses (look : String → Option String) (P : String → Prop) (active : List String)
    (l : List String) (p p' : Pass) : Prop where
  asks : Asks P active p p'
  visits : Visits look l p.asked p'.asked
  accounts : p'.Accounts active

namespace Traverses

theorem trans (h : Traverses look P active l p q) (h' : Traverses look P active l' q p') :
    Traverses look P active (l ++ l') p p' :=
  ⟨h.asks.trans h'.asks, h.visits.append h'.visits, h'.accounts⟩

theorem nil (h : p.Accounts active) : Traverses look P active [] p p :=
  ⟨.refl p, .done, h⟩

theorem replace (h : Traverses look P active l p q) : Traverses look P active l p q.replace :=
  ⟨⟨h.asks.once, h.asks.only⟩, h.visits, h.accounts.asked, h.accounts.settled⟩

end Traverses

/--
Finding a name asks for that name first, and then for others while it is being expanded.
-/
structure Inquires (look : String → Option String) (P : String → Prop) (active : List String)
    (find : String → Step (Option String)) (n : String) : Prop where
  kind : P n
  ok : ∀ value p p', p.Accounts active → ¬p.Knows n → find n p = (.ok value, p') →
    n ∉ active ∧ Traverses look P (active ++ [n]) (references look n) (p.ask n) p'
  error : ∀ e p p', p.Accounts active → ¬p.Knows n → find n p = (.error e, p') →
    Asks P active p p'

theorem Traverses.of_undefined (hp : p.Accounts active) (hlook : look n = none) :
    Traverses look P (active ++ [n]) (references look n) (p.ask n) (p.ask n) := by
  rw [references_eq_nil hlook]
  exact .nil hp.ask

theorem Traverses.of_ask {value : Option String} (hP : P n) (hp : p.Accounts active)
    (hn : ¬p.Knows n) (hactive : n ∉ active)
    (h : Traverses look P (active ++ [n]) (references look n) (p.ask n) q) :
    Traverses look P active [n] p (q.learn n value) := by
  have hasked := hp.not_mem_asked hn hactive
  have hmem : n ∈ (p.ask n).asked := List.mem_append_right _ (List.mem_singleton_self n)
  constructor
  case asks =>
    have hasks := (Asks.ask hasked hactive hP).trans h.asks.of_snoc
    exact ⟨hasks.once, hasks.only⟩
  case visits => exact .first hasked h.visits .done
  case accounts => exact h.accounts.learn (h.visits.keeps hmem)

theorem consult_traverses {value : Option String} (hfind : Inquires look P active find n)
    (hp : p.Accounts active) (h : consult find n p = (.ok value, p')) :
    Traverses look P active [n] p p' := by
  rcases consult_eq_ok_iff.1 h with ⟨hknown, rfl⟩ | ⟨hunknown, q, hq, rfl⟩
  . have hasked : n ∈ p'.asked := hp.asked n (by simp [Pass.Knows, hknown])
    exact ⟨.refl p', .again hasked .done, hp⟩
  . have hn := Pass.not_knows_iff.2 hunknown
    obtain ⟨hactive, htraverses⟩ := hfind.ok value p q hp hn hq
    exact .of_ask hfind.kind hp hn hactive htraverses

theorem Runs.traverses (h : Runs find cs p out p') (hp : p.Accounts active)
    (hfind : ∀ n, Mentions cs n → Inquires look P active find n) :
    Traverses look P active (names cs) p p' := by
  induction h with
  | nil => exact .nil hp
  | char hc _ ih =>
    rw [names_char hc]
    exact ih hp fun n hn => hfind n ((mentions_char hc).2 hn)
  | kept hinner hconsult _ ih =>
    rw [names_token hinner]
    have hname := hfind _ ((mentions_token hinner).2 (.inl rfl))
    have hfirst := consult_traverses hname hp hconsult
    have hrest := ih hfirst.accounts fun n hn => hfind n ((mentions_token hinner).2 (.inr hn))
    exact hfirst.trans hrest
  | replaced hinner hconsult _ ih =>
    rw [names_token hinner]
    have hname := hfind _ ((mentions_token hinner).2 (.inl rfl))
    have hfirst := (consult_traverses hname hp hconsult).replace
    have hrest := ih hfirst.accounts fun n hn => hfind n ((mentions_token hinner).2 (.inr hn))
    exact hfirst.trans hrest

theorem Stops.asks {e : ConfigError} (h : Stops find cs p e p') (hp : p.Accounts active)
    (hfind : ∀ n, Mentions cs n → Inquires look P active find n) : Asks P active p p' := by
  induction h with
  | here hinner hconsult =>
    obtain ⟨hunknown, herror⟩ := consult_eq_error_iff.1 hconsult
    have hname := hfind _ ((mentions_token hinner).2 (.inl rfl))
    exact hname.error _ _ _ hp (Pass.not_knows_iff.2 hunknown) herror
  | char hc _ ih => exact ih hp fun n hn => hfind n ((mentions_char hc).2 hn)
  | kept hinner hconsult _ ih =>
    have hname := hfind _ ((mentions_token hinner).2 (.inl rfl))
    have hfirst := consult_traverses hname hp hconsult
    have hrest := ih hfirst.accounts fun n hn => hfind n ((mentions_token hinner).2 (.inr hn))
    exact hfirst.asks.trans hrest
  | replaced hinner hconsult _ ih =>
    have hname := hfind _ ((mentions_token hinner).2 (.inl rfl))
    have hfirst := (consult_traverses hname hp hconsult).replace
    have hrest := ih hfirst.accounts fun n hn => hfind n ((mentions_token hinner).2 (.inr hn))
    exact hfirst.asks.trans hrest

-- The kind of names is one that references do not lead out of.
theorem expandName_inquires (hclosed : ∀ n m, P n → Refers look n m → P m) (room : Nat) (hP : P n) :
    Inquires look P active (expandName look room active) n := by
  induction room generalizing active n with
  | zero =>
    constructor
    case kind => exact hP
    case ok =>
      intro value p p' hp _ h
      obtain ⟨hactive, ⟨hlook, _, rfl⟩ | ⟨_, less, _, _, hless, _⟩⟩ := expandName_eq_ok_iff.1 h
      . exact ⟨hactive, .of_undefined hp hlook⟩
      . contradiction
    case error =>
      intro e p p' hp hn h
      rcases expandName_eq_error_iff.1 h with
        ⟨_, _, rfl⟩ | ⟨hactive, raw, hlook, ⟨_, _, rfl⟩ | ⟨less, hless, _⟩⟩
      . exact .refl p'
      . exact .ask (hp.not_mem_asked hn hactive) hactive hP
      . contradiction
  | succ room ih =>
    have hinner : ∀ raw, look n = some raw → ∀ m, Mentions raw.toList m →
        Inquires look P (active ++ [n]) (expandName look room (active ++ [n])) m := by
      intro raw hlook m hm
      exact ih (hclosed n m hP ((refers_iff hlook).2 hm))
    constructor
    case kind => exact hP
    case ok =>
      intro value p p' hp _ h
      obtain ⟨hactive, ⟨hlook, _, rfl⟩ | ⟨raw, less, out, hlook, hless, _, hrun⟩⟩ :=
        expandName_eq_ok_iff.1 h
      . exact ⟨hactive, .of_undefined hp hlook⟩
      . injection hless with hless
        subst hless
        rw [references_eq_names hlook]
        exact ⟨hactive, (runs_of_substitute hrun).traverses hp.ask (hinner raw hlook)⟩
    case error =>
      intro e p p' hp hn h
      rcases expandName_eq_error_iff.1 h with
        ⟨_, _, rfl⟩ | ⟨hactive, raw, hlook, ⟨hzero, _⟩ | ⟨less, hless, hrun⟩⟩
      . exact .refl p'
      . contradiction
      . injection hless with hless
        subst hless
        have hask := Asks.ask (hp.not_mem_asked hn hactive) hactive hP
        exact hask.trans ((stops_of_substitute hrun).asks hp.ask (hinner raw hlook)).of_snoc

def Reached (look : String → Option String) (raw n : String) : Prop :=
  ∃ m, Mentions raw.toList m ∧ ReflTransGen (Refers look) m n

theorem Reached.mentions {raw : String} (h : Reached look raw n) : ∃ text, Mentions text n := by
  obtain ⟨m, hm, hreach⟩ := h
  cases hreach.cases_tail with
  | inl heq =>
    subst heq
    exact ⟨_, hm⟩
  | inr hlast =>
    obtain ⟨_, _, text, _, hn⟩ := hlast
    exact ⟨_, hn⟩

/--
What is asked for when a text is expanded, with the names of `active` in progress. Every name that
is asked for is expanded at most once.
-/
structure Inquiry (look : String → Option String) (active : List String) (raw : String)
    (result : Except ConfigError String) (asked : List String) : Prop where
  once : asked.Nodup
  trimmed : ∀ n ∈ asked, Text.trim n.toList = n.toList
  braceFree : ∀ n ∈ asked, BraceFree n.toList
  spared : ∀ n ∈ active, n ∉ asked
  reached : ∀ n ∈ asked, Reached look raw n
  bounded : ∀ l : List String, (∀ n, Reached look raw n → n ∈ l) → asked.length ≤ l.length
  complete : ∀ s, result = .ok s → ∀ n, Reached look raw n → n ∈ asked
  inOrder : ∀ s, result = .ok s → ∀ visited,
    Visits look (names raw.toList) [] visited ↔ visited = asked

theorem Inquiry.of_asks {raw : String} {result : Except ConfigError String}
    (hasks : Asks (Reached look raw) active .fresh p)
    (hok : ∀ s, result = .ok s →
      Traverses look (Reached look raw) active (names raw.toList) .fresh p
      ∧ Learnt look (Mentions raw.toList) .fresh p) :
    Inquiry look active raw result p.asked := by
  have honly : ∀ n ∈ p.asked, n ∉ active ∧ Reached look raw n := by
    intro n hn
    rcases hasks.only n hn with hfresh | hn
    . simp [Pass.fresh] at hfresh
    . exact hn
  have honce : p.asked.Nodup := hasks.once .nil
  constructor
  case once => exact honce
  case trimmed =>
    intro n hn
    obtain ⟨text, hmentions⟩ := (honly n hn).2.mentions
    exact hmentions.trim_toList
  case braceFree =>
    intro n hn
    obtain ⟨text, hmentions⟩ := (honly n hn).2.mentions
    exact hmentions.braceFree_toList
  case spared =>
    intro n hn hmem
    exact (honly n hmem).1 hn
  case reached =>
    intro n hn
    exact (honly n hn).2
  case bounded =>
    intro l hl
    apply (List.subperm_of_subset honce _).length_le
    intro n hn
    exact hl n (honly n hn).2
  case complete =>
    rintro s hs n ⟨m, hm, hreach⟩
    obtain ⟨htraverses, hlearnt⟩ := hok s hs
    have hclosed := hlearnt.closed Pass.closed_fresh
    exact htraverses.accounts.asked n (hclosed.knows_of_reachable (hlearnt.meets m hm) hreach)
  case inOrder =>
    intro s hs visited
    have hvisits := (hok s hs).1.visits
    constructor
    . intro h
      exact h.unique hvisits
    . rintro rfl
      exact hvisits

theorem expand_inquiry (look : String → Option String) (active : List String) (raw : String) :
    Inquiry look active raw (expand look active raw .fresh).1
      (expand look active raw .fresh).2.asked := by
  have hclosed : ∀ n m, Reached look raw n → Refers look n m → Reached look raw m := by
    rintro n m ⟨k, hk, hreach⟩ hm
    exact ⟨k, hk, hreach.tail hm⟩
  have hfind : ∀ n, Mentions raw.toList n → Inquires look (Reached look raw) active
      (expandName look (maxDepth - active.length) active) n := by
    intro n hn
    exact expandName_inquires hclosed _ ⟨n, hn, .refl⟩
  cases hresult : (expand look active raw .fresh).1 with
  | ok s =>
    obtain ⟨p, hexpand, hrun⟩ := exists_runs_of_expand hresult
    rw [hexpand]
    have htraverses := hrun.traverses Pass.accounts_fresh hfind
    apply Inquiry.of_asks htraverses.asks
    intro _ _
    exact ⟨htraverses, hrun.learnt (expandName_teaches _ _)⟩
  | error e =>
    obtain ⟨p, hexpand, hstop⟩ := exists_stops_of_expand hresult
    rw [hexpand]
    apply Inquiry.of_asks (hstop.asks Pass.accounts_fresh hfind)
    intro s hs
    contradiction

theorem names_asked :
    (∀ look raw, Inquiry look [] raw (resolve look raw).1 (resolve look raw).2.asked)
    ∧ (∀ look key raw, Inquiry look [key] raw (resolveProperty look key raw).1
      (resolveProperty look key raw).2.asked) := by
  constructor
  . intro look raw
    exact expand_inquiry look [] raw
  . intro look key raw
    exact expand_inquiry look [key] raw

end Expansion
end Overlay
