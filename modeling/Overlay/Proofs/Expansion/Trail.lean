import Mathlib.Data.List.Nodup
import Overlay.Proofs.Expansion.Memo

/-!
This module contains the invariant of an expansion: what holds of the memo and of the names in
progress whenever the expansion of a text is called, and again when such a call succeeds. To speak
of all calls, the expansion is also given on a state that holds everything, where names are put in
progress and taken out again and all calls are on record. It is the same expansion, which is proved
first.
-/

namespace Overlay
namespace Expansion

open Placeholder
open Relation

structure Call where
  active : List String
  raw : String
  pass : Pass

structure Trail where
  active : List String
  pass : Pass
  calls : List Call

abbrev Walk (α : Type) := Trail → Except ConfigError α × Trail

namespace Trail

def ask (t : Trail) (name : String) : Trail :=
  { t with pass := t.pass.ask name }

def learn (t : Trail) (name : String) (value : Option String) : Trail :=
  { t with pass := t.pass.learn name value }

def replace (t : Trail) : Trail :=
  { t with pass := t.pass.replace }

def push (t : Trail) (name : String) : Trail :=
  { t with active := t.active ++ [name] }

def pop (t : Trail) : Trail :=
  { t with active := t.active.dropLast }

def record (t : Trail) (raw : String) : Trail :=
  { t with calls := t.calls ++ [⟨t.active, raw, t.pass⟩] }

def consult (find : String → Walk (Option String)) (name : String) : Walk (Option String) :=
  fun t =>
  match t.pass.known? name with
  | some value => (.ok value, t)
  | none =>
    match find name t with
    | (.ok value, t) => (.ok value, t.learn name value)
    | (.error e, t) => (.error e, t)

def substitute (find : String → Walk (Option String)) : List Piece → Walk (List Char)
  | [], t => (.ok [], t)
  | .char c :: pieces, t => mapOk (c :: ·) (substitute find pieces t)
  | .token inner :: pieces, t =>
    match consult find (name inner) t with
    | (.error e, t) => (.error e, t)
    | (.ok none, t) => mapOk ((Piece.token inner).text ++ ·) (substitute find pieces t)
    | (.ok (some value), t) => mapOk (value.toList ++ ·) (substitute find pieces t.replace)

def expandText (find : String → Walk (Option String)) (raw : String) : Walk String := fun t =>
  mapOk String.ofList (substitute find (scan raw.toList) (t.record raw))

def expandName (look : String → Option String) (room : Nat) (name : String) :
    Walk (Option String) := fun t =>
  if name ∈ t.active then
    (.error (.cyclicReference (t.active ++ [name])), t)
  else
    match look name with
    | none => (.ok none, t.ask name)
    | some raw =>
      match room with
      | 0 => (.error (.referenceTooDeep name maxDepth), t.ask name)
      | room + 1 =>
        let (result, t) := expandText (expandName look room) raw ((t.ask name).push name)
        (result.map some, t.pop)

def expand (look : String → Option String) (raw : String) : Walk String := fun t =>
  expandText (expandName look (maxDepth - t.active.length)) raw t

end Trail

/--
The outcome on a trail is that on a pass, with the names in progress that there were before.
-/
def Matches {α : Type} (active : List String) (outcome : Except ConfigError α × Trail)
    (outcome' : Except ConfigError α × Pass) : Prop :=
  ∃ calls, outcome = (outcome'.1, ⟨active, outcome'.2, calls⟩)

variable {look : String → Option String} {find : String → Step (Option String)}
variable {walk : String → Walk (Option String)} {step : List String → String → Step (Option String)}
variable {active : List String} {cs out : List Char} {room : Nat} {n : String} {t : Trail}
variable {p p' q : Pass}

theorem Matches.mapOk {α β : Type} {outcome : Except ConfigError α × Trail}
    {outcome' : Except ConfigError α × Pass} (f : α → β) (h : Matches active outcome outcome') :
    Matches active (mapOk f outcome) (mapOk f outcome') := by
  obtain ⟨calls, rfl⟩ := h
  exact ⟨calls, rfl⟩

theorem consult_matches (h : ∀ t : Trail, Matches t.active (walk n t) (step t.active n t.pass))
    (t : Trail) :
    Matches t.active (Trail.consult walk n t) (consult (step t.active) n t.pass) := by
  obtain ⟨calls, hwalk⟩ := h t
  unfold Trail.consult consult
  cases t.pass.known? n with
  | some value => exact ⟨t.calls, rfl⟩
  | none =>
    dsimp only
    rw [hwalk]
    rcases step t.active n t.pass with ⟨_ | value, q⟩
    . exact ⟨calls, rfl⟩
    . exact ⟨calls, rfl⟩

theorem substitute_matches
    (h : ∀ n (t : Trail), Matches t.active (walk n t) (step t.active n t.pass))
    (pieces : List Piece) (t : Trail) :
    Matches t.active (Trail.substitute walk pieces t)
      (substitute (step t.active) pieces t.pass) := by
  induction pieces generalizing t with
  | nil => exact ⟨t.calls, rfl⟩
  | cons piece pieces ih =>
    cases piece with
    | char c =>
      rw [Trail.substitute, substitute_char]
      exact (ih t).mapOk _
    | token inner =>
      obtain ⟨calls, hconsult⟩ := consult_matches (h (name inner)) t
      rw [Trail.substitute, substitute_token, hconsult]
      rcases consult (step t.active) (name inner) t.pass with ⟨_ | _ | value, q⟩
      . exact ⟨calls, rfl⟩
      . exact (ih ⟨t.active, q, calls⟩).mapOk _
      . exact (ih ⟨t.active, q.replace, calls⟩).mapOk _

theorem expandText_matches
    (h : ∀ n (t : Trail), Matches t.active (walk n t) (step t.active n t.pass))
    (raw : String) (t : Trail) :
    Matches t.active (Trail.expandText walk raw t)
      (mapOk String.ofList (substitute (step t.active) (scan raw.toList) t.pass)) :=
  (substitute_matches h (scan raw.toList) (t.record raw)).mapOk String.ofList

theorem expandName_matches (room : Nat) (n : String) (t : Trail) :
    Matches t.active (Trail.expandName look room n t)
      (expandName look room t.active n t.pass) := by
  induction room generalizing n t with
  | zero =>
    rw [Trail.expandName.eq_def, expandName.eq_def]
    split
    . exact ⟨t.calls, rfl⟩
    . cases look n with
      | none => exact ⟨t.calls, rfl⟩
      | some raw => exact ⟨t.calls, rfl⟩
  | succ room ih =>
    rw [Trail.expandName.eq_def, expandName.eq_def]
    split
    . exact ⟨t.calls, rfl⟩
    . cases look n with
      | none => exact ⟨t.calls, rfl⟩
      | some raw =>
        obtain ⟨calls, hinner⟩ := expandText_matches ih raw ((t.ask n).push n)
        have hactive : ((t.ask n).push n).active = t.active ++ [n] := rfl
        have hpass : ((t.ask n).push n).pass = t.pass.ask n := rfl
        rw [hactive, hpass] at hinner
        dsimp only
        rw [hinner]
        rcases substitute (expandName look room (t.active ++ [n])) (scan raw.toList) (t.pass.ask n)
          with ⟨_ | out, q⟩
        . exact ⟨calls, by simp [mapOk, Except.map, Trail.pop]⟩
        . exact ⟨calls, by simp [mapOk, Except.map, Trail.pop]⟩

theorem expand_matches (raw : String) (t : Trail) :
    Matches t.active (Trail.expand look raw t) (expand look t.active raw t.pass) := by
  rw [Trail.expand, expand_eq_mapOk]
  exact expandText_matches (expandName_matches _) raw t

/--
Nothing that was known has changed between two passes, and no name in progress has become known.
-/
structure Extends (active : List String) (p p' : Pass) : Prop where
  keeps : ∀ n value, p.known? n = some value → p'.known? n = some value
  spares : ∀ n ∈ active, p'.Knows n → p.Knows n

namespace Extends

theorem refl (active : List String) (p : Pass) : Extends active p p :=
  ⟨fun _ _ h => h, fun _ _ h => h⟩

theorem ask (active : List String) (p : Pass) : Extends active p (p.ask n) :=
  ⟨fun _ _ h => h, fun _ _ h => h⟩

theorem trans (h : Extends active p q) (h' : Extends active q p') : Extends active p p' := by
  constructor
  . intro n value hn
    exact h'.keeps n value (h.keeps n value hn)
  . intro n hn hknows
    exact h.spares n hn (h'.spares n hn hknows)

-- The name is in progress while it is being expanded, so its entry is the first that it gets.
theorem learn {value : Option String} (h : Extends (active ++ [n]) p q) (hn : ¬p.Knows n)
    (hactive : n ∉ active) : Extends active p (q.learn n value) := by
  constructor
  . intro m value' hm
    have hne : m ≠ n := by
      rintro rfl
      exact hn (by rw [Pass.Knows, hm]; rfl)
    rw [Pass.known?_learn, if_neg hne]
    exact h.keeps m value' hm
  . intro m hm hknows
    rcases Pass.knows_learn.1 hknows with rfl | hknows
    . exact absurd hm hactive
    . exact h.spares m (List.mem_append_left [n] hm) hknows

end Extends

def Preserves (active : List String) (find : String → Step (Option String)) : Prop :=
  ∀ n value p p', find n p = (.ok value, p') → n ∉ active ∧ Extends (active ++ [n]) p p'

theorem consult_extends {value : Option String} (hfind : Preserves active find)
    (h : consult find n p = (.ok value, p')) : Extends active p p' := by
  rcases consult_eq_ok_iff.1 h with ⟨_, rfl⟩ | ⟨hunknown, q, hq, rfl⟩
  . exact .refl active p'
  . obtain ⟨hactive, hextends⟩ := hfind n value p q hq
    exact hextends.learn (Pass.not_knows_iff.2 hunknown) hactive

theorem Runs.extends (hfind : Preserves active find) (h : Runs find cs p out p') :
    Extends active p p' := by
  induction h with
  | nil => exact .refl active _
  | char _ _ ih => exact ih
  | kept _ hconsult _ ih => exact (consult_extends hfind hconsult).trans ih
  | replaced _ hconsult _ ih => exact (consult_extends hfind hconsult).trans ⟨ih.keeps, ih.spares⟩

theorem expandName_preserves (room : Nat) (active : List String) :
    Preserves active (expandName look room active) := by
  induction room generalizing active with
  | zero =>
    intro n value p p' h
    obtain ⟨hactive, ⟨_, _, rfl⟩ | ⟨_, less, _, _, hroom, _⟩⟩ := expandName_eq_ok_iff.1 h
    . exact ⟨hactive, .ask _ p⟩
    . contradiction
  | succ room ih =>
    intro n value p p' h
    obtain ⟨hactive, ⟨_, _, rfl⟩ | ⟨raw, less, out, _, hroom, _, hrun⟩⟩ :=
      expandName_eq_ok_iff.1 h
    . exact ⟨hactive, .ask _ p⟩
    . injection hroom with hroom
      subst hroom
      have hextends := (runs_of_substitute hrun).extends (ih (active ++ [n]))
      exact ⟨hactive, hextends.keeps, hextends.spares⟩

/--
What holds when the expansion of a text is called. The names in progress are all different, at most
64, and none of them is known. What is known is what names stand for, and with a name all is known
that references lead to from it.
-/
structure Pass.Good (look : String → Option String) (active : List String) (p : Pass) : Prop where
  distinct : active.Nodup
  bounded : active.length ≤ 64
  apart : ∀ n ∈ active, ¬p.Knows n
  closed : ∀ n m, p.Knows n → (look n).isSome → ReflTransGen (Refers look) n m → p.Knows m
  sound : ∀ n value, p.known? n = some value → Stands look n value

namespace Pass.Good

theorem fresh (hdistinct : active.Nodup) (hbounded : active.length ≤ 64) :
    Pass.fresh.Good look active := by
  constructor
  case distinct => exact hdistinct
  case bounded => exact hbounded
  case apart => simp [Knows]
  case closed => simp [Knows]
  case sound => exact Pass.sound_fresh

theorem closed_step (h : p.Good look active) : p.Closed look := by
  intro n m hn hm
  have hdefined : (look n).isSome := by
    obtain ⟨raw, hraw, _⟩ := hm
    rw [hraw]
    rfl
  exact h.closed n m hn hdefined (.single hm)

theorem of_extends (h : p.Good look active) (hextends : Extends active p q)
    (hclosed : q.Closed look) (hsound : q.Sound look) : q.Good look active := by
  constructor
  case distinct => exact h.distinct
  case bounded => exact h.bounded
  case apart =>
    intro n hn hknows
    exact h.apart n hn (hextends.spares n hn hknows)
  case closed =>
    intro n m hn _ hreach
    exact hclosed.knows_of_reachable hn hreach
  case sound => exact hsound

theorem consult {value : Option String} (h : p.Good look active)
    (hconsult : consult (expandName look room active) n p = (.ok value, q)) :
    q.Good look active := by
  have hlearnt := consult_learnt (expandName_teaches room active) hconsult
  have hfaithful := consult_faithful (expandName_faithful room active) n value p q h.sound hconsult
  have hextends := consult_extends (expandName_preserves room active) hconsult
  exact h.of_extends hextends (hlearnt.closed h.closed_step) hfaithful.1

theorem replace (h : p.Good look active) : p.replace.Good look active :=
  ⟨h.distinct, h.bounded, h.apart, h.closed, h.sound⟩

theorem ask (h : p.Good look active) (hn : ¬p.Knows n) (hactive : n ∉ active)
    (hroom : active.length < 64) : (p.ask n).Good look (active ++ [n]) := by
  constructor
  case distinct =>
    rw [← List.concat_eq_append]
    exact h.distinct.concat hactive
  case bounded =>
    rw [List.length_append]
    exact hroom
  case apart =>
    intro m hm
    rcases List.mem_append.1 hm with hm | hm
    . exact h.apart m hm
    . rw [List.mem_singleton.1 hm]
      exact hn
  case closed => exact h.closed
  case sound => exact h.sound

end Pass.Good

def Trail.CallsGood (look : String → Option String) (t : Trail) : Prop :=
  ∀ c ∈ t.calls, c.pass.Good look c.active

structure Trail.Ready (look : String → Option String) (room : Nat) (t : Trail) : Prop where
  room : t.active.length + room = maxDepth
  good : t.pass.Good look t.active
  calls : t.CallsGood look

theorem Trail.Ready.record {raw : String} (h : t.Ready look room) :
    (t.record raw).Ready look room := by
  refine ⟨h.room, h.good, ?_⟩
  intro c hc
  rcases List.mem_append.1 hc with hc | hc
  . exact h.calls c hc
  . rw [List.mem_singleton.1 hc]
    exact h.good

theorem Trail.Ready.push (h : t.Ready look (room + 1)) (hn : ¬t.pass.Knows n)
    (hactive : n ∉ t.active) : ((t.ask n).push n).Ready look room := by
  have hroom : t.active.length + (room + 1) = 64 := h.room
  constructor
  case room =>
    rw [← h.room]
    simp only [Trail.push, Trail.ask, List.length_append, List.length_singleton]
    omega
  case good => exact h.good.ask hn hactive (by omega)
  case calls => exact h.calls

theorem consult_callsGood (h : t.CallsGood look)
    (hwalk : ¬t.pass.Knows n → (walk n t).2.CallsGood look) :
    (Trail.consult walk n t).2.CallsGood look := by
  unfold Trail.consult
  cases hknown : t.pass.known? n with
  | some value => exact h
  | none =>
    have hfound := hwalk (Pass.not_knows_iff.2 hknown)
    dsimp only
    rcases hresult : walk n t with ⟨_ | value, t'⟩
    . rw [hresult] at hfound
      exact hfound
    . rw [hresult] at hfound
      exact hfound

-- After each token the pass is good again, which is what the next call needs.
theorem substitute_callsGood
    (hname : ∀ n (t : Trail), t.Ready look room → ¬t.pass.Knows n →
      (Trail.expandName look room n t).2.CallsGood look)
    (pieces : List Piece) (h : t.Ready look room) :
    (Trail.substitute (Trail.expandName look room) pieces t).2.CallsGood look := by
  induction pieces generalizing t with
  | nil => exact h.calls
  | cons piece pieces ih =>
    cases piece with
    | char c => exact ih h
    | token inner =>
      have hcalls := consult_callsGood h.calls (hname (name inner) t h)
      obtain ⟨calls, hconsult⟩ := consult_matches (expandName_matches room (name inner)) t
      rw [Trail.substitute]
      rw [hconsult] at hcalls ⊢
      rcases hstep : consult (expandName look room t.active) (name inner) t.pass with
        ⟨_ | _ | value, q⟩
      . exact hcalls
      . exact @ih ⟨t.active, q, calls⟩ ⟨h.room, h.good.consult hstep, hcalls⟩
      . exact @ih ⟨t.active, q.replace, calls⟩ ⟨h.room, (h.good.consult hstep).replace, hcalls⟩

theorem expandName_callsGood (h : t.Ready look room) (hn : ¬t.pass.Knows n) :
    (Trail.expandName look room n t).2.CallsGood look := by
  induction room generalizing n t with
  | zero =>
    rw [Trail.expandName.eq_def]
    split
    . exact h.calls
    . cases look n with
      | none => exact h.calls
      | some raw => exact h.calls
  | succ room ih =>
    rw [Trail.expandName.eq_def]
    split
    . exact h.calls
    . next hactive =>
      cases look n with
      | none => exact h.calls
      | some raw =>
        exact substitute_callsGood (fun n t => ih) (scan raw.toList) (h.push hn hactive).record

theorem expand_callsGood {raw : String} (hgood : t.pass.Good look t.active)
    (h : t.CallsGood look) : (Trail.expand look raw t).2.CallsGood look := by
  have hready : t.Ready look (maxDepth - t.active.length) :=
    ⟨Nat.add_sub_of_le hgood.bounded, hgood, h⟩
  exact substitute_callsGood (fun n t => expandName_callsGood) (scan raw.toList) hready.record

structure Sustains (look : String → Option String) (raw : String) (active : List String) (p : Pass)
    (t : Trail) : Prop where
  good : t.pass.Good look t.active
  active : t.active = active
  keeps : ∀ n value, p.known? n = some value → t.pass.known? n = some value
  learns : ∀ n, Mentions raw.toList n → t.pass.Knows n

theorem expand_sustains {raw s : String} {calls : List Call} (hgood : p.Good look active)
    (h : (expand look active raw p).1 = .ok s) :
    Sustains look raw active p ⟨active, (expand look active raw p).2, calls⟩ := by
  obtain ⟨q, hexpand, hrun⟩ := exists_runs_of_expand h
  rw [hexpand]
  have hextends := hrun.extends (expandName_preserves _ _)
  have hlearnt := hrun.learnt (expandName_teaches _ _)
  have hsound := (hrun.sound (expandName_faithful _ _) hgood.sound).1
  constructor
  case good => exact hgood.of_extends hextends (hlearnt.closed hgood.closed_step) hsound
  case active => rfl
  case keeps => exact hextends.keeps
  case learns => exact hlearnt.meets

theorem good_sustained (look : String → Option String) :
    (∀ key, Pass.fresh.Good look [] ∧ Pass.fresh.Good look [key])
    ∧ ∀ raw active (p : Pass), p.Good look active →
      ∃ result t, Trail.expand look raw ⟨active, p, []⟩ = (result, t)
        ∧ expand look active raw p = (result, t.pass)
        ∧ (∀ c ∈ t.calls, c.pass.Good look c.active)
        ∧ ∀ s, result = .ok s → Sustains look raw active p t := by
  constructor
  . intro key
    exact ⟨.fresh .nil (by simp), .fresh (List.nodup_singleton key) (by simp)⟩
  . intro raw active p hgood
    obtain ⟨calls, htrail⟩ := @expand_matches look raw ⟨active, p, []⟩
    refine ⟨_, _, htrail, rfl, ?_, ?_⟩
    . have hcalls := @expand_callsGood look ⟨active, p, []⟩ raw hgood (by simp [Trail.CallsGood])
      rw [htrail] at hcalls
      exact hcalls
    . intro s hs
      exact expand_sustains hgood hs

def warm : Pass :=
  (resolveProperty diamond.get? "k" "${c}").2

theorem good_sustained_diamond :
    warm.Good diamond.get? ["k"]
    ∧ warm.known? "c" = some (some "${ y }!")
    ∧ ((Trail.expand diamond.get? "${a}${b}${c}" ⟨["k"], warm, []⟩).2.calls.map
        fun c => (c.active, c.raw))
      = [(["k"], "${a}${b}${c}"), (["k", "a"], "${c}/a"), (["k", "b"], "${ c }${z}")]
    ∧ (∀ c ∈ (Trail.expand diamond.get? "${a}${b}${c}" ⟨["k"], warm, []⟩).2.calls,
        c.pass.Good diamond.get? c.active)
    ∧ Sustains diamond.get? "${a}${b}${c}" ["k"] warm
        (Trail.expand diamond.get? "${a}${b}${c}" ⟨["k"], warm, []⟩).2 := by
  have hwarm : warm.Good diamond.get? ["k"] := by
    obtain ⟨result, t, _, hexpand, _, hsustains⟩ :=
      (good_sustained diamond.get?).2 "${c}" ["k"] .fresh ((good_sustained diamond.get?).1 "k").2
    have hresult : (resolveProperty diamond.get? "k" "${c}").1 = .ok "${ y }!" := by decide +kernel
    rw [resolveProperty, hexpand] at hresult
    have hgood := (hsustains _ hresult).good
    rw [(hsustains _ hresult).active] at hgood
    rw [warm, resolveProperty, hexpand]
    exact hgood
  obtain ⟨result, t, htrail, _, hcalls, hsustains⟩ :=
    (good_sustained diamond.get?).2 "${a}${b}${c}" ["k"] warm hwarm
  have hresult : (Trail.expand diamond.get? "${a}${b}${c}" ⟨["k"], warm, []⟩).1
      = .ok "${ y }!/a${ y }!${z}${ y }!" := by decide +kernel
  rw [htrail] at hresult
  refine ⟨hwarm, by decide +kernel, by decide +kernel, ?_, ?_⟩
  . rw [htrail]
    exact hcalls
  . rw [htrail]
    exact hsustains _ hresult

end Expansion
end Overlay
