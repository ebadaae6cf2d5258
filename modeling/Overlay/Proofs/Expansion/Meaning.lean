import Mathlib.Data.List.Basic
import Overlay.Configuration.Basic
import Overlay.Proofs.Expansion.Step
import Overlay.Proofs.Reading

/-!
This module contains what the expansion of a text is, said without memo, cycle check and limit, and
the proof that every run that succeeds computes it.
-/

namespace Overlay
namespace Expansion

open Placeholder

variable {look : String → Option String}

/--
The text `out` is the full expansion of the text `cs`. Tokens with a defined name stand for the full
expansion of its value, and all else stands for itself. What a token was replaced by is not read
again. A text whose names refer to each other in a cycle has no full expansion.
-/
inductive Expands (look : String → Option String) : List Char → List Char → Prop where
  | nil : Expands look [] []
  | char {c : Char} {cs out : List Char} : Tokenless (c :: cs) → Expands look cs out →
      Expands look (c :: cs) (c :: out)
  | undefined {inner rest out : List Char} : BraceFree inner → look (name inner) = none →
      Expands look rest out →
      Expands look ((Piece.token inner).text ++ rest) ((Piece.token inner).text ++ out)
  | defined {inner rest value out : List Char} {raw : String} : BraceFree inner →
      look (name inner) = some raw → Expands look raw.toList value → Expands look rest out →
      Expands look ((Piece.token inner).text ++ rest) (value ++ out)

namespace Expands

variable {c : Char} {cs inner rest out out' : List Char}

theorem eq_nil (h : Expands look [] out) : out = [] := by
  generalize hcs : [] = cs at h
  cases h with
  | nil => rfl
  | char _ _ => contradiction
  | undefined _ _ _ => simp [Piece.text] at hcs
  | defined _ _ _ _ => simp [Piece.text] at hcs

theorem exists_of_char (hc : Tokenless (c :: cs)) (h : Expands look (c :: cs) out) :
    ∃ out', out = c :: out' ∧ Expands look cs out' := by
  generalize hcs : c :: cs = text at h
  cases h with
  | nil => contradiction
  | char _ hrest =>
    injection hcs with hc hcs
    subst hc hcs
    exact ⟨_, rfl, hrest⟩
  | undefined hinner _ _ => exact absurd hcs (hc _ _ hinner)
  | defined hinner _ _ _ => exact absurd hcs (hc _ _ hinner)

theorem exists_of_token (hinner : BraceFree inner)
    (h : Expands look ((Piece.token inner).text ++ rest) out) :
    ∃ out', Expands look rest out' ∧
      ((look (name inner) = none ∧ out = (Piece.token inner).text ++ out')
        ∨ ∃ raw value, look (name inner) = some raw ∧ Expands look raw.toList value ∧
            out = value ++ out') := by
  generalize hcs : (Piece.token inner).text ++ rest = text at h
  cases h with
  | nil => simp [Piece.text] at hcs
  | char hc _ => exact absurd hcs.symm (hc _ _ hinner)
  | undefined hinner' hlook hrest =>
    obtain ⟨rfl, rfl⟩ := text_append_inj hinner hinner' hcs
    exact ⟨_, hrest, .inl ⟨hlook, rfl⟩⟩
  | defined hinner' hlook hvalue hrest =>
    obtain ⟨rfl, rfl⟩ := text_append_inj hinner hinner' hcs
    exact ⟨_, hrest, .inr ⟨_, _, hlook, hvalue, rfl⟩⟩

-- What stands at the front of the text decides by which rule it expands, so the two derivations
-- go through the same rules.
theorem unique (h : Expands look cs out) (h' : Expands look cs out') : out = out' := by
  induction h generalizing out' with
  | nil => exact h'.eq_nil.symm
  | char hc _ ih =>
    obtain ⟨rest, rfl, hrest⟩ := h'.exists_of_char hc
    rw [ih hrest]
  | undefined hinner hlook _ ih =>
    obtain ⟨rest, hrest, ⟨_, rfl⟩ | ⟨raw, _, hraw, _⟩⟩ := h'.exists_of_token hinner
    . rw [ih hrest]
    . rw [hlook] at hraw
      contradiction
  | defined hinner hlook _ _ ihvalue ih =>
    obtain ⟨rest, hrest, ⟨hnone, _⟩ | ⟨raw, value, hraw, hvalue, rfl⟩⟩ := h'.exists_of_token hinner
    . rw [hlook] at hnone
      contradiction
    . rw [hlook] at hraw
      injection hraw with hraw
      subst hraw
      rw [ihvalue hvalue, ih hrest]

end Expands

def Stands (look : String → Option String) (n : String) : Option String → Prop
  | none => look n = none
  | some value => ∃ raw, look n = some raw ∧ Expands look raw.toList value.toList

def Pass.Sound (look : String → Option String) (p : Pass) : Prop :=
  ∀ n value, p.known? n = some value → Stands look n value

/--
What `find` finds is what the name stands for, whatever the run knows before, if that is sound.
-/
def Faithful (look : String → Option String) (find : String → Step (Option String)) : Prop :=
  ∀ n value p p', p.Sound look → find n p = (.ok value, p') → p'.Sound look ∧ Stands look n value

variable {find : String → Step (Option String)} {p p' : Pass}

theorem Pass.sound_fresh : Pass.fresh.Sound look := by
  intro n value h
  simp at h

theorem Pass.Sound.ask {n : String} (h : p.Sound look) : (p.ask n).Sound look := by
  intro m value hm
  exact h m value (by simpa using hm)

theorem Pass.Sound.replace (h : p.Sound look) : p.replace.Sound look := by
  intro m value hm
  exact h m value (by simpa using hm)

theorem Pass.Sound.learn {n : String} {value : Option String} (h : p.Sound look)
    (hn : Stands look n value) : (p.learn n value).Sound look := by
  intro m value' hm
  rw [Pass.known?_learn] at hm
  split at hm
  . next heq =>
    injection hm with hm
    rw [heq, ← hm]
    exact hn
  . exact h m value' hm

theorem consult_faithful (hfind : Faithful look find) : Faithful look (consult find) := by
  intro n value p p' hp h
  rcases consult_eq_ok_iff.1 h with ⟨hknown, rfl⟩ | ⟨_, q, hq, rfl⟩
  . exact ⟨hp, hp n value hknown⟩
  . obtain ⟨hsound, hn⟩ := hfind n value p q hp hq
    exact ⟨hsound.learn hn, hn⟩

theorem Runs.sound {cs out : List Char} (hfind : Faithful look find)
    (h : Runs find cs p out p') (hp : p.Sound look) : p'.Sound look ∧ Expands look cs out := by
  induction h with
  | nil => exact ⟨hp, .nil⟩
  | char hc _ ih =>
    obtain ⟨hsound, hout⟩ := ih hp
    exact ⟨hsound, .char hc hout⟩
  | kept hinner hconsult _ ih =>
    obtain ⟨hq, hlook⟩ := consult_faithful hfind _ _ _ _ hp hconsult
    obtain ⟨hsound, hout⟩ := ih hq
    exact ⟨hsound, .undefined hinner hlook hout⟩
  | replaced hinner hconsult _ ih =>
    obtain ⟨hq, raw, hlook, hvalue⟩ := consult_faithful hfind _ _ _ _ hp hconsult
    obtain ⟨hsound, hout⟩ := ih hq.replace
    exact ⟨hsound, .defined hinner hlook hvalue hout⟩

-- Only soundness of the memo is needed here. Neither the active names nor the room left matter for
-- what comes out, they only decide whether something comes out.
theorem expandName_faithful (room : Nat) (active : List String) :
    Faithful look (expandName look room active) := by
  induction room generalizing active with
  | zero =>
    intro n value p p' hp h
    obtain ⟨_, ⟨hlook, rfl, rfl⟩ | ⟨_, less, _, _, hroom, _⟩⟩ := expandName_eq_ok_iff.1 h
    . exact ⟨hp.ask, hlook⟩
    . contradiction
  | succ room ih =>
    intro n value p p' hp h
    obtain ⟨_, ⟨hlook, rfl, rfl⟩ | ⟨raw, less, out, hlook, hroom, rfl, hrun⟩⟩ :=
      expandName_eq_ok_iff.1 h
    . exact ⟨hp.ask, hlook⟩
    . injection hroom with hroom
      subst hroom
      obtain ⟨hsound, hout⟩ := (runs_of_substitute hrun).sound (ih (active ++ [n])) hp.ask
      exact ⟨hsound, raw, hlook, by simpa using hout⟩

theorem expands_iff_of_expand_fresh {active : List String} {raw s : String}
    (h : (expand look active raw .fresh).1 = .ok s) (out : List Char) :
    Expands look raw.toList out ↔ out = s.toList := by
  obtain ⟨_, _, hrun⟩ := exists_runs_of_expand h
  obtain ⟨_, hs⟩ := hrun.sound (expandName_faithful _ _) Pass.sound_fresh
  constructor
  . intro hout
    exact hout.unique hs
  . rintro rfl
    exact hs

theorem full_expansion_of_ok (look : String → Option String) (raw : String) :
    (∀ s, (resolve look raw).1 = .ok s →
      ∀ out, Expands look raw.toList out ↔ out = s.toList)
    ∧ (∀ key s, (resolveProperty look key raw).1 = .ok s →
      ∀ out, Expands look raw.toList out ↔ out = s.toList)
    ∧ (∀ (conf : Configuration) key s, (conf.properties.value key).result = .ok s →
      ∃ stored, conf.properties.get? key = some stored ∧
        ∀ out, Expands conf.properties.get? stored.toList out ↔ out = s.toList) := by
  refine ⟨?_, ?_, ?_⟩
  . intro s h
    exact expands_iff_of_expand_fresh h
  . intro key s h
    exact expands_iff_of_expand_fresh h
  . intro conf key s h
    obtain ⟨stored, hstored, hs⟩ := Properties.result_value_eq_ok_iff.1 h
    exact ⟨stored, hstored, expands_iff_of_expand_fresh hs⟩

/--
Properties in which a name is shared, with and without blanks around it, and two names are
undefined.
-/
def diamond : Properties :=
  .ofList [("a", "${c}/a"), ("b", "${ c }${z}"), ("c", "${ y }!")]

theorem full_expansion_of_ok_diamond :
    (∀ out, Expands diamond.get? "${a}+${ b }+${c}".toList out
      ↔ out = "${ y }!/a+${ y }!${z}+${ y }!".toList)
    ∧ (∀ out, Expands diamond.get? "${b}${c}".toList out ↔ out = "${ y }!${z}${ y }!".toList)
    ∧ (∃ stored, diamond.get? "a" = some stored
      ∧ ∀ out, Expands diamond.get? stored.toList out ↔ out = "${ y }!/a".toList) := by
  refine ⟨?_, ?_, ?_⟩
  . apply (full_expansion_of_ok diamond.get? "${a}+${ b }+${c}").1
    decide +kernel
  . apply (full_expansion_of_ok diamond.get? "${b}${c}").2.1 "a"
    decide +kernel
  . apply (full_expansion_of_ok diamond.get? "").2.2 ⟨diamond, [], []⟩
    decide +kernel

end Expansion
end Overlay
