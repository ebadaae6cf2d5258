import Overlay.Command.Arguments
import Overlay.Proofs.Reading

/-!
This module contains what holds of all arguments that are read: each text is one that its switch
accepts, and a switch that does not repeat has one text only. Both are kept by each word that is
read.
-/

namespace Overlay
namespace Command
namespace Arguments

variable {g : Grammar} {a a' : Arguments} {s : Switch}

/--
Arguments of which every text is accepted, and of which a switch that does not repeat has one.
-/
structure Sound (a : Arguments) : Prop where
  accepted : ∀ entry ∈ a.given, entry.1.accepts entry.2 = true
  single : ∀ s, s.repeats = false → (a.values s).length ≤ 1

theorem sound_empty : empty.Sound :=
  ⟨List.forall_mem_nil _, fun _ _ => Nat.zero_le _⟩

theorem Sound.of_given_eq (h : a.Sound) (hgiven : a'.given = a.given) : a'.Sound := by
  have hvalues : ∀ s, a'.values s = a.values s := by
    intro s
    rw [values, hgiven, values]
  exact ⟨by rw [hgiven]; exact h.accepted, fun s hs => by rw [hvalues]; exact h.single s hs⟩

theorem values_give (a : Arguments) (s t : Switch) (text : String) :
    ({ a with given := a.given ++ [(s, text)] } : Arguments).values t
      =
    a.values t ++ if s = t then [text] else [] := by
  by_cases hsame : s = t <;> simp [values, hsame]

theorem sound_of_give {text : String} (h : a.Sound) (hgive : give g a s text = .ok a') :
    a'.Sound := by
  unfold give at hgive
  split at hgive
  . contradiction
  . split at hgive
    . contradiction
    . split at hgive
      . contradiction
      . next hfit =>
        injection hgive with hgive
        subst hgive
        simp only [Bool.or_eq_true, Bool.and_eq_true, Bool.not_eq_true', not_or, not_and,
          Bool.not_eq_false] at hfit
        constructor
        case accepted =>
          rw [List.forall_mem_append, List.forall_mem_singleton]
          exact ⟨h.accepted, hfit.2⟩
        case single =>
          intro t ht
          rw [values_give]
          split
          . next hsame =>
            subst hsame
            have hnone : a.values s = [] := by
              apply Decidable.byContradiction
              intro hsome
              rw [hfit.1 (has_iff.2 hsome)] at ht
              contradiction
            rw [hnone]
            exact Nat.le_refl 1
          . rw [List.append_nil]
            exact h.single t ht

theorem sound_of_settle (h : a.Sound) (hsettle : settle g a = .ok a') : a'.Sound := by
  unfold settle at hsettle
  split at hsettle
  . injection hsettle with hsettle
    exact hsettle ▸ h
  . contradiction
  . have hpending : ({ a with pending := .nothing } : Arguments).Sound := h.of_given_eq rfl
    exact sound_of_give hpending hsettle
  . split at hsettle
    . injection hsettle with hsettle
      subst hsettle
      exact h.of_given_eq rfl
    . contradiction

theorem sound_of_readSwitch (h : a.Sound) (hread : readSwitch g a s = .ok a') : a'.Sound := by
  obtain ⟨settled, hsettle, hread⟩ := bind_eq_ok_iff.1 hread
  have hsettled := sound_of_settle h hsettle
  split at hread
  . injection hread with hread
    subst hread
    exact hsettled.of_given_eq rfl
  . exact sound_of_give hsettled hread

theorem sound_of_readAttached {text : List Char} (h : a.Sound)
    (hread : readAttached g a s text = .ok a') : a'.Sound := by
  obtain ⟨settled, hsettle, hgive⟩ := bind_eq_ok_iff.1 hread
  exact sound_of_give (sound_of_settle h hsettle) hgive

theorem sound_of_readLong {cs : List Char} (h : a.Sound) (hread : readLong g a cs = .ok a') :
    a'.Sound := by
  unfold readLong at hread
  split at hread
  . contradiction
  . exact sound_of_readSwitch h hread
  . split at hread
    . exact sound_of_readAttached h hread
    . contradiction

theorem sound_of_readLetters {cs : List Char} (h : a.Sound)
    (hread : readLetters g a cs = .ok a') : a'.Sound := by
  induction cs generalizing a with
  | nil =>
    injection hread with hread
    exact hread ▸ h
  | cons c cs ih =>
    rw [readLetters] at hread
    split at hread
    . contradiction
    . split at hread
      . exact sound_of_readAttached h hread
      . exact sound_of_readAttached h hread
      . obtain ⟨next, hswitch, hrest⟩ := bind_eq_ok_iff.1 hread
        exact ih (sound_of_readSwitch h hswitch) hrest

theorem sound_of_readOperand {text : String} (h : a.Sound)
    (hread : readOperand g a text = .ok a') : a'.Sound := by
  obtain ⟨settled, hsettle, hread⟩ := bind_eq_ok_iff.1 hread
  split at hread
  . injection hread with hread
    subst hread
    exact (sound_of_settle h hsettle).of_given_eq rfl
  . contradiction

theorem sound_of_read {text : String} (h : a.Sound) (hread : read g a text = .ok a') :
    a'.Sound := by
  unfold read at hread
  split at hread
  . exact sound_of_readLong h hread
  . exact sound_of_readLetters h hread
  . split at hread
    . injection hread with hread
      subst hread
      exact h.of_given_eq rfl
    . exact sound_of_readOperand h hread

theorem sound_of_readAll {ended : Bool} {words : List String}
    {rest : Option (Verb × List String)} (h : a.Sound)
    (hread : readAll g a ended words = .ok (a', rest)) : a'.Sound := by
  induction words generalizing a ended with
  | nil =>
    cases ended <;> (injection hread with hread; injection hread with hread; exact hread ▸ h)
  | cons word words ih =>
    cases ended with
    | true =>
      obtain ⟨next, hoperand, hrest⟩ := bind_eq_ok_iff.1 hread
      exact ih (sound_of_readOperand h hoperand) hrest
    | false =>
      rw [readAll] at hread
      split at hread
      . contradiction
      . injection hread with hread
        injection hread with hread
        exact hread ▸ h
      . split at hread
        . exact ih h hread
        . obtain ⟨next, hnext, hrest⟩ := bind_eq_ok_iff.1 hread
          exact ih (sound_of_read h hnext) hrest

theorem sound_of_complete (h : a.Sound) (hcomplete : complete g a = .ok a') : a'.Sound := by
  obtain ⟨settled, hsettle, hread⟩ := bind_eq_ok_iff.1 hcomplete
  split at hread
  . contradiction
  . injection hread with hread
    exact hread ▸ sound_of_settle h hsettle

end Arguments
end Command
end Overlay
