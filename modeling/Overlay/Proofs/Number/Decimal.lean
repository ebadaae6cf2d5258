import Overlay.Proofs.Number.Arithmetic
import Overlay.Proofs.Number.Numeral

/-!
This module contains the rational numbers that numerals denote. What is read of a numeral is the
nearest number of the format.
-/

namespace Overlay
namespace Number

variable {digits cs : List Char} {c : Char} {q : ℚ}

theorem ofDigits_concat (digits : List Char) :
    ofDigits (digits ++ [c]) = 10 * ofDigits digits + digitValue c := by
  simp [ofDigits]

theorem ofDigits_append (digits digits' : List Char) :
    ofDigits (digits ++ digits')
      =
    ofDigits digits * Nat.pow 10 digits'.length + ofDigits digits' := by
  induction digits' using List.reverseRecOn with
  | nil =>
    rw [List.append_nil]
    exact (Nat.mul_one _).symm
  | append_singleton digits' c ih =>
    rw [← List.append_assoc, ofDigits_concat, ofDigits_concat, ih, List.length_append]
    simp only [Nat.pow_eq, List.length_singleton, pow_succ]
    ring

def Numeral.toRat (n : Numeral) : ℚ :=
  signed n.negative (n.digits * 10 ^ n.exponent)

theorem nearest_toBinary (n : Numeral) : binary64.Nearest n.toRat (n.toBinary binary64) :=
  Format.nearest_ofDecimal Format.wellFormed_binary64 n.negative n.digits n.exponent

inductive Unsigned : List Char → ℚ → Prop where
  | whole {whole : List Char} (hwhole : Digits whole) : Unsigned whole (ofDigits whole)
  | fraction {whole fraction : List Char} (hwhole : Digits whole) (hfraction : Digits fraction) :
    Unsigned (whole ++ '.' :: fraction)
      (ofDigits whole + ofDigits fraction / 10 ^ fraction.length)

theorem Unsigned.exists_written (h : Unsigned cs q) :
    ∃ numeral, Numeral.Written cs numeral ∧ numeral.toRat = q := by
  cases h with
  | whole hwhole =>
    have hwritten := Numeral.Written.intro .absent (.whole hwhole) .absent
    simp only [List.nil_append, List.append_nil] at hwritten
    refine ⟨_, hwritten, ?_⟩
    simp [Numeral.toRat, signed]
  | fraction hwhole hfraction =>
    have hwritten := Numeral.Written.intro .absent (.fraction hwhole hfraction) .absent
    simp only [List.nil_append, List.append_nil] at hwritten
    refine ⟨_, hwritten, ?_⟩
    simp only [Numeral.toRat, signed, Bool.false_eq_true, if_false, zero_sub, zpow_neg,
      zpow_natCast, ofDigits_append, Nat.pow_eq]
    push_cast
    field_simp

theorem Digits.getLast?_append (h : Digits digits) (before : List Char) :
    ∃ c ∈ (before ++ digits).getLast?, c.isDigit = true := by
  refine ⟨digits.getLast h.ne_nil, ?_, h.isDigit _ (List.getLast_mem _)⟩
  rw [List.getLast?_append, List.getLast?_eq_some_getLast h.ne_nil]
  rfl

theorem Unsigned.last (h : Unsigned cs q) : ∃ c ∈ cs.getLast?, c.isDigit = true := by
  cases h with
  | whole hwhole => exact hwhole.getLast?_append []
  | fraction hwhole hfraction =>
    rw [List.append_cons]
    exact hfraction.getLast?_append _

end Number
end Overlay
