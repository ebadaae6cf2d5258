import Overlay.Number.Numeral
import Overlay.Number.Shortest
import Overlay.Text.Basic

/-!
This module contains that whole numbers are read back from the text in which they are written, and
which characters that text has.
-/

namespace Overlay
namespace Number

variable {c : Char} {cs : List Char} {n : Int}

theorem ofDigits_digitsOf (n : Nat) : ofDigits (digitsOf n) = n := by
  have hvalue : Nat.ofDigitChars 10 (Nat.toDigits 10 n) 0 = n := Nat.ofDigitChars_ten_toDigits
  rw [Nat.ofDigitChars_eq_foldl] at hvalue
  exact hvalue

theorem all_isDigit_digitsOf (n : Nat) : (digitsOf n).all Char.isDigit = true := by
  rw [List.all_eq_true]
  intro c hc
  exact Nat.isDigit_of_mem_toDigits (by decide) (by decide) hc

theorem digitsOf_ne_nil (n : Nat) : digitsOf n ≠ [] :=
  Nat.toDigits_ne_nil

theorem takeSign_of_all_isDigit (h : cs.all Char.isDigit = true) : takeSign cs = (false, cs) := by
  unfold takeSign
  split
  . simp at h
  . simp at h
  . rfl

theorem integer?_digitsOf (n : Nat) : integer? (digitsOf n) = some (n : Int) := by
  have hdigits := all_isDigit_digitsOf n
  simp [integer?, takeSign_of_all_isDigit hdigits, hdigits, digitsOf_ne_nil, ofDigits_digitsOf]

theorem integer?_minus_digitsOf (n : Nat) : integer? ('-' :: digitsOf n) = some (-(n : Int)) := by
  simp [integer?, takeSign, all_isDigit_digitsOf, digitsOf_ne_nil, ofDigits_digitsOf]

theorem integer?_printInteger (n : Int) : integer? (printInteger n).toList = some n := by
  rw [printInteger, String.toList_ofList]
  split
  . next hneg =>
    rw [integer?_minus_digitsOf]
    congr 1
    omega
  . next hnonneg =>
    rw [integer?_digitsOf]
    congr 1
    omega

theorem fits_iff {bits : Nat} :
    fits bits n = true ↔ -(Nat.pow 2 (bits - 1) : Int) ≤ n ∧ n < Nat.pow 2 (bits - 1) := by
  simp [fits, and_comm]

theorem boundedInteger?_printInteger (bits : Nat) (n : Int) :
    boundedInteger? bits (printInteger n).toList = if fits bits n then some n else none := by
  rw [boundedInteger?, integer?_printInteger, Option.filter_some]

theorem mem_printInteger (h : c ∈ (printInteger n).toList) : c = '-' ∨ c.isDigit = true := by
  have hdigit : c ∈ digitsOf n.natAbs → c.isDigit = true :=
    List.all_eq_true.1 (all_isDigit_digitsOf n.natAbs) c
  rw [printInteger, String.toList_ofList] at h
  split at h
  . cases List.mem_cons.1 h with
    | inl hminus => exact .inl hminus
    | inr hmem => exact .inr (hdigit hmem)
  . exact .inr (hdigit h)

theorem printInteger_ne_nil (n : Int) : (printInteger n).toList ≠ [] := by
  rw [printInteger, String.toList_ofList]
  split
  . exact List.cons_ne_nil _ _
  . exact digitsOf_ne_nil _

theorem toNat_of_isDigit (h : c.isDigit = true) : 48 ≤ c.toNat ∧ c.toNat ≤ 57 := by
  simp only [Char.isDigit, Bool.and_eq_true, decide_eq_true_eq] at h
  exact ⟨UInt32.le_iff_toNat_le.1 h.1, UInt32.le_iff_toNat_le.1 h.2⟩

theorem not_isBlank_of_isDigit (h : c.isDigit = true) : Text.isBlank c = false := by
  have hrange := toNat_of_isDigit h
  rw [Bool.eq_false_iff]
  intro hblank
  simp only [Text.isBlank, Bool.or_eq_true, Bool.and_eq_true, decide_eq_true_eq, beq_iff_eq]
    at hblank
  omega

end Number
end Overlay
