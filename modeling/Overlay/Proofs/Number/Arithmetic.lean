import Mathlib.Data.Rat.Floor
import Mathlib.Tactic.Linarith
import Overlay.Proofs.Number.Rounding

/-!
This module contains that arithmetic on floating-point numbers is correctly rounded: a decimal
number, a product and a sum become the number of the format that is nearest to the exact result.
-/

namespace Overlay
namespace Number
namespace Format

variable {f : Format} {x y : ℚ}

theorem nearest_roundScaled (hf : f.WellFormed) (negative : Bool) (m : Nat) (e : Int) :
    f.Nearest (signed negative (m * 2 ^ e)) (f.roundScaled negative m e) := by
  unfold roundScaled
  split
  . next he =>
    have h := nearest_round hf negative (m * Nat.pow 2 e.toNat) one_pos
    rwa [Nat.cast_mul, mul_pow_toNat 2 _ he, Nat.cast_one, div_one] at h
  . next he =>
    have h := nearest_round hf negative m (Nat.two_pow_pos (-e).toNat)
    rwa [← Nat.pow_eq, div_pow_toNat_neg 2 _ he] at h

theorem nearest_mul (hf : f.WellFormed) {a b : Binary} (ha : a.toRat? = some x)
    (hb : b.toRat? = some y) : f.Nearest (x * y) (f.mul a b) := by
  cases a with
  | infinity => contradiction
  | nan => contradiction
  | finite n₁ m₁ e₁ =>
    cases b with
    | infinity => contradiction
    | nan => contradiction
    | finite n₂ m₂ e₂ =>
      injection ha with ha
      injection hb with hb
      have h := nearest_roundScaled hf (n₁ != n₂) (m₁ * m₂) (e₁ + e₂)
      have hproduct : x * y = signed (n₁ != n₂) ((m₁ * m₂ : ℕ) * 2 ^ (e₁ + e₂)) := by
        rw [← ha, ← hb, zpow_add₀ two_ne_zero, Nat.cast_mul]
        cases n₁ <;> cases n₂ <;> simp only [signed] <;> simp <;> ring
      rw [hproduct]
      exact h

theorem rescale (negative : Bool) (m : Nat) {e e' : Int} (h : e ≤ e') :
    signed negative (m * 2 ^ e')
      =
    ((if negative then -(m * Nat.pow 2 (e' - e).toNat : ℕ) else (m * Nat.pow 2 (e' - e).toNat : ℕ)
      : Int) : ℚ) * 2 ^ e := by
  have hscaled : (m : ℚ) * 2 ^ e' = (m * Nat.pow 2 (e' - e).toNat : ℕ) * 2 ^ e := by
    rw [Nat.cast_mul, mul_pow_toNat 2 _ (by omega), Nat.cast_ofNat, mul_assoc,
      ← zpow_add₀ two_ne_zero, sub_add_cancel]
  rw [hscaled]
  cases negative with
  | false => rfl
  | true => simp [signed]

theorem nearest_add (hf : f.WellFormed) {a b : Binary} (ha : a.toRat? = some x)
    (hb : b.toRat? = some y) : f.Nearest (x + y) (f.add a b) := by
  cases a with
  | infinity => contradiction
  | nan => contradiction
  | finite n₁ m₁ e₁ =>
    cases b with
    | infinity => contradiction
    | nan => contradiction
    | finite n₂ m₂ e₂ =>
      injection ha with ha
      injection hb with hb
      unfold add
      dsimp only
      have hsum : x + y = _ :=
        congrArg₂ (· + ·) (ha.symm.trans (rescale n₁ m₁ (min_le_left e₁ e₂)))
          (hb.symm.trans (rescale n₂ m₂ (min_le_right e₁ e₂)))
      rw [← add_mul, ← Int.cast_add] at hsum
      rw [hsum]
      generalize (if n₁ then _ else _ : Int) + (if n₂ then _ else _) = sum
      split
      . next hzero =>
        rw [hzero, Int.cast_zero, zero_mul]
        exact nearest_zero hf
      . have hsigned : (sum : ℚ) * 2 ^ min e₁ e₂
            = signed (decide (sum < 0)) (sum.natAbs * 2 ^ min e₁ e₂) := by
          unfold signed
          rw [Nat.cast_natAbs]
          by_cases hneg : sum < 0
          . simp [hneg, abs_of_neg hneg]
          . simp [hneg, abs_of_nonneg (not_lt.1 hneg)]
        rw [hsigned]
        exact nearest_roundScaled hf _ _ _

theorem nearest_ofDecimal (hf : f.WellFormed) (negative : Bool) (digits : Nat) (e : Int) :
    f.Nearest (signed negative (digits * 10 ^ e)) (f.ofDecimal negative digits e) := by
  unfold ofDecimal
  split
  . next hdigits =>
    apply nearest_zero_of_le hf
    . positivity
    . rw [hdigits, Nat.cast_zero, zero_mul]
      positivity
  . next hdigits =>
    split
    . next hlarge =>
      have hlimit := hf.limit_nonneg
      apply nearest_infinity
      calc f.greatest
        _ < 2 ^ (f.precision + f.maxExp) := greatest_lt
        _ ≤ 2 ^ e := zpow_le_zpow_right₀ one_le_two (by omega)
        _ ≤ 10 ^ e := zpow_le_zpow_left₀ (by omega) (by norm_num) (by norm_num)
        _ ≤ digits * 10 ^ e := le_natCast_mul hdigits (by positivity)
    . split
      . next he =>
        have h := nearest_round hf negative (digits * Nat.pow 10 e.toNat) one_pos
        rwa [Nat.cast_mul, mul_pow_toNat 10 _ he, Nat.cast_one, div_one] at h
      . next he =>
        split
        . next hsmall =>
          apply nearest_zero_of_le hf (by positivity)
          have hten : (10 : ℚ) ^ e ≤ 2 ^ e := by
            rw [← inv_le_inv₀ (by positivity) (by positivity), ← zpow_neg, ← zpow_neg]
            exact zpow_le_zpow_left₀ (by omega) (by norm_num) (by norm_num)
          calc (digits : ℚ) * 10 ^ e
            _ ≤ 2 ^ ((digits.log2 : ℤ) + 1) * 2 ^ e := by
              gcongr
              exact (log2_between hdigits).2.le
            _ = 2 ^ ((digits.log2 : ℤ) + 1 + e) := by rw [← zpow_add₀ two_ne_zero]
            _ ≤ 2 ^ (f.minExp - 1) := zpow_le_zpow_right₀ one_le_two (by omega)
        . have hden : 0 < Nat.pow 10 (-e).toNat := Nat.pow_pos (by decide)
          have h := nearest_round hf negative digits hden
          rwa [div_pow_toNat_neg 10 _ he] at h

end Format

namespace Binary

variable {b : Binary} {q : ℚ}

theorem floor_magnitude (m : Nat) (e : Int) :
    ((if 0 ≤ e then m * Nat.pow 2 e.toNat else m / Nat.pow 2 (-e).toNat : ℕ) : ℤ)
      =
    ⌊(m : ℚ) * 2 ^ e⌋ := by
  split
  . next he =>
    have hcast : (m : ℚ) * 2 ^ e = ((m * Nat.pow 2 e.toNat : ℕ) : ℤ) := by
      rw [Int.cast_natCast, Nat.cast_mul]
      exact (mul_pow_toNat 2 _ he).symm
    rw [hcast, Int.floor_intCast]
  . next he =>
    have hcast : (m : ℚ) * 2 ^ e = (m : ℚ) / (Nat.pow 2 (-e).toNat : ℕ) :=
      (div_pow_toNat_neg 2 _ he).symm
    rw [hcast]
    exact (Rat.floor_natCast_div_natCast m (Nat.pow 2 (-e).toNat)).symm

theorem truncate?_of_nonneg (h : b.toRat? = some q) (hq : 0 ≤ q) : b.truncate? = some ⌊q⌋ := by
  cases b with
  | infinity => contradiction
  | nan => contradiction
  | finite negative m e =>
    injection h with h
    rw [truncate?]
    cases negative with
    | false =>
      subst h
      exact congrArg some (floor_magnitude m e)
    | true =>
      have hm : (0 : ℚ) ≤ m * 2 ^ e := by positivity
      have hneg : -((m : ℚ) * 2 ^ e) = q := h
      have hzero : (m : ℚ) * 2 ^ e = 0 := by linarith
      rw [if_pos rfl, floor_magnitude, ← hneg, hzero]
      simp

theorem truncate?_of_nonpos (h : b.toRat? = some q) (hq : q ≤ 0) : b.truncate? = some ⌈q⌉ := by
  cases b with
  | infinity => contradiction
  | nan => contradiction
  | finite negative m e =>
    injection h with h
    rw [truncate?]
    cases negative with
    | false =>
      have hm : (0 : ℚ) ≤ m * 2 ^ e := by positivity
      have hpos : (m : ℚ) * 2 ^ e = q := h
      have hzero : (m : ℚ) * 2 ^ e = 0 := by linarith
      rw [floor_magnitude, ← hpos, hzero]
      simp
    | true =>
      subst h
      rw [if_pos rfl, floor_magnitude]
      exact congrArg some Int.ceil_neg.symm

end Binary

end Number
end Overlay
