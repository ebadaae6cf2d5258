import Mathlib.Algebra.Order.Field.Power
import Mathlib.Algebra.Order.Field.Rat
import Mathlib.Data.Rat.Floor
import Mathlib.Tactic.FieldSimp
import Mathlib.Tactic.Linarith
import Mathlib.Tactic.Positivity
import Overlay.Number.Binary

/-!
This module contains that rounding is correct: a fraction becomes the number of the format that is
nearest to it, and it becomes an infinity only if it is beyond all finite numbers. What the nearest
number leaves of a fraction follows: it is the fraction itself if the format has it, and it is on
the same side of every number of the format.
-/

namespace Overlay
namespace Number

variable {num den : Nat}

theorem natCast_pow (b n : Nat) : ((Nat.pow b n : Nat) : ℚ) = (b : ℚ) ^ (n : ℤ) := by
  rw [zpow_natCast]
  exact Nat.cast_pow b n

theorem natCast_pow_two (n : Nat) : ((Nat.pow 2 n : Nat) : ℚ) = 2 ^ (n : ℤ) :=
  natCast_pow 2 n

theorem mul_pow_toNat (b : Nat) (x : ℚ) {e : Int} (he : 0 ≤ e) :
    x * (Nat.pow b e.toNat : Nat) = x * (b : ℚ) ^ e := by
  rw [natCast_pow, Int.toNat_of_nonneg he]

theorem div_pow_toNat_neg (b : Nat) (x : ℚ) {e : Int} (he : ¬0 ≤ e) :
    x / (Nat.pow b (-e).toNat : Nat) = x * (b : ℚ) ^ e := by
  rw [natCast_pow, Int.toNat_of_nonneg (by omega), zpow_neg, div_inv_eq_mul]

theorem roundQuotient_between (num : Nat) (hden : 0 < den) :
    2 * num ≤ 2 * (roundQuotient num den * den) + den
      ∧ 2 * (roundQuotient num den * den) ≤ 2 * num + den := by
  have hdiv := Nat.div_add_mod' num den
  have hlt := Nat.mod_lt num hden
  unfold roundQuotient
  dsimp only
  split
  . omega
  . split
    . rw [Nat.add_mul]
      omega
    . rw [Nat.add_mul]
      rcases Nat.mod_two_eq_zero_or_one (num / den) with hparity | hparity
      . rw [hparity]
        omega
      . rw [hparity]
        omega

theorem roundQuotient_error (num : Nat) (hden : 0 < den) :
    |(roundQuotient num den : ℚ) - num / den| ≤ 1 / 2 := by
  obtain ⟨hlow, hhigh⟩ := roundQuotient_between num hden
  have hpos : (0 : ℚ) < den := by exact_mod_cast hden
  have hlow' : (2 : ℚ) * num ≤ 2 * (roundQuotient num den * den) + den := by exact_mod_cast hlow
  have hhigh' : (2 : ℚ) * (roundQuotient num den * den) ≤ 2 * num + den := by
    exact_mod_cast hhigh
  have hscaled : |(roundQuotient num den : ℚ) - num / den| * den
      = |(roundQuotient num den : ℚ) * den - num| := by
    rw [← abs_of_pos hpos, ← abs_mul, abs_of_pos hpos, sub_mul, div_mul_cancel₀ _ hpos.ne']
  rw [← mul_le_mul_iff_of_pos_right hpos, hscaled, abs_le]
  constructor <;> linarith

theorem roundQuotient_nearest (hden : 0 < den) (k : ℤ) :
    |(roundQuotient num den : ℚ) - num / den| ≤ |(k : ℚ) - num / den| := by
  have herror := roundQuotient_error num hden
  by_cases hk : k = roundQuotient num den
  . rw [hk, Int.cast_natCast]
  . have hapart : (1 : ℚ) ≤ |(k : ℚ) - roundQuotient num den| := by
      have hone := Int.one_le_abs (sub_ne_zero.2 hk)
      exact_mod_cast hone
    have htriangle := abs_sub_le (k : ℚ) (num / den) (roundQuotient num den)
    rw [abs_sub_comm (num / den : ℚ)] at htriangle
    linarith

theorem scaleDown_snd_pos (hden : 0 < den) (e : Int) : 0 < (scaleDown num den e).2 := by
  unfold scaleDown
  split
  . exact Nat.mul_pos hden (Nat.two_pow_pos _)
  . exact hden

theorem scaleDown_quotient (num den : Nat) (e : Int) :
    ((scaleDown num den e).1 / (scaleDown num den e).2 : ℚ) = num / den / 2 ^ e := by
  unfold scaleDown
  split
  . next he =>
    rw [Nat.cast_mul, natCast_pow_two, Int.toNat_of_nonneg he, div_div]
  . next he =>
    rw [Nat.cast_mul, natCast_pow_two, Int.toNat_of_nonneg (by omega), zpow_neg, ← div_eq_mul_inv,
      div_right_comm]

theorem log2_between {n : Nat} (h : n ≠ 0) :
    (2 : ℚ) ^ (n.log2 : ℤ) ≤ n ∧ (n : ℚ) < 2 ^ ((n.log2 : ℤ) + 1) := by
  have hlow : 2 ^ n.log2 ≤ n := Nat.log2_self_le h
  have hhigh : n < 2 ^ (n.log2 + 1) := Nat.lt_log2_self
  exact ⟨by exact_mod_cast hlow, by exact_mod_cast hhigh⟩

theorem floorLog2_between (hnum : num ≠ 0) (hden : 0 < den) :
    (2 : ℚ) ^ floorLog2 num den ≤ num / den ∧ (num / den : ℚ) < 2 ^ (floorLog2 num den + 1) := by
  obtain ⟨hnumLow, hnumHigh⟩ := log2_between hnum
  obtain ⟨hdenLow, hdenHigh⟩ := log2_between hden.ne'
  have hpos : (0 : ℚ) < den := by exact_mod_cast hden
  have hquotient := scaleDown_quotient num den ((num.log2 : ℤ) - den.log2)
  have hsnd : (0 : ℚ) < (scaleDown num den ((num.log2 : ℤ) - den.log2)).2 := by
    exact_mod_cast scaleDown_snd_pos hden _
  unfold floorLog2
  dsimp only
  split
  . next hle =>
    constructor
    . have hone : (1 : ℚ) ≤ num / den / 2 ^ ((num.log2 : ℤ) - den.log2) := by
        rw [← hquotient, one_le_div hsnd]
        exact_mod_cast hle
      rwa [one_le_div (by positivity)] at hone
    . rw [div_lt_iff₀ hpos]
      calc (num : ℚ)
        _ < 2 ^ ((num.log2 : ℤ) + 1) := hnumHigh
        _ = 2 ^ ((num.log2 : ℤ) - den.log2 + 1) * 2 ^ (den.log2 : ℤ) := by
          rw [← zpow_add₀ two_ne_zero]
          congr 1
          ring
        _ ≤ 2 ^ ((num.log2 : ℤ) - den.log2 + 1) * den := by gcongr
  . next hlt =>
    constructor
    . rw [le_div_iff₀ hpos]
      calc (2 : ℚ) ^ ((num.log2 : ℤ) - den.log2 - 1) * den
        _ ≤ 2 ^ ((num.log2 : ℤ) - den.log2 - 1) * 2 ^ ((den.log2 : ℤ) + 1) := by gcongr
        _ = 2 ^ (num.log2 : ℤ) := by
          rw [← zpow_add₀ two_ne_zero]
          congr 1
          ring
        _ ≤ num := hnumLow
    . have hone : (num / den / 2 ^ ((num.log2 : ℤ) - den.log2) : ℚ) < 1 := by
        rw [← hquotient, div_lt_one hsnd]
        exact_mod_cast not_le.1 hlt
      rwa [div_lt_one (by positivity), ← sub_add_cancel ((num.log2 : ℤ) - den.log2) 1] at hone

def signed (negative : Bool) (q : ℚ) : ℚ :=
  if negative then -q else q

theorem abs_signed (negative : Bool) (q : ℚ) : |signed negative q| = |q| := by
  cases negative with
  | false => rfl
  | true => exact abs_neg q

theorem abs_signed_sub_signed (negative : Bool) (x y : ℚ) :
    |signed negative x - signed negative y| = |x - y| := by
  cases negative with
  | false => rfl
  | true => rw [signed, signed, if_pos rfl, if_pos rfl, neg_sub_neg, abs_sub_comm]

theorem signed_signed (negative : Bool) (q : ℚ) : signed negative (signed negative q) = q := by
  cases negative with
  | false => rfl
  | true => exact neg_neg q

def Binary.toRat? : Binary → Option ℚ
  | .finite negative m e => some (signed negative (m * 2 ^ e))
  | .infinity _ => none
  | .nan => none

namespace Format

variable (f : Format)

structure WellFormed : Prop where
  precision_pos : 0 < f.precision
  minExp_le_maxExp : f.minExp ≤ f.maxExp
  limit_nonneg : 0 ≤ f.maxExp + f.precision

theorem wellFormed_binary64 : binary64.WellFormed := ⟨by decide, by decide, by decide⟩

def Has (q : ℚ) : Prop :=
  ∃ (m : Nat) (e : Int), m < Nat.pow 2 f.precision ∧ f.minExp ≤ e ∧ e ≤ f.maxExp ∧ |q| = m * 2 ^ e

def greatest : ℚ :=
  (2 ^ (f.precision : ℤ) - 1) * 2 ^ f.maxExp

/--
The number of the format nearest to a rational number: no finite number of the format is nearer. It
is an infinity only for a number that is beyond all finite ones.
-/
inductive Nearest (x : ℚ) : Binary → Prop where
  | finite {b : Binary} {q : ℚ} (value : b.toRat? = some q) (has : f.Has q)
    (le : ∀ y, f.Has y → |q - x| ≤ |y - x|) : Nearest x b
  | infinity {negative : Bool} (sign : negative = true ↔ x < 0)
    (beyond : ∀ y, f.Has y → |y| < |x|) : Nearest x (.infinity negative)

variable {f} {x y q : ℚ} {b : Binary} {m : Nat} {e : Int} {negative : Bool}

theorem Has.abs_eq (h : f.Has x) (heq : |y| = |x|) : f.Has y := by
  obtain ⟨m, e, hm, hmin, hmax, habs⟩ := h
  exact ⟨m, e, hm, hmin, hmax, heq.trans habs⟩

theorem has_zero (hf : f.WellFormed) : f.Has 0 :=
  ⟨0, f.minExp, Nat.two_pow_pos _, le_rfl, hf.minExp_le_maxExp, by simp⟩

theorem greatest_nonneg : 0 ≤ f.greatest := by
  have hpower : (1 : ℚ) ≤ 2 ^ (f.precision : ℤ) := one_le_zpow₀ one_le_two (by omega)
  exact mul_nonneg (sub_nonneg.2 hpower) (by positivity)

theorem greatest_lt : f.greatest < 2 ^ (f.precision + f.maxExp) := by
  have hstep : (0 : ℚ) < 2 ^ f.maxExp := by positivity
  rw [greatest, zpow_add₀ two_ne_zero]
  linarith

theorem Has.abs_le (h : f.Has x) : |x| ≤ f.greatest := by
  obtain ⟨m, e, hm, _, hmax, habs⟩ := h
  have hm' : (m : ℚ) + 1 ≤ 2 ^ (f.precision : ℤ) := by
    rw [← natCast_pow_two]
    exact_mod_cast hm
  rw [habs]
  calc (m : ℚ) * 2 ^ e
    _ ≤ m * 2 ^ f.maxExp := by
      gcongr
      exact one_le_two
    _ ≤ (2 ^ (f.precision : ℤ) - 1) * 2 ^ f.maxExp := by
      gcongr
      linarith

theorem abs_sub_le_of_abs_eq (hx : 0 ≤ x) (habs : |y| = q) : |q - x| ≤ |y - x| := by
  have h := abs_abs_sub_abs_le y x
  rwa [habs, abs_of_nonneg hx] at h

theorem has_finite (hm : m < Nat.pow 2 f.precision) (hmin : f.minExp ≤ e) (hmax : e ≤ f.maxExp) :
    f.Has (signed negative (m * 2 ^ e)) := by
  refine ⟨m, e, hm, hmin, hmax, ?_⟩
  rw [abs_signed, abs_of_nonneg]
  positivity

variable (f) in
/--
A positive rational number is rounded on the grid of steps `2 ^ e`, to `s` steps. The step is the
least of the format unless the number has reached `2 ^ (precision - 1)` steps.
-/
structure OnGrid (x : ℚ) (e : Int) (s : Nat) : Prop where
  minExp_le : f.minExp ≤ e
  reached : e = f.minExp ∨ 2 ^ (e + f.precision - 1) ≤ x
  below : x < 2 ^ (e + f.precision)
  nearest : ∀ k : ℤ, |(s : ℚ) - x / 2 ^ e| ≤ |(k : ℚ) - x / 2 ^ e|

namespace OnGrid

variable {s : Nat}

theorem le_of_multiple (h : f.OnGrid x e s) (k : ℤ) : |s * 2 ^ e - x| ≤ |k * 2 ^ e - x| := by
  have hstep : (0 : ℚ) < 2 ^ e := by positivity
  have hscale : ∀ q : ℚ, |q - x / 2 ^ e| * 2 ^ e = |q * 2 ^ e - x| := by
    intro q
    rw [← abs_of_pos hstep, ← abs_mul, abs_of_pos hstep, sub_mul, div_mul_cancel₀ _ hstep.ne']
  rw [← hscale, ← hscale]
  exact mul_le_mul_of_nonneg_right (h.nearest k) hstep.le

theorem reached_of_ne (h : f.OnGrid x e s) (he : e ≠ f.minExp) :
    2 ^ (e + f.precision - 1) ≤ x := by
  cases h.reached with
  | inl hleast => contradiction
  | inr hpower => exact hpower

-- Numbers with a smaller step than the grid's are below a power of two that is on the grid and that
-- `x` has reached.
theorem le_of_has (h : f.OnGrid x e s) (hprecision : 0 < f.precision) (hx : 0 ≤ x)
    (hy : f.Has y) : |s * 2 ^ e - x| ≤ |y - x| := by
  obtain ⟨m, e', hm, hmin, _, habs⟩ := hy
  refine le_trans ?_ (abs_sub_le_of_abs_eq hx habs)
  by_cases he : e ≤ e'
  . have hmultiple : (m : ℚ) * 2 ^ e' = ((m * 2 ^ (e' - e).toNat : ℤ) : ℚ) * 2 ^ e := by
      rw [Int.cast_mul, Int.cast_pow, ← zpow_natCast, Int.toNat_of_nonneg (by omega), mul_assoc,
        Int.cast_ofNat, ← zpow_add₀ two_ne_zero, sub_add_cancel, Int.cast_natCast]
    rw [hmultiple]
    exact h.le_of_multiple _
  . have hpower : (2 : ℚ) ^ (e + f.precision - 1) ≤ x := h.reached_of_ne (by omega)
    have hmultiple : ((2 ^ (f.precision - 1) : ℤ) : ℚ) * 2 ^ e = 2 ^ (e + f.precision - 1) := by
      rw [Int.cast_pow, Int.cast_ofNat, ← zpow_natCast, ← zpow_add₀ two_ne_zero]
      congr 1
      omega
    have hbelow : (m : ℚ) * 2 ^ e' ≤ 2 ^ (e + f.precision - 1) := by
      have hm' : (m : ℚ) ≤ 2 ^ (f.precision : ℤ) := by
        rw [← natCast_pow_two]
        exact_mod_cast hm.le
      calc (m : ℚ) * 2 ^ e'
        _ ≤ 2 ^ (f.precision : ℤ) * 2 ^ e' := by gcongr
        _ = 2 ^ (f.precision + e') := by rw [← zpow_add₀ two_ne_zero]
        _ ≤ 2 ^ (e + f.precision - 1) := zpow_le_zpow_right₀ one_le_two (by omega)
    calc |s * 2 ^ e - x|
      _ ≤ |2 ^ (e + f.precision - 1) - x| := by
        rw [← hmultiple]
        exact h.le_of_multiple _
      _ = x - 2 ^ (e + f.precision - 1) := by rw [abs_sub_comm, abs_of_nonneg (by linarith)]
      _ ≤ x - m * 2 ^ e' := by linarith
      _ ≤ |m * 2 ^ e' - x| := by
        rw [abs_sub_comm]
        exact le_abs_self _

theorem quotient_lt (h : f.OnGrid x e s) : x / 2 ^ e < 2 ^ (f.precision : ℤ) := by
  rw [div_lt_iff₀ (by positivity), ← zpow_add₀ two_ne_zero, add_comm]
  exact h.below

theorem steps_le (h : f.OnGrid x e s) : s ≤ Nat.pow 2 f.precision := by
  have hlt := h.quotient_lt
  have hle := h.nearest (Nat.pow 2 f.precision : ℕ)
  rw [Int.cast_natCast, natCast_pow_two, abs_of_pos (sub_pos.2 hlt)] at hle
  have hs : (s : ℚ) ≤ (Nat.pow 2 f.precision : ℕ) := by
    rw [natCast_pow_two]
    linarith [le_abs_self ((s : ℚ) - x / 2 ^ e)]
  exact_mod_cast hs

theorem beyond (h : f.OnGrid x e s) (hf : f.WellFormed)
    (hmax : f.maxExp < e ∨ e = f.maxExp ∧ s = Nat.pow 2 f.precision) :
    f.greatest < x := by
  have hrange := hf.minExp_le_maxExp
  rcases hmax with hmax | ⟨rfl, hs⟩
  . calc f.greatest
      _ < 2 ^ (f.precision + f.maxExp) := greatest_lt
      _ ≤ 2 ^ (e + f.precision - 1) := zpow_le_zpow_right₀ one_le_two (by omega)
      _ ≤ x := h.reached_of_ne (by omega)
  . have hlt := h.quotient_lt
    have hle := h.nearest (Nat.pow 2 f.precision - 1 : ℤ)
    rw [hs, Int.cast_sub, Int.cast_natCast, natCast_pow_two, Int.cast_one,
      abs_of_pos (sub_pos.2 hlt)] at hle
    rw [greatest, ← lt_div_iff₀ (by positivity)]
    by_contra hge
    rw [abs_of_nonneg (by linarith)] at hle
    linarith

end OnGrid

theorem nearest_infinity (negative : Bool) (hx : f.greatest < x) :
    f.Nearest (signed negative x) (.infinity negative) := by
  have hpos : 0 < x := greatest_nonneg.trans_lt hx
  apply Nearest.infinity
  . cases negative with
    | false => simpa [signed] using hpos.le
    | true => simpa [signed] using hpos
  . intro y hy
    rw [abs_signed, abs_of_pos hpos]
    exact hy.abs_le.trans_lt hx

theorem nearest_finite (hm : m < Nat.pow 2 f.precision) (hmin : f.minExp ≤ e) (hmax : e ≤ f.maxExp)
    (hle : ∀ y, f.Has y → |m * 2 ^ e - x| ≤ |y - x|) :
    f.Nearest (signed negative x) (.finite negative m e) := by
  apply Nearest.finite rfl (has_finite hm hmin hmax)
  intro y hy
  rw [← signed_signed negative y, abs_signed_sub_signed, abs_signed_sub_signed]
  exact hle _ (hy.abs_eq (abs_signed negative y))

theorem nearest_place (hm : m < Nat.pow 2 f.precision) (hmin : f.minExp ≤ e)
    (hle : ∀ y, f.Has y → |m * 2 ^ e - x| ≤ |y - x|)
    (hbeyond : f.maxExp < e → f.greatest < x) :
    f.Nearest (signed negative x) (f.place negative m e) := by
  unfold place
  split
  . next hmax => exact nearest_infinity negative (hbeyond hmax)
  . next hmax => exact nearest_finite hm hmin (not_lt.1 hmax) hle

theorem le_natCast_mul {n : Nat} (h : n ≠ 0) (hx : 0 ≤ x) : x ≤ n * x := by
  have hone : (1 : ℚ) ≤ n := by exact_mod_cast Nat.one_le_iff_ne_zero.2 h
  exact le_mul_of_one_le_left hx hone

-- A number below half of the least positive number of the format.
theorem nearest_zero_of_le (hf : f.WellFormed) (hx : 0 ≤ x) (hlt : x ≤ 2 ^ (f.minExp - 1)) :
    f.Nearest (signed negative x) (f.zero negative) := by
  apply nearest_finite (Nat.two_pow_pos _) le_rfl hf.minExp_le_maxExp
  intro y ⟨m, e, _, hmin, _, habs⟩
  have hdistance := abs_sub_le_of_abs_eq hx habs
  rw [Nat.cast_zero, zero_mul, zero_sub, abs_neg, abs_of_nonneg hx]
  by_cases hm : m = 0
  . rw [hm, Nat.cast_zero, zero_mul, zero_sub, abs_neg, abs_of_nonneg hx] at hdistance
    exact hdistance
  . have hleast : (2 : ℚ) ^ (f.minExp - 1) * 2 ≤ m * 2 ^ e := by
      calc (2 : ℚ) ^ (f.minExp - 1) * 2
        _ = 2 ^ f.minExp := by rw [← zpow_add_one₀ two_ne_zero, sub_add_cancel]
        _ ≤ 2 ^ e := zpow_le_zpow_right₀ one_le_two hmin
        _ ≤ m * 2 ^ e := le_natCast_mul hm (by positivity)
    have hle := le_abs_self (m * 2 ^ e - x)
    linarith

theorem nearest_zero (hf : f.WellFormed) : f.Nearest 0 (f.zero negative) := by
  have h : f.Nearest (signed negative 0) (f.zero negative) :=
    nearest_zero_of_le hf le_rfl (zpow_nonneg zero_le_two _)
  have hzero : signed negative 0 = 0 := by
    cases negative <;> simp [signed]
  rwa [hzero] at h

theorem onGrid_round (hnum : num ≠ 0) (hden : 0 < den)
    (he : e = max f.minExp (floorLog2 num den - ((f.precision : Int) - 1))) :
    f.OnGrid (num / den) e (roundQuotient (scaleDown num den e).1 (scaleDown num den e).2) := by
  obtain ⟨hlow, hhigh⟩ := floorLog2_between hnum hden
  constructor
  case minExp_le => omega
  case reached =>
    by_cases hmin : e = f.minExp
    . exact .inl hmin
    . have hexp : e + f.precision - 1 = floorLog2 num den := by omega
      rw [hexp]
      exact .inr hlow
  case below => exact hhigh.trans_le (zpow_le_zpow_right₀ one_le_two (by omega))
  case nearest =>
    rw [← scaleDown_quotient]
    exact roundQuotient_nearest (scaleDown_snd_pos hden e)

theorem nearest_round (hf : f.WellFormed) (negative : Bool) (num : Nat) (hden : 0 < den) :
    f.Nearest (signed negative (num / den)) (f.round negative num den) := by
  by_cases hnum : num = 0
  . rw [round, if_pos hnum]
    apply nearest_zero_of_le hf
    . positivity
    . rw [hnum, Nat.cast_zero, zero_div]
      positivity
  . rw [round, if_neg hnum]
    generalize he : max f.minExp (floorLog2 num den - ((f.precision : Int) - 1)) = e
    dsimp only
    have hgrid := onGrid_round hnum hden he.symm
    generalize roundQuotient (scaleDown num den e).1 (scaleDown num den e).2 = s at hgrid ⊢
    have hx : (0 : ℚ) < num / den := by positivity
    have hle : ∀ y, f.Has y → |s * 2 ^ e - (num / den : ℚ)| ≤ |y - num / den| := by
      intro y hy
      exact hgrid.le_of_has hf.precision_pos hx.le hy
    split
    . next hfits =>
      exact nearest_place hfits hgrid.minExp_le hle fun hmax => hgrid.beyond hf (.inl hmax)
    . next hfull =>
      -- The fraction is rounded up to a power of two, whose significand has one digit too many.
      have hs : s = Nat.pow 2 f.precision := le_antisymm hgrid.steps_le (not_lt.1 hfull)
      have hvalue : ((Nat.pow 2 (f.precision - 1) : ℕ) : ℚ) * 2 ^ (e + 1) = s * 2 ^ e := by
        have hprecision := hf.precision_pos
        rw [hs, natCast_pow_two, natCast_pow_two, ← zpow_add₀ two_ne_zero,
          ← zpow_add₀ two_ne_zero]
        congr 1
        omega
      apply nearest_place
      . exact Nat.pow_lt_pow_right one_lt_two (Nat.sub_lt hf.precision_pos one_pos)
      . exact hgrid.minExp_le.trans (by omega)
      . rwa [hvalue]
      . intro hmax
        apply hgrid.beyond hf
        by_cases he : f.maxExp < e
        . exact .inl he
        . exact .inr ⟨by omega, hs⟩

namespace Nearest

theorem exists_toRat? (h : f.Nearest x b) (hy : f.Has y) (hle : |x| ≤ |y|) :
    ∃ q, b.toRat? = some q ∧ f.Has q := by
  cases h with
  | finite hvalue hhas _ => exact ⟨_, hvalue, hhas⟩
  | infinity _ hbeyond => exact absurd (hbeyond y hy) (not_lt.2 hle)

theorem abs_sub_le (h : f.Nearest x b) (hvalue : b.toRat? = some q) (hy : f.Has y) :
    |q - x| ≤ |y - x| := by
  cases h with
  | finite hvalue' _ hle =>
    rw [hvalue] at hvalue'
    injection hvalue' with hvalue'
    rw [hvalue']
    exact hle y hy
  | infinity => contradiction

theorem toRat?_of_has (h : f.Nearest x b) (hx : f.Has x) : b.toRat? = some x := by
  obtain ⟨q, hq, _⟩ := h.exists_toRat? hx le_rfl
  have hle := h.abs_sub_le hq hx
  rw [sub_self, abs_zero] at hle
  rw [hq, sub_eq_zero.1 (abs_nonpos_iff.1 hle)]

theorem le_of_has (h : f.Nearest x b) (hvalue : b.toRat? = some q) (hy : f.Has y) (hle : y ≤ x) :
    y ≤ q := by
  have hdistance := h.abs_sub_le hvalue hy
  rw [abs_of_nonpos (sub_nonpos.2 hle)] at hdistance
  linarith [neg_abs_le (q - x)]

end Nearest

theorem has_of_lt (hm : m < Nat.pow 2 53) (hmin : -1074 ≤ e) (hmax : e ≤ 971) :
    binary64.Has (m * 2 ^ e) := by
  have h : binary64.Has (signed false (m * 2 ^ e)) := has_finite hm hmin hmax
  exact h

theorem has_div_pow {n : ℤ} (hn : n.natAbs < Nat.pow 2 53) {k : ℕ} (hk : k ≤ 1074) :
    binary64.Has (n / 2 ^ k) := by
  have hhas := has_of_lt (e := -k) hn (by omega) (by omega)
  apply hhas.abs_eq
  rw [zpow_neg, zpow_natCast, ← div_eq_mul_inv, abs_div, abs_div, Nat.cast_natAbs, Int.cast_abs,
    abs_abs]

theorem has_intCast {n : ℤ} (hn : n.natAbs < Nat.pow 2 53) : binary64.Has n := by
  have h := has_div_pow hn (Nat.zero_le 1074)
  rwa [pow_zero, div_one] at h

theorem has_pow {k : ℕ} (hk : k ≤ 971) : binary64.Has (2 ^ k) := by
  have h := has_of_lt (m := 1) (e := k) (by decide) (by omega) (by omega)
  rwa [Nat.cast_one, one_mul, zpow_natCast] at h

end Format

end Number
end Overlay
