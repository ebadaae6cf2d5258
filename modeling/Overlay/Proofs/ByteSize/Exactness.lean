import Overlay.Proofs.ByteSize.Grammar
import Overlay.Proofs.Number.Decimal

/-!
This module contains how precise byte sizes are. A whole number of bytes is representable after each
step of the computation up to the margin, and the sum with the margin is off by so little that its
integer part is the number, unless it is negative. Sizes beyond 64 bits stay beyond 64 bits.
-/

namespace Overlay
namespace ByteSize

open Number Format

variable {s : String} {num name : List Char} {q x : ℚ} {unit : SizeUnit} {numeral : Numeral}
  {n : ℤ} {b : Binary}

theorem exists_bytes_eq_pow (unit : SizeUnit) : ∃ k ≤ 50, (unit.bytes : ℚ) = 2 ^ k := by
  cases unit with
  | byte => exact ⟨0, by decide, by norm_num [SizeUnit.bytes]⟩
  | kilo => exact ⟨10, by decide, by norm_num [SizeUnit.bytes]⟩
  | mega => exact ⟨20, by decide, by norm_num [SizeUnit.bytes]⟩
  | giga => exact ⟨30, by decide, by norm_num [SizeUnit.bytes]⟩
  | tera => exact ⟨40, by decide, by norm_num [SizeUnit.bytes]⟩
  | peta => exact ⟨50, by decide, by norm_num [SizeUnit.bytes]⟩

theorem toRat?_bytes (unit : SizeUnit) :
    (binary64.round false unit.bytes 1).toRat? = some (unit.bytes : ℚ) := by
  have h := nearest_round wellFormed_binary64 false unit.bytes one_pos
  rw [Nat.cast_one, div_one] at h
  apply h.toRat?_of_has
  obtain ⟨k, hk, hbytes⟩ := exists_bytes_eq_pow unit
  change binary64.Has (unit.bytes : ℚ)
  rw [hbytes]
  exact has_pow (by omega)

theorem toRat?_margin : ∃ δ : ℚ, margin.toRat? = some δ ∧ 1 / 2 ^ 14 ≤ δ ∧ δ ≤ 1 / 5000 := by
  have h := nearest_round wellFormed_binary64 false 1 (by decide : 0 < 10000)
  have hx : signed false ((1 : ℕ) / (10000 : ℕ) : ℚ) = 1 / 10000 := by
    norm_num [signed]
  rw [hx] at h
  have hzero : binary64.Has 0 := has_zero wellFormed_binary64
  have hlow : binary64.Has (1 / 2 ^ 14) := by
    have h := has_div_pow (n := 1) (k := 14) (by decide) (by decide)
    rwa [Int.cast_one] at h
  obtain ⟨δ, hδ, _⟩ := h.exists_toRat? (has_pow (k := 0) (by decide)) (by norm_num)
  refine ⟨δ, hδ, h.le_of_has hδ hlow (by norm_num), ?_⟩
  have hdistance := h.abs_sub_le hδ hzero
  rw [zero_sub, abs_neg, abs_of_pos (by norm_num : (0 : ℚ) < 1 / 10000)] at hdistance
  linarith [le_abs_self (δ - 1 / 10000)]

def sum (value : Binary) (unit : SizeUnit) : Binary :=
  binary64.add (binary64.mul value (binary64.round false unit.bytes 1)) margin

theorem total?_eq (value : Binary) (unit : SizeUnit) :
    total? value unit = (sum value unit).truncate?.filter fun n => n.natAbs < Nat.pow 2 63 := rfl

theorem toRat?_product (h : numeral.toRat * unit.bytes = n) (hn : n.natAbs < Nat.pow 2 53) :
    (binary64.mul (numeral.toBinary binary64) (binary64.round false unit.bytes 1)).toRat?
      =
    some (n : ℚ) := by
  obtain ⟨k, hk, hbytes⟩ := exists_bytes_eq_pow unit
  have hnumeral : numeral.toRat = n / 2 ^ k := by
    rw [← h, hbytes, mul_div_cancel_right₀]
    positivity
  have hvalue : (numeral.toBinary binary64).toRat? = some numeral.toRat := by
    apply (nearest_toBinary numeral).toRat?_of_has
    rw [hnumeral]
    exact has_div_pow hn (by omega)
  have hproduct := nearest_mul wellFormed_binary64 hvalue (toRat?_bytes unit)
  rw [h] at hproduct
  exact hproduct.toRat?_of_has (has_intCast hn)

theorem exists_sum_of_int (h : numeral.toRat * unit.bytes = n) (hn : n.natAbs < Nat.pow 2 53) :
    ∃ δ r : ℚ, 1 / 2 ^ 14 ≤ δ ∧ δ ≤ 1 / 5000
      ∧ binary64.Nearest (n + δ) (sum (numeral.toBinary binary64) unit)
      ∧ (sum (numeral.toBinary binary64) unit).toRat? = some r
      ∧ n ≤ r ∧ r ≤ n + 1 / 2500 := by
  obtain ⟨δ, hδ, hlow, hhigh⟩ := toRat?_margin
  have hsum := nearest_add wellFormed_binary64 (toRat?_product h hn) hδ
  have hrange : |(n : ℚ) + δ| ≤ |2 ^ 53| := by
    have hn' : (n.natAbs : ℚ) + 1 ≤ (Nat.pow 2 53 : ℕ) := by exact_mod_cast hn
    rw [natCast_pow_two, zpow_natCast, Nat.cast_natAbs, Int.cast_abs] at hn'
    have hδ' : |δ| ≤ 1 / 5000 := abs_le.2 ⟨by linarith, hhigh⟩
    rw [abs_of_pos (by positivity : (0 : ℚ) < 2 ^ 53)]
    linarith [abs_add_le (n : ℚ) δ]
  obtain ⟨r, hr, _⟩ := hsum.exists_toRat? (has_pow (k := 53) (by decide)) hrange
  have hδpos : (0 : ℚ) < δ := lt_of_lt_of_le (by norm_num) hlow
  have hdistance := hsum.abs_sub_le hr (has_intCast hn)
  rw [sub_add_cancel_left, abs_neg, abs_of_pos hδpos, abs_le] at hdistance
  exact ⟨δ, r, hlow, hhigh, hsum, hr, by linarith, by linarith⟩

theorem total?_of_truncate? {k : ℤ} {value : Binary}
    (h : (sum value unit).truncate? = some k) (hk : k.natAbs < Nat.pow 2 63) :
    total? value unit = some k := by
  rw [total?_eq, h, Option.filter_some, if_pos (decide_eq_true hk)]

theorem total?_of_nonneg (h : numeral.toRat * unit.bytes = n) (hn : n.natAbs < Nat.pow 2 53)
    (hpos : 0 ≤ n) : total? (numeral.toBinary binary64) unit = some n := by
  obtain ⟨_, r, _, _, _, hr, hlow, hhigh⟩ := exists_sum_of_int h hn
  have hpos' : (0 : ℚ) ≤ n := by exact_mod_cast hpos
  have hfloor : ⌊r⌋ = n := by
    rw [Int.floor_eq_iff]
    constructor <;> linarith
  apply total?_of_truncate?
  . rw [Binary.truncate?_of_nonneg hr (by linarith), hfloor]
  . exact hn.trans (by decide)

/--
A negative number of bytes is one more than its integer part tells if the margin is not lost in the
rounding. Of a single byte it is not lost.
-/
theorem exists_total?_of_neg (h : numeral.toRat * unit.bytes = n) (hn : n.natAbs < Nat.pow 2 53)
    (hneg : n < 0) :
    ∃ k, total? (numeral.toBinary binary64) unit = some k ∧ (k = n ∨ k = n + 1)
      ∧ (n = -1 → k = 0) := by
  obtain ⟨δ, r, hδ, _, hnearest, hr, hlow, hhigh⟩ := exists_sum_of_int h hn
  have hneg' : (n : ℚ) ≤ -1 := by exact_mod_cast (by omega : n ≤ -1)
  have hceil : n ≤ ⌈r⌉ ∧ ⌈r⌉ ≤ n + 1 := by
    constructor
    . have hle := Int.le_ceil r
      have hcast : (n : ℚ) ≤ ⌈r⌉ := by linarith
      exact_mod_cast hcast
    . rw [Int.ceil_le]
      push_cast
      linarith
  refine ⟨⌈r⌉, ?_, by omega, ?_⟩
  . apply total?_of_truncate?
    . exact Binary.truncate?_of_nonpos hr (by linarith)
    . change n.natAbs < 9007199254740992 at hn
      change ⌈r⌉.natAbs < 9223372036854775808
      omega
  . rintro rfl
    have hhas : binary64.Has (-1 + 1 / 2 ^ 14) := by
      have h := has_div_pow (n := -16383) (k := 14) (by decide) (by decide)
      norm_num at h ⊢
      exact h
    have hle : (-1 + 1 / 2 ^ 14 : ℚ) ≤ r := by
      apply hnearest.le_of_has hr hhas
      push_cast
      linarith
    have hgt : -1 < ⌈r⌉ := by
      rw [Int.lt_ceil]
      have hstep : (0 : ℚ) < 1 / 2 ^ 14 := by positivity
      push_cast
      linarith
    omega

def Reaches (y : ℚ) (b : Binary) : Prop :=
  (∃ r, b.toRat? = some r ∧ y ≤ r) ∨ ∃ negative, b = .infinity negative

theorem reaches_of_nearest {y : ℚ} (h : binary64.Nearest x b) (hy : binary64.Has y) (hle : y ≤ x) :
    Reaches y b := by
  cases h with
  | finite hvalue hhas hdistance =>
    exact .inl ⟨_, hvalue, (Nearest.finite hvalue hhas hdistance).le_of_has hvalue hy hle⟩
  | infinity => exact .inr ⟨_, rfl⟩

theorem Reaches.mul {y z : ℚ} {b' : Binary} (h : Reaches y b) (hz : b'.toRat? = some z)
    (hpos : 0 < z) (hhas : binary64.Has (y * z)) : Reaches (y * z) (binary64.mul b b') := by
  rcases h with ⟨r, hr, hle⟩ | ⟨negative, rfl⟩
  . apply reaches_of_nearest (nearest_mul wellFormed_binary64 hr hz) hhas
    exact mul_le_mul_of_nonneg_right hle hpos.le
  . cases b' with
    | infinity => contradiction
    | nan => contradiction
    | finite negative' m e =>
      have hm : m ≠ 0 := by
        rintro rfl
        injection hz with hz
        have hzero : z = 0 := by
          rw [← hz, Nat.cast_zero, zero_mul, signed, neg_zero, ite_self]
        exact hpos.ne' hzero
      exact .inr ⟨_, if_neg hm⟩

theorem Reaches.add {y z : ℚ} {b' : Binary} (h : Reaches y b) (hz : b'.toRat? = some z)
    (hpos : 0 ≤ z) (hhas : binary64.Has y) : Reaches y (binary64.add b b') := by
  rcases h with ⟨r, hr, hle⟩ | ⟨negative, rfl⟩
  . apply reaches_of_nearest (nearest_add wellFormed_binary64 hr hz) hhas
    linarith
  . cases b' with
    | infinity => contradiction
    | nan => contradiction
    | finite negative' m e => exact .inr ⟨_, rfl⟩

theorem reaches_product (h : 2 ^ 63 ≤ numeral.toRat * unit.bytes) :
    Reaches (2 ^ 63)
      (binary64.mul (numeral.toBinary binary64) (binary64.round false unit.bytes 1)) := by
  obtain ⟨k, hk, hbytes⟩ := exists_bytes_eq_pow unit
  have hpow : (2 : ℚ) ^ (63 - k) * unit.bytes = 2 ^ 63 := by
    rw [hbytes, ← pow_add]
    congr 1
    omega
  have hpos : (0 : ℚ) < unit.bytes := by
    rw [hbytes]
    positivity
  have hvalue : Reaches (2 ^ (63 - k)) (numeral.toBinary binary64) := by
    apply reaches_of_nearest (nearest_toBinary numeral) (has_pow (by omega))
    rw [← hpow] at h
    exact le_of_mul_le_mul_right h hpos
  rw [← hpow]
  apply hvalue.mul (toRat?_bytes unit) hpos
  rw [hpow]
  exact has_pow (by decide)

theorem total?_eq_none_of_le (h : 2 ^ 63 ≤ numeral.toRat * unit.bytes) :
    total? (numeral.toBinary binary64) unit = none := by
  obtain ⟨δ, hδ, hlow, _⟩ := toRat?_margin
  have hsum : Reaches (2 ^ 63) (sum (numeral.toBinary binary64) unit) :=
    (reaches_product h).add hδ (le_trans (by norm_num) hlow) (has_pow (by decide))
  rw [total?_eq]
  rcases hsum with ⟨r, hr, hle⟩ | ⟨negative, heq⟩
  . rw [Binary.truncate?_of_nonneg hr (le_trans (by positivity) hle), Option.filter_some, if_neg]
    have hfloor : (2 ^ 63 : ℤ) ≤ ⌊r⌋ := Int.le_floor.2 (by exact_mod_cast hle)
    simp only [decide_eq_true_eq]
    change ¬⌊r⌋.natAbs < 9223372036854775808
    omega
  . rw [heq]
    rfl

theorem sized_append (hnumber : Numeral.Written num numeral)
    (hlast : ∃ c ∈ num.getLast?, c.isDigit = true) (hunit : unit.IsNamed name) :
    Sized (num ++ name) num numeral name unit :=
  ⟨hnumber, hlast, hunit, [], [], [], by simp, by simp, by simp, by simp⟩

/--
A whole number of bytes below `2 ^ 53` is read exactly, and a number that does not fit in 64 bits is
never read as another.
-/
theorem parse_exact (s : String) (hnum : Unsigned num q) (hunit : unit.IsNamed name)
    (hs : s.toList = num ++ name) :
    (∀ n : ℕ, q * unit.bytes = n → n < 2 ^ 53 → parse s = .ok n)
      ∧ (2 ^ 63 ≤ q * unit.bytes → parse s = .error (.overflow s)) := by
  obtain ⟨numeral, hwritten, rfl⟩ := hnum.exists_written
  have hsized : Sized s.toList num numeral name unit := by
    rw [hs]
    exact sized_append hwritten hnum.last hunit
  rw [parse_of_sized hsized]
  constructor
  . intro n hn hlt
    have htotal : total? (numeral.toBinary binary64) unit = some (n : ℤ) := by
      apply total?_of_nonneg _ _ (Int.natCast_nonneg n)
      . rw [hn, Int.cast_natCast]
      . rwa [Int.natAbs_natCast]
    rw [htotal]
    rfl
  . intro hle
    rw [total?_eq_none_of_le hle]
    rfl

theorem parse_exact_at_limits :
    parse "8796093022207.9990234375KB" = .ok 9007199254740991
      ∧ parse "8192pb" = .error (.overflow "8192pb") := by
  constructor
  . have hdigits : Digits "8796093022207".toList := by decide
    have hdigits' : Digits "9990234375".toList := by decide
    have hnum := Unsigned.fraction hdigits hdigits'
    have hunit : SizeUnit.kilo.IsNamed "KB".toList := by decide
    have hwhole : ofDigits "8796093022207".toList = 8796093022207 := by decide
    have hfraction : ofDigits "9990234375".toList = 9990234375 := by decide
    have hlength : "9990234375".toList.length = 10 := by decide
    apply (parse_exact _ hnum hunit rfl).1 9007199254740991
    . rw [hwhole, hfraction, hlength]
      norm_num [SizeUnit.bytes]
    . norm_num
  . have hdigits : Digits "8192".toList := by decide
    have hnum := Unsigned.whole hdigits
    have hunit : SizeUnit.peta.IsNamed "pb".toList := by decide
    have hwhole : ofDigits "8192".toList = 8192 := by decide
    apply (parse_exact _ hnum hunit rfl).2
    rw [hwhole]
    norm_num [SizeUnit.bytes]

end ByteSize
end Overlay
