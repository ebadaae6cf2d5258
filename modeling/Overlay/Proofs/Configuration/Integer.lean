import Mathlib.Data.Nat.Digits.Defs
import Overlay.Proofs.Configuration.Change
import Overlay.Proofs.Expansion.Concatenation
import Overlay.Proofs.Number.Numeral

/-!
This module contains which values are read as whole numbers, and as which. The readers of 32 and of
64 bits agree on the number that a text writes, and a number that does not fit is refused however
it is written.
-/

namespace Overlay
namespace Number

variable {digits cs : List Char} {n m : Int}

def decimal (digits : List Char) : Nat :=
  Nat.ofDigits 10 (digits.reverse.map fun c => c.toNat - '0'.toNat)

/--
A text that writes a whole number: decimal digits behind one sign, or none.
-/
inductive WritesInteger : List Char → Int → Prop where
  | unsigned {digits : List Char} (hdigits : Digits digits) : WritesInteger digits (decimal digits)
  | plus {digits : List Char} (hdigits : Digits digits) :
    WritesInteger ('+' :: digits) (decimal digits)
  | minus {digits : List Char} (hdigits : Digits digits) :
    WritesInteger ('-' :: digits) (-decimal digits)

-- Digits are read from the left, so the last one is taken off first.
theorem ofDigits_eq_decimal (digits : List Char) : ofDigits digits = decimal digits := by
  induction digits using List.reverseRecOn with
  | nil => rfl
  | append_singleton digits c ih =>
    have hread : ofDigits (digits ++ [c]) = 10 * ofDigits digits + digitValue c := by
      rw [ofDigits, List.foldl_append]
      rfl
    have hwrite : decimal (digits ++ [c]) = digitValue c + 10 * decimal digits := by
      rw [decimal, List.reverse_append]
      exact Nat.ofDigits_cons
    rw [hread, hwrite, ih, Nat.add_comm]

theorem integer?_eq_some_iff_writes : integer? cs = some n ↔ WritesInteger cs n := by
  rw [integer?_eq_some_iff]
  constructor
  . rintro ⟨sign, negative, digits, hsign, hdigits, rfl, rfl⟩
    rw [ofDigits_eq_decimal]
    cases hsign with
    | absent => exact .unsigned hdigits
    | plus => exact .plus hdigits
    | minus => exact .minus hdigits
  . intro h
    cases h with
    | @unsigned _ hdigits =>
      exact ⟨[], false, cs, .absent, hdigits, rfl, by simp [ofDigits_eq_decimal]⟩
    | @plus digits hdigits =>
      exact ⟨['+'], false, digits, .plus, hdigits, rfl, by simp [ofDigits_eq_decimal]⟩
    | @minus digits hdigits =>
      exact ⟨['-'], true, digits, .minus, hdigits, rfl, by simp [ofDigits_eq_decimal]⟩

theorem WritesInteger.unique (h : WritesInteger cs n) (h' : WritesInteger cs m) : n = m := by
  rw [← integer?_eq_some_iff_writes] at h h'
  rw [h] at h'
  injection h'

theorem fits_iff_pow {bits : Nat} :
    fits bits n = true ↔ -2 ^ (bits - 1) ≤ n ∧ n < 2 ^ (bits - 1) := by
  rw [fits_iff]
  have hpow : ((Nat.pow 2 (bits - 1) : Nat) : Int) = 2 ^ (bits - 1) := Int.natCast_pow 2 _
  rw [hpow]

theorem boundedInteger?_eq_some_iff {bits : Nat} :
    boundedInteger? bits cs = some n
      ↔
    WritesInteger cs n ∧ -2 ^ (bits - 1) ≤ n ∧ n < 2 ^ (bits - 1) := by
  rw [boundedInteger?, Option.filter_eq_some_iff, integer?_eq_some_iff_writes, fits_iff_pow]

theorem toString_eq_printInteger (n : Int) : toString n = printInteger n := by
  cases n with
  | ofNat n =>
    have hnonneg : ¬Int.ofNat n < 0 := Int.not_lt.2 (Int.natCast_nonneg n)
    rw [printInteger, if_neg hnonneg]
    rfl
  | negSucc n =>
    rw [printInteger, if_pos (Int.negSucc_lt_zero n), String.ofList_cons]
    rfl

end Number

namespace Properties

variable {p : Properties} {key text : String} {kind : ValueKind} {n : Int}

theorem result_parsed_eq_ok_iff {α : Type} {read : String → Option α} {a : α} :
    (p.parsed key kind read).result = .ok a
      ↔
    ∃ text, (p.value key).result = .ok text ∧ read text = some a := by
  cases hvalue : (p.value key).result with
  | error e => simp [parsed, Logged.result_bind, hvalue, Except.bind]
  | ok text =>
    rw [result_parsed hvalue]
    cases hread : read text <;> simp [hread]

theorem result_parsed_bounded_eq_ok_iff (bits : Nat) :
    (p.parsed key kind fun text => Number.boundedInteger? bits text.toList).result = .ok n
      ↔
    ∃ text, (p.value key).result = .ok text ∧ Number.WritesInteger text.toList n
      ∧ -2 ^ (bits - 1) ≤ n ∧ n < 2 ^ (bits - 1) := by
  rw [result_parsed_eq_ok_iff]
  simp only [Number.boundedInteger?_eq_some_iff]

structure ReadsInteger (text : List Char) (limit : Int) (refusal : ConfigError)
    (answer : Except ConfigError Int) : Prop where
  ok_iff : ∀ n, answer = .ok n ↔ Number.WritesInteger text n ∧ -limit ≤ n ∧ n < limit
  otherwise : (∀ n, ¬(Number.WritesInteger text n ∧ -limit ≤ n ∧ n < limit)) →
    answer = .error refusal
  beyond : ∀ n, Number.WritesInteger text n → n < -limit ∨ limit ≤ n → answer = .error refusal

theorem readsInteger_parsed (bits : Nat) (h : (p.value key).result = .ok text) :
    ReadsInteger text.toList (2 ^ (bits - 1)) (.typeMismatch key kind)
      (p.parsed key kind fun text => Number.boundedInteger? bits text.toList).result := by
  rw [result_parsed h]
  have hotherwise : (∀ n, ¬(Number.WritesInteger text.toList n ∧ -2 ^ (bits - 1) ≤ n
      ∧ n < 2 ^ (bits - 1))) → Number.boundedInteger? bits text.toList = none := by
    intro hnone
    rw [Option.eq_none_iff_forall_ne_some]
    intro n hn
    exact hnone n (Number.boundedInteger?_eq_some_iff.1 hn)
  constructor
  case ok_iff =>
    intro n
    rw [← Number.boundedInteger?_eq_some_iff]
    cases Number.boundedInteger? bits text.toList with
    | none => simp
    | some m => simp
  case otherwise =>
    intro hnone
    rw [hotherwise hnone]
  case beyond =>
    intro n hn hbeyond
    rw [hotherwise]
    rintro m ⟨hm, hlow, hhigh⟩
    have heq := hn.unique hm
    omega

theorem result_parsed_of_stored (bits : Nat) (h : p.get? key = some (toString n))
    (hlow : -2 ^ (bits - 1) ≤ n) (hhigh : n < 2 ^ (bits - 1)) :
    (p.parsed key kind fun text => Number.boundedInteger? bits text.toList).result = .ok n := by
  rw [Number.toString_eq_printInteger] at h
  have hplain : '$' ∉ (Number.printInteger n).toList := by
    intro hmem
    rcases Number.mem_printInteger hmem with hminus | hdigit
    . contradiction
    . contradiction
  rw [result_parsed (Expansion.value_of_plain h hplain), Number.boundedInteger?_printInteger,
    if_pos (Number.fits_iff_pow.2 ⟨hlow, hhigh⟩)]

end Properties

namespace Configuration

structure IntegersRead (conf : Configuration) (key : String) : Prop where
  int : ∀ text, (conf.properties.value key).result = .ok text →
    Properties.ReadsInteger text.toList (2 ^ 31) (.typeMismatch key .integer)
      (conf.properties.int key).result
  long : ∀ text, (conf.properties.value key).result = .ok text →
    Properties.ReadsInteger text.toList (2 ^ 63) (.typeMismatch key .long)
      (conf.properties.long key).result
  agree : ∀ n, (conf.properties.int key).result = .ok n
    ↔ (conf.properties.long key).result = .ok n ∧ -2 ^ 31 ≤ n ∧ n < 2 ^ 31
  int_stored : ∀ n : Int, conf.properties.get? key = some (toString n) →
    -2 ^ 31 ≤ n → n < 2 ^ 31 → (conf.properties.int key).result = .ok n
  long_stored : ∀ n : Int, conf.properties.get? key = some (toString n) →
    -2 ^ 63 ≤ n → n < 2 ^ 63 → (conf.properties.long key).result = .ok n
  int_set : ∀ n : Int, key ≠ "" → -2 ^ 31 ≤ n → n < 2 ^ 31 →
    ((conf.set key (toString n)).1.properties.int key).result = .ok n
  long_set : ∀ n : Int, key ≠ "" → -2 ^ 63 ≤ n → n < 2 ^ 63 →
    ((conf.set key (toString n)).1.properties.long key).result = .ok n

theorem get?_set_self {conf : Configuration} {key value : String} (h : key ≠ "") :
    (conf.set key value).1.properties.get? key = some value := by
  unfold set
  simp [h]

theorem integers_read (conf : Configuration) (key : String) : IntegersRead conf key := by
  constructor
  case int =>
    intro text h
    exact Properties.readsInteger_parsed 32 h
  case long =>
    intro text h
    exact Properties.readsInteger_parsed 64 h
  case agree =>
    intro n
    unfold Properties.int Properties.long
    rw [Properties.result_parsed_bounded_eq_ok_iff, Properties.result_parsed_bounded_eq_ok_iff]
    constructor
    . rintro ⟨text, htext, hwrites, hlow, hhigh⟩
      exact ⟨⟨text, htext, hwrites, by omega, by omega⟩, hlow, hhigh⟩
    . rintro ⟨⟨text, htext, hwrites, _, _⟩, hlow, hhigh⟩
      exact ⟨text, htext, hwrites, hlow, hhigh⟩
  case int_stored =>
    intro n hstored hlow hhigh
    exact Properties.result_parsed_of_stored 32 hstored hlow hhigh
  case long_stored =>
    intro n hstored hlow hhigh
    exact Properties.result_parsed_of_stored 64 hstored hlow hhigh
  case int_set =>
    intro n hkey hlow hhigh
    exact Properties.result_parsed_of_stored 32 (get?_set_self hkey) hlow hhigh
  case long_set =>
    intro n hkey hlow hhigh
    exact Properties.result_parsed_of_stored 64 (get?_set_self hkey) hlow hhigh

/--
A configuration with the least number of 32 bits, behind a placeholder and with leading zeros, and
the number above the greatest one.
-/
def limits : Configuration where
  properties := .ofList
    [("least", "${sign}0002147483648"), ("sign", "-"), ("beyond", "+0002147483648")]
  rules := Rule.builtin
  layers := []

theorem integers_read_limits :
    (limits.properties.int "least").result = .ok (-2147483648)
    ∧ (limits.properties.int "beyond").result = .error (.typeMismatch "beyond" .integer)
    ∧ (limits.properties.long "beyond").result = .ok 2147483648 := by
  have hleast : (limits.properties.value "least").result = .ok "-0002147483648" := by
    decide +kernel
  have hbeyond : (limits.properties.value "beyond").result = .ok "+0002147483648" := by
    decide +kernel
  have hwrites : Number.WritesInteger "-0002147483648".toList (-2147483648) := by
    rw [← Number.integer?_eq_some_iff_writes]
    decide +kernel
  have hbeyond' : Number.WritesInteger "+0002147483648".toList 2147483648 := by
    rw [← Number.integer?_eq_some_iff_writes]
    decide +kernel
  refine ⟨?_, ?_, ?_⟩
  . rw [((integers_read limits "least").int _ hleast).ok_iff]
    exact ⟨hwrites, by decide, by decide⟩
  . exact ((integers_read limits "beyond").int _ hbeyond).beyond 2147483648 hbeyond' (by decide)
  . rw [((integers_read limits "beyond").long _ hbeyond).ok_iff]
    exact ⟨hbeyond', by decide, by decide⟩

end Configuration
end Overlay
