import Overlay.Proofs.ByteSize.Exactness
import Overlay.Proofs.Configuration.Change
import Overlay.Proofs.Configuration.Layered
import Overlay.Proofs.Expansion.Locality

/-!
This module contains which sizes of a client's file buffer are accepted, if they are written as a
whole number of a unit. The margin that is added to a size is lost on all whole numbers of bytes but
the negative ones, so the least size that passes for one that is not negative is minus one byte.
-/

namespace Overlay

open Number Relation

namespace ByteSize

variable {s : String} {cs : List Char} {n : ℤ} {unit : SizeUnit}

inductive Whole : List Char → ℤ → SizeUnit → Prop where
  | intro {sign digits name : List Char} {negative : Bool} {unit : SizeUnit}
    (hsign : Sign sign negative) (hdigits : Digits digits) (hunit : unit.IsNamed name) :
    Whole (sign ++ digits ++ name)
      (if negative then -(ofDigits digits : ℤ) else ofDigits digits) unit

theorem Whole.exists_sized (h : Whole cs n unit) :
    ∃ num numeral name, Sized cs num numeral name unit ∧ numeral.toRat = n := by
  cases h with
  | @intro sign digits name negative _ hsign hdigits hunit =>
    have hwritten := Numeral.Written.intro hsign (.whole hdigits) .absent
    rw [List.append_nil] at hwritten
    refine ⟨_, _, name, sized_append hwritten (hdigits.getLast?_append sign) hunit, ?_⟩
    cases negative <;> simp [Numeral.toRat, signed]

theorem parse_of_whole (h : Whole s.toList n unit) (hlt : (n * unit.bytes).natAbs < 2 ^ 53) :
    ∃ k, parse s = .ok k
      ∧ (0 ≤ n * unit.bytes → k = n * unit.bytes)
      ∧ (n * unit.bytes < 0 → k = n * unit.bytes ∨ k = n * unit.bytes + 1)
      ∧ (n * unit.bytes = -1 → k = 0) := by
  obtain ⟨num, numeral, name, hsized, hvalue⟩ := h.exists_sized
  have htotal : numeral.toRat * unit.bytes = ((n * unit.bytes : ℤ) : ℚ) := by
    rw [hvalue]
    push_cast
    rfl
  rw [parse_of_sized hsized]
  by_cases hneg : n * unit.bytes < 0
  . obtain ⟨k, hk, hnear, hone⟩ := exists_total?_of_neg htotal hlt hneg
    rw [hk]
    exact ⟨k, rfl, by omega, fun _ => hnear, hone⟩
  . rw [total?_of_nonneg htotal hlt (by omega)]
    exact ⟨_, rfl, by omega, by omega, by omega⟩

end ByteSize

namespace Rule

variable {p : Properties} {text : String} {n : ℤ}

def outOfRange (bytes : ℤ) : String :=
  "invalid value " ++ printInteger bytes ++ ", must be between 0 and "
    ++ printInteger maxBufferBytes

theorem result_check_userFileBufferBytes
    (hvalue : (p.value Property.userFileBufferBytes).result = .ok text)
    (hparse : ByteSize.parse text = .ok n) :
    (userFileBufferBytes.check p).result
      =
    if 0 ≤ n ∧ n ≤ maxBufferBytes then
      .ok ()
    else
      .error (.invalid Property.userFileBufferBytes (outOfRange n)) := by
  have hcontains : p.contains Property.userFileBufferBytes = true := by
    obtain ⟨raw, hraw, _⟩ := Properties.result_value_eq_ok_iff.1 hvalue
    rw [Dictionary.contains, hraw]
    rfl
  have hbytes := Properties.result_bytes hvalue
  rw [hparse] at hbytes
  simp only [userFileBufferBytes, hcontains, if_true, Logged.result_bind, hbytes, Except.bind]
  by_cases hrange : 0 ≤ n ∧ n ≤ maxBufferBytes
  . simp [hrange]
  . rw [if_neg hrange, if_neg]
    . rfl
    . simpa using hrange

theorem check_of_validate {conf : Configuration} {rule : Rule} (hrule : rule ∈ conf.rules)
    (h : conf.validate.result = .ok ()) : (rule.check conf.properties).result = .ok () :=
  result_checkAll_eq_ok_iff.1 h rule hrule

end Rule

namespace Configuration

variable {p : Properties} {text : String} {n total : ℤ} {unit : SizeUnit}

structure Passes (total : ℤ) : Prop where
  low : -1 ≤ total
  high : total ≤ 2147483647

/--
What becomes of properties in which the size of the buffer is a whole number of bytes, `total`: by
the rule about it, and by all that checks it. Properties that were made from layers were checked
before the ports of workers were released.
-/
structure BufferChecked (p : Properties) (total : ℤ) : Prop where
  accepted_iff : (Rule.userFileBufferBytes.check p).result = .ok () ↔ Passes total
  refused : ¬Passes total →
    ∃ bytes, (bytes = total ∨ (total < 0 ∧ bytes = total + 1))
      ∧ (Rule.userFileBufferBytes.check p).result
        = .error (.invalid Property.userFileBufferBytes (Rule.outOfRange bytes))
  validated : ∀ conf : Configuration, Rule.userFileBufferBytes ∈ conf.rules →
    conf.properties = p → conf.validate.result = .ok () → Passes total
  changed : ∀ (conf : Configuration) (change : Change), Rule.userFileBufferBytes ∈ conf.rules →
    (conf.apply change).1.properties = p → (conf.apply change).2 = .ok () → Passes total
  assembled : ∀ rules layers conf, Rule.userFileBufferBytes ∈ rules →
    deriveMasterAddress (Layer.merge layers) = .ok p → ofLayers rules layers = .ok conf →
    Passes total
  made : ∀ rules layers conf, Rule.userFileBufferBytes ∈ rules →
    ofLayers rules layers = .ok conf → conf.properties = p →
    (∀ port ∈ Property.workerPorts,
      ¬ReflTransGen (Expansion.Refers p.get?) Property.userFileBufferBytes port) →
    Passes total

theorem check_of_ofLayers {rules : List Rule} {layers : List Layer} {conf : Configuration}
    {rule : Rule} (hrule : rule ∈ rules) (h : ofLayers rules layers = .ok conf) :
    ∃ q, deriveMasterAddress (Layer.merge layers) = .ok q ∧ (rule.check q).result = .ok ()
      ∧ ∀ key, key ∉ Property.workerPorts → conf.properties.get? key = q.get? key := by
  obtain ⟨q, q', hq, hrules, hq', rfl⟩ := ofLayers_eq_ok_iff.1 h
  refine ⟨q, hq, Rule.result_checkAll_eq_ok_iff.1 hrules rule hrule, ?_⟩
  intro key hkey
  obtain ⟨workers, hworkers, _⟩ := releaseWorkerPorts_eq_ok_iff.1 hq'
  rw [get?_of_releaseWorkerPorts hworkers hq', if_neg]
  exact fun h => hkey h.2

theorem bufferSize_checked
    (hvalue : (p.value Property.userFileBufferBytes).result = .ok text)
    (hwhole : ByteSize.Whole text.toList n unit) (hlt : (n * unit.bytes).natAbs < 2 ^ 53) :
    BufferChecked p (n * unit.bytes) := by
  obtain ⟨k, hparse, hnonneg, hneg, hone⟩ := ByteSize.parse_of_whole hwhole hlt
  generalize n * unit.bytes = total at hnonneg hneg hone
  have hrange : (0 ≤ k ∧ k ≤ Rule.maxBufferBytes) ↔ Passes total := by
    rw [Rule.maxBufferBytes]
    constructor
    . intro h
      constructor <;> omega
    . intro h
      have hlow := h.low
      have hhigh := h.high
      omega
  -- The rule is about the value only, so it is enough that other properties have it too.
  have hcheck : ∀ q : Properties, (q.value Property.userFileBufferBytes).result = .ok text →
      (Rule.userFileBufferBytes.check q).result = .ok () → Passes total := by
    intro q hq h
    rw [Rule.result_check_userFileBufferBytes hq hparse] at h
    rw [← hrange]
    by_contra hout
    rw [if_neg hout] at h
    contradiction
  have hresult := Rule.result_check_userFileBufferBytes hvalue hparse
  constructor
  case accepted_iff =>
    constructor
    . exact hcheck p hvalue
    . intro h
      rw [hresult, if_pos (hrange.2 h)]
  case refused =>
    intro h
    refine ⟨k, by omega, ?_⟩
    rw [hresult, if_neg (mt hrange.1 h)]
  case validated =>
    rintro conf hrule rfl h
    exact hcheck _ hvalue (Rule.check_of_validate hrule h)
  case changed =>
    rintro conf change hrule rfl h
    apply hcheck _ hvalue
    by_cases hkey : change.SetsEmptyKey
    . cases change with
      | merge pairs => contradiction
      | set key value =>
        rw [Change.SetsEmptyKey] at hkey
        rw [hkey, apply, set_empty] at h
        contradiction
    . apply Rule.check_of_validate
      . rwa [apply_fst]
      . rwa [← apply_snd hkey]
  case assembled =>
    intro rules layers conf hrule hp h
    obtain ⟨q, hq, hcheckq, _⟩ := check_of_ofLayers hrule h
    rw [hp] at hq
    injection hq with hq
    subst hq
    exact hcheck p hvalue hcheckq
  case made =>
    rintro rules layers conf hrule h rfl hports
    obtain ⟨q, _, hcheckq, hothers⟩ := check_of_ofLayers hrule h
    apply hcheck q _ hcheckq
    rw [← hvalue]
    congr 1
    symm
    apply Properties.value_congr
    intro key hkey
    apply hothers
    intro hport
    exact hports key hport hkey

def scattered : Properties :=
  .ofList [(Property.userFileBufferBytes, "+${count}${unit}"), ("count", "2097151"), ("unit", "Kb")]

theorem bufferSize_checked_scattered :
    (scattered.value Property.userFileBufferBytes).result = .ok "+2097151Kb"
      ∧ ByteSize.Whole "+2097151Kb".toList 2097151 .kilo
      ∧ BufferChecked scattered 2147482624 := by
  have hvalue : (scattered.value Property.userFileBufferBytes).result = .ok "+2097151Kb" := by
    decide +kernel
  have hunit : SizeUnit.kilo.IsNamed "Kb".toList := by decide
  have hdigits : Digits "2097151".toList := by decide
  have hwhole : ByteSize.Whole "+2097151Kb".toList 2097151 .kilo := .intro .plus hdigits hunit
  exact ⟨hvalue, hwhole, bufferSize_checked hvalue hwhole (by decide)⟩

def minusOne : Properties :=
  .ofList [(Property.userFileBufferBytes, "-1")]

theorem bufferSize_minus_one :
    (¬∀ (p : Properties) (text : String) (n : ℤ) (unit : SizeUnit),
      (p.value Property.userFileBufferBytes).result = .ok text →
      ByteSize.Whole text.toList n unit → (n * unit.bytes).natAbs < 2 ^ 53 →
      ((Rule.userFileBufferBytes.check p).result = .ok ()
        ↔ 0 ≤ n * unit.bytes ∧ n * unit.bytes ≤ 2147483647))
    ∧ (empty.set Property.userFileBufferBytes "-1").2 = .ok ()
    ∧ (empty.merge [(Property.userFileBufferBytes, "-1")]).2 = .ok ()
    ∧ (ofLayers Rule.builtin
        [⟨"site", .site, none, .ofList
          [(Property.masterHostname, "localhost"), (Property.masterRpcPort, "19998"),
            (Property.workersPerHostMax, "1"), (Property.userFileBufferBytes, "-1")]⟩]).isOk
      = true := by
  refine ⟨?_, by decide +kernel, by decide +kernel, by decide +kernel⟩
  intro h
  have hvalue : (minusOne.value Property.userFileBufferBytes).result = .ok "-1" := by
    decide +kernel
  have haccepted : (Rule.userFileBufferBytes.check minusOne).result = .ok () := by
    decide +kernel
  have hunit : SizeUnit.byte.IsNamed "".toList := by decide
  have hdigits : Digits "1".toList := by decide
  have hwhole : ByteSize.Whole "-1".toList (-1) .byte := .intro .minus hdigits hunit
  have hrange := (h minusOne "-1" (-1) .byte hvalue hwhole (by decide)).1 haccepted
  exact absurd hrange.1 (by decide)

end Configuration
end Overlay
