import Overlay.Reading

/-!
This module contains when a computation that can fail gives a result, in particular the reading of
a property.
-/

namespace Overlay

variable {ε α β : Type}

theorem bind_eq_ok_iff {x : Except ε α} {f : α → Except ε β} {b : β} :
    (x >>= f) = .ok b ↔ ∃ a, x = .ok a ∧ f a = .ok b := by
  cases x with
  | error e => simp [bind, Except.bind]
  | ok a => simp [bind, Except.bind]

theorem map_eq_ok_iff {x : Except ε α} {f : α → β} {b : β} :
    x.map f = .ok b ↔ ∃ a, x = .ok a ∧ f a = b := by
  cases x with
  | error e => simp [Except.map]
  | ok a => simp [Except.map]

theorem exists_of_isOk {x : Except ε α} (h : x.isOk = true) : ∃ a, x = .ok a := by
  cases x with
  | error e => contradiction
  | ok a => exact ⟨a, rfl⟩

theorem exists_of_isOk_eq_false {x : Except ε α} (h : x.isOk = false) : ∃ e, x = .error e := by
  cases x with
  | error e => exact ⟨e, rfl⟩
  | ok a => contradiction

namespace Properties

variable {p : Properties} {key : String}

theorem raw_eq_ok_iff {text : String} : p.raw key = .ok text ↔ p.get? key = some text := by
  unfold raw
  cases p.get? key <;> simp

theorem result_value_of_get?_eq_some {raw : String} (h : p.get? key = some raw) :
    (p.value key).result = (Expansion.resolveProperty p.get? key raw).1 := by
  unfold value
  rw [raw_eq_ok_iff.2 h]

theorem result_value_of_get?_eq_none (h : p.get? key = none) :
    (p.value key).result = .error (.keyNotFound key) := by
  unfold value raw
  rw [h]
  rfl

theorem result_value_eq_ok_iff {text : String} :
    (p.value key).result = .ok text
      ↔
    ∃ raw, p.get? key = some raw ∧ (Expansion.resolveProperty p.get? key raw).1 = .ok text := by
  cases hget : p.get? key with
  | none => simp [result_value_of_get?_eq_none hget]
  | some raw => simp [result_value_of_get?_eq_some hget]

variable {α : Type} {kind : ValueKind} {read : String → Option α} {text : String}

theorem result_parsed (h : (p.value key).result = .ok text) :
    (p.parsed key kind read).result
      =
    match read text with
    | some a => .ok a
    | none => .error (.typeMismatch key kind) := by
  rw [parsed, Logged.result_bind, h]
  simp only [Except.bind]
  cases read text with
  | none => rfl
  | some a => rfl

theorem result_bytes (h : (p.value key).result = .ok text) :
    (p.bytes key).result
      =
    match ByteSize.parse text with
    | .ok n => .ok n
    | .error _ => .error (.typeMismatch key .bytes) := by
  rw [bytes, Logged.result_bind, h]
  simp only [Except.bind]
  cases ByteSize.parse text with
  | ok n => rfl
  | error e => rfl

theorem result_list {delimiter : String} (hdelimiter : delimiter ≠ "")
    (h : (p.value key).result = .ok text) :
    (p.list key delimiter).result = .ok (items delimiter text) := by
  rw [list, if_neg (by simpa using hdelimiter), Logged.result_bind, h]
  rfl

end Properties
end Overlay
