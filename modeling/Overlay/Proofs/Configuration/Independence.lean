import Overlay.Proofs.Configuration.Change
import Overlay.Proofs.Expansion.Locality

/-!
This module contains which changes leave the reading of a key alone: those that write neither the
key nor a name that references lead to from it, in whatever way the key is read and whatever the
reading ends with.
-/

namespace Overlay

open Relation

/--
All readings of a key are the same, their errors included. What a loader makes of the text of a
value counts as a reading.
-/
structure Properties.ReadAlike (p p' : Properties) (key : String) : Prop where
  value : p'.value key = p.value key
  int : p'.int key = p.int key
  long : p'.long key = p.long key
  double : p'.double key = p.double key
  float : p'.float key = p.float key
  boolean : p'.boolean key = p.boolean key
  bytes : p'.bytes key = p.bytes key
  list : ∀ delimiter, p'.list key delimiter = p.list key delimiter
  variant : ∀ (α : Type) [Variants α], (p'.variant key : Logged α) = p.variant key
  implementation : ∀ (α : Type) (registry : Registry α),
    p'.implementation key registry = p.implementation key registry
  loaded : ∀ (α : Type) (load : String → Logged α), (p'.value key >>= load) = (p.value key >>= load)

theorem Properties.ReadAlike.of_value {p p' : Properties} {key : String}
    (h : p'.value key = p.value key) : p.ReadAlike p' key := by
  constructor
  case value => exact h
  case int => rw [Properties.int, parsed, h, Properties.int, parsed]
  case long => rw [Properties.long, parsed, h, Properties.long, parsed]
  case double => rw [Properties.double, parsed, h, Properties.double, parsed]
  case float => rw [Properties.float, parsed, h, Properties.float, parsed]
  case boolean => rw [Properties.boolean, parsed, h, Properties.boolean, parsed]
  case bytes => rw [Properties.bytes, h, Properties.bytes]
  case list =>
    intro delimiter
    rw [Properties.list, h, Properties.list]
  case variant =>
    intro α _
    rw [Properties.variant, h, Properties.variant]
  case implementation =>
    intro α registry
    rw [Properties.implementation, h, Properties.implementation]
  case loaded =>
    intro α load
    rw [h]

namespace Configuration

variable {conf : Configuration} {change : Change} {key : String}

theorem agreeFrom_apply
    (h : ∀ pair ∈ change.written,
      ¬ReflTransGen (Expansion.Refers conf.properties.get?) key pair.1) :
    Expansion.AgreeFrom conf.properties.get? (conf.apply change).1.properties.get? key := by
  intro n hn
  rw [apply_fst, Dictionary.get?_insertAll, Dictionary.lastValue?_eq_none]
  . rfl
  . rintro pair hpair rfl
    exact h pair hpair hn

theorem readAlike_apply
    (h : ∀ pair ∈ change.written,
      ¬ReflTransGen (Expansion.Refers conf.properties.get?) key pair.1) :
    conf.properties.ReadAlike (conf.apply change).1.properties key :=
  .of_value (Properties.value_congr (agreeFrom_apply h)).symm

/--
A configuration in which two keys refer to each other, and two more lead to them.
-/
def knotted : Configuration where
  properties := .ofList [("a", "${z}/${b}"), ("b", "x${ a }"), ("c", "${a}"), ("d", "${c}")]
  rules := Rule.builtin
  layers := []

def misfit : Change :=
  .merge [("c", "${d}"), (Property.userFileBufferBytes, "3GB")]

theorem readAlike_apply_knotted :
    (∀ pair ∈ misfit.written,
      ¬ReflTransGen (Expansion.Refers knotted.properties.get?) "a" pair.1)
    ∧ (knotted.apply misfit).2 = .error
      (.invalid Property.userFileBufferBytes
        "invalid value 3221225472, must be between 0 and 2147483647")
    ∧ knotted.properties.ReadAlike (knotted.apply misfit).1.properties "a" := by
  have hfar : ∀ pair ∈ misfit.written,
      ¬ReflTransGen (Expansion.Refers knotted.properties.get?) "a" pair.1 := by
    intro pair hpair hreach
    have hclosed : ∀ n ∈ ["a", "b", "z"], ∀ raw ∈ knotted.properties.get? n,
        ∀ m ∈ Placeholder.names raw.toList, m ∈ ["a", "b", "z"] := by
      decide +kernel
    have hother : ∀ pair ∈ misfit.written, pair.1 ∉ ["a", "b", "z"] := by
      decide +kernel
    exact hother pair hpair (Expansion.mem_of_reachable hclosed List.mem_cons_self hreach)
  exact ⟨hfar, by decide +kernel, readAlike_apply hfar⟩

end Configuration
end Overlay
