import Overlay.Proofs.Expansion.Outcome

/-!
This module contains what the errors of an expansion are evidence of. A cyclic error lists a chain
of references that runs into itself, and an error about depth names the last of a chain of defined
names that are one too many. There are no other errors.
-/

namespace Overlay
namespace Expansion

open Placeholder

/--
The error lists the names of a chain of references, of which only the last one occurs before.
-/
structure ShowsCycle (look : String → Option String) (start : String → Prop) (e : ConfigError)
    (names : List String) (n : String) : Prop where
  error : e = .cyclicReference (names ++ [n])
  message : e.message
    = "cyclic placeholder reference: " ++ String.intercalate " -> " (names ++ [n])
  chain : Chain look start (names ++ [n])
  distinct : names.Nodup
  once : names.count n = 1
  bounded : names.length ≤ 64

/--
The error names the end of a chain of references between 65 different defined names.
-/
structure ShowsDepth (look : String → Option String) (start : String → Prop) (e : ConfigError)
    (names : List String) (n : String) : Prop where
  error : e = .referenceTooDeep n 64
  chain : Chain look start (names ++ [n])
  distinct : (names ++ [n]).Nodup
  defined : ∀ m ∈ names ++ [n], (look m).isSome
  count : (names ++ [n]).length = 65

def Evident (look : String → Option String) (start : String → Prop) (e : ConfigError) : Prop :=
  ∃ names n, ShowsCycle look start e names n ∨ ShowsDepth look start e names n

variable {look : String → Option String} {start : String → Prop}
variable {names : List String} {n : String} {e : ConfigError}

theorem Blamed.evident (h : Blamed look start e) : Evident look start e := by
  cases h with
  | @cycle names n hchain hnodup hmem hlength =>
    refine ⟨names, n, .inl ?_⟩
    constructor
    case error => rfl
    case message => rfl
    case chain => exact hchain
    case distinct => exact hnodup
    case once => exact List.count_eq_one_of_mem hnodup hmem
    case bounded => exact hlength
  | @depth names n hchain hnodup hdefined hlength =>
    refine ⟨names, n, .inr ?_⟩
    constructor
    case error => rfl
    case chain => exact hchain
    case distinct => exact hnodup
    case defined => exact hchain.forall_isSome hdefined
    case count =>
      rw [List.length_append, hlength]
      rfl

theorem error_evident :
    (∀ (conf : Configuration) key raw e, conf.properties.get? key = some raw →
      (conf.properties.value key).result = .error e → Evident conf.properties.get? (· = key) e)
    ∧ (∀ look raw e, (resolve look raw).1 = .error e → Evident look (Mentions raw.toList) e) := by
  constructor
  . intro conf key raw e hraw h
    exact (value_blamed hraw h).evident
  . intro look raw e h
    exact (resolve_blamed h).evident

def rung (i : Nat) : String :=
  String.ofList [Char.ofNat ('0'.toNat + i)]

def ladder : Properties :=
  .ofList <| (List.range 65).reverse.map fun i =>
    (rung i, if i < 64 then String.ofList (Piece.token (rung (i + 1)).toList).text else "end")

theorem error_evident_looping :
    (looping.value "a").result = .error (.cyclicReference ["a", "b", "c", "b"])
    ∧ Evident looping.get? (· = "a") (.cyclicReference ["a", "b", "c", "b"])
    ∧ (resolve ladder.get? "${0}").1 = .error (.referenceTooDeep (rung 64) 64)
    ∧ Evident ladder.get? (Mentions "${0}".toList) (.referenceTooDeep (rung 64) 64) := by
  have hraw : looping.get? "a" = some "${z}/${b}" := by decide +kernel
  have hcycle : (looping.value "a").result = .error (.cyclicReference ["a", "b", "c", "b"]) := by
    decide +kernel
  have hdepth : (resolve ladder.get? "${0}").1 = .error (.referenceTooDeep (rung 64) 64) := by
    decide +kernel
  refine ⟨hcycle, ?_, hdepth, ?_⟩
  . exact error_evident.1 ⟨looping, [], []⟩ "a" _ _ hraw hcycle
  . exact error_evident.2 ladder.get? "${0}" _ hdepth

end Expansion
end Overlay
