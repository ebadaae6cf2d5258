import Overlay.Proofs.Dictionary
import Overlay.Proofs.Expansion.Meaning

/-!
This module contains that an expanded text stays as it is when it is expanded again. If every
opening brace belongs to a token, no token is formed where texts are put together, so the tokens of
an expanded text are those that were kept, whose names are undefined. Hence a configuration can be
replaced by its expanded values.
-/

namespace Overlay
namespace Expansion

open Placeholder

variable {look : String → Option String} {active : List String} {room : Nat} {n : String}
variable {cs out : List Char} {p : Pass}

def TidyValues (look : String → Option String) : Prop :=
  ∀ n raw, look n = some raw → Tidy raw.toList

theorem Expands.tidy (hlook : TidyValues look) (h : Expands look cs out) (hcs : Tidy cs) :
    Tidy out := by
  induction h with
  | nil => exact hcs
  | char hc _ ih =>
    obtain ⟨hbrace, hrest⟩ := hcs.of_char hc
    exact (ih hrest).cons hbrace
  | undefined hinner _ _ ih => exact (Tidy.token hinner).append (ih hcs.of_token)
  | defined _ hraw _ _ ihvalue ih => exact (ihvalue (hlook _ _ hraw)).append (ih hcs.of_token)

theorem Expands.undefined_of_mentions (hlook : TidyValues look) (h : Expands look cs out)
    (hcs : Tidy cs) (hn : Mentions out n) : look n = none := by
  induction h with
  | nil => exact absurd hn not_mentions_nil
  | char hc hrest ih =>
    have htidy := (hcs.of_char hc).2
    exact ih htidy ((mentions_char (hrest.tidy hlook htidy).tokenless).1 hn)
  | undefined hinner hnone _ ih =>
    rcases (mentions_token hinner).1 hn with rfl | hn
    . exact hnone
    . exact ih hcs.of_token hn
  | defined _ hraw hvalue hrest ihvalue ih =>
    have htidy := hlook _ _ hraw
    have htidy' := hcs.of_token
    rcases ((hvalue.tidy hlook htidy).mentions_append (hrest.tidy hlook htidy')).1 hn with hn | hn
    . exact ihvalue htidy hn
    . exact ih htidy' hn

theorem consult_of_undefined (hp : p.Sound look) (hactive : n ∉ active) (hn : look n = none) :
    ∃ q, consult (expandName look room active) n p = (.ok none, q) ∧ q.Sound look := by
  cases hknown : p.known? n with
  | some value =>
    cases value with
    | none => exact ⟨p, consult_eq_ok_iff.2 (.inl ⟨hknown, rfl⟩), hp⟩
    | some text =>
      obtain ⟨raw, hraw, _⟩ := hp n _ hknown
      rw [hn] at hraw
      contradiction
  | none =>
    refine ⟨(p.ask n).learn n none, consult_eq_ok_iff.2 (.inr ⟨hknown, p.ask n, ?_, rfl⟩), ?_⟩
    . exact expandName_eq_ok_iff.2 ⟨hactive, .inl ⟨hn, rfl, rfl⟩⟩
    . exact hp.ask.learn hn

theorem exists_runs_of_undefined (hp : p.Sound look)
    (h : ∀ n, Mentions cs n → n ∉ active ∧ look n = none) :
    ∃ p', Runs (expandName look room active) cs p cs p' := by
  induction cs using scan_induction generalizing p with
  | nil => exact ⟨p, .nil⟩
  | char c cs hc ih =>
    obtain ⟨p', hrun⟩ := ih hp fun n hn => h n ((mentions_char hc).2 hn)
    exact ⟨p', .char hc hrun⟩
  | token inner rest hinner ih =>
    obtain ⟨hactive, hnone⟩ := h (name inner) ((mentions_token hinner).2 (.inl rfl))
    obtain ⟨q, hconsult, hq⟩ := consult_of_undefined hp hactive hnone
    obtain ⟨p', hrun⟩ := ih hq fun n hn => h n ((mentions_token hinner).2 (.inr hn))
    exact ⟨p', .kept hinner hconsult hrun⟩

theorem expand_of_undefined {raw : String}
    (h : ∀ n, Mentions raw.toList n → n ∉ active ∧ look n = none) :
    (expand look active raw .fresh).1 = .ok raw := by
  obtain ⟨p', hrun⟩ := exists_runs_of_undefined Pass.sound_fresh h
  have hexpand : expand look active raw .fresh = (.ok raw, p') :=
    expand_eq_ok_iff.2 ⟨_, String.ofList_toList.symm, substitute_of_runs hrun⟩
  rw [hexpand]

theorem resolve_of_undefined {raw : String} (h : ∀ n, Mentions raw.toList n → look n = none) :
    (resolve look raw).1 = .ok raw := by
  apply expand_of_undefined
  intro n hn
  exact ⟨List.not_mem_nil, h n hn⟩

-- The key itself is defined, so it is none of the names that the value mentions.
theorem value_of_undefined {props : Properties} {key raw : String}
    (hraw : props.get? key = some raw) (h : ∀ n, Mentions raw.toList n → props.get? n = none) :
    (props.value key).result = .ok raw := by
  rw [Properties.result_value_of_get?_eq_some hraw]
  apply expand_of_undefined
  intro n hn
  refine ⟨?_, h n hn⟩
  rw [List.mem_singleton]
  rintro rfl
  rw [h n hn] at hraw
  contradiction

-- Which names are defined is the same in both configurations.
theorem value_eq_of_expanded {props props' : Properties} {text : String → String} {key : String}
    (htidy : TidyValues props.get?)
    (htext : ∀ key ∈ props.keys, (props.value key).result = .ok (text key))
    (hprops' : ∀ key, props'.get? key = if key ∈ props.keys then some (text key) else none) :
    (props'.value key).result = (props.value key).result := by
  by_cases hkey : key ∈ props.keys
  . have hvalue := htext key hkey
    obtain ⟨raw, hraw, hexpand⟩ := Properties.result_value_eq_ok_iff.1 hvalue
    have hexpands : Expands props.get? raw.toList (text key).toList :=
      (expands_iff_of_expand_fresh hexpand _).2 rfl
    rw [hvalue]
    apply value_of_undefined
    . rw [hprops', if_pos hkey]
    . intro n hn
      have hnone := hexpands.undefined_of_mentions htidy (htidy key raw hraw) hn
      rw [hprops', if_neg]
      simp [Dictionary.mem_keys_iff, hnone]
  . have hnone : props.get? key = none := by simpa [Dictionary.mem_keys_iff] using hkey
    rw [Properties.result_value_of_get?_eq_none hnone, Properties.result_value_of_get?_eq_none]
    rw [hprops', if_neg hkey]

/--
The configuration that is made from nothing but keys and the texts to which they are expanded.
-/
def exported (keys : List String) (text : String → String) : Configuration :=
  (Configuration.empty.merge (keys.map fun key => (key, text key))).1

theorem get?_exported (keys : List String) (text : String → String) (key : String) :
    (exported keys text).properties.get? key = if key ∈ keys then some (text key) else none :=
  Dictionary.get?_insertAll_map .empty keys text

theorem expansion_idempotent :
    (∀ look raw s, TidyValues look → Tidy raw.toList → (resolve look raw).1 = .ok s →
      (∀ n, Mentions s.toList n → look n = none) ∧ (resolve look s).1 = .ok s)
    ∧ (∀ (conf : Configuration) text, TidyValues conf.properties.get? →
      (∀ key ∈ conf.properties.keys, (conf.properties.value key).result = .ok (text key)) →
      (exported conf.properties.keys text).properties.keys = conf.properties.keys
      ∧ ∀ key, ((exported conf.properties.keys text).properties.value key).result
          = (conf.properties.value key).result) := by
  constructor
  . intro look raw s hlook hraw h
    have hexpands : Expands look raw.toList s.toList := (expands_iff_of_expand_fresh h _).2 rfl
    have hnone : ∀ n, Mentions s.toList n → look n = none :=
      fun n hn => hexpands.undefined_of_mentions hlook hraw hn
    exact ⟨hnone, resolve_of_undefined hnone⟩
  . intro conf text htidy htext
    constructor
    . apply Dictionary.keys_eq_of_isSome
      intro key
      rw [get?_exported, Bool.eq_iff_iff, ← Dictionary.mem_keys_iff]
      simp
    . intro key
      exact value_eq_of_expanded htidy htext (get?_exported _ _)

/--
Properties that are full of signs of tokens, but in which all opening braces belong to one.
-/
def seams : Properties :=
  .ofList [("a", "$"), ("b", "\x7d${ z }"), ("c", "${a}${b}$${ a }"), ("d", "${c}${z}${b}")]

def seamText : String → String
  | "a" => "$"
  | "b" => "\x7d${ z }"
  | "c" => "$\x7d${ z }$$"
  | "d" => "$\x7d${ z }$$${z}\x7d${ z }"
  | _ => ""

theorem expansion_idempotent_seams :
    TidyValues seams.get?
    ∧ Tidy "${a}${ d }".toList
    ∧ (resolve seams.get? "${a}${ d }").1 = .ok "$$\x7d${ z }$$${z}\x7d${ z }"
    ∧ (resolve seams.get? "$$\x7d${ z }$$${z}\x7d${ z }").1 = .ok "$$\x7d${ z }$$${z}\x7d${ z }"
    ∧ (∀ key ∈ seams.keys, (seams.value key).result = .ok (seamText key))
    ∧ ∀ key, ((exported seams.keys seamText).properties.value key).result
        = (seams.value key).result := by
  have hentries : ∀ entry ∈ seams.entries, Tidy entry.2.toList := by decide +kernel
  have htidy : TidyValues seams.get? := fun _ _ h => hentries _ (Dictionary.mem_of_assoc? h)
  have hraw : Tidy "${a}${ d }".toList := by decide +kernel
  have hresolve : (resolve seams.get? "${a}${ d }").1 = .ok "$$\x7d${ z }$$${z}\x7d${ z }" := by
    decide +kernel
  have htext : ∀ key ∈ seams.keys, (seams.value key).result = .ok (seamText key) := by
    decide +kernel
  have hagain := (expansion_idempotent.1 _ _ _ htidy hraw hresolve).2
  have hexported := (expansion_idempotent.2 ⟨seams, [], []⟩ seamText htidy htext).2
  exact ⟨htidy, hraw, hresolve, hagain, htext, hexported⟩

end Expansion
end Overlay
