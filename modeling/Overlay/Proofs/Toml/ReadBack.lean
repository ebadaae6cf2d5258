import Overlay.Proofs.Expansion.Idempotence
import Overlay.Proofs.Number
import Overlay.Proofs.Text
import Overlay.Toml.Value

/-!
This module contains what the typed readers make of a property whose value is the text of a TOML
value. Integers, booleans and strings come back as they are, and an array comes back as the list of
what is in it, at any depth: the commas between arrays are the same as those inside of them, and
what is empty is left out of lists.
-/

namespace Overlay

open Placeholder

namespace Properties

variable {p : Properties} {key raw : String}

theorem value_of_not_infix (hraw : p.get? key = some raw) (h : ¬['$', '{'] <:+: raw.toList) :
    (p.value key).result = .ok raw := by
  apply Expansion.value_of_undefined hraw
  intro n hn
  exact absurd (infix_of_mentions hn) h

theorem value_of_not_mem (hraw : p.get? key = some raw) (h : '{' ∉ raw.toList) :
    (p.value key).result = .ok raw := by
  apply value_of_not_infix hraw
  intro hsub
  exact h (hsub.subset (by simp))

theorem items_append (s t : String) : items "," (s ++ "," ++ t) = items "," s ++ items "," t := by
  have hcommas : ",".toList = [','] := rfl
  have htext : (s ++ "," ++ t).toList = s.toList ++ ',' :: t.toList := by simp
  simp only [items, hcommas, htext, Text.split_singleton_append, List.map_append,
    List.filter_append]

theorem items_intercalate (texts : List String) :
    items "," (String.intercalate "," texts) = texts.flatMap (items ",") := by
  induction texts with
  | nil => rfl
  | cons s texts ih =>
    cases texts with
    | nil => rw [String.intercalate_singleton, List.flatMap_singleton]
    | cons t texts => rw [String.intercalate_cons_cons, items_append, ih, ← List.flatMap_cons]

/--
A text that a list contains as it is: neither empty nor with blanks at the ends, and without the
delimiter. Nor does it have a brace, so that it is not expanded.
-/
structure Plain (s : String) : Prop where
  ne_empty : s ≠ ""
  trimmed : Text.trim s.toList = s.toList
  comma : ',' ∉ s.toList
  brace : '{' ∉ s.toList

instance : DecidablePred Plain := fun s =>
  decidable_of_iff (s ≠ "" ∧ Text.trim s.toList = s.toList ∧ ',' ∉ s.toList ∧ '{' ∉ s.toList)
    ⟨fun ⟨hne, htrim, hcomma, hbrace⟩ => ⟨hne, htrim, hcomma, hbrace⟩,
      fun ⟨hne, htrim, hcomma, hbrace⟩ => ⟨hne, htrim, hcomma, hbrace⟩⟩

theorem Plain.items_eq {s : String} (h : Plain s) : items "," s = [s] := by
  have hsplit : Text.split ",".toList s.toList = [s.toList] :=
    Text.split_singleton_of_not_mem h.comma
  rw [items, hsplit, List.map_singleton, h.trimmed]
  simp [h.ne_empty]

theorem plain_printInteger (n : Int) : Plain (Number.printInteger n) where
  ne_empty := by
    intro heq
    apply Number.printInteger_ne_nil n
    rw [heq]
    rfl
  trimmed := by
    apply Text.trim_eq_self
    intro c hc
    cases Number.mem_printInteger hc with
    | inl hminus => simp [hminus, Text.isBlank]
    | inr hdigit => exact Number.not_isBlank_of_isDigit hdigit
  comma := by
    intro hc
    have hc := Number.mem_printInteger hc
    contradiction
  brace := by
    intro hc
    have hc := Number.mem_printInteger hc
    contradiction

end Properties

namespace Toml

mutual

def Value.atoms : Value → List Value
  | .array items => itemAtoms items
  | v => [v]

def itemAtoms : List Value → List Value
  | [] => []
  | v :: vs => v.atoms ++ itemAtoms vs

end

def Value.Plain : Value → Prop
  | .integer _ => True
  | .boolean _ => True
  | .string s => Properties.Plain s
  | _ => False

instance : DecidablePred Value.Plain
  | .integer _ | .boolean _ => .isTrue trivial
  | .string s => inferInstanceAs (Decidable (Properties.Plain s))
  | .float _ | .dateTime _ | .array _ | .table _ => .isFalse id

theorem Value.Plain.text {v : Value} (h : v.Plain) : Properties.Plain v.text := by
  cases v with
  | integer n => exact Properties.plain_printInteger n
  | boolean b => cases b <;> exact (by decide)
  | string s => exact h
  | _ => exact h.elim

theorem texts_eq_map (vs : List Value) : texts vs = vs.map Value.text := by
  induction vs with
  | nil => rfl
  | cons v vs ih => rw [texts, ih, List.map_cons]

theorem mem_intercalate {c : Char} {texts : List String}
    (h : c ∈ (String.intercalate "," texts).toList) : c = ',' ∨ ∃ s ∈ texts, c ∈ s.toList := by
  induction texts with
  | nil => simp at h
  | cons s texts ih =>
    cases texts with
    | nil =>
      rw [String.intercalate_singleton] at h
      exact .inr ⟨s, List.mem_cons_self, h⟩
    | cons t texts =>
      rw [String.intercalate_cons_cons, String.toList_append, String.toList_append,
        List.mem_append, List.mem_append] at h
      obtain (hs | hcomma) | hrest := h
      . exact .inr ⟨s, List.mem_cons_self, hs⟩
      . exact .inl (List.mem_singleton.1 hcomma)
      . obtain hcomma | ⟨u, hu, hc⟩ := ih hrest
        . exact .inl hcomma
        . exact .inr ⟨u, List.mem_cons_of_mem s hu, hc⟩

mutual

theorem Value.mem_text {c : Char} {v : Value} (h : c ∈ v.text.toList) :
    c = ',' ∨ ∃ atom ∈ v.atoms, c ∈ atom.text.toList := by
  cases v with
  | array items =>
    rw [Value.text, texts_eq_map] at h
    obtain hcomma | ⟨s, hs, hc⟩ := mem_intercalate h
    . exact .inl hcomma
    . exact mem_itemTexts hs hc
  | _ => exact .inr ⟨_, List.mem_cons_self, h⟩

theorem mem_itemTexts {c : Char} {s : String} {vs : List Value} (hs : s ∈ vs.map Value.text)
    (hc : c ∈ s.toList) : c = ',' ∨ ∃ atom ∈ itemAtoms vs, c ∈ atom.text.toList := by
  cases vs with
  | nil => simp at hs
  | cons v vs =>
    simp only [itemAtoms, List.mem_append]
    cases List.mem_cons.1 hs with
    | inl hfirst =>
      rw [hfirst] at hc
      obtain hcomma | ⟨atom, hatom, hc⟩ := Value.mem_text hc
      . exact .inl hcomma
      . exact .inr ⟨atom, .inl hatom, hc⟩
    | inr hrest =>
      obtain hcomma | ⟨atom, hatom, hc⟩ := mem_itemTexts hrest hc
      . exact .inl hcomma
      . exact .inr ⟨atom, .inr hatom, hc⟩

end

theorem Value.brace_not_mem_text {v : Value} (h : ∀ atom ∈ v.atoms, atom.Plain) :
    '{' ∉ v.text.toList := by
  intro hbrace
  obtain hcomma | ⟨atom, hatom, hc⟩ := Value.mem_text hbrace
  . contradiction
  . exact (h atom hatom).text.brace hc

mutual

theorem Value.items_text {v : Value} (h : ∀ atom ∈ v.atoms, atom.Plain) :
    Properties.items "," v.text = v.atoms.map Value.text := by
  cases v with
  | array items =>
    rw [Value.text, texts_eq_map, Properties.items_intercalate]
    exact flatMap_items_texts h
  | _ => exact (h _ List.mem_cons_self).text.items_eq

theorem flatMap_items_texts {vs : List Value} (h : ∀ atom ∈ itemAtoms vs, atom.Plain) :
    (vs.map Value.text).flatMap (Properties.items ",") = (itemAtoms vs).map Value.text := by
  cases vs with
  | nil => rfl
  | cons v vs =>
    simp only [itemAtoms, List.forall_mem_append] at h
    rw [List.map_cons, List.flatMap_cons, Value.items_text h.1, flatMap_items_texts h.2, itemAtoms,
      List.map_append]

end

theorem value_reads_back (conf : Configuration) (key : String) :
    (∀ i : Int, -9223372036854775808 ≤ i → i < 9223372036854775808 →
      conf.properties.get? key = some (Value.integer i).text →
        (conf.properties.long key).result = .ok i
          ∧ (conf.properties.int key).result
            = if -2147483648 ≤ i ∧ i < 2147483648 then .ok i
              else .error (.typeMismatch key .integer))
    ∧ (∀ b, conf.properties.get? key = some (Value.boolean b).text →
        (conf.properties.boolean key).result = .ok b)
    ∧ (∀ s, conf.properties.get? key = some (Value.string s).text → ¬['$', '{'] <:+: s.toList →
        (conf.properties.value key).result = .ok s)
    ∧ (∀ items, conf.properties.get? key = some (Value.array items).text →
        (∀ atom ∈ (Value.array items).atoms, atom.Plain) →
          (conf.properties.list key ",").result
            = .ok ((Value.array items).atoms.map Value.text)) := by
  refine ⟨?_, ?_, ?_, ?_⟩
  . intro i hlow hhigh hraw
    have hvalue := Properties.value_of_not_mem hraw (Properties.plain_printInteger i).brace
    constructor
    . have hfits : Number.fits 64 i = true := Number.fits_iff.2 ⟨hlow, hhigh⟩
      rw [Properties.long, Properties.result_parsed hvalue, Value.text,
        Number.boundedInteger?_printInteger, if_pos hfits]
    . have hfits : Number.fits 32 i = true ↔ -2147483648 ≤ i ∧ i < 2147483648 := Number.fits_iff
      rw [Properties.int, Properties.result_parsed hvalue, Value.text,
        Number.boundedInteger?_printInteger]
      by_cases hrange : -2147483648 ≤ i ∧ i < 2147483648
      . rw [if_pos (hfits.2 hrange), if_pos hrange]
      . rw [if_neg (mt hfits.1 hrange), if_neg hrange]
  . intro b hraw
    have hplain : Properties.Plain (Value.boolean b).text := Value.Plain.text trivial
    have hvalue := Properties.value_of_not_mem hraw hplain.brace
    rw [Properties.boolean, Properties.result_parsed hvalue]
    cases b <;> rfl
  . intro s hraw hs
    exact Properties.value_of_not_infix hraw hs
  . intro items hraw hplain
    have hvalue := Properties.value_of_not_mem hraw (Value.brace_not_mem_text hplain)
    rw [Properties.result_list (by decide) hvalue, Value.items_text hplain]

def nested : List Value :=
  [.array [], .array [.string "a", .array [.integer (-1), .boolean true]], .array [.array []],
    .string "b c"]

def written : Configuration :=
  { Configuration.empty with
    properties := .ofList [("least", "-9223372036854775808"), ("port", "19998"),
      ("no", "false"), ("braces", "$ \x7b$\x7d"), ("nested", (Value.array nested).text)] }

theorem value_reads_back_written :
    (written.properties.long "least").result = .ok (-9223372036854775808)
      ∧ (written.properties.int "least").result = .error (.typeMismatch "least" .integer)
      ∧ (written.properties.int "port").result = .ok 19998
      ∧ (written.properties.boolean "no").result = .ok false
      ∧ (written.properties.value "braces").result = .ok "$ \x7b$\x7d"
      ∧ (written.properties.list "nested" ",").result = .ok ["a", "-1", "true", "b c"] := by
  have hleast := (value_reads_back written "least").1 (-9223372036854775808) (by decide) (by decide)
    (by decide +kernel)
  have hport := (value_reads_back written "port").1 19998 (by decide) (by decide)
    (by decide +kernel)
  have hno := (value_reads_back written "no").2.1 false (by decide +kernel)
  have hbraces := (value_reads_back written "braces").2.2.1 "$ \x7b$\x7d" (by decide +kernel)
    (by decide +kernel)
  have hnested := (value_reads_back written "nested").2.2.2 nested (by decide +kernel)
    (by decide +kernel)
  exact ⟨hleast.1, hleast.2, hport.2, hno, hbraces, hnested⟩

end Toml
end Overlay
