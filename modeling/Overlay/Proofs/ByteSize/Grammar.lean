import Mathlib.Data.List.TakeDrop
import Mathlib.Data.List.TakeWhile
import Overlay.ByteSize
import Overlay.Proofs.Number.Numeral

/-!
This module contains the grammar of byte sizes. A text is read if it is a number that ends in a
digit and a unit, with blanks around them, and it is rejected with the first of three errors that
applies otherwise: there is no digit, what ends at the last digit is no number, what follows is no
unit.
-/

namespace Overlay

open Number

namespace SizeUnit

variable {name : List Char} {unit unit' : SizeUnit}

def names : SizeUnit → List String
  | byte => ["", "b"]
  | kilo => ["k", "kb"]
  | mega => ["m", "mb"]
  | giga => ["g", "gb"]
  | tera => ["t", "tb"]
  | peta => ["p", "pb"]

def IsNamed (unit : SizeUnit) (name : List Char) : Prop :=
  String.ofList (Text.lower name) ∈ unit.names

instance (unit : SizeUnit) (name : List Char) : Decidable (unit.IsNamed name) :=
  inferInstanceAs (Decidable (String.ofList (Text.lower name) ∈ unit.names))

theorem ofName?_eq_some_iff {name : String} : ofName? name = some unit ↔ name ∈ unit.names := by
  constructor
  . intro h
    unfold ofName? at h
    split at h <;> cases h <;> decide
  . intro h
    cases unit <;>
      (simp only [names, List.mem_cons, List.not_mem_nil, or_false] at h
       rcases h with rfl | rfl <;> rfl)

theorem ofName?_eq_none_iff {name : String} : ofName? name = none ↔ ∀ unit, name ∉ names unit := by
  simp only [Option.eq_none_iff_forall_ne_some, ne_eq, ofName?_eq_some_iff]

theorem eq_of_bytes_eq (h : unit.bytes = unit'.bytes) : unit = unit' := by
  cases unit <;> cases unit' <;> first | rfl | contradiction

theorem IsNamed.letters (h : unit.IsNamed name) :
    ∀ c ∈ name, Text.isBlank c = false ∧ c.isDigit = false := by
  have hnames : ∀ word ∈ unit.names,
      word.toList.all (fun c => !Text.isBlank c && !c.isDigit) = true := by
    cases unit <;> decide
  intro c hc
  have hlower : c.toLower ∈ (String.ofList (Text.lower name)).toList := by
    rw [String.toList_ofList]
    exact List.mem_map_of_mem hc
  have hletter := List.all_eq_true.1 (hnames _ h) _ hlower
  simp only [Bool.and_eq_true, Bool.not_eq_true'] at hletter
  exact ⟨Text.not_isBlank_of_toLower hletter.1, not_isDigit_of_toLower hletter.2⟩

end SizeUnit

namespace ByteSize

variable {s : String} {c : Char} {cs name name' num num' number number' rest rest' : List Char}
  {numeral numeral' : Numeral} {unit unit' : SizeUnit}

structure CutAtLastDigit (cs number rest : List Char) : Prop where
  eq : cs = number ++ rest
  last : ∃ c ∈ number.getLast?, c.isDigit = true
  rest : ∀ c ∈ rest, c.isDigit = false

theorem cut_append (hnumber : ∀ c ∈ number.getLast?, c.isDigit = true)
    (hrest : ∀ c ∈ rest, c.isDigit = false) : cut (number ++ rest) = (number, rest) := by
  have hreverse : ∀ c ∈ rest.reverse, (!c.isDigit) = true := by
    intro c hc
    simp [hrest c (List.mem_reverse.1 hc)]
  have hlast : number.reverse.takeWhile (fun c => !c.isDigit) = []
      ∧ number.reverse.dropWhile (fun c => !c.isDigit) = number.reverse := by
    rw [← List.head?_reverse] at hnumber
    cases hnum : number.reverse with
    | nil => simp
    | cons c cs =>
      rw [hnum] at hnumber
      simp [hnumber c rfl]
  rw [cut, List.reverse_append, List.span_eq_takeWhile_dropWhile,
    List.takeWhile_append_of_pos hreverse, List.dropWhile_append_of_pos hreverse, hlast.1, hlast.2]
  simp

theorem CutAtLastDigit.cut_eq (h : CutAtLastDigit cs number rest) : cut cs = (number, rest) := by
  obtain ⟨c, hc, hdigit⟩ := h.last
  rw [h.eq]
  apply cut_append _ h.rest
  intro d hd
  rw [Option.mem_def] at hc hd
  rw [hc] at hd
  injection hd with hd
  rwa [← hd]

theorem exists_cutAtLastDigit (hc : c ∈ cs) (hdigit : c.isDigit = true) :
    ∃ number rest, CutAtLastDigit cs number rest := by
  have hsplit := List.takeWhile_append_dropWhile (p := fun c => !c.isDigit) (l := cs.reverse)
  have hhead := List.head?_dropWhile_not (fun c => !c.isDigit) cs.reverse
  cases hdrop : cs.reverse.dropWhile (fun c => !c.isDigit) with
  | nil =>
    have hnone := List.dropWhile_eq_nil_iff.1 hdrop c (List.mem_reverse.2 hc)
    simp [hdigit] at hnone
  | cons d before =>
    rw [hdrop] at hhead hsplit
    refine ⟨(d :: before).reverse, (cs.reverse.takeWhile fun c => !c.isDigit).reverse, ?_, ?_, ?_⟩
    . rw [← List.reverse_append, hsplit, List.reverse_reverse]
    . exact ⟨d, by simp, by simpa using hhead⟩
    . intro c hc
      have hnot := List.all_eq_true.1 List.all_takeWhile c (List.mem_reverse.1 hc)
      simpa using hnot

/--
A text writes a byte size: a number that ends in a digit, and a unit, with blanks around them.
-/
structure Sized (cs num : List Char) (numeral : Numeral) (name : List Char) (unit : SizeUnit) :
    Prop where
  number : Numeral.Written num numeral
  last : ∃ c ∈ num.getLast?, c.isDigit = true
  unit : unit.IsNamed name
  parts : ∃ before between after, (∀ c ∈ before, Text.isBlank c = true)
    ∧ (∀ c ∈ between, Text.isBlank c = true) ∧ (∀ c ∈ after, Text.isBlank c = true)
    ∧ cs = before ++ num ++ between ++ name ++ after

theorem trim_of_cut (h : CutAtLastDigit (Text.trim cs) number rest) :
    Text.trim number = number := by
  obtain ⟨d, hd, hdigit⟩ := h.last
  apply Text.trim_eq_self_of_ends
  . intro c hc
    apply @Text.not_isBlank_of_mem_head?_trim c cs
    rw [h.eq, List.head?_append, Option.mem_def.1 hc]
    rfl
  . intro c hc
    rw [Option.mem_def.1 hd] at hc
    cases hc
    exact not_isBlank_of_isDigit hdigit

theorem Sized.cut (h : Sized cs num numeral name unit) :
    ∃ rest, CutAtLastDigit (Text.trim cs) num rest ∧ Text.trim rest = name := by
  obtain ⟨before, between, after, hbefore, hbetween, hafter, rfl⟩ := h.parts
  obtain ⟨d, hd, hdigit⟩ := h.last
  have hnum := h.number.not_isBlank
  have hne : num ≠ [] := by
    rintro rfl
    contradiction
  by_cases hempty : name = []
  . subst hempty
    refine ⟨[], ⟨?_, h.last, by simp⟩, rfl⟩
    have hblank : ∀ c ∈ between ++ after, Text.isBlank c = true := by
      intro c hc
      exact (List.mem_append.1 hc).elim (hbetween c) (hafter c)
    have htrim := Text.trim_pad (Text.trim_eq_self hnum) hbefore hblank
    simpa using htrim
  . have hname := h.unit.letters
    have htrim : Text.trim (num ++ between ++ name) = num ++ between ++ name := by
      apply Text.trim_eq_self_of_ends
      . intro c hc
        apply hnum c
        apply List.mem_of_mem_head?
        rw [List.append_assoc, List.head?_append, List.head?_eq_some_head hne] at hc
        rwa [List.head?_eq_some_head hne]
      . intro c hc
        apply (hname c _).1
        apply List.mem_of_mem_getLast?
        rw [List.getLast?_append, List.getLast?_eq_some_getLast hempty] at hc
        rwa [List.getLast?_eq_some_getLast hempty]
    refine ⟨between ++ name, ⟨?_, h.last, ?_⟩, ?_⟩
    . have htrim' := Text.trim_pad htrim hbefore hafter
      simpa using htrim'
    . intro c hc
      cases List.mem_append.1 hc with
      | inl hmem => exact not_isDigit_of_isBlank (hbetween c hmem)
      | inr hmem => exact (hname c hmem).2
    . have htrim' := Text.trim_pad (Text.trim_eq_self fun c hc => (hname c hc).1) hbetween
        (List.forall_mem_nil _)
      simpa using htrim'

theorem parse_of_not_isDigit (h : ∀ c ∈ s.toList, c.isDigit = false) :
    parse s = .error (.missingNumber s) := by
  have hcut : cut (Text.trim s.toList) = ([], Text.trim s.toList) := by
    apply @cut_append [] _ (by simp)
    intro c hc
    exact h c (Text.mem_of_mem_trim hc)
  rw [parse, hcut]
  rfl

theorem parse_of_cut (h : CutAtLastDigit (Text.trim s.toList) number rest) :
    parse s
      =
    match Numeral.read? number with
    | none => .error (.invalidNumber s)
    | some numeral =>
      match SizeUnit.ofName? (String.ofList (Text.lower (Text.trim rest))) with
      | none => .error (.unknownUnit s (String.ofList (Text.lower (Text.trim rest))))
      | some unit =>
        (total? (numeral.toBinary binary64) unit).elim (.error (.overflow s)) .ok := by
  obtain ⟨d, hd, hdigit⟩ := h.last
  have hne : number.isEmpty = false := by
    cases number with
    | nil => contradiction
    | cons c number => rfl
  rw [parse, h.cut_eq]
  dsimp only
  rw [hne, trim_of_cut h, real?_of_isDigit binary64 (List.mem_of_mem_getLast? hd) hdigit]
  cases Numeral.read? number with
  | none => rfl
  | some numeral =>
    dsimp only [Option.map_some]
    cases SizeUnit.ofName? (String.ofList (Text.lower (Text.trim rest))) with
    | none => rfl
    | some unit =>
      dsimp only
      cases total? (numeral.toBinary binary64) unit with
      | none => rfl
      | some bytes => rfl

inductive Verdict (s : String) : Except SizeError Int → Prop where
  | missing (hdigits : ∀ c ∈ s.toList, c.isDigit = false) :
    Verdict s (.error (.missingNumber s))
  | invalid {number rest : List Char} (hcut : CutAtLastDigit (Text.trim s.toList) number rest)
    (hnumber : ∀ numeral, ¬Numeral.Written number numeral) :
    Verdict s (.error (.invalidNumber s))
  | unknown {number rest : List Char} {numeral : Numeral}
    (hcut : CutAtLastDigit (Text.trim s.toList) number rest)
    (hnumber : Numeral.Written number numeral)
    (hunit : ∀ unit : SizeUnit, ¬unit.IsNamed (Text.trim rest)) :
    Verdict s (.error (.unknownUnit s (String.ofList (Text.lower (Text.trim rest)))))
  | overflow {num name : List Char} {numeral : Numeral} {unit : SizeUnit}
    (hsized : Sized s.toList num numeral name unit)
    (htotal : total? (numeral.toBinary binary64) unit = none) :
    Verdict s (.error (.overflow s))
  | bytes {num name : List Char} {numeral : Numeral} {unit : SizeUnit} {n : Int}
    (hsized : Sized s.toList num numeral name unit)
    (htotal : total? (numeral.toBinary binary64) unit = some n) :
    Verdict s (.ok n)

theorem sized_of_cut (hcut : CutAtLastDigit (Text.trim cs) number rest)
    (hnumber : Numeral.Written number numeral) (hunit : unit.IsNamed (Text.trim rest)) :
    Sized cs number numeral (Text.trim rest) unit := by
  refine ⟨hnumber, hcut.last, hunit, ?_⟩
  obtain ⟨before, after, hbefore, hafter, hcs⟩ := Text.exists_pad cs
  obtain ⟨between, after', hbetween, hafter', hrest⟩ := Text.exists_pad rest
  refine ⟨before, between, after' ++ after, hbefore, hbetween, ?_, ?_⟩
  . intro c hc
    exact (List.mem_append.1 hc).elim (hafter' c) (hafter c)
  . rw [hcs, hcut.eq]
    conv => lhs; rw [hrest]
    simp only [List.append_assoc]

theorem parse_of_sized (h : Sized s.toList num numeral name unit) :
    parse s = (total? (numeral.toBinary binary64) unit).elim (.error (.overflow s)) .ok := by
  obtain ⟨rest, hcut, rfl⟩ := h.cut
  have hunit := SizeUnit.ofName?_eq_some_iff.2 h.unit
  rw [parse_of_cut hcut, read?_eq_some_iff.2 h.number]
  dsimp only
  rw [hunit]

theorem verdict_parse (s : String) : Verdict s (parse s) := by
  by_cases hdigits : ∀ c ∈ s.toList, c.isDigit = false
  . rw [parse_of_not_isDigit hdigits]
    exact .missing hdigits
  . simp only [not_forall, Bool.not_eq_false] at hdigits
    obtain ⟨c, hc, hdigit⟩ := hdigits
    obtain ⟨number, rest, hcut⟩ :=
      exists_cutAtLastDigit (Text.mem_trim hc (not_isBlank_of_isDigit hdigit)) hdigit
    cases hread : Numeral.read? number with
    | none =>
      rw [parse_of_cut hcut, hread]
      exact .invalid hcut (read?_eq_none_iff.1 hread)
    | some numeral =>
      have hnumber := read?_eq_some_iff.1 hread
      cases hname : SizeUnit.ofName? (String.ofList (Text.lower (Text.trim rest))) with
      | none =>
        rw [parse_of_cut hcut, hread]
        dsimp only
        rw [hname]
        exact .unknown hcut hnumber (SizeUnit.ofName?_eq_none_iff.1 hname)
      | some unit =>
        have hsized := sized_of_cut hcut hnumber (SizeUnit.ofName?_eq_some_iff.1 hname)
        rw [parse_of_sized hsized]
        cases htotal : total? (numeral.toBinary binary64) unit with
        | none => exact .overflow hsized htotal
        | some n => exact .bytes hsized htotal

theorem Verdict.parse_eq {result : Except SizeError Int} (h : Verdict s result) :
    parse s = result := by
  cases h with
  | missing hdigits => exact parse_of_not_isDigit hdigits
  | invalid hcut hnumber => rw [parse_of_cut hcut, read?_eq_none_iff.2 hnumber]
  | unknown hcut hnumber hunit =>
    have hname := SizeUnit.ofName?_eq_none_iff.2 hunit
    rw [parse_of_cut hcut, read?_eq_some_iff.2 hnumber]
    dsimp only
    rw [hname]
  | overflow hsized htotal =>
    rw [parse_of_sized hsized, htotal]
    rfl
  | bytes hsized htotal =>
    rw [parse_of_sized hsized, htotal]
    rfl

theorem parse_eq_iff {result : Except SizeError Int} : parse s = result ↔ Verdict s result := by
  constructor
  . rintro rfl
    exact verdict_parse s
  . exact Verdict.parse_eq

theorem CutAtLastDigit.number_eq (h : CutAtLastDigit cs number rest)
    (h' : CutAtLastDigit cs number' rest') : number = number' ∧ rest = rest' := by
  have hcut := h.cut_eq
  rw [h'.cut_eq] at hcut
  cases hcut
  exact ⟨rfl, rfl⟩

/--
What is read of a text, and with which error it is rejected otherwise. Texts with the same number
and units of the same size are read alike.
-/
structure Grammatical (s : String) : Prop where
  accepted_iff : ((∃ n, parse s = .ok n) ∨ ∃ input, parse s = .error (.overflow input))
    ↔ ∃ num numeral name unit, Sized s.toList num numeral name unit
  determined : ∀ {num name num' name' numeral numeral' unit unit'},
    Sized s.toList num numeral name unit → Sized s.toList num' numeral' name' unit' →
      num = num' ∧ name = name'
  missing_iff : ∀ input, parse s = .error (.missingNumber input)
    ↔ input = s ∧ ∀ c ∈ s.toList, c.isDigit = false
  invalid_iff : ∀ input, parse s = .error (.invalidNumber input)
    ↔ input = s ∧ ∃ number rest, CutAtLastDigit (Text.trim s.toList) number rest
        ∧ ∀ numeral, ¬Numeral.Written number numeral
  unknown_iff : ∀ input name, parse s = .error (.unknownUnit input name)
    ↔ input = s ∧ ∃ number rest numeral, CutAtLastDigit (Text.trim s.toList) number rest
        ∧ Numeral.Written number numeral
        ∧ name = String.ofList (Text.lower (Text.trim rest))
        ∧ ∀ unit : SizeUnit, ¬unit.IsNamed (Text.trim rest)
  alike : ∀ {s' num name name' numeral numeral' unit unit'},
    Sized s.toList num numeral name unit → Sized s'.toList num numeral' name' unit' →
      unit.bytes = unit'.bytes →
        (∀ n, parse s = .ok n ↔ parse s' = .ok n)
          ∧ (parse s = .error (.overflow s) ↔ parse s' = .error (.overflow s'))

theorem parse_grammatical (s : String) : Grammatical s := by
  constructor
  case accepted_iff =>
    simp only [parse_eq_iff]
    constructor
    . rintro (⟨n, h⟩ | ⟨input, h⟩)
      . cases h with
        | bytes hsized _ => exact ⟨_, _, _, _, hsized⟩
      . cases h with
        | overflow hsized _ => exact ⟨_, _, _, _, hsized⟩
    . rintro ⟨num, numeral, name, unit, hsized⟩
      cases htotal : total? (numeral.toBinary binary64) unit with
      | none => exact .inr ⟨s, .overflow hsized htotal⟩
      | some n => exact .inl ⟨n, .bytes hsized htotal⟩
  case determined =>
    intro num name num' name' numeral numeral' unit unit' hsized hsized'
    obtain ⟨rest, hcut, rfl⟩ := hsized.cut
    obtain ⟨rest', hcut', rfl⟩ := hsized'.cut
    obtain ⟨rfl, rfl⟩ := hcut.number_eq hcut'
    exact ⟨rfl, rfl⟩
  case missing_iff =>
    intro input
    rw [parse_eq_iff]
    constructor
    . intro h
      cases h with
      | missing hdigits => exact ⟨rfl, hdigits⟩
    . rintro ⟨rfl, hdigits⟩
      exact .missing hdigits
  case invalid_iff =>
    intro input
    rw [parse_eq_iff]
    constructor
    . intro h
      cases h with
      | invalid hcut hnumber => exact ⟨rfl, _, _, hcut, hnumber⟩
    . rintro ⟨rfl, number, rest, hcut, hnumber⟩
      exact .invalid hcut hnumber
  case unknown_iff =>
    intro input name
    rw [parse_eq_iff]
    constructor
    . intro h
      cases h with
      | unknown hcut hnumber hunit => exact ⟨rfl, _, _, _, hcut, hnumber, rfl, hunit⟩
    . rintro ⟨rfl, number, rest, numeral, hcut, hnumber, rfl, hunit⟩
      exact .unknown hcut hnumber hunit
  case alike =>
    intro s' num name name' numeral numeral' unit unit' hsized hsized' hbytes
    have hnumeral : numeral = numeral' := by
      have hread := read?_eq_some_iff.2 hsized.number
      rw [read?_eq_some_iff.2 hsized'.number] at hread
      injection hread with hread
      exact hread.symm
    rw [parse_of_sized hsized, parse_of_sized hsized', hnumeral, SizeUnit.eq_of_bytes_eq hbytes]
    cases total? (numeral'.toBinary binary64) unit' with
    | none => simp
    | some n => simp

example : parse " 5.e2KB\u3000" = .ok 512000 := by
  decide +kernel

example : parse "5. kb" = .error (.unknownUnit "5. kb" ". kb") := by
  decide +kernel

end ByteSize
end Overlay
