import Overlay.Proofs.Number
import Overlay.Proofs.Text

/-!
This module contains the grammar of numerals, and that exactly the texts of the grammar are read, as
the number they write.
-/

namespace Overlay
namespace Number

inductive Sign : List Char → Bool → Prop where
  | absent : Sign [] false
  | plus : Sign ['+'] false
  | minus : Sign ['-'] true

structure Digits (cs : List Char) : Prop where
  ne_nil : cs ≠ []
  isDigit : ∀ c ∈ cs, c.isDigit = true

instance (cs : List Char) : Decidable (Digits cs) :=
  decidable_of_iff (cs ≠ [] ∧ cs.all Char.isDigit = true)
    ⟨fun h => ⟨h.1, List.all_eq_true.1 h.2⟩, fun h => ⟨h.ne_nil, List.all_eq_true.2 h.isDigit⟩⟩

/--
Digits with a point, or without. On the left of the point are the digits of the whole number and on
the right those of the fraction, and one of the two may be without any.
-/
inductive Mantissa : List Char → List Char → List Char → Prop where
  | whole {whole : List Char} (hwhole : Digits whole) : Mantissa whole whole []
  | point {whole : List Char} (hwhole : Digits whole) : Mantissa (whole ++ ['.']) whole []
  | fraction {whole fraction : List Char} (hwhole : Digits whole) (hfraction : Digits fraction) :
    Mantissa (whole ++ '.' :: fraction) whole fraction
  | leadingPoint {fraction : List Char} (hfraction : Digits fraction) :
    Mantissa ('.' :: fraction) [] fraction

inductive Exponent : List Char → Int → Prop where
  | absent : Exponent [] 0
  | present {c : Char} {sign digits : List Char} {negative : Bool} (hc : c = 'e' ∨ c = 'E')
    (hsign : Sign sign negative) (hdigits : Digits digits) :
    Exponent (c :: (sign ++ digits)) (if negative then -(ofDigits digits) else ofDigits digits)

inductive Numeral.Written : List Char → Numeral → Prop where
  | intro {sign mantissa whole fraction exponent : List Char} {negative : Bool} {e : Int}
    (hsign : Sign sign negative) (hmantissa : Mantissa mantissa whole fraction)
    (hexponent : Exponent exponent e) :
    Written (sign ++ (mantissa ++ exponent))
      ⟨negative, ofDigits (whole ++ fraction), e - fraction.length⟩

variable {cs sign digits whole fraction rest mantissa exponent : List Char} {c : Char} {n e : Int}
  {negative : Bool} {numeral : Numeral}

theorem takeSign_append (h : Sign sign negative) (hcs : ∀ c ∈ cs.head?, c ≠ '+' ∧ c ≠ '-') :
    takeSign (sign ++ cs) = (negative, cs) := by
  cases h with
  | plus => rfl
  | minus => rfl
  | absent =>
    rw [List.nil_append]
    unfold takeSign
    split
    . exact absurd rfl (hcs _ rfl).2
    . exact absurd rfl (hcs _ rfl).1
    . rfl

theorem exists_sign_of_takeSign (h : takeSign cs = (negative, rest)) :
    ∃ sign, Sign sign negative ∧ cs = sign ++ rest := by
  unfold takeSign at h
  split at h
  . cases h
    exact ⟨_, .minus, rfl⟩
  . cases h
    exact ⟨_, .plus, rfl⟩
  . cases h
    exact ⟨_, .absent, rfl⟩

theorem Digits.head?_isDigit (h : Digits digits) (cs : List Char) :
    ∀ c ∈ (digits ++ cs).head?, c.isDigit = true := by
  intro c hc
  cases digits with
  | nil => exact absurd rfl h.ne_nil
  | cons d digits =>
    cases hc
    exact h.isDigit _ List.mem_cons_self

theorem ne_sign_of_isDigit (h : c.isDigit = true) : c ≠ '+' ∧ c ≠ '-' := by
  constructor <;> (rintro rfl; contradiction)

theorem integer?_eq_some_iff :
    integer? cs = some n
      ↔
    ∃ sign negative digits, Sign sign negative ∧ Digits digits ∧ cs = sign ++ digits
      ∧ n = if negative then -(ofDigits digits : Int) else ofDigits digits := by
  constructor
  . intro h
    generalize htake : takeSign cs = taken at h
    obtain ⟨negative, digits⟩ := taken
    obtain ⟨sign, hsign, rfl⟩ := exists_sign_of_takeSign htake
    simp only [integer?, htake] at h
    split at h
    . contradiction
    . next hdigits =>
      simp only [Bool.or_eq_true, List.isEmpty_iff, Bool.not_eq_true', not_or,
        Bool.not_eq_false, List.all_eq_true] at hdigits
      refine ⟨sign, negative, digits, hsign, ⟨hdigits.1, hdigits.2⟩, rfl, ?_⟩
      split at h <;> (cases h; simp [*])
  . rintro ⟨sign, negative, digits, hsign, hdigits, rfl, rfl⟩
    have hhead : ∀ c ∈ digits.head?, c ≠ '+' ∧ c ≠ '-' := by
      intro c hc
      exact ne_sign_of_isDigit (hdigits.isDigit c (List.mem_of_mem_head? hc))
    have hall : digits.all Char.isDigit = true := List.all_eq_true.2 hdigits.isDigit
    simp only [integer?, takeSign_append hsign hhead, hall]
    cases negative <;> simp [hdigits.ne_nil]

theorem exponentPart?_eq_some_iff : exponentPart? cs = some e ↔ Exponent cs e := by
  constructor
  . intro h
    cases cs with
    | nil =>
      cases h
      exact .absent
    | cons c cs =>
      rw [exponentPart?] at h
      split at h
      . next hc =>
        simp only [Bool.or_eq_true, decide_eq_true_eq] at hc
        obtain ⟨sign, negative, digits, hsign, hdigits, rfl, rfl⟩ := integer?_eq_some_iff.1 h
        exact .present hc hsign hdigits
      . contradiction
  . intro h
    cases h with
    | absent => rfl
    | present hc hsign hdigits =>
      rw [exponentPart?, if_pos (by simpa using hc)]
      exact integer?_eq_some_iff.2 ⟨_, _, _, hsign, hdigits, rfl, rfl⟩

theorem takeWhile_digits (hcs : ∀ c ∈ cs, c.isDigit = true)
    (hrest : ∀ c ∈ rest.head?, c.isDigit = false) :
    (cs ++ rest).takeWhile Char.isDigit = cs ∧ (cs ++ rest).dropWhile Char.isDigit = rest := by
  rw [List.takeWhile_append_of_pos hcs, List.dropWhile_append_of_pos hcs]
  cases rest with
  | nil => simp
  | cons c rest => simp [hrest c rfl]

theorem Exponent.head?_ne (h : Exponent exponent e) :
    ∀ c ∈ exponent.head?, c.isDigit = false ∧ c ≠ '.' := by
  intro c hc
  cases h with
  | absent => contradiction
  | present hletter =>
    cases hc
    rcases hletter with rfl | rfl <;> decide

theorem unsigned?_point (hwhole : ∀ c ∈ whole, c.isDigit = true)
    (hfraction : ∀ c ∈ fraction, c.isDigit = true) (hne : ¬(whole = [] ∧ fraction = []))
    (hexponent : Exponent exponent e) :
    Numeral.unsigned? negative (whole ++ '.' :: (fraction ++ exponent))
      =
    some ⟨negative, ofDigits (whole ++ fraction), e - fraction.length⟩ := by
  have hpoint : ∀ c ∈ ('.' :: (fraction ++ exponent)).head?, c.isDigit = false := by
    rintro c ⟨⟩
    decide
  obtain ⟨hwholeTake, hwholeDrop⟩ := takeWhile_digits hwhole hpoint
  obtain ⟨htake, hdrop⟩ := takeWhile_digits hfraction fun c hc => (hexponent.head?_ne c hc).1
  have hread := exponentPart?_eq_some_iff.2 hexponent
  unfold Numeral.unsigned?
  simp only [hwholeTake, hwholeDrop, htake, hdrop]
  rw [if_neg, hread]
  . rfl
  . simpa using hne

theorem unsigned?_mantissa (hmantissa : Mantissa mantissa whole fraction)
    (hexponent : Exponent exponent e) :
    Numeral.unsigned? negative (mantissa ++ exponent)
      =
    some ⟨negative, ofDigits (whole ++ fraction), e - fraction.length⟩ := by
  cases hmantissa with
  | whole hwhole =>
    obtain ⟨htake, hdrop⟩ :=
      takeWhile_digits hwhole.isDigit fun c hc => (hexponent.head?_ne c hc).1
    have hread := exponentPart?_eq_some_iff.2 hexponent
    have hempty : whole.isEmpty = false := by simpa using hwhole.ne_nil
    unfold Numeral.unsigned?
    simp only [htake, hdrop]
    split
    . next hpoint => exact absurd rfl (hexponent.head?_ne '.' rfl).2
    . simp [hempty, hread]
  | point hwhole =>
    rw [List.append_assoc]
    exact unsigned?_point hwhole.isDigit (by simp) (fun h => hwhole.ne_nil h.1) hexponent
  | fraction hwhole hfraction =>
    rw [List.append_assoc, List.cons_append]
    exact unsigned?_point hwhole.isDigit hfraction.isDigit (fun h => hwhole.ne_nil h.1) hexponent
  | leadingPoint hfraction =>
    exact unsigned?_point (List.forall_mem_nil _) hfraction.isDigit
      (fun h => hfraction.ne_nil h.2) hexponent

theorem mantissa_of_point (hwhole : ∀ c ∈ whole, c.isDigit = true)
    (hfraction : ∀ c ∈ fraction, c.isDigit = true) (hne : ¬(whole = [] ∧ fraction = [])) :
    Mantissa (whole ++ '.' :: fraction) whole fraction := by
  by_cases hempty : fraction = []
  . subst hempty
    exact .point ⟨fun hempty => hne ⟨hempty, rfl⟩, hwhole⟩
  . by_cases hempty' : whole = []
    . subst hempty'
      exact .leadingPoint ⟨hempty, hfraction⟩
    . exact .fraction ⟨hempty', hwhole⟩ ⟨hempty, hfraction⟩

theorem exists_mantissa_of_unsigned? (h : Numeral.unsigned? negative cs = some numeral) :
    ∃ mantissa whole fraction exponent e, Mantissa mantissa whole fraction ∧ Exponent exponent e
      ∧ cs = mantissa ++ exponent
      ∧ numeral = ⟨negative, ofDigits (whole ++ fraction), e - fraction.length⟩ := by
  have hdigits : ∀ cs : List Char, ∀ c ∈ cs.takeWhile Char.isDigit, c.isDigit = true :=
    fun cs => List.all_eq_true.1 List.all_takeWhile
  have hwhole := hdigits cs
  have hcs : cs = _ := (List.takeWhile_append_dropWhile (p := Char.isDigit)).symm
  unfold Numeral.unsigned? at h
  generalize cs.takeWhile Char.isDigit = whole at hwhole hcs h
  generalize cs.dropWhile Char.isDigit = afterWhole at hcs h
  subst hcs
  dsimp only at h
  split at h
  . next rest =>
    have hfraction := hdigits rest
    have hrest : rest = _ := (List.takeWhile_append_dropWhile (p := Char.isDigit)).symm
    generalize rest.takeWhile Char.isDigit = fraction at hfraction hrest h
    generalize rest.dropWhile Char.isDigit = exponent at hrest h
    subst hrest
    split at h
    . contradiction
    . next hne =>
      obtain ⟨e, he, rfl⟩ := Option.map_eq_some_iff.1 h
      have hne : ¬(whole = [] ∧ fraction = []) := by simpa using hne
      exact ⟨_, whole, fraction, exponent, e, mantissa_of_point hwhole hfraction hne,
        exponentPart?_eq_some_iff.1 he, by simp, rfl⟩
  . split at h
    . contradiction
    . next hne =>
      obtain ⟨e, he, rfl⟩ := Option.map_eq_some_iff.1 h
      have hne : whole ≠ [] := by simpa using hne
      exact ⟨whole, whole, [], afterWhole, e, .whole ⟨hne, hwhole⟩,
        exponentPart?_eq_some_iff.1 he, rfl, rfl⟩

theorem Mantissa.head?_ne (h : Mantissa mantissa whole fraction) (cs : List Char) :
    ∀ c ∈ (mantissa ++ cs).head?, c ≠ '+' ∧ c ≠ '-' := by
  intro c hc
  cases h with
  | whole hwhole => exact ne_sign_of_isDigit (hwhole.head?_isDigit cs c hc)
  | point hwhole =>
    rw [List.append_assoc] at hc
    exact ne_sign_of_isDigit (hwhole.head?_isDigit _ c hc)
  | fraction hwhole _ =>
    rw [List.append_assoc] at hc
    exact ne_sign_of_isDigit (hwhole.head?_isDigit _ c hc)
  | leadingPoint _ =>
    cases hc
    decide

theorem read?_eq_some_iff : Numeral.read? cs = some numeral ↔ Numeral.Written cs numeral := by
  constructor
  . intro h
    generalize htake : takeSign cs = taken at h
    obtain ⟨negative, rest⟩ := taken
    obtain ⟨sign, hsign, rfl⟩ := exists_sign_of_takeSign htake
    rw [Numeral.read?, htake] at h
    obtain ⟨mantissa, whole, fraction, exponent, e, hmantissa, hexponent, rfl, rfl⟩ :=
      exists_mantissa_of_unsigned? h
    exact .intro hsign hmantissa hexponent
  . intro h
    cases h with
    | intro hsign hmantissa hexponent =>
      rw [Numeral.read?, takeSign_append hsign (hmantissa.head?_ne _)]
      exact unsigned?_mantissa hmantissa hexponent

theorem read?_eq_none_iff : Numeral.read? cs = none ↔ ∀ numeral, ¬Numeral.Written cs numeral := by
  simp only [Option.eq_none_iff_forall_ne_some, ne_eq, read?_eq_some_iff]

theorem toLower_of_isDigit (h : c.isDigit = true) : c.toLower = c := by
  have hrange := toNat_of_isDigit h
  cases Text.toLower_eq_self_or c with
  | inl heq => exact heq
  | inr hupper => omega

theorem not_isDigit_of_toLower (h : c.toLower.isDigit = false) : c.isDigit = false := by
  cases Text.toLower_eq_self_or c with
  | inl heq => rwa [heq] at h
  | inr hupper =>
    rw [Bool.eq_false_iff]
    intro hdigit
    have hrange := toNat_of_isDigit hdigit
    omega

theorem Sign.not_isDigit (h : Sign sign negative) : ∀ c ∈ sign, c.isDigit = false := by
  cases h <;> simp

theorem real?_of_isDigit (f : Format) (hc : c ∈ cs) (hdigit : c.isDigit = true) :
    real? f cs = (Numeral.read? cs).map (Numeral.toBinary f) := by
  generalize htake : takeSign cs = taken
  obtain ⟨negative, rest⟩ := taken
  obtain ⟨sign, hsign, rfl⟩ := exists_sign_of_takeSign htake
  have hrest : c ∈ rest := by
    cases List.mem_append.1 hc with
    | inl hmem => simp [hsign.not_isDigit c hmem] at hdigit
    | inr hmem => exact hmem
  have hlower : c ∈ Text.lower rest := by
    rw [← toLower_of_isDigit hdigit]
    exact List.mem_map_of_mem hrest
  have hword : ∀ word : String, word.toList.all (fun c => !c.isDigit) = true →
      String.ofList (Text.lower rest) ≠ word := by
    intro word hall heq
    have hmem : c ∈ word.toList := by rwa [← heq, String.toList_ofList]
    have hnot := List.all_eq_true.1 hall c hmem
    simp [hdigit] at hnot
  rw [real?, Numeral.read?, htake]
  dsimp only
  rw [if_neg, if_neg (hword "nan" (by decide))]
  simp only [Bool.or_eq_true, decide_eq_true_eq, not_or]
  exact ⟨hword "inf" (by decide), hword "infinity" (by decide)⟩

theorem not_isDigit_of_isBlank (h : Text.isBlank c = true) : c.isDigit = false := by
  rw [Bool.eq_false_iff]
  intro hdigit
  rw [not_isBlank_of_isDigit hdigit] at h
  contradiction

theorem Sign.not_isBlank (h : Sign cs negative) : ∀ c ∈ cs, Text.isBlank c = false := by
  cases h with
  | absent => exact List.forall_mem_nil _
  | plus => exact List.forall_mem_singleton.2 rfl
  | minus => exact List.forall_mem_singleton.2 rfl

theorem Digits.not_isBlank (h : Digits cs) : ∀ c ∈ cs, Text.isBlank c = false :=
  fun c hc => not_isBlank_of_isDigit (h.isDigit c hc)

theorem Mantissa.not_isBlank (h : Mantissa cs whole fraction) :
    ∀ c ∈ cs, Text.isBlank c = false := by
  have hpoint : Text.isBlank '.' = false := by decide
  cases h with
  | whole hwhole => exact hwhole.not_isBlank
  | point hwhole => simpa [or_imp, forall_and, hpoint] using hwhole.not_isBlank
  | fraction hwhole hfraction =>
    simpa [or_imp, forall_and, hpoint] using ⟨hwhole.not_isBlank, hfraction.not_isBlank⟩
  | leadingPoint hfraction => simpa [hpoint] using hfraction.not_isBlank

theorem Exponent.not_isBlank (h : Exponent cs e) : ∀ c ∈ cs, Text.isBlank c = false := by
  cases h with
  | absent => simp
  | present hletter hsign hdigits =>
    rw [List.forall_mem_cons, List.forall_mem_append]
    refine ⟨?_, hsign.not_isBlank, hdigits.not_isBlank⟩
    rcases hletter with rfl | rfl <;> decide

theorem Numeral.Written.not_isBlank (h : Numeral.Written cs numeral) :
    ∀ c ∈ cs, Text.isBlank c = false := by
  cases h with
  | intro hsign hmantissa hexponent =>
    rw [List.forall_mem_append, List.forall_mem_append]
    exact ⟨hsign.not_isBlank, hmantissa.not_isBlank, hexponent.not_isBlank⟩

end Number
end Overlay
