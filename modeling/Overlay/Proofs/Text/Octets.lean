import Mathlib.Tactic.SplitIfs

/-!
This module contains how texts are compared by the octets that encode them: as by their characters.
In UTF-8 a greater character has a code that begins with a greater octet, or one of the same length
that holds the digits of a greater number.
-/

namespace Overlay
namespace Text

variable {c d : Char} {s t : String}

def octets (s : String) : List UInt8 :=
  s.toUTF8.data.toList

theorem octets_eq_flatMap (s : String) : octets s = s.toList.flatMap String.utf8EncodeChar := by
  obtain ⟨cs, rfl⟩ := s.exists_eq_ofList
  simp [octets, List.utf8Encode]

theorem toNat_val_lt (c : Char) : c.val.toNat < 1114112 := by
  rcases c.valid with h | ⟨_, h⟩
  . exact Nat.lt_trans h (by decide)
  . exact h

theorem ofNat_cons_lt_iff {a b : Nat} {l l' : List UInt8} (ha : a < 256) (hb : b < 256) :
    UInt8.ofNat a :: l < UInt8.ofNat b :: l' ↔ a < b ∨ a = b ∧ l < l' := by
  rw [List.cons_lt_cons_iff, UInt8.lt_iff_toNat_lt, ← UInt8.toNat_inj]
  rw [UInt8.toNat_ofNat_of_lt' ha, UInt8.toNat_ofNat_of_lt' hb]

theorem div_lt_or_mod_lt {v w : Nat} (h : v < w) :
    v / 64 < w / 64 ∨ v / 64 = w / 64 ∧ v % 64 < w % 64 := by
  omega

theorem utf8EncodeChar_append_lt (h : c < d) (l l' : List UInt8) :
    String.utf8EncodeChar c ++ l < String.utf8EncodeChar d ++ l' := by
  have hlt : c.val.toNat < d.val.toNat := h
  have hc := toNat_val_lt c
  have hd := toNat_val_lt d
  unfold String.utf8EncodeChar
  generalize c.val.toNat = v at *
  generalize d.val.toNat = w at *
  -- the numbers are compared from their last digit in base 64 on
  have hdiv : ∀ v : Nat, v / 4096 = v / 64 / 64 ∧ v / 262144 = v / 64 / 64 / 64 := by omega
  have hlow := div_lt_or_mod_lt hlt
  have hmiddle := @div_lt_or_mod_lt (v / 64) (w / 64)
  have hhigh := @div_lt_or_mod_lt (v / 64 / 64) (w / 64 / 64)
  dsimp only
  rw [(hdiv v).1, (hdiv v).2, (hdiv w).1, (hdiv w).2]
  -- one case for each length of the two codes
  split_ifs <;>
    (simp (disch := omega) only [List.cons_append, List.nil_append, ofNat_cons_lt_iff]; omega)

theorem octets_lt (h : s < t) : octets s < octets t := by
  have hlist : s.toList < t.toList := h
  rw [octets_eq_flatMap, octets_eq_flatMap]
  generalize s.toList = cs at hlist
  generalize t.toList = ds at hlist
  induction cs generalizing ds with
  | nil =>
    cases ds with
    | nil => contradiction
    | cons d ds =>
      obtain ⟨b, bs, hb⟩ := List.exists_cons_of_ne_nil (@String.utf8EncodeChar_ne_nil d)
      rw [List.flatMap_cons, hb]
      exact List.nil_lt_cons _ _
  | cons c cs ih =>
    cases ds with
    | nil => contradiction
    | cons d ds =>
      rw [List.flatMap_cons, List.flatMap_cons]
      rcases List.cons_lt_cons_iff.1 hlist with hlt | ⟨rfl, hrest⟩
      . exact utf8EncodeChar_append_lt hlt _ _
      . exact List.append_left_lt (ih _ hrest)

end Text
end Overlay
