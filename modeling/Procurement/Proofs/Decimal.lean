import Procurement.Text.Blank
import Procurement.Text.Decimal
import Mathlib.Algebra.Group.Nat.Defs
import Mathlib.Data.List.Basic
import Mathlib.Data.List.TakeWhile

/-!
# Reading digits back

Digits denote the number that they were written for, with zeros in front of them or
not. A reader that splits digits off a text finds all of them, as long as no other
digit follows or it wants no more.
-/

namespace Procurement.Text

/-- A number is written in digits and nothing else. -/
theorem isDigit_of_mem_digits {n : Nat} {c : Char} (h : c ∈ digits n) : c.isDigit = true :=
  Nat.isDigit_of_mem_toDigits (by decide) (by decide) h

/-- Every number is written in at least one digit. -/
theorem digits_ne_nil (n : Nat) : digits n ≠ [] := Nat.toDigits_ne_nil

/-- Zeros in front are digits, too. -/
theorem isDigit_of_mem_paddedDigits {width n : Nat} {c : Char} (h : c ∈ paddedDigits width n) :
    c.isDigit = true := by
  rcases List.mem_append.mp h with hzero | hdigit
  · rw [List.eq_of_mem_replicate hzero]
    rfl
  · exact isDigit_of_mem_digits hdigit

/-- Digits are not the marks that stand between them. -/
theorem ne_of_isDigit {c d : Char} (hc : c.isDigit = true) (hd : d.isDigit = false) : c ≠ d := by
  rintro rfl
  exact absurd (hc.symm.trans hd) (by decide)

/-- What is written of a number starts with a digit. -/
theorem exists_digits (n : Nat) : ∃ c ds, digits n = c :: ds ∧ c.isDigit = true := by
  obtain ⟨c, ds, hds⟩ := List.exists_cons_of_ne_nil (digits_ne_nil n)
  exact ⟨c, ds, hds, isDigit_of_mem_digits (hds ▸ List.mem_cons_self)⟩

/-- The value of a digit is its distance from zero. -/
theorem digitValue_of_isDigit {c : Char} (h : c.isDigit = true) :
    digitValue c = c.toNat - '0'.toNat :=
  if_pos h

/-- Digits are read as their number in base ten. -/
theorem numberOfDigits_eq_ofDigitChars {ds : List Char} (h : ∀ c ∈ ds, c.isDigit = true) :
    numberOfDigits 10 ds = Nat.ofDigitChars 10 ds 0 := by
  unfold numberOfDigits
  rw [Nat.ofDigitChars_eq_foldl]
  refine List.foldl_ext _ _ _ fun n c hc => ?_
  rw [digitValue_of_isDigit (h c hc), Nat.mul_comm]

/-- The digits of a number denote it. -/
theorem numberOfDigits_digits (n : Nat) : numberOfDigits 10 (digits n) = n := by
  rw [numberOfDigits_eq_ofDigitChars fun _ => isDigit_of_mem_digits]
  exact Nat.ofDigitChars_ten_toDigits

/-- Zeros in front do not count. -/
theorem numberOfDigits_paddedDigits (width n : Nat) :
    numberOfDigits 10 (paddedDigits width n) = n := by
  rw [numberOfDigits_eq_ofDigitChars fun _ => isDigit_of_mem_paddedDigits]
  unfold paddedDigits digits
  rw [Nat.ofDigitChars_append, Nat.ofDigitChars_replicate_zero, Nat.mul_zero,
    Nat.ofDigitChars_ten_toDigits]

/-- Only zero is written with a zero in front. -/
theorem eq_zero_of_head?_digits {n : Nat} (h : (digits n).head? = some '0') : n = 0 := by
  induction n using Nat.strongRecOn with
  | ind n ih =>
    by_cases hsmall : n < 10
    · have hone : digits n = [Nat.digitChar n] := Nat.toDigits_of_lt_base hsmall
      rw [hone] at h
      have hall : ∀ k < 10, [Nat.digitChar k].head? = some '0' → k = 0 := by decide
      exact hall n hsmall h
    · have hsplit : digits n = digits (n / 10) ++ [Nat.digitChar (n % 10)] :=
        Nat.toDigits_of_base_le (by decide) (by omega)
      rw [hsplit, List.head?_append_of_ne_nil _ (digits_ne_nil _)] at h
      have := ih (n / 10) (by omega) h
      omega

/-- Digits with zeros in front start with a digit. -/
theorem exists_paddedDigits (width n : Nat) :
    ∃ c ds, paddedDigits width n = c :: ds ∧ c.isDigit = true := by
  have hne : paddedDigits width n ≠ [] := List.append_ne_nil_of_right_ne_nil _ (digits_ne_nil n)
  obtain ⟨c, ds, hds⟩ := List.exists_cons_of_ne_nil hne
  exact ⟨c, ds, hds, isDigit_of_mem_paddedDigits (hds ▸ List.mem_cons_self)⟩

/-- A number that fits is written in just as many digits. -/
theorem length_paddedDigits {width n : Nat} (hwidth : 0 < width) (h : n < 10 ^ width) :
    (paddedDigits width n).length = width := by
  have hfits : (digits n).length ≤ width := (Nat.length_toDigits_le_iff (by decide) hwidth).mpr h
  rw [paddedDigits, List.length_append, List.length_replicate]
  omega

/-- Whether a text does not go on with a digit. -/
def endsDigits (text : List Char) : Bool := !text.head?.any Char.isDigit

/-- No digits are in front of a text that does not go on with one. -/
theorem takeWhile_isDigit_of_endsDigits {text : List Char} (h : endsDigits text = true) :
    text.takeWhile Char.isDigit = [] := by
  cases text with
  | nil => rfl
  | cons c rest =>
    have hc : c.isDigit = false := by simpa [endsDigits] using h
    simp [hc]

section TakeDigits

variable {ds rest : List Char} {most : Nat} (hds : ∀ c ∈ ds, c.isDigit = true)

include hds

/-- All digits are split off if what follows them is no digit. -/
theorem takeDigits_append (hmost : ds.length ≤ most) (hrest : endsDigits rest = true) :
    takeDigits most (ds ++ rest) = (ds, rest) := by
  have hnone : (rest.take (most - ds.length)).takeWhile Char.isDigit = [] := by
    refine takeWhile_isDigit_of_endsDigits ?_
    unfold endsDigits at *
    cases rest <;> cases most - ds.length <;> simp_all
  have htaken : ((ds ++ rest).take most).takeWhile Char.isDigit = ds := by
    rw [List.take_append, List.take_of_length_le hmost, List.takeWhile_append_of_pos hds, hnone,
      List.append_nil]
  unfold takeDigits
  dsimp only
  rw [htaken, List.drop_left]

/-- As many digits as are wanted are split off whatever follows. -/
theorem takeDigits_append_of_length (hlength : ds.length = most) :
    takeDigits most (ds ++ rest) = (ds, rest) := by
  have htaken : ((ds ++ rest).take most).takeWhile Char.isDigit = ds := by
    rw [← hlength, List.take_left, List.takeWhile_eq_self_iff.mpr hds]
  unfold takeDigits
  dsimp only
  rw [htaken, List.drop_left]

end TakeDigits

/-- No digit is blank. -/
theorem isBlank_of_isDigit {c : Char} (h : c.isDigit = true) : isBlank c = false := by
  simp only [Char.isDigit, Bool.and_eq_true, decide_eq_true_eq, ge_iff_le,
    UInt32.le_iff_toNat_le] at h
  have hrange : 48 ≤ c.toNat ∧ c.toNat ≤ 57 := h
  simp only [isBlank, blankRanges, List.any_cons, List.any_nil, Bool.or_eq_false_iff,
    Bool.and_eq_false_iff, decide_eq_false_iff_not, and_true]
  omega

/-- A text that starts with no blank is left as it is. -/
theorem skipBlanks_cons {c : Char} (h : isBlank c = false) (rest : List Char) :
    skipBlanks (c :: rest) = c :: rest := by
  unfold skipBlanks
  rw [List.dropWhile_cons_of_neg (by simp [h])]

/-- There are no blanks in front of digits. -/
theorem skipBlanks_paddedDigits (width n : Nat) (rest : List Char) :
    skipBlanks (paddedDigits width n ++ rest) = paddedDigits width n ++ rest := by
  obtain ⟨c, ds, hds, hc⟩ := exists_paddedDigits width n
  rw [hds, List.cons_append]
  exact skipBlanks_cons (isBlank_of_isDigit hc) _

end Procurement.Text
