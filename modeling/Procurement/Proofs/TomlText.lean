import Procurement.Proofs.Decimal
import Procurement.Proofs.TomlQuoted
import Procurement.Settings.Writer
import Procurement.Toml.Reader

/-!
# Values in settings files are read back

A string between quotes, a number and a truth value are each read as what they were
written for, up to the end of their line. A number is not taken for a day or a time of
day, for neither a hyphen nor a colon stands behind its digits.
-/

namespace Procurement.Toml

open Procurement.Text

/-! ## Numbers are no moments -/

/-- A moment starts with a digit. -/
theorem readMoment?_of_not_isDigit {c : Char} (hc : c.isDigit = false) (rest : List Char) :
    readMoment? (c :: rest) = none := by
  have hday : readDay? (c :: rest) = none := by
    unfold readDay?
    simp [hc]
  have hpair (least greatest : Nat) : readPair? least greatest (c :: rest) = none := by
    cases rest <;> simp [readPair?, hc]
  have htime : readTime? .written (c :: rest) = none := by
    unfold readTime?
    rw [hpair]
    rfl
  unfold readMoment?
  rw [hday, htime]
  rfl

/-- A mark that is not there cannot be read behind digits. -/
theorem readSign?_append {mark : Char} (hmark : mark.isDigit = false) {ds : List Char}
    (hds : ∀ d ∈ ds, d.isDigit = true) {c : Char} (hc : c ≠ mark) (rest : List Char) :
    readSign? mark (ds ++ c :: rest) = none := by
  cases ds with
  | nil => exact if_neg hc
  | cons d ds => exact if_neg (ne_of_isDigit (hds d List.mem_cons_self) hmark)

section Digits

variable {ds : List Char} (hds : ∀ d ∈ ds, d.isDigit = true) {c : Char} (hc : c.isDigit = false)

include hds hc

/-- A day has a hyphen behind its first digits. -/
theorem readDay?_digits (hhyphen : c ≠ '-') (rest : List Char) :
    readDay? (ds ++ c :: rest) = none := by
  unfold readDay?
  dsimp only
  by_cases hlength : ds.length < 4
  · have hmem : c ∈ (ds ++ c :: rest).take 4 := by
      rw [List.take_append]
      obtain ⟨k, hk⟩ : ∃ k, 4 - ds.length = k + 1 := ⟨3 - ds.length, by omega⟩
      rw [hk, List.take_succ_cons]
      simp
    have hall : ((ds ++ c :: rest).take 4).all Char.isDigit = false :=
      List.all_eq_false.mpr ⟨c, hmem, by simp [hc]⟩
    rw [hall]
    simp
  · have hdrop : (ds ++ c :: rest).drop 4 = ds.drop 4 ++ c :: rest := by
      rw [List.drop_append_of_le_length (by omega)]
    rw [hdrop, readSign?_append rfl (fun d hd => hds d (List.mem_of_mem_drop hd)) hhyphen rest]
    split <;> rfl

/-- A time of day has a colon behind its first digits. -/
theorem readTime?_digits (hcolon : c ≠ ':') (bounds : ClockBounds) (rest : List Char) :
    readTime? bounds (ds ++ c :: rest) = none := by
  have hpair : ∀ found tail, readPair? 0 bounds.lastHour (ds ++ c :: rest) = some (found, tail) →
      tail = ds.drop 2 ++ c :: rest := by
    intro found tail h
    match ds, hds with
    | [], _ =>
      cases rest <;> simp [readPair?, hc] at h
    | [d], _ => simp [readPair?, hc] at h
    | d :: e :: ds, _ =>
      simp only [List.cons_append, readPair?] at h
      split at h
      · exact (Prod.mk.inj (Option.some.inj h)).2.symm
      · cases h
  unfold readTime?
  cases hread : readPair? 0 bounds.lastHour (ds ++ c :: rest) with
  | none => rfl
  | some found =>
    obtain ⟨hour, tail⟩ := found
    have hsign : readSign? ':' tail = none := by
      rw [hpair hour tail hread]
      exact readSign?_append rfl (fun d hd => hds d (List.mem_of_mem_drop hd)) hcolon rest
    simp [hsign]

/-- Digits without a hyphen or a colon behind them are no moment. -/
theorem readMoment?_digits (hhyphen : c ≠ '-') (hcolon : c ≠ ':') (rest : List Char) :
    readMoment? (ds ++ c :: rest) = none := by
  unfold readMoment?
  rw [readDay?_digits hds hc hhyphen, readTime?_digits hds hc hcolon]
  rfl

end Digits

/-! ## Words -/

/-- Digits without a mark between them are in one group. -/
theorem ungroup?_digits {ds : List Char} (hds : ∀ d ∈ ds, d.isDigit = true) (hne : ds ≠ []) :
    ungroup? Char.isDigit ds = some ds := by
  induction ds with
  | nil => exact absurd rfl hne
  | cons d ds ih =>
    have hd := hds d List.mem_cons_self
    cases ds with
    | nil => exact if_pos hd
    | cons e ds =>
      have hunderscore : e ≠ '_' := ne_of_isDigit (hds e (by simp)) rfl
      have hrest := ih (fun d hd => hds d (List.mem_cons_of_mem _ hd)) (List.cons_ne_nil e ds)
      rw [ungroup?, if_pos hd, hrest]
      · rfl
      · simp
      · intro _ heq
        exact hunderscore (List.cons.inj heq).1

/-- The digits of a number have no zero in front of others. -/
theorem wholeDigits?_digits (n : Nat) : wholeDigits? (digits n) = some (digits n) := by
  unfold wholeDigits?
  rw [ungroup?_digits (fun _ => isDigit_of_mem_digits) (digits_ne_nil n), Option.filter_some]
  refine if_pos ?_
  by_cases hzero : (digits n).head? = some '0'
  · rw [eq_zero_of_head?_digits hzero]
    rfl
  · simp [hzero]

/-- A number that fits into 64 bits with sign is a whole number of a settings file. -/
theorem integerIn64?_eq {n : Int} (hleast : -9223372036854775808 ≤ n)
    (hgreatest : n ≤ 9223372036854775807) : integerIn64? n = some (integer n) :=
  if_pos ⟨hleast, hgreatest⟩

/-- Digits in front have no sign. -/
theorem splitSign_of_isDigit {c : Char} (hc : c.isDigit = true) (ds : List Char) :
    splitSign (c :: ds) = (false, c :: ds) := by
  rw [splitSign]
  · exact fun _ heq => ne_of_isDigit hc rfl (List.cons.inj heq).1
  · exact fun _ heq => ne_of_isDigit hc rfl (List.cons.inj heq).1

/-- A number without a sign is written without one. -/
theorem splitSign_digits (n : Nat) : splitSign (digits n) = (false, digits n) := by
  obtain ⟨c, ds, hds, hc⟩ := exists_digits n
  rw [hds, splitSign_of_isDigit hc]

/-- A whole number of 64 bits is read from its sign and digits. -/
theorem readWhole?_signedDigits {n : Int} (hleast : -9223372036854775808 ≤ n)
    (hgreatest : n ≤ 9223372036854775807) : readWhole? (signedDigits n) = some (integer n) := by
  unfold signedDigits readWhole?
  by_cases hsign : n < 0
  · have habs : -(n.natAbs : Int) = n := by omega
    rw [if_pos hsign]
    simp only [splitSign, wholeDigits?_digits, numberOfDigits_digits, Option.bind_eq_bind,
      Option.bind_some, if_true, habs, integerIn64?_eq hleast hgreatest]
  · have habs : (n.natAbs : Int) = n := by omega
    rw [if_neg hsign, splitSign_digits]
    simp only [wholeDigits?_digits, numberOfDigits_digits, Option.bind_eq_bind, Option.bind_some,
      Bool.false_eq_true, if_false, habs, integerIn64?_eq hleast hgreatest]

/-- Behind the sign, if there is one, comes a digit. -/
theorem isDigit_of_splitSign {c first : Char} {ds rest : List Char} {negative : Bool}
    (hc : c = '-' ∨ c.isDigit = true) (hds : ∀ d ∈ ds, d.isDigit = true)
    (h : splitSign (c :: ds) = (negative, first :: rest)) : first.isDigit = true := by
  rcases hc with rfl | hdigit
  · have hrest : ds = first :: rest := (Prod.mk.inj h).2
    exact hds first (hrest ▸ List.mem_cons_self)
  · rw [splitSign_of_isDigit hdigit] at h
    exact (List.cons.inj (Prod.mk.inj h).2).1 ▸ hdigit

/-- A sign or a digit with digits behind it is read as a whole number, if it is one. -/
theorem ofWord?_eq {c : Char} {ds : List Char} {value : Toml}
    (hc : c = '-' ∨ c.isDigit = true) (hds : ∀ d ∈ ds, d.isDigit = true)
    (h : readWhole? (c :: ds) = some value) : ofWord? (c :: ds) = some value := by
  have hletter {d : Char} (hd : d.isDigit = false) : d ∉ ds := fun hmem =>
    absurd ((hds d hmem).symm.trans hd) (by decide)
  have hfirst {d : Char} (hsign : d ≠ '-') (hd : d.isDigit = false) : c ≠ d := by
    rintro rfl
    rcases hc with rfl | hdigit
    · exact hsign rfl
    · exact ne_of_isDigit hdigit hd rfl
  unfold ofWord?
  split
  · rename_i heq
    exact absurd (List.cons.inj heq).1 (hfirst (by decide) rfl)
  · rename_i heq
    exact absurd (List.cons.inj heq).1 (hfirst (by decide) rfl)
  · rename_i heq
    exact absurd ((List.cons.inj heq).2 ▸ List.mem_cons_self) (hletter (d := 'x') rfl)
  · rename_i heq
    exact absurd ((List.cons.inj heq).2 ▸ List.mem_cons_self) (hletter (d := 'o') rfl)
  · rename_i heq
    exact absurd ((List.cons.inj heq).2 ▸ List.mem_cons_self) (hletter (d := 'b') rfl)
  · split
    · rename_i heq
      exact absurd (isDigit_of_splitSign hc hds heq) (by decide)
    · rename_i heq
      exact absurd (isDigit_of_splitSign hc hds heq) (by decide)
    · rw [h]

/-- A written whole number of 64 bits is read back. -/
theorem ofWord?_signedDigits {n : Int} (hleast : -9223372036854775808 ≤ n)
    (hgreatest : n ≤ 9223372036854775807) : ofWord? (signedDigits n) = some (integer n) := by
  have hread := readWhole?_signedDigits hleast hgreatest
  unfold signedDigits at *
  by_cases hsign : n < 0
  · rw [if_pos hsign] at *
    exact ofWord?_eq (.inl rfl) (fun _ => isDigit_of_mem_digits) hread
  · rw [if_neg hsign] at *
    obtain ⟨c, ds, hds, hc⟩ := exists_digits n.natAbs
    have hdigits : ∀ d ∈ ds, d.isDigit = true := fun d hd =>
      isDigit_of_mem_digits (hds ▸ List.mem_cons_of_mem c hd)
    rw [hds] at hread ⊢
    exact ofWord?_eq (.inr hc) hdigits hread

/-! ## Values -/

/-- A text is read as a value where a line ends behind it. -/
structure ReadsAs (text : List Char) (value : Toml) : Prop where
  read : ∀ room fuel rest, readValue? room (fuel + 1) (skipGap (text ++ '\n' :: rest)) =
    some (value, '\n' :: rest)
  noMoment : withMoments? value = some value

/-- A text is read from its quotes. -/
theorem readsAs_writeText (text : String) : ReadsAs (writeText text []) (string text) where
  read := fun room fuel rest => by
    have hread : readText? (writeText text ('\n' :: rest)) = some (text, '\n' :: rest) :=
      readText?_writeText text (by simp) (by simp)
    obtain ⟨quote, tail, htail, hquote⟩ := exists_quote_writeText text ('\n' :: rest)
    rw [writeText_append, List.nil_append]
    rw [htail] at hread ⊢
    rcases hquote with rfl | rfl
    · have hgap : skipGap ('"' :: tail) = '"' :: tail := rfl
      rw [hgap, readValue?, hread]
      rfl
    · have hgap : skipGap ('\'' :: tail) = '\'' :: tail := rfl
      rw [hgap, readValue?, hread]
      rfl
  noMoment := rfl

/-- An unbroken word that is no moment is read as what the word denotes. -/
theorem readsAs_word {word : List Char} {value : Toml} (hne : word ≠ [])
    (hword : ∀ c ∈ word, isWordChar c = true)
    (hmoment : ∀ rest, readMoment? (word ++ '\n' :: rest) = none)
    (hvalue : ofWord? word = some value) (hplain : withMoments? value = some value) :
    ReadsAs word value where
  read := fun room fuel rest => by
    obtain ⟨c, chars, rfl⟩ := List.exists_cons_of_ne_nil hne
    have hc : isWordChar c = true := hword c List.mem_cons_self
    have hfirst {d : Char} (hd : isWordChar d = false) : c ≠ d := by
      rintro rfl
      exact absurd (hc.symm.trans hd) (by decide)
    have hgap : skipGap (c :: chars ++ '\n' :: rest) = c :: chars ++ '\n' :: rest := by
      refine List.dropWhile_cons_of_neg ?_
      simp [hfirst (d := ' ') rfl, hfirst (d := '\t') rfl]
    have htaken : (c :: chars ++ '\n' :: rest).takeWhile isWordChar = c :: chars := by
      rw [List.takeWhile_append_of_pos hword]
      simp [isWordChar]
    rw [hgap, readValue?]
    · rw [hmoment, htaken]
      simp [hvalue]
    · exact fun _ heq => hfirst (d := '"') rfl (List.cons.inj heq).1
    · exact fun _ heq => hfirst (d := '\'') rfl (List.cons.inj heq).1
    · exact fun _ heq _ => hfirst (d := '[') rfl (List.cons.inj heq).1
    · exact fun _ heq _ => hfirst (d := '{') rfl (List.cons.inj heq).1
    · exact fun _ _ heq _ => hfirst (d := '[') rfl (List.cons.inj heq).1
    · exact fun _ _ heq _ => hfirst (d := '{') rfl (List.cons.inj heq).1
  noMoment := hplain

/-- A sign and digits stand in words. -/
theorem isWordChar_of_mem_signedDigits {n : Int} {c : Char} (h : c ∈ signedDigits n) :
    isWordChar c = true := by
  have hdigit {m : Nat} (h : c ∈ digits m) : isWordChar c = true := by
    have hc := isDigit_of_mem_digits h
    simp [isWordChar, Char.isAlphanum, hc]
  unfold signedDigits at h
  split at h
  · rcases List.mem_cons.mp h with rfl | h
    · rfl
    · exact hdigit h
  · exact hdigit h

/-- A whole number is taken for no moment. -/
theorem readMoment?_signedDigits (n : Int) (rest : List Char) :
    readMoment? (signedDigits n ++ '\n' :: rest) = none := by
  unfold signedDigits
  split
  · exact readMoment?_of_not_isDigit rfl _
  · exact readMoment?_digits (fun _ => isDigit_of_mem_digits) rfl (by decide) (by decide) rest

/-- A whole number of 64 bits is read as a value. -/
theorem readsAs_signedDigits {n : Int} (hleast : -9223372036854775808 ≤ n)
    (hgreatest : n ≤ 9223372036854775807) : ReadsAs (signedDigits n) (integer n) := by
  have hne : signedDigits n ≠ [] := by
    unfold signedDigits
    split
    · exact List.cons_ne_nil _ _
    · exact digits_ne_nil _
  exact readsAs_word hne (fun _ => isWordChar_of_mem_signedDigits) (readMoment?_signedDigits n)
    (ofWord?_signedDigits hleast hgreatest) rfl

/-- A natural number that fits is read as a value. -/
theorem readsAs_digits {n : Nat} (h : n ≤ 9223372036854775807) :
    ReadsAs (digits n) (integer n) := by
  have hdigits : signedDigits n = digits n := if_neg (by omega)
  exact hdigits ▸ readsAs_signedDigits (by omega) (by omega)

/-- A truth value is read from its word. -/
theorem readsAs_boolText (value : Bool) :
    ReadsAs (Settings.boolText value) (boolean value) := by
  have hword : (Settings.boolText value).all isWordChar = true := by cases value <;> decide
  refine readsAs_word ?_ (List.all_eq_true.mp hword) ?_ ?_ rfl
  · cases value <;> exact List.cons_ne_nil _ _
  · intro rest
    cases value <;> exact readMoment?_of_not_isDigit rfl _
  · cases value <;> rfl

end Procurement.Toml
