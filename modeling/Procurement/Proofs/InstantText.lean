import Procurement.Instant.Text
import Procurement.Proofs.Calendar
import Procurement.Proofs.Decimal

/-!
# Instants survive their text

Whatever an instant is, its text is read back as the same instant: leap seconds,
fractions of any length and years outside 0 to 9999 included. Each part of the
text is read by a reader of its own, which stops where the part ends; what the
parts denote together is the instant that they were taken from.
-/

namespace Procurement.Instant

open Procurement.Text

/-! ## The parts of the text -/

/-- Digits end where no digit follows. -/
theorem endsDigits_cons {c : Char} (h : c.isDigit = false) (rest : List Char) :
    endsDigits (c :: rest) = true := by
  simp [endsDigits, h]

/-- Two digits are read back. -/
theorem readPart?_paddedDigits {n : Nat} (h : n < 100) (rest : List Char) :
    readPart? (paddedDigits 2 n ++ rest) = some (n, rest) := by
  have hsplit : takeDigits 2 (skipBlanks (paddedDigits 2 n ++ rest)) =
      (paddedDigits 2 n, rest) := by
    rw [skipBlanks_paddedDigits]
    exact takeDigits_append_of_length (fun _ => isDigit_of_mem_paddedDigits)
      (length_paddedDigits (by decide) h)
  obtain ⟨c, ds, hds, _⟩ := exists_paddedDigits 2 n
  unfold readPart?
  rw [hsplit, hds]
  dsimp only
  rw [← hds, numberOfDigits_paddedDigits]

/-- A mark is read where it stands. -/
theorem readMark?_cons {mark : Char} (h : isBlank mark = false) (rest : List Char) :
    readMark? mark (mark :: rest) = some rest := by
  unfold readMark?
  rw [skipBlanks_cons h]
  exact if_pos rfl

/-- What is read as a year behind its sign. -/
def readSigned? (sign : Int) (most : Nat) (text : List Char) : Option (Int × List Char) :=
  match takeDigits most text with
  | ([], _) => none
  | (ds, rest) => some (sign * numberOfDigits 10 ds, rest)

/-- A minus sign makes a year negative, and all digits behind it count. -/
theorem readYear?_minus (rest : List Char) :
    readYear? ('-' :: rest) = readSigned? (-1) rest.length rest := by
  unfold readYear?
  rw [skipBlanks_cons (by decide)]
  rfl

/-- All digits behind a plus sign count. -/
theorem readYear?_plus (rest : List Char) :
    readYear? ('+' :: rest) = readSigned? 1 rest.length rest := by
  unfold readYear?
  rw [skipBlanks_cons (by decide)]
  rfl

/-- A year without sign has four digits. -/
theorem readYear?_of_isDigit {c : Char} (h : c.isDigit = true) (rest : List Char) :
    readYear? (c :: rest) = readSigned? 1 4 (c :: rest) := by
  unfold readYear?
  rw [skipBlanks_cons (isBlank_of_isDigit h)]
  split
  · rename_i heq
    cases heq
    cases h
  · rename_i heq
    cases heq
    cases h
  · rfl

/-- The digits of a year are read back if no digit follows them. -/
theorem readSigned?_paddedDigits (sign : Int) {width n most : Nat} {rest : List Char}
    (hmost : (paddedDigits width n).length ≤ most) (hrest : endsDigits rest = true) :
    readSigned? sign most (paddedDigits width n ++ rest) = some (sign * n, rest) := by
  obtain ⟨c, ds, hds, _⟩ := exists_paddedDigits width n
  unfold readSigned?
  rw [takeDigits_append (fun _ => isDigit_of_mem_paddedDigits) hmost hrest, hds]
  dsimp only
  rw [← hds, numberOfDigits_paddedDigits]

/-- A year is read back if no digit follows it. -/
theorem readYear?_yearText (year : Int) {rest : List Char} (hrest : endsDigits rest = true) :
    readYear? (yearText year ++ rest) = some (year, rest) := by
  have hall : (paddedDigits 4 year.natAbs).length ≤
      (paddedDigits 4 year.natAbs ++ rest).length := by
    rw [List.length_append]
    exact Nat.le_add_right _ _
  unfold yearText
  split
  · rw [List.cons_append, readYear?_minus, readSigned?_paddedDigits _ hall hrest]
    congr 2
    omega
  · split
    · have hfits : (paddedDigits 4 year.natAbs).length ≤ 4 :=
        Nat.le_of_eq (length_paddedDigits (by decide) (by omega))
      obtain ⟨c, ds, hds, hc⟩ := exists_paddedDigits 4 year.natAbs
      have hunsigned : readYear? (paddedDigits 4 year.natAbs ++ rest) =
          readSigned? 1 4 (paddedDigits 4 year.natAbs ++ rest) := by
        rw [hds]
        exact readYear?_of_isDigit hc _
      rw [hunsigned, readSigned?_paddedDigits _ hfits hrest]
      congr 2
      omega
    · rw [List.cons_append, readYear?_plus, readSigned?_paddedDigits _ hall hrest]
      congr 2
      omega

/-- A fraction in a fixed number of digits, up to nine, is read back. -/
theorem readFraction?_paddedDigits {width n : Nat} (hwidth : 0 < width) (hmost : width ≤ 9)
    (h : n < 10 ^ width) {rest : List Char} (hrest : endsDigits rest = true) :
    readFraction? ('.' :: (paddedDigits width n ++ rest)) =
      some (n * 10 ^ (9 - width), rest) := by
  have hlength := length_paddedDigits hwidth h
  obtain ⟨c, ds, hds, _⟩ := exists_paddedDigits width n
  have hdropped : rest.dropWhile Char.isDigit = rest := by
    cases rest with
    | nil => rfl
    | cons c rest => exact List.dropWhile_cons_of_neg (by simpa [endsDigits] using hrest)
  have hsplit : takeDigits 9 (paddedDigits width n ++ rest) = (c :: ds, rest) := by
    rw [takeDigits_append (fun _ => isDigit_of_mem_paddedDigits) (by omega) hrest, hds]
  have hnumber : numberOfDigits 10 (c :: ds) = n := hds ▸ numberOfDigits_paddedDigits width n
  rw [hds] at hlength
  simp only [readFraction?, hsplit, hnumber, hlength, hdropped]
  rfl

/-- A fraction is read back if no digit and no other fraction follows it. -/
theorem readFraction?_fractionText {nanos : Nat} (h : nanos < 1000000000) {rest : List Char}
    (hrest : endsDigits rest = true) (hdot : rest.head? ≠ some '.') :
    readFraction? (fractionText nanos ++ rest) = some (nanos, rest) := by
  unfold fractionText
  split
  · rename_i hzero
    rw [hzero, List.nil_append]
    unfold readFraction?
    split
    · exact absurd rfl hdot
    · rfl
  · split
    · rw [List.cons_append, readFraction?_paddedDigits (by decide) (by decide) (by omega) hrest]
      congr 2
      omega
    · split
      · rw [List.cons_append, readFraction?_paddedDigits (by decide) (by decide) (by omega) hrest]
        congr 2
        omega
      · rw [List.cons_append, readFraction?_paddedDigits (by decide) (by decide) (by omega) hrest]
        congr 2
        omega

/-! ## The whole text -/

/-- The names of UTC behind the texts of instants. -/
def zones : List (List Char) := [['Z'], "+00:00".toList]

/-- What is known of the names of UTC: no part of the text before them goes on in them. -/
theorem zones_spec : ∀ zone ∈ zones, endsDigits zone = true ∧ zone.head? ≠ some '.' ∧
    readOffset? (skipBlanks zone) = some (0, []) := by
  decide

section Parts

variable (t : Instant)

/-- The date of an instant exists. -/
theorem isDate_date : isDate t.date.1 t.date.2.1 t.date.2.2 = true :=
  (dateOfDays_spec (t.seconds.fdiv 86400)).1

/-- The seconds of an instant are those of its day and those since the start of the day. -/
theorem seconds_eq : t.secondOfDay < 86400 ∧
    t.seconds = daysOfDate t.date.1 t.date.2.1 t.date.2.2 * 86400 + t.secondOfDay := by
  have hdays : daysOfDate t.date.1 t.date.2.1 t.date.2.2 = t.seconds.fdiv 86400 :=
    (dateOfDays_spec (t.seconds.fdiv 86400)).2
  have hsplit := Int.mul_fdiv_add_fmod t.seconds 86400
  have hlow := Int.fmod_nonneg_of_pos t.seconds (b := 86400) (by omega)
  have hhigh := Int.fmod_lt_of_pos t.seconds (b := 86400) (by omega)
  rw [hdays]
  unfold secondOfDay
  omega

/-- A leap second stands at the end of a minute. -/
theorem nanos_lt : t.nanos < 2000000000 ∧
    (1000000000 ≤ t.nanos → t.secondOfDay % 60 = 59) := by
  obtain ⟨_, hseconds⟩ := t.seconds_eq
  have hnanos := t.representable.2.2
  omega

/-- The parts that the text of an instant names make up the instant. -/
theorem ofLocal?_date :
    ofLocal? t.date.1 t.date.2.1 t.date.2.2 (t.secondOfDay / 3600) (t.secondOfDay / 60 % 60)
      (t.secondOfDay % 60 + t.nanos / 1000000000) (t.nanos % 1000000000) 0 = some t := by
  obtain ⟨hbound, hseconds⟩ := t.seconds_eq
  obtain ⟨hnanos, hleap⟩ := t.nanos_lt
  obtain ⟨hfirst, hlast, _⟩ := t.representable
  have hvalid : (isDate t.date.1 t.date.2.1 t.date.2.2 && decide (t.secondOfDay / 3600 ≤ 23) &&
      decide (t.secondOfDay / 60 % 60 ≤ 59) &&
      decide (t.secondOfDay % 60 + t.nanos / 1000000000 ≤ 60)) = true := by
    simp only [isDate_date, Bool.true_and, Bool.and_eq_true, decide_eq_true_eq]
    omega
  have hsum : daysOfDate t.date.1 t.date.2.1 t.date.2.2 * 86400 +
      (t.secondOfDay / 3600 : Nat) * 3600 + (t.secondOfDay / 60 % 60 : Nat) * 60 +
      (min (t.secondOfDay % 60 + t.nanos / 1000000000) 59 : Nat) = t.seconds := by
    omega
  have hfraction : (if t.secondOfDay % 60 + t.nanos / 1000000000 = 60 then
      t.nanos % 1000000000 + 1000000000 else t.nanos % 1000000000) = t.nanos := by
    split <;> omega
  unfold ofLocal?
  rw [if_pos hvalid]
  dsimp only
  rw [hsum, hfraction, if_pos ⟨hfirst, hlast⟩, Int.sub_zero]
  exact dif_pos t.representable

end Parts

/-- No month has more than 31 days. -/
theorem daysInMonth_le (year : Int) (month : Nat) : daysInMonth year month ≤ 31 := by
  unfold daysInMonth
  split
  · split <;> decide
  · split <;> decide

/-- The text of an instant is read back as the instant. -/
theorem ofText?_textWithZone (t : Instant) {zone : List Char} (h : zone ∈ zones) :
    ofText? (textWithZone zone t) = some t := by
  obtain ⟨hdigits, hdot, hoffset⟩ := zones_spec zone h
  have hlocal := ofLocal?_date t
  obtain ⟨_, hmonth, _, hday⟩ := isDate_iff.mp t.isDate_date
  have hmonths := daysInMonth_le t.date.1 t.date.2.1
  obtain ⟨hbound, _⟩ := t.seconds_eq
  obtain ⟨hnanos, _⟩ := t.nanos_lt
  unfold textWithZone
  generalize t.date = date at *
  obtain ⟨year, month, day⟩ := date
  dsimp only at *
  have hyearRead (rest : List Char) := readYear?_yearText year (endsDigits_cons (c := '-') rfl rest)
  have hdash (rest : List Char) : readMark? '-' ('-' :: rest) = some rest :=
    readMark?_cons (by decide) rest
  have hcolon (rest : List Char) : readMark? ':' (':' :: rest) = some rest :=
    readMark?_cons (by decide) rest
  have hmonthRead := readPart?_paddedDigits (n := month) (by omega)
  have hdayRead := readPart?_paddedDigits (n := day) (by omega)
  have hhourRead := readPart?_paddedDigits (n := t.secondOfDay / 3600) (by omega)
  have hminuteRead := readPart?_paddedDigits (n := t.secondOfDay / 60 % 60) (by omega)
  have hsecondRead :=
    readPart?_paddedDigits (n := t.secondOfDay % 60 + t.nanos / 1000000000) (by omega)
  have hfractionRead : readFraction? (fractionText (t.nanos % 1000000000) ++ zone) =
      some (t.nanos % 1000000000, zone) :=
    readFraction?_fractionText (Nat.mod_lt _ (by decide)) hdigits hdot
  simp only [ofText?, List.append_assoc, List.cons_append, List.nil_append, Option.bind_eq_bind,
    Option.bind_some, hyearRead, hdash, hmonthRead, hdayRead, hhourRead, hcolon, hminuteRead,
    hsecondRead, hfractionRead, hoffset]
  exact hlocal

/-- The text of an instant in answers is read back. -/
theorem ofText?_text (t : Instant) : ofText? t.text.toList = some t := by
  unfold text
  rw [String.toList_ofList]
  exact ofText?_textWithZone t List.mem_cons_self

/-- An instant that is stored as text is read from it unchanged. -/
theorem ofText?_storedText (t : Instant) : ofText? t.storedText.toList = some t := by
  unfold storedText
  rw [String.toList_ofList]
  exact ofText?_textWithZone t (List.mem_cons_of_mem _ List.mem_cons_self)

end Procurement.Instant
