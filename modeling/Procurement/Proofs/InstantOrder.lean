import Procurement.Proofs.InstantText
import Mathlib.Data.List.Lex
import Mathlib.Tactic.Ring

/-!
# Instants are in the order of their texts

Texts are compared character by character. As long as years have four digits, the texts of two
instants part at the first of their numbers that differ, and there the smaller number has the
smaller digit. Only fractions differ in length: the digits that a shorter one leaves out would be
zeros, and what follows it instead, a plus sign, is below every digit.
-/

namespace Procurement

namespace Text

/-! ## Digits in order -/

/-- A first digit counts by its place. -/
theorem numberOfDigits_cons (base : Nat) (c : Char) (ds : List Char) :
    numberOfDigits base (c :: ds) = digitValue c * base ^ ds.length + numberOfDigits base ds := by
  have hfold (ds : List Char) (start : Nat) :
      ds.foldl (fun n c => n * base + digitValue c) start =
        start * base ^ ds.length + numberOfDigits base ds := by
    unfold numberOfDigits
    induction ds generalizing start with
    | nil => simp
    | cons c ds ih =>
      rw [List.foldl_cons, List.foldl_cons, ih, ih (0 * base + _), List.length_cons, Nat.pow_succ]
      ring
  rw [numberOfDigits, List.foldl_cons, hfold, Nat.zero_mul, Nat.zero_add]

/-- The character of a digit is its value's distance from zero. -/
theorem toNat_of_isDigit {c : Char} (h : c.isDigit = true) : c.toNat = digitValue c + 48 := by
  have hrange := h
  simp only [Char.isDigit, Bool.and_eq_true, decide_eq_true_eq, ge_iff_le,
    UInt32.le_iff_toNat_le] at hrange
  have hlow : 48 ≤ c.toNat := hrange.1
  rw [digitValue_of_isDigit h]
  exact (Nat.sub_add_cancel hlow).symm

/-- The value of a digit is below ten. -/
theorem digitValue_lt {c : Char} (h : c.isDigit = true) : digitValue c < 10 := by
  have hrange := h
  simp only [Char.isDigit, Bool.and_eq_true, decide_eq_true_eq, ge_iff_le,
    UInt32.le_iff_toNat_le] at hrange
  have hhigh : c.toNat ≤ 57 := hrange.2
  have hvalue := toNat_of_isDigit h
  omega

/-- Digits denote a number below the power of ten for how many they are. -/
theorem numberOfDigits_lt {ds : List Char} (h : ∀ c ∈ ds, c.isDigit = true) :
    numberOfDigits 10 ds < 10 ^ ds.length := by
  induction ds with
  | nil => decide
  | cons c ds ih =>
    have hc := digitValue_lt (h c List.mem_cons_self)
    have hds := ih fun c' hmem => h c' (List.mem_cons_of_mem c hmem)
    rw [numberOfDigits_cons, List.length_cons, Nat.pow_succ]
    have hscaled : digitValue c * 10 ^ ds.length ≤ 9 * 10 ^ ds.length :=
      Nat.mul_le_mul_right _ (by omega)
    omega

/-- The number that digits denote when zeros follow them up to the given width. -/
def scaled (width : Nat) (ds : List Char) : Nat := numberOfDigits 10 ds * 10 ^ (width - ds.length)

/-- A first digit counts by its place even when zeros follow the digits. -/
theorem scaled_cons {width : Nat} {ds : List Char} (c : Char) (h : ds.length ≤ width) :
    scaled (width + 1) (c :: ds) = digitValue c * 10 ^ width + scaled width ds := by
  have hwidth : 10 ^ ds.length * 10 ^ (width - ds.length) = 10 ^ width := by
    rw [← Nat.pow_add, Nat.add_sub_cancel' h]
  rw [scaled, numberOfDigits_cons, List.length_cons, Nat.add_sub_add_right, Nat.add_mul,
    Nat.mul_assoc, hwidth, scaled]

/-- With zeros up to a width digits denote a number below the power of ten for this width. -/
theorem scaled_lt {width : Nat} {ds : List Char} (hds : ∀ c ∈ ds, c.isDigit = true)
    (h : ds.length ≤ width) : scaled width ds < 10 ^ width := by
  have hwidth : 10 ^ ds.length * 10 ^ (width - ds.length) = 10 ^ width := by
    rw [← Nat.pow_add, Nat.add_sub_cancel' h]
  rw [← hwidth]
  exact Nat.mul_lt_mul_of_pos_right (numberOfDigits_lt hds) (Nat.pow_pos (by decide))

/-- Digits of a smaller number come first. Where they are fewer, what follows them counts. -/
theorem append_lt_append_of_scaled_lt (width : Nat) {ds ds' rest rest' : List Char}
    (hds : ∀ c ∈ ds, c.isDigit = true) (hds' : ∀ c ∈ ds', c.isDigit = true)
    (hwidth : ds.length ≤ width) (hwidth' : ds'.length ≤ width)
    (hrest : ds.length < ds'.length → ∃ c rest₁, rest = c :: rest₁ ∧ c.toNat < 48)
    (h : scaled width ds < scaled width ds') : ds ++ rest < ds' ++ rest' := by
  induction ds' generalizing ds width with
  | nil =>
    have hzero : scaled width [] = 0 := Nat.zero_mul _
    rw [hzero] at h
    exact absurd h (Nat.not_lt_zero _)
  | cons d' ds' ih =>
    have hd' := hds' d' List.mem_cons_self
    have hvalue' := toNat_of_isDigit hd'
    cases ds with
    | nil =>
      obtain ⟨c, rest₁, rfl, hc⟩ := hrest (Nat.zero_lt_succ _)
      refine List.cons_lt_cons_iff.mpr (Or.inl ?_)
      change c.toNat < d'.toNat
      omega
    | cons d ds =>
      obtain ⟨width, rfl⟩ : ∃ n, width = n + 1 := Nat.exists_eq_succ_of_ne_zero (by
        rw [List.length_cons] at hwidth
        omega)
      rw [List.length_cons] at hwidth hwidth'
      have htail : ∀ c ∈ ds, c.isDigit = true := fun c hmem => hds c (List.mem_cons_of_mem d hmem)
      have htail' : ∀ c ∈ ds', c.isDigit = true :=
        fun c hmem => hds' c (List.mem_cons_of_mem d' hmem)
      rw [scaled_cons d (by omega), scaled_cons d' (by omega)] at h
      have hvalue := toNat_of_isDigit (hds d List.mem_cons_self)
      refine List.cons_lt_cons_iff.mpr ?_
      rcases Nat.lt_trichotomy (digitValue d) (digitValue d') with hlt | heq | hgt
      · left
        change d.toNat < d'.toNat
        omega
      · right
        have hsame : d = d' := Char.toNat_inj.mp (by omega)
        rw [heq] at h
        exact ⟨hsame, ih width htail htail' (Nat.le_of_succ_le_succ hwidth)
          (Nat.le_of_succ_le_succ hwidth') (fun hshorter => hrest (Nat.succ_lt_succ hshorter))
          (Nat.add_lt_add_iff_left.mp h)⟩
      · have hbound' := scaled_lt htail' (Nat.le_of_succ_le_succ hwidth')
        have hproduct : (digitValue d' + 1) * 10 ^ width ≤ digitValue d * 10 ^ width :=
          Nat.mul_le_mul_right _ hgt
        rw [Nat.add_mul, Nat.one_mul] at hproduct
        omega

/-- Numbers in a fixed number of digits are in the order of the digits, whatever follows them. -/
theorem paddedDigits_append_lt {width n n' : Nat} (hwidth : 0 < width) (h : n < n')
    (hn' : n' < 10 ^ width) (rest rest' : List Char) :
    paddedDigits width n ++ rest < paddedDigits width n' ++ rest' := by
  have hlength := length_paddedDigits hwidth (Nat.lt_trans h hn')
  have hlength' := length_paddedDigits hwidth hn'
  refine append_lt_append_of_scaled_lt width (fun _ => isDigit_of_mem_paddedDigits)
    (fun _ => isDigit_of_mem_paddedDigits) (Nat.le_of_eq hlength) (Nat.le_of_eq hlength')
    (fun hshorter => by omega) ?_
  rw [scaled, scaled, hlength, hlength', numberOfDigits_paddedDigits, numberOfDigits_paddedDigits,
    Nat.sub_self, Nat.pow_zero, Nat.mul_one, Nat.mul_one]
  exact h

/-- Where numbers in a fixed number of digits do not tell texts apart, what follows does. -/
theorem paddedDigits_append_lt_of_lex {width n n' : Nat} {rest rest' : List Char}
    (hwidth : 0 < width) (hn' : n' < 10 ^ width) (h : n < n' ∨ n = n' ∧ rest < rest') :
    paddedDigits width n ++ rest < paddedDigits width n' ++ rest' := by
  rcases h with hlt | ⟨rfl, hlt⟩
  · exact paddedDigits_append_lt hwidth hlt hn' rest rest'
  · exact List.append_left_lt hlt

/-- Where numbers in a fixed number of digits do not tell texts apart, what follows a mark
does. -/
theorem paddedDigits_append_cons_lt_of_lex {width n n' : Nat} {rest rest' : List Char} (mark : Char)
    (hwidth : 0 < width) (hn' : n' < 10 ^ width) (h : n < n' ∨ n = n' ∧ rest < rest') :
    paddedDigits width n ++ mark :: rest < paddedDigits width n' ++ mark :: rest' := by
  refine paddedDigits_append_lt_of_lex hwidth hn' (h.imp_right ?_)
  rintro ⟨hsame, hlt⟩
  exact ⟨hsame, List.cons_lt_cons_self.mpr hlt⟩

end Text

namespace Instant

open Procurement.Text

/-! ## Dates in order -/

/-- A later year of an era starts no earlier. -/
theorem monotone_yearStart : Monotone yearStart := by
  refine monotone_nat_of_le_succ fun year => ?_
  unfold yearStart
  omega

/-- Whether one date stands before another: by year, then by month, then by day. -/
def DateBefore (a b : Int × Nat × Nat) : Prop :=
  a.1 < b.1 ∨ a.1 = b.1 ∧ (a.2.1 < b.2.1 ∨ a.2.1 = b.2.1 ∧ a.2.2 < b.2.2)

/-- The days of a year that starts in March are in the order of their dates. -/
theorem dateBefore_of_day_lt (year : Int) {day day' : Nat} (h : day < day') (hday' : day' < 366) :
    DateBefore (dateInYear year day) (dateInYear year day') := by
  have hmonth' := monthOfDay_lt hday'
  have hmonths : monthOfDay day ≤ monthOfDay day' := by
    unfold monthOfDay
    omega
  have hstart := monthStart_monthOfDay_le day
  unfold DateBefore dateInYear
  dsimp only
  by_cases hsame : monthOfDay day = monthOfDay day'
  · rw [hsame] at hstart ⊢
    omega
  · unfold monthNumber
    split_ifs <;> omega

/-- The days of a year that starts in March come before those of the next. -/
theorem dateBefore_of_year_lt {year year' : Int} (h : year < year') {day day' : Nat}
    (hday : day < 366) (hday' : day' < 366) :
    DateBefore (dateInYear year day) (dateInYear year' day') := by
  have hmonth := monthOfDay_lt hday
  have hmonth' := monthOfDay_lt hday'
  unfold DateBefore dateInYear monthNumber
  dsimp only
  split_ifs <;> omega

/-- Later days have later dates. -/
theorem dateBefore_of_lt {days days' : Int} (h : days < days') :
    DateBefore (dateOfDays days) (dateOfDays days') := by
  obtain ⟨era, year, day, hyear, hday, hdays, hdate⟩ := exists_dateOfDays_eq days
  obtain ⟨era', year', day', hyear', hday', hdays', hdate'⟩ := exists_dateOfDays_eq days'
  have hlength := yearStart_succ era hyear
  have hlength' := yearStart_succ era' hyear'
  have hend : yearStart (year + 1) ≤ yearStart 400 := monotone_yearStart hyear
  have hend' : yearStart (year' + 1) ≤ yearStart 400 := monotone_yearStart hyear'
  have hwhole : yearStart 400 = 146097 := rfl
  have hbound : day < 366 := by split at hlength <;> omega
  have hbound' : day' < 366 := by split at hlength' <;> omega
  rw [hdate, hdate']
  rcases Int.lt_trichotomy (year + era * 400) (year' + era' * 400) with hlt | heq | hgt
  · exact dateBefore_of_year_lt hlt hbound hbound'
  · have hera : era = era' := by omega
    have hsame : year = year' := by omega
    subst hera hsame
    exact dateBefore_of_day_lt _ (by omega) hbound'
  · -- An earlier year of the same era has ended, and so has an earlier era.
    have hearlier : era' < era ∨ era' = era ∧ year' + 1 ≤ year := by omega
    rcases hearlier with hera | ⟨rfl, hsucc⟩
    · omega
    · have hstart := monotone_yearStart hsucc
      omega

/-! ## Fractions in order -/

/-- A fraction that is not zero is written in digits that denote it when zeros follow them. -/
theorem exists_fractionText {nanos : Nat} (hpositive : 0 < nanos) (h : nanos < 1000000000) :
    ∃ ds, fractionText nanos = '.' :: ds ∧ (∀ c ∈ ds, c.isDigit = true) ∧ ds.length ≤ 9 ∧
      scaled 9 ds = nanos := by
  have hdigits {width n : Nat} (hwidth : 0 < width) (hmost : width ≤ 9) (hn : n < 10 ^ width)
      (hnanos : n * 10 ^ (9 - width) = nanos) :
      (∀ c ∈ paddedDigits width n, c.isDigit = true) ∧ (paddedDigits width n).length ≤ 9 ∧
        scaled 9 (paddedDigits width n) = nanos := by
    have hlength := length_paddedDigits hwidth hn
    refine ⟨fun _ => isDigit_of_mem_paddedDigits, hlength.trans_le hmost, ?_⟩
    rw [scaled, hlength, numberOfDigits_paddedDigits]
    exact hnanos
  unfold fractionText
  rw [if_neg (Nat.ne_of_gt hpositive)]
  split
  · exact ⟨_, rfl, hdigits (by decide) (by decide) (by omega) (by omega)⟩
  · split
    · exact ⟨_, rfl, hdigits (by decide) (by decide) (by omega) (by omega)⟩
    · exact ⟨_, rfl, hdigits (by decide) (by decide) (by omega) (by omega)⟩

/-- Fractions are in the order of their texts, if a plus sign follows them. -/
theorem fractionText_append_lt {nanos nanos' : Nat} (h : nanos < nanos')
    (hnanos' : nanos' < 1000000000) (rest rest' : List Char) :
    fractionText nanos ++ '+' :: rest < fractionText nanos' ++ rest' := by
  obtain ⟨ds', htext', hds', hlength', hvalue'⟩ :=
    exists_fractionText (Nat.zero_lt_of_lt h) hnanos'
  rw [htext', List.cons_append]
  rcases Nat.eq_zero_or_pos nanos with rfl | hpositive
  · exact List.cons_lt_cons_iff.mpr (Or.inl (by decide))
  · obtain ⟨ds, htext, hds, hlength, hvalue⟩ := exists_fractionText hpositive (by omega)
    rw [htext, List.cons_append, List.cons_lt_cons_self]
    exact append_lt_append_of_scaled_lt 9 hds hds' hlength hlength'
      (fun _ => ⟨'+', rest, rfl, by decide⟩) (by omega)

/-! ## Instants in order -/

/-- Whether one instant comes before another in time. A leap second belongs to the second before
it, behind the nanoseconds of that. -/
def Before (a b : Instant) : Prop :=
  a.seconds < b.seconds ∨ a.seconds = b.seconds ∧ a.nanos < b.nanos

/-- Whether an instant lies in the years 0000 to 9999. -/
def HasPlainYear (t : Instant) : Prop := 0 ≤ t.date.1 ∧ t.date.1 ≤ 9999

/-- Of two instants one is before the other, unless they are the same. -/
theorem Before.trichotomy (a b : Instant) : a.Before b ∨ a = b ∨ b.Before a := by
  by_cases hsame : a.seconds = b.seconds ∧ a.nanos = b.nanos
  · obtain ⟨hseconds, hnanos⟩ := hsame
    obtain ⟨seconds, nanos, hrepresentable⟩ := a
    subst hseconds hnanos
    exact Or.inr (Or.inl rfl)
  · unfold Before
    omega

/-- The numbers that follow the date in the text of an instant tell instants of one day apart. -/
theorem Before.date_or_time {a b : Instant} (h : a.Before b) :
    DateBefore a.date b.date ∨ a.date = b.date ∧
      (a.secondOfDay / 3600 < b.secondOfDay / 3600 ∨
        a.secondOfDay / 3600 = b.secondOfDay / 3600 ∧
      (a.secondOfDay / 60 % 60 < b.secondOfDay / 60 % 60 ∨
        a.secondOfDay / 60 % 60 = b.secondOfDay / 60 % 60 ∧
      (a.secondOfDay % 60 + a.nanos / 1000000000 < b.secondOfDay % 60 + b.nanos / 1000000000 ∨
        a.secondOfDay % 60 + a.nanos / 1000000000 = b.secondOfDay % 60 + b.nanos / 1000000000 ∧
      a.nanos % 1000000000 < b.nanos % 1000000000))) := by
  have hsplit (t : Instant) : t.seconds.fdiv 86400 * 86400 + t.secondOfDay = t.seconds ∧
      t.secondOfDay < 86400 := by
    have hsum := Int.mul_fdiv_add_fmod t.seconds 86400
    have hlow := Int.fmod_nonneg_of_pos t.seconds (b := 86400) (by omega)
    have hhigh := Int.fmod_lt_of_pos t.seconds (b := 86400) (by omega)
    unfold secondOfDay
    omega
  obtain ⟨hsum, hbound⟩ := hsplit a
  obtain ⟨hsum', hbound'⟩ := hsplit b
  obtain ⟨hnanos, hleap⟩ := a.nanos_lt
  obtain ⟨hnanos', hleap'⟩ := b.nanos_lt
  rcases Int.lt_trichotomy (a.seconds.fdiv 86400) (b.seconds.fdiv 86400) with hlt | heq | hgt
  · exact Or.inl (dateBefore_of_lt hlt)
  · refine Or.inr ⟨congrArg dateOfDays heq, ?_⟩
    unfold Before at h
    omega
  · unfold Before at h
    omega

/-- The text of an instant of a plain year, part by part. -/
theorem toList_storedText {t : Instant} (h : t.HasPlainYear) :
    t.storedText.toList =
      paddedDigits 4 t.date.1.natAbs ++ '-' :: (paddedDigits 2 t.date.2.1 ++ '-' ::
        (paddedDigits 2 t.date.2.2 ++ 'T' :: (paddedDigits 2 (t.secondOfDay / 3600) ++ ':' ::
          (paddedDigits 2 (t.secondOfDay / 60 % 60) ++ ':' ::
            (paddedDigits 2 (t.secondOfDay % 60 + t.nanos / 1000000000) ++
              (fractionText (t.nanos % 1000000000) ++ "+00:00".toList)))))) := by
  obtain ⟨hlow, hhigh⟩ := h
  have hyear : yearText t.date.1 = paddedDigits 4 t.date.1.natAbs := by
    unfold yearText
    rw [if_neg (by omega), if_pos hhigh]
  rw [storedText, String.toList_ofList, textWithZone, ← hyear]
  simp only [List.append_assoc, List.cons_append, List.nil_append]

/-- Of two instants of plain years the earlier one has the text that stands before. -/
theorem Before.storedText_lt {a b : Instant} (h : a.Before b) (ha : a.HasPlainYear)
    (hb : b.HasPlainYear) : a.storedText < b.storedText := by
  obtain ⟨hbound, _⟩ := b.seconds_eq
  obtain ⟨hnanos, _⟩ := b.nanos_lt
  obtain ⟨_, hmonth, _, hday⟩ := isDate_iff.mp b.isDate_date
  have hmonths := daysInMonth_le b.date.1 b.date.2.1
  rw [String.lt_iff, toList_storedText ha, toList_storedText hb]
  obtain ⟨hlow, hhigh⟩ := ha
  obtain ⟨hlow', hhigh'⟩ := hb
  -- If the dates differ the order is that of the dates, whatever the times of day are.
  refine paddedDigits_append_cons_lt_of_lex '-' (by decide) (by omega) ?_
  rcases h.date_or_time with hdate | ⟨hdate, htime⟩
  · rcases hdate with hyear | ⟨hyear, hdate⟩
    · exact Or.inl (by omega)
    · refine Or.inr ⟨congrArg Int.natAbs hyear, ?_⟩
      refine paddedDigits_append_cons_lt_of_lex '-' (by decide) (by omega) (hdate.imp_right ?_)
      rintro ⟨hsame, hlt⟩
      refine ⟨hsame, ?_⟩
      exact paddedDigits_append_cons_lt_of_lex 'T' (by decide) (by omega) (Or.inl hlt)
  · refine Or.inr ⟨by rw [hdate], ?_⟩
    refine paddedDigits_append_cons_lt_of_lex '-' (by decide) (by omega)
      (Or.inr ⟨by rw [hdate], ?_⟩)
    refine paddedDigits_append_cons_lt_of_lex 'T' (by decide) (by omega)
      (Or.inr ⟨by rw [hdate], ?_⟩)
    refine paddedDigits_append_cons_lt_of_lex ':' (by decide) (by omega)
      (htime.imp_right (And.imp_right fun hminute => ?_))
    refine paddedDigits_append_cons_lt_of_lex ':' (by decide) (by omega)
      (hminute.imp_right (And.imp_right fun hsecond => ?_))
    refine paddedDigits_append_lt_of_lex (by decide) (by omega)
      (hsecond.imp_right (And.imp_right fun hfraction => ?_))
    exact fractionText_append_lt hfraction (Nat.mod_lt _ (by decide)) _ _

/-- Different instants have different texts. -/
theorem storedText_injective : Function.Injective storedText := by
  intro a b h
  have hread := ofText?_storedText b
  rw [← h, ofText?_storedText] at hread
  exact Option.some.inj hread

/-- The texts of instants of plain years are in the order of the instants. -/
theorem storedText_lt_iff {a b : Instant} (ha : a.HasPlainYear) (hb : b.HasPlainYear) :
    a.storedText < b.storedText ↔ a.Before b := by
  constructor
  · intro h
    rcases Before.trichotomy a b with hbefore | rfl | hafter
    · exact hbefore
    · exact absurd h (String.lt_irrefl _)
    · exact absurd (hafter.storedText_lt hb ha) (String.lt_asymm h)
  · intro h
    exact h.storedText_lt ha hb

end Instant

end Procurement
