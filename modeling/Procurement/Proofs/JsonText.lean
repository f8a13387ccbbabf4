import Procurement.Json.Reader
import Procurement.Json.Writer
import Procurement.Proofs.Decimal

/-!
# JSON text is read back

What is written of a value is read as that value, whatever follows it, as long as the numbers in it
are of the size that the reader takes as they are. Characters, numbers and values each have a
reader; it meets what its writer has put there and hands on the rest.
-/

namespace Procurement.Json

open Procurement.Text

/-! ## Strings -/

/-- A letter behind a backslash stands for a character. -/
theorem readChars_escape {letter c : Char} (h : simpleEscape? letter = some c) (rest : List Char) :
    readChars ('\\' :: letter :: rest) = (readChars rest).map (consChar (some c)) := by
  have hletter : letter ≠ 'u' := by
    rintro rfl
    cases h
  rw [readChars, h]
  · cases readChars rest <;> rfl
  · rintro _ _ _ _ _ _ _ _ _ rfl
    exact absurd rfl hletter
  · rintro _ _ _ _ _ rfl
    exact absurd rfl hletter

/-- An escape whose digits are not hexadecimal is refused. -/
theorem readChars_of_codeUnit?_eq_none {a b c d : Char} (h : codeUnit? a b c d = none)
    (rest : List Char) : readChars ('\\' :: 'u' :: a :: b :: c :: d :: rest) = none := by
  by_cases hnext : ∃ e f g h tail, rest = '\\' :: 'u' :: e :: f :: g :: h :: tail
  · obtain ⟨e, f, g, h', tail, rfl⟩ := hnext
    rw [readChars, h]
    rfl
  · rw [readChars, h]
    · rfl
    · exact fun e f g h' tail hrest => hnext ⟨e, f, g, h', tail, hrest⟩

/-- An escape that names no half of a surrogate pair stands for the character with its number,
whether or not another escape follows. -/
theorem readChars_unit {a b c d : Char} {unit : Nat} (h : codeUnit? a b c d = some unit)
    (hhigh : isHighSurrogate unit = false) (hlow : isLowSurrogate unit = false)
    (rest : List Char) :
    readChars ('\\' :: 'u' :: a :: b :: c :: d :: rest) =
      (readChars rest).map (consChar (some (Char.ofNat unit))) := by
  by_cases hnext : ∃ e f g h tail, rest = '\\' :: 'u' :: e :: f :: g :: h :: tail
  · obtain ⟨e, f, g, h', tail, rfl⟩ := hnext
    rw [readChars, h]
    cases hunit : codeUnit? e f g h' with
    | none =>
      rw [readChars_of_codeUnit?_eq_none hunit]
      rfl
    | some next =>
      simp only [Option.bind_eq_bind, Option.bind_some, hhigh, hlow]
      cases readChars ('\\' :: 'u' :: e :: f :: g :: h' :: tail) <;> rfl
  · rw [readChars, h]
    · simp only [Option.bind_eq_bind, Option.bind_some, hhigh, hlow]
      cases readChars rest <;> rfl
    · exact fun e f g h' tail hrest => hnext ⟨e, f, g, h', tail, hrest⟩

/-- A character that needs no escape is read as it stands. -/
theorem readChars_plain {c : Char} (hquote : c ≠ '"') (hslash : c ≠ '\\')
    (hcontrol : ¬ c.toNat < 32) (rest : List Char) :
    readChars (c :: rest) = (readChars rest).map (consChar (some c)) := by
  rw [readChars, if_neg hcontrol]
  · cases readChars rest <;> rfl
  · exact hquote
  · intro _ _ _ _ _ _ _ _ _ h
    exact absurd h hslash
  · intro _ _ _ _ _ h
    exact absurd h hslash
  · intro _ _ h
    exact absurd h hslash

/-- The letter that is written for a character stands for it. -/
theorem simpleEscape?_of_escapeLetter? {c letter : Char} (h : escapeLetter? c = some letter) :
    simpleEscape? letter = some c := by
  unfold escapeLetter? at h
  split at h <;> cases h <;> rfl

/-- The digits that are written for a control character denote it. -/
theorem codeUnit?_hexDigit : ∀ n < 32,
    codeUnit? '0' '0' (hexDigit (n / 16)) (hexDigit (n % 16)) = some n := by
  decide

/-- A character is read from whatever was written for it. -/
theorem readChars_writeChar (c : Char) (rest : List Char) :
    readChars (writeChar c rest) = (readChars rest).map (consChar (some c)) := by
  unfold writeChar
  cases hletter : escapeLetter? c with
  | some letter => exact readChars_escape (simpleEscape?_of_escapeLetter? hletter) rest
  | none =>
    dsimp only
    split
    · rename_i hcontrol
      have hhigh : isHighSurrogate c.toNat = false := by
        simp only [isHighSurrogate, Bool.and_eq_false_iff, decide_eq_false_iff_not]
        omega
      have hlow : isLowSurrogate c.toNat = false := by
        simp only [isLowSurrogate, Bool.and_eq_false_iff, decide_eq_false_iff_not]
        omega
      rw [readChars_unit (codeUnit?_hexDigit _ hcontrol) hhigh hlow, Char.ofNat_toNat]
    · rename_i hplain
      refine readChars_plain ?_ ?_ hplain rest
      · rintro rfl
        cases hletter
      · rintro rfl
        cases hletter

/-- What is written of a string behind its opening quote is read up to the closing one. -/
theorem readChars_foldr_writeChar (chars rest : List Char) :
    readChars (chars.foldr writeChar ('"' :: rest)) = some (some chars, rest) := by
  induction chars with
  | nil => rfl
  | cons c chars ih =>
    rw [List.foldr_cons, readChars_writeChar, ih]
    rfl

/-! ## Numbers -/

/-- Whether no number goes on with a text. -/
def endsNumber (text : List Char) : Bool :=
  !text.head?.any fun c => c.isDigit || c = '.' || c = 'e' || c = 'E'

/-- Digits end where a number ends. -/
theorem endsDigits_of_endsNumber {text : List Char} (h : endsNumber text = true) :
    endsDigits text = true := by
  cases text with
  | nil => rfl
  | cons c rest => simp_all [endsNumber, endsDigits]

/-- A number that ends does not go on with a fraction. -/
theorem head?_ne_of_endsNumber {text : List Char} (h : endsNumber text = true) :
    text.head? ≠ some '.' := by
  cases text with
  | nil => simp
  | cons c rest => simp_all [endsNumber]

/-- The digits of a number are read up to its end. -/
theorem readDigits?_digits (n : Nat) {rest : List Char} (h : endsDigits rest = true) :
    readDigits? (digits n ++ rest) = some (digits n, rest) := by
  obtain ⟨c, ds, hds, _⟩ := exists_digits n
  have hfits : (digits n).length ≤ (digits n ++ rest).length := by
    rw [List.length_append]
    exact Nat.le_add_right _ _
  unfold readDigits?
  rw [takeDigits_append (fun _ => isDigit_of_mem_digits) hfits h, hds]

/-- A number that ends has no exponent. -/
theorem readExponent?_of_endsNumber {text : List Char} (h : endsNumber text = true) :
    readExponent? text = some (none, text) := by
  cases text with
  | nil => rfl
  | cons c rest =>
    have hletter : (c = 'e' || c = 'E') = false := by
      simp_all [endsNumber]
    unfold readExponent?
    dsimp only
    rw [hletter]
    rfl

/-- A minus sign makes an exponent negative. -/
theorem readExponent?_minus (rest : List Char) :
    readExponent? ('e' :: '-' :: rest) =
      (readDigits? rest).map fun read =>
        (some (-1 * (numberOfDigits 10 read.1 : Int)), read.2) := by
  cases h : readDigits? rest <;> simp [readExponent?, h]

/-- An exponent may do without a sign. -/
theorem readExponent?_unsigned {c : Char} (hc : c.isDigit = true) (rest : List Char) :
    readExponent? ('e' :: c :: rest) =
      (readDigits? (c :: rest)).map fun read =>
        (some (1 * (numberOfDigits 10 read.1 : Int)), read.2) := by
  have hminus : c ≠ '-' := ne_of_isDigit hc rfl
  have hplus : c ≠ '+' := ne_of_isDigit hc rfl
  unfold readExponent?
  cases h : readDigits? (c :: rest) <;> simp [h, hminus, hplus]

/-- An exponent is read back from its digits and sign. -/
theorem readExponent?_signedDigits (n : Int) {rest : List Char} (h : endsDigits rest = true) :
    readExponent? ('e' :: (signedDigits n ++ rest)) = some (some n, rest) := by
  have hread := readDigits?_digits n.natAbs h
  unfold signedDigits
  split
  · rw [List.cons_append, readExponent?_minus, hread, Option.map_some, numberOfDigits_digits]
    congr
    omega
  · obtain ⟨c, ds, hds, hc⟩ := exists_digits n.natAbs
    rw [hds, List.cons_append, readExponent?_unsigned hc, ← List.cons_append, ← hds,
      hread, Option.map_some, numberOfDigits_digits]
    congr
    omega

/-- Further digits do not make a number smaller. -/
theorem le_foldl_digits (ds : List Char) (n : Nat) :
    n ≤ ds.foldl (fun n c => n * 10 + digitValue c) n := by
  induction ds generalizing n with
  | nil => exact Nat.le_refl n
  | cons c ds ih => exact Nat.le_trans (by omega) (ih (n * 10 + digitValue c))

/-- Digits of a number below the bound are all taken into the coefficient. -/
theorem gather_eq {n : Nat} {ds : List Char}
    (h : ds.foldl (fun n c => n * 10 + digitValue c) n < coefficientBound) :
    gather n ds = (ds.foldl (fun n c => n * 10 + digitValue c) n, []) := by
  induction ds generalizing n with
  | nil => rfl
  | cons c ds ih =>
    rw [gather, if_pos (Nat.lt_of_le_of_lt (le_foldl_digits ds _) h)]
    exact ih h

/-- The digits of a number below the bound are taken into the coefficient. -/
theorem gather_digits {n : Nat} (h : n < coefficientBound) : gather 0 (digits n) = (n, []) := by
  have hn : (digits n).foldl (fun n c => n * 10 + digitValue c) 0 = n := numberOfDigits_digits n
  rw [gather_eq (hn.symm ▸ h), hn]

/-- A number that starts with a digit has no sign. -/
theorem readNumber?_digits (n : Nat) (rest : List Char) :
    readNumber? (digits n ++ rest) = readUnsigned? false (digits n ++ rest) := by
  obtain ⟨c, ds, hds, hc⟩ := exists_digits n
  rw [hds, List.cons_append]
  unfold readNumber?
  split
  · rename_i heq
    cases heq
    cases hc
  · rfl

/-- Digits are read up to what no number goes on with, or an exponent. -/
theorem readUnsigned?_digits (negative : Bool) (n : Nat) {rest after : List Char}
    {exponent : Option Int} (hdigits : endsDigits rest = true) (hdot : rest.head? ≠ some '.')
    (hexponent : readExponent? rest = some (exponent, after)) :
    readUnsigned? negative (digits n ++ rest) =
      some (numberOf negative (digits n) [] exponent, after) := by
  have hzeros : ((digits n).head? = some '0' && 1 < (digits n).length) = false := by
    rw [Bool.and_eq_false_iff, decide_eq_false_iff_not, decide_eq_false_iff_not]
    refine (Classical.em _).symm.imp_right fun hhead => ?_
    rw [eq_zero_of_head?_digits hhead]
    decide
  have hfraction : readFraction? rest = some ([], rest) := by
    unfold readFraction?
    split
    · exact absurd rfl hdot
    · rfl
  simp only [readUnsigned?, readDigits?_digits n hdigits, hfraction, hexponent,
    Option.bind_eq_bind, Option.bind_some, hzeros]
  rfl

/-- Digits without a sign make a natural number. -/
theorem numberOf_natural {n : Nat} (h : n < coefficientBound) :
    numberOf false (digits n) [] none = integer n := by
  unfold numberOf
  rw [gather_digits h]
  rfl

/-- Digits behind a sign make a negative number. -/
theorem numberOf_negative {n : Nat} (hpos : 0 < n) (h : n ≤ 9223372036854775808) :
    numberOf true (digits n) [] none = integer (-n) := by
  unfold numberOf
  rw [gather_digits (Nat.lt_of_le_of_lt h (by decide))]
  simp [hpos, h]

/-- A coefficient with an exponent makes a real number. -/
theorem numberOf_exponent (negative : Bool) {coefficient : Nat} (h : coefficient < coefficientBound)
    (exponent : Int) :
    numberOf negative (digits coefficient) [] (some exponent) =
      real negative coefficient exponent := by
  unfold numberOf
  rw [gather_digits h]
  simp [gather]

/-- Whole numbers in the range of 64 bits, with or without sign, are read back. -/
theorem readNumber?_signedDigits {n : Int} (hlow : -9223372036854775808 ≤ n)
    (hhigh : n < 18446744073709551616) {rest : List Char} (h : endsNumber rest = true) :
    readNumber? (signedDigits n ++ rest) = some (integer n, rest) := by
  have hread (negative : Bool) := readUnsigned?_digits negative n.natAbs
    (endsDigits_of_endsNumber h) (head?_ne_of_endsNumber h) (readExponent?_of_endsNumber h)
  unfold signedDigits
  split
  · have habs : -(n.natAbs : Int) = n := by omega
    rw [List.cons_append, readNumber?, hread, numberOf_negative (by omega) (by omega), habs]
  · have habs : (n.natAbs : Int) = n := by omega
    have hbound : n.natAbs < coefficientBound := by
      unfold coefficientBound
      omega
    rw [readNumber?_digits, hread, numberOf_natural hbound, habs]

/-- A real number is read back from its coefficient and exponent. -/
theorem readNumber?_writeReal (negative : Bool) {coefficient : Nat}
    (hbound : coefficient < coefficientBound) (exponent : Int) {rest : List Char}
    (h : endsNumber rest = true) :
    readNumber? (writeReal negative coefficient exponent rest) =
      some (real negative coefficient exponent, rest) := by
  have hread : readUnsigned? negative
      (digits coefficient ++ 'e' :: (signedDigits exponent ++ rest)) =
      some (real negative coefficient exponent, rest) := by
    rw [readUnsigned?_digits negative coefficient rfl (by simp)
      (readExponent?_signedDigits exponent (endsDigits_of_endsNumber h)),
      numberOf_exponent negative hbound]
  unfold writeReal
  rw [List.append_assoc, List.cons_append]
  cases negative with
  | true => exact hread
  | false => exact (readNumber?_digits _ _).trans hread

/-! ## Values -/

mutual

/-- Whether all numbers of a value are of the size that the reader takes as they are. -/
def isExact : Json → Bool
  | integer value => -9223372036854775808 ≤ value && value < 18446744073709551616
  | real _ coefficient _ => coefficient < coefficientBound
  | array items => itemsAreExact items
  | object members => membersAreExact members
  | _ => true

/-- Whether all items of an array are exact. -/
def itemsAreExact : List Json → Bool
  | [] => true
  | item :: items => item.isExact && itemsAreExact items

/-- Whether all members of an object are exact. -/
def membersAreExact : List (String × Json) → Bool
  | [] => true
  | (_, value) :: members => value.isExact && membersAreExact members

end

section Writer

-- Each of these holds by evaluation, while the equations of the whole recursion are slow to make.
variable (rest : List Char)

/-- A whole number is written in its digits. -/
theorem writeBefore_integer (value : Int) :
    writeBefore (integer value) rest = signedDigits value ++ rest := rfl

/-- A real number is written with an exponent. -/
theorem writeBefore_real (negative : Bool) (coefficient : Nat) (exponent : Int) :
    writeBefore (real negative coefficient exponent) rest =
      writeReal negative coefficient exponent rest := rfl

/-- A string is written between quotes. -/
theorem writeBefore_string (text : String) :
    writeBefore (string text) rest = '"' :: text.toList.foldr writeChar ('"' :: rest) := rfl

/-- An array is written between brackets. -/
theorem writeBefore_array (items : List Json) :
    writeBefore (array items) rest = '[' :: writeItems items (']' :: rest) := rfl

/-- An object is written between braces. -/
theorem writeBefore_object (members : List (String × Json)) :
    writeBefore (object members) rest = '\x7b' :: writeMembers members ('\x7d' :: rest) := rfl

end Writer

/-- Whether a character stands at the front of a value: it is no blank and closes no array. -/
def opensValue (c : Char) : Bool := !isSpace c && c ≠ ']'

/-- Whether a character stands at the front of a number, and of no other value. -/
def opensNumber (c : Char) : Bool := c.isDigit || c = '-'

/-- What stands at the front of a number stands at the front of a value. -/
theorem opensValue_of_opensNumber {c : Char} (h : opensNumber c = true) : opensValue c = true := by
  simp only [opensNumber, Bool.or_eq_true, decide_eq_true_eq] at h
  rcases h with hdigit | rfl
  · simp [opensValue, isSpace, ne_of_isDigit hdigit]
  · rfl

/-- A text that starts with a certain character, with no less than the given rest behind it. -/
def Opens (first : Char → Bool) (rest text : List Char) : Prop :=
  ∃ c tail, text = c :: tail ∧ first c = true ∧ rest.length ≤ tail.length

/-- A text starts with its first character. -/
theorem opens_cons {first : Char → Bool} {c : Char} (hc : first c = true) {rest tail : List Char}
    (h : rest.length ≤ tail.length) : Opens first rest (c :: tail) :=
  ⟨c, tail, rfl, hc, h⟩

/-- What starts with a character of one kind starts with one of a wider kind. -/
theorem Opens.mono {first first' : Char → Bool}
    (hfirst : ∀ {c}, first c = true → first' c = true) {rest text : List Char}
    (h : Opens first rest text) : Opens first' rest text := by
  obtain ⟨c, tail, htext, hc, htail⟩ := h
  exact ⟨c, tail, htext, hfirst hc, htail⟩

/-- A text that starts with a character is longer than what is behind it. -/
theorem Opens.length_lt {first : Char → Bool} {rest text : List Char}
    (h : Opens first rest text) : rest.length < text.length := by
  obtain ⟨c, tail, rfl, _, htail⟩ := h
  exact Nat.lt_succ_of_le htail

/-- There is no blank in front of a value. -/
theorem Opens.skipSpace {rest text : List Char} (h : Opens opensValue rest text) :
    skipSpace text = text := by
  obtain ⟨c, tail, rfl, hc, _⟩ := h
  have hblank : isSpace c = false := by simp_all [opensValue]
  exact List.dropWhile_cons_of_neg (by simp [hblank])

/-- Digits start as a number does. -/
theorem opens_digits (n : Nat) {rest tail : List Char} (h : rest.length ≤ tail.length) :
    Opens opensNumber rest (digits n ++ tail) := by
  obtain ⟨c, ds, hds, hc⟩ := exists_digits n
  rw [hds, List.cons_append]
  refine opens_cons (by simp [opensNumber, hc]) ?_
  rw [List.length_append]
  exact Nat.le_trans h (Nat.le_add_left _ _)

/-- Digits with a sign start as a number does. -/
theorem opens_signedDigits (n : Int) (rest : List Char) :
    Opens opensNumber rest (signedDigits n ++ rest) := by
  unfold signedDigits
  split
  · exact opens_cons rfl (opens_digits _ (Nat.le_refl _)).length_lt.le
  · exact opens_digits _ (Nat.le_refl _)

/-- A real number starts as a number does. -/
theorem opens_writeReal (negative : Bool) (coefficient : Nat) (exponent : Int)
    (rest : List Char) : Opens opensNumber rest (writeReal negative coefficient exponent rest) := by
  have hexponent : rest.length ≤ ('e' :: signedDigits exponent ++ rest).length := by
    rw [List.length_append]
    exact Nat.le_add_left _ _
  unfold writeReal
  rw [List.append_assoc]
  cases negative with
  | true => exact opens_cons rfl (opens_digits _ hexponent).length_lt.le
  | false => exact opens_digits _ hexponent

/-- Writing a character makes no text shorter. -/
theorem length_le_writeChar (c : Char) (rest : List Char) :
    rest.length ≤ (writeChar c rest).length := by
  unfold writeChar
  split
  · exact Nat.le_add_right _ 2
  · split
    · exact Nat.le_add_right _ 6
    · exact Nat.le_succ _

/-- Writing characters makes no text shorter. -/
theorem length_le_foldr_writeChar (chars rest : List Char) :
    rest.length ≤ (chars.foldr writeChar rest).length := by
  induction chars with
  | nil => exact Nat.le_refl _
  | cons c chars ih => exact Nat.le_trans ih (length_le_writeChar c _)

/-- A string starts as a value does. -/
theorem opens_writeString (text : String) (rest : List Char) :
    Opens opensValue rest (writeString text rest) :=
  opens_cons rfl ((Nat.le_succ _).trans (length_le_foldr_writeChar _ ('"' :: rest)))

mutual

/-- Whatever is written of a value starts as a value does. -/
theorem opens_writeBefore : ∀ (value : Json) (rest : List Char),
    Opens opensValue rest (writeBefore value rest)
  | null, _ => opens_cons (c := 'n') rfl (Nat.le_add_right _ 3)
  | bool true, _ => opens_cons (c := 't') rfl (Nat.le_add_right _ 3)
  | bool false, _ => opens_cons (c := 'f') rfl (Nat.le_add_right _ 4)
  | integer value, rest => (opens_signedDigits value rest).mono opensValue_of_opensNumber
  | real negative coefficient exponent, rest =>
    (opens_writeReal negative coefficient exponent rest).mono opensValue_of_opensNumber
  | string text, rest => opens_writeString text rest
  | array items, rest =>
    opens_cons (c := '[') rfl ((Nat.le_succ _).trans (length_le_writeItems items (']' :: rest)))
  | object members, rest =>
    opens_cons (c := '\x7b') rfl
      ((Nat.le_succ _).trans (length_le_writeMembers members ('\x7d' :: rest)))
  | unpaired, _ => opens_cons (c := '"') rfl (Nat.le_add_right _ 7)

/-- Writing items makes no text shorter. -/
theorem length_le_writeItems : ∀ (items : List Json) (rest : List Char),
    rest.length ≤ (writeItems items rest).length
  | [], _ => Nat.le_refl _
  | [item], rest => (opens_writeBefore item rest).length_lt.le
  | item :: next :: items, rest =>
    have hitems := length_le_writeItems (next :: items) rest
    have hitem := (opens_writeBefore item (',' :: writeItems (next :: items) rest)).length_lt
    hitems.trans ((Nat.le_succ _).trans hitem.le)

/-- Writing members makes no text shorter. -/
theorem length_le_writeMembers : ∀ (members : List (String × Json)) (rest : List Char),
    rest.length ≤ (writeMembers members rest).length
  | [], _ => Nat.le_refl _
  | [(key, value)], rest =>
    have hvalue := (opens_writeBefore value rest).length_lt.le
    have hkey := (opens_writeString key (':' :: writeBefore value rest)).length_lt.le
    hvalue.trans ((Nat.le_succ _).trans hkey)
  | (key, value) :: next :: members, rest =>
    have hmembers := length_le_writeMembers (next :: members) rest
    let tail := writeMembers (next :: members) rest
    have hvalue := (opens_writeBefore value (',' :: tail)).length_lt.le
    have hkey := (opens_writeString key (':' :: writeBefore value (',' :: tail))).length_lt.le
    hmembers.trans ((Nat.le_succ _).trans (hvalue.trans ((Nat.le_succ _).trans hkey)))

end

section Reader

variable (fuel : Nat)

/-- A quote opens a string. -/
theorem readValue?_quote (text : List Char) :
    readValue? (fuel + 1) ('"' :: text) =
      (readChars text).bind fun read =>
        match read.1 with
        | some chars => some (string (String.ofList chars), read.2)
        | none => some (unpaired, read.2) :=
  rfl

/-- A bracket with a value behind it opens an array. -/
theorem readValue?_bracket {rest text : List Char} (h : Opens opensValue rest text) :
    readValue? (fuel + 1) ('[' :: text) =
      (readItems? fuel text).map fun read => (array read.1, read.2) := by
  have hskip : skipSpace ('[' :: text) = '[' :: text := rfl
  rw [readValue?, hskip]
  split
  case h_5 heq =>
    cases heq
    rw [h.skipSpace, Option.map_eq_bind]
    obtain ⟨c, tail, rfl, hc, _⟩ := h
    split
    · rename_i heq
      cases heq
      cases hc
    · rfl
  all_goals simp_all

/-- A brace with a quote behind it opens an object. -/
theorem readValue?_brace (text : List Char) :
    readValue? (fuel + 1) ('\x7b' :: '"' :: text) =
      (readMembers? fuel ('"' :: text)).map fun read => (objectOf read.1, read.2) := by
  rw [Option.map_eq_bind]
  rfl

/-- What starts as a number does is read as one. -/
theorem readValue?_number {rest text : List Char} (h : Opens opensNumber rest text) :
    readValue? (fuel + 1) text = readNumber? text := by
  rw [readValue?, (h.mono opensValue_of_opensNumber).skipSpace]
  obtain ⟨c, tail, rfl, hc, _⟩ := h
  split
  case h_7 => rfl
  all_goals
    rename_i heq
    cases heq
    cases hc

variable {fuel}

/-- A bracket closes the items behind the last one. -/
theorem readItems?_last {text rest : List Char} {item : Json}
    (h : readValue? fuel text = some (item, ']' :: rest)) :
    readItems? (fuel + 1) text = some ([item], rest) := by
  rw [readItems?, h]
  rfl

/-- A comma goes on to the next item. -/
theorem readItems?_more {text rest : List Char} {item : Json}
    (h : readValue? fuel text = some (item, ',' :: rest)) :
    readItems? (fuel + 1) text =
      (readItems? fuel rest).map fun read => (item :: read.1, read.2) := by
  rw [readItems?, h, Option.map_eq_bind]
  rfl

/-- A key is read in front of its value; what follows the value decides how to go on. -/
theorem readMembers?_writeString (key : String) (text : List Char) :
    readMembers? (fuel + 1) (writeString key (':' :: text)) =
      (readValue? fuel text).bind fun read =>
        match skipSpace read.2 with
        | '\x7d' :: rest => some ([(some key, read.1)], rest)
        | ',' :: rest =>
          (readMembers? fuel rest).bind fun after => some ((some key, read.1) :: after.1, after.2)
        | _ => none := by
  have hkey := readChars_foldr_writeChar key.toList (':' :: text)
  rw [readMembers?, (opens_writeString key (':' :: text)).skipSpace]
  unfold writeString
  simp only [hkey, Option.bind_eq_bind, Option.bind_some, Option.map_some, String.ofList_toList]
  rfl

/-- A brace closes the members behind the last one. -/
theorem readMembers?_last {key : String} {text rest : List Char} {value : Json}
    (h : readValue? fuel text = some (value, '\x7d' :: rest)) :
    readMembers? (fuel + 1) (writeString key (':' :: text)) =
      some ([(some key, value)], rest) := by
  rw [readMembers?_writeString, h]
  rfl

/-- A comma goes on to the next member. -/
theorem readMembers?_more {key : String} {text rest : List Char} {value : Json}
    (h : readValue? fuel text = some (value, ',' :: rest)) :
    readMembers? (fuel + 1) (writeString key (':' :: text)) =
      (readMembers? fuel rest).map fun read => ((some key, value) :: read.1, read.2) := by
  rw [readMembers?_writeString, h, Option.map_eq_bind]
  rfl

end Reader

/-- A value that is read back from its text, whatever follows it. Each level of nesting takes at
least one character, so as much fuel as there are characters is enough. -/
def ReadsBack (value : Json) : Prop :=
  ∀ (fuel : Nat) (rest : List Char), endsNumber rest = true →
    (writeBefore value rest).length ≤ fuel + rest.length →
    readValue? fuel (writeBefore value rest) = some (value, rest)

/-- There is fuel for at least one step. -/
theorem readsBack_of_succ {value : Json}
    (h : ∀ (fuel : Nat) (rest : List Char), endsNumber rest = true →
      (writeBefore value rest).length ≤ fuel + 1 + rest.length →
      readValue? (fuel + 1) (writeBefore value rest) = some (value, rest)) : value.ReadsBack := by
  intro fuel rest hrest hfuel
  have hlt := (opens_writeBefore value rest).length_lt
  cases fuel with
  | zero => omega
  | succ fuel => exact h fuel rest hrest hfuel

/-- The word for nothing is read back. -/
theorem readsBack_null : ReadsBack null := readsBack_of_succ fun _ _ _ _ => rfl

/-- The words for truth values are read back. -/
theorem readsBack_bool (value : Bool) : ReadsBack (bool value) := by
  cases value with
  | true => exact readsBack_of_succ fun _ _ _ _ => rfl
  | false => exact readsBack_of_succ fun _ _ _ _ => rfl

/-- A string with half a surrogate pair is read back. -/
theorem readsBack_unpaired : ReadsBack unpaired := readsBack_of_succ fun _ _ _ _ => rfl

/-- A string is read back. -/
theorem readsBack_string (text : String) : ReadsBack (string text) := by
  refine readsBack_of_succ fun fuel rest _ _ => ?_
  rw [writeBefore_string, readValue?_quote, readChars_foldr_writeChar]
  simp

/-- A whole number in the range of 64 bits is read back. -/
theorem readsBack_integer {value : Int} (hlow : -9223372036854775808 ≤ value)
    (hhigh : value < 18446744073709551616) : ReadsBack (integer value) := by
  refine readsBack_of_succ fun fuel rest hrest _ => ?_
  rw [writeBefore_integer, readValue?_number fuel (opens_signedDigits value rest)]
  exact readNumber?_signedDigits hlow hhigh hrest

/-- A real number is read back if its coefficient is below the bound. -/
theorem readsBack_real (negative : Bool) {coefficient : Nat} (h : coefficient < coefficientBound)
    (exponent : Int) : ReadsBack (real negative coefficient exponent) := by
  refine readsBack_of_succ fun fuel rest hrest _ => ?_
  rw [writeBefore_real, readValue?_number fuel (opens_writeReal negative coefficient exponent rest)]
  exact readNumber?_writeReal negative h exponent hrest

/-- Items are read back if each of them is. -/
theorem readItems?_writeItems {items : List Json} (hitems : items ≠ [])
    (h : ∀ item ∈ items, ReadsBack item) (fuel : Nat) (rest : List Char)
    (hfuel : (writeItems items (']' :: rest)).length ≤ fuel + rest.length) :
    readItems? fuel (writeItems items (']' :: rest)) = some (items, rest) := by
  induction items generalizing fuel with
  | nil => exact absurd rfl hitems
  | cons item items ih =>
    have hlength := length_le_writeItems (item :: items) (']' :: rest)
    rw [List.length_cons] at hlength
    obtain ⟨fuel, rfl⟩ : ∃ n, fuel = n + 1 := ⟨fuel - 1, by omega⟩
    obtain ⟨hitem, htail⟩ := List.forall_mem_cons.mp h
    cases items with
    | nil =>
      refine readItems?_last (hitem fuel (']' :: rest) rfl ?_)
      rw [writeItems] at hfuel
      rw [List.length_cons]
      omega
    | cons next items =>
      have hmore := length_le_writeItems (next :: items) (']' :: rest)
      have hrest := ih (List.cons_ne_nil next items) htail fuel
      rw [writeItems] at hfuel ⊢
      generalize writeItems (next :: items) (']' :: rest) = after at hmore hrest hfuel ⊢
      have hlt := (opens_writeBefore item (',' :: after)).length_lt
      rw [List.length_cons] at hmore hlt
      have hread := hitem fuel (',' :: after) rfl (by rw [List.length_cons]; omega)
      rw [readItems?_more hread, hrest (by omega)]
      rfl

/-- Members are read back if the value of each of them is. -/
theorem readMembers?_writeMembers {members : List (String × Json)} (hmembers : members ≠ [])
    (h : ∀ member ∈ members, ReadsBack member.2) (fuel : Nat) (rest : List Char)
    (hfuel : (writeMembers members ('\x7d' :: rest)).length ≤ fuel + rest.length) :
    readMembers? fuel (writeMembers members ('\x7d' :: rest)) =
      some (members.map fun member => (some member.1, member.2), rest) := by
  induction members generalizing fuel with
  | nil => exact absurd rfl hmembers
  | cons member members ih =>
    obtain ⟨key, value⟩ := member
    have hlength := length_le_writeMembers ((key, value) :: members) ('\x7d' :: rest)
    rw [List.length_cons] at hlength
    obtain ⟨fuel, rfl⟩ : ∃ n, fuel = n + 1 := ⟨fuel - 1, by omega⟩
    have hvalue : value.ReadsBack := h _ List.mem_cons_self
    have htail := (List.forall_mem_cons.mp h).2
    cases members with
    | nil =>
      have hkey := (opens_writeString key
        (':' :: writeBefore value ('\x7d' :: rest))).length_lt
      rw [writeMembers] at hfuel
      rw [List.length_cons] at hkey
      refine readMembers?_last (hvalue fuel ('\x7d' :: rest) rfl ?_)
      rw [List.length_cons]
      omega
    | cons next members =>
      have hmore := length_le_writeMembers (next :: members) ('\x7d' :: rest)
      have hrest := ih (List.cons_ne_nil next members) htail fuel
      rw [writeMembers] at hfuel ⊢
      generalize writeMembers (next :: members) ('\x7d' :: rest) = after at hmore hrest hfuel ⊢
      have hkey := (opens_writeString key (':' :: writeBefore value (',' :: after))).length_lt
      have hlt := (opens_writeBefore value (',' :: after)).length_lt
      rw [List.length_cons] at hmore hkey hlt
      have hread := hvalue fuel (',' :: after) rfl (by rw [List.length_cons]; omega)
      rw [readMembers?_more hread, hrest (by omega)]
      rfl

/-- Items start as the first of them does. -/
theorem exists_opens_writeItems (item : Json) (items : List Json) (rest : List Char) :
    ∃ after, Opens opensValue after (writeItems (item :: items) rest) := by
  cases items with
  | nil => exact ⟨_, opens_writeBefore item rest⟩
  | cons next items => exact ⟨_, opens_writeBefore item _⟩

/-- Members start with the quote of the first key. -/
theorem exists_writeMembers (member : String × Json) (members : List (String × Json))
    (rest : List Char) : ∃ text, writeMembers (member :: members) rest = '"' :: text := by
  cases members with
  | nil => exact ⟨_, rfl⟩
  | cons next members => exact ⟨_, rfl⟩

/-- An array is read back if all its items are. -/
theorem readsBack_array {items : List Json} (h : ∀ item ∈ items, ReadsBack item) :
    ReadsBack (array items) := by
  refine readsBack_of_succ fun fuel rest _ hfuel => ?_
  rw [writeBefore_array] at hfuel ⊢
  cases items with
  | nil => rfl
  | cons item items =>
    rw [List.length_cons] at hfuel
    obtain ⟨after, hopens⟩ := exists_opens_writeItems item items (']' :: rest)
    have hread := readItems?_writeItems (List.cons_ne_nil item items) h fuel rest (by omega)
    rw [readValue?_bracket fuel hopens, hread]
    rfl

/-- Members that have keys make an object as they are. -/
theorem objectOf_map (members : List (String × Json)) :
    objectOf (members.map fun member => (some member.1, member.2)) = object members := by
  have hmembers (f : Option String × Json → Option (String × Json))
      (hf : ∀ member : String × Json, f (some member.1, member.2) = some member) :
      (members.map fun member => (some member.1, member.2)).mapM f = some members := by
    induction members with
    | nil => rfl
    | cons member members ih =>
      rw [List.map_cons, List.mapM_cons, hf, ih]
      rfl
  unfold objectOf
  rw [hmembers _ fun _ => rfl]

/-- An object is read back if the values of all its members are. -/
theorem readsBack_object {members : List (String × Json)}
    (h : ∀ member ∈ members, ReadsBack member.2) : ReadsBack (object members) := by
  refine readsBack_of_succ fun fuel rest _ hfuel => ?_
  rw [writeBefore_object] at hfuel ⊢
  cases members with
  | nil => rfl
  | cons member members =>
    rw [List.length_cons] at hfuel
    have hread := readMembers?_writeMembers (List.cons_ne_nil member members) h fuel rest
      (by omega)
    obtain ⟨text, htext⟩ := exists_writeMembers member members ('\x7d' :: rest)
    rw [htext] at hread ⊢
    rw [readValue?_brace, hread, Option.map_some, objectOf_map]

mutual

/-- A value with exact numbers is read back from its text, whatever follows it. -/
theorem readsBack : ∀ {value : Json}, value.isExact = true → value.ReadsBack
  | null, _ => readsBack_null
  | bool value, _ => readsBack_bool value
  | integer value, h => by
    simp only [isExact, Bool.and_eq_true, decide_eq_true_eq] at h
    exact readsBack_integer h.1 h.2
  | real negative coefficient exponent, h =>
    readsBack_real negative (of_decide_eq_true h) exponent
  | string text, _ => readsBack_string text
  | array _, h => readsBack_array (forall_items_readsBack h)
  | object _, h => readsBack_object (forall_members_readsBack h)
  | unpaired, _ => readsBack_unpaired

/-- Each item of exact items is read back. -/
theorem forall_items_readsBack : ∀ {items : List Json}, itemsAreExact items = true →
    ∀ item ∈ items, item.ReadsBack
  | [], _ => List.forall_mem_nil _
  | item :: items, h => by
    obtain ⟨hitem, hitems⟩ := Bool.and_eq_true_iff.mp h
    exact List.forall_mem_cons.mpr ⟨readsBack hitem, forall_items_readsBack hitems⟩

/-- The value of each exact member is read back. -/
theorem forall_members_readsBack : ∀ {members : List (String × Json)},
    membersAreExact members = true → ∀ member ∈ members, member.2.ReadsBack
  | [], _ => List.forall_mem_nil _
  | (_, value) :: members, h => by
    obtain ⟨hvalue, hmembers⟩ := Bool.and_eq_true_iff.mp h
    exact List.forall_mem_cons.mpr ⟨readsBack hvalue, forall_members_readsBack hmembers⟩

end

/-- The reader gives back what was written. -/
theorem read?_write {value : Json} (h : value.isExact = true) : read? value.write = some value := by
  have hread : readValue? (2 * (writeBefore value []).length + 2) (writeBefore value []) =
      some (value, []) :=
    readsBack h _ [] rfl (by omega)
  unfold read? write
  rw [String.toList_ofList]
  dsimp only
  rw [hread]
  rfl

end Procurement.Json
