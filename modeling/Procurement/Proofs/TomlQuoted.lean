import Procurement.Toml.Quoted
import Mathlib.Data.List.Basic
import Mathlib.Tactic.SplitIfs

/-!
# Quoted text in settings files is read back

Each way of quoting has a reader, which meets what the writer has put there character by
character and hands on what follows the closing quotes. Between tripled quotes the reader
counts the quotes in front of it, so a text may have some, but not three in a row.
-/

namespace Procurement.Toml

/-! ## Text in one line -/

/-- A letter behind a backslash stands for a character. -/
theorem readQuoted?_escape {letter c : Char} (h : escapedChar? letter = some c)
    (rest : List Char) :
    readQuoted? ('\\' :: letter :: rest) = (readQuoted? rest).map (consRead c) := by
  rw [readQuoted?, h]
  · cases readQuoted? rest <;> rfl
  · rintro _ _ _ _ _ rfl
    cases h
  · rintro _ _ _ _ _ _ _ _ _ rfl
    cases h

/-- A character that needs no escape is read as it stands. -/
theorem readQuoted?_plain {c : Char} (hquote : c ≠ '"') (hslash : c ≠ '\\')
    (hprintable : isPrintable c = true) (rest : List Char) :
    readQuoted? (c :: rest) = (readQuoted? rest).map (consRead c) := by
  rw [readQuoted?, if_pos hprintable]
  · cases readQuoted? rest <;> rfl
  · exact hquote
  · intro _ _ _ _ _ h
    exact absurd h hslash
  · intro _ _ _ _ _ _ _ _ _ h
    exact absurd h hslash
  · intro _ _ h
    exact absurd h hslash

/-- Hexadecimal digits behind a backslash stand for a character. -/
theorem readQuoted?_unit {a b c d code : Char} (h : charOfHex? [a, b, c, d] = some code)
    (rest : List Char) :
    readQuoted? ('\\' :: 'u' :: a :: b :: c :: d :: rest) =
      (readQuoted? rest).map (consRead code) := by
  rw [readQuoted?, h]
  cases readQuoted? rest <;> rfl

/-- Just the control characters but tabs cannot be printed. -/
theorem toNat_of_not_isPrintable {c : Char} (h : ¬isPrintable c = true) :
    c.toNat < 32 ∨ c.toNat = 127 := by
  unfold isPrintable at h
  simp only [Bool.or_eq_true, decide_eq_true_eq, Bool.and_eq_true, not_or, not_and] at h
  omega

/-- The digits written for a character that cannot be printed denote it. -/
theorem charOfHex?_hexCapital {c : Char} (h : ¬isPrintable c = true) :
    charOfHex? ['0', '0', hexCapital (c.toNat / 16), hexCapital (c.toNat % 16)] = some c := by
  have hcontrol : ∀ n < 32, charOfHex? ['0', '0', hexCapital (n / 16), hexCapital (n % 16)] =
      some (Char.ofNat n) := by decide
  have hdelete : charOfHex? ['0', '0', hexCapital (127 / 16), hexCapital (127 % 16)] =
      some (Char.ofNat 127) := by decide
  conv_rhs => rw [← Char.ofNat_toNat c]
  obtain hlt | heq := toNat_of_not_isPrintable h
  · exact hcontrol c.toNat hlt
  · rw [heq]
    exact hdelete

/-- The letter written for a character stands for it. -/
theorem escapedChar?_of_escapeLetter? {c letter : Char} (h : escapeLetter? c = some letter) :
    escapedChar? letter = some c := by
  unfold escapeLetter? at h
  split at h <;> cases h <;> rfl

/-- A character without a letter is none of those that have one. -/
theorem ne_of_escapeLetter? {c d letter : Char} (h : escapeLetter? c = none)
    (hd : escapeLetter? d = some letter) : c ≠ d := by
  rintro rfl
  rw [h] at hd
  cases hd

/-- A character between double quotes is read from whatever was written for it. -/
theorem readQuoted?_writeQuotedChar (c : Char) (rest : List Char) :
    readQuoted? (writeQuotedChar false c rest) = (readQuoted? rest).map (consRead c) := by
  unfold writeQuotedChar
  rw [if_neg (by simp)]
  cases hletter : escapeLetter? c with
  | some letter => exact readQuoted?_escape (escapedChar?_of_escapeLetter? hletter) rest
  | none =>
    dsimp only
    split
    · rename_i hprintable
      exact readQuoted?_plain (ne_of_escapeLetter? hletter rfl) (ne_of_escapeLetter? hletter rfl)
        hprintable rest
    · rename_i hprintable
      rw [readQuoted?_unit (charOfHex?_hexCapital hprintable)]

/-- What is written of a string behind its opening quote is read up to the closing one. -/
theorem readQuoted?_foldr_writeQuotedChar (chars rest : List Char) :
    readQuoted? (chars.foldr (writeQuotedChar false) ('"' :: rest)) = some (chars, rest) := by
  induction chars with
  | nil => rfl
  | cons c chars ih =>
    rw [List.foldr_cons, readQuoted?_writeQuotedChar, ih]
    rfl

/-- A text that stands as it is in single quotes is read up to the closing one. -/
theorem readLiteral?_append {chars : List Char} (hprintable : ∀ c ∈ chars, isPrintable c = true)
    (hquote : '\'' ∉ chars) (rest : List Char) :
    readLiteral? (chars ++ '\'' :: rest) = some (chars, rest) := by
  induction chars with
  | nil => rfl
  | cons c chars ih =>
    have hc : c ≠ '\'' := fun heq => hquote (heq ▸ List.mem_cons_self)
    have hrest := ih (fun d hd => hprintable d (List.mem_cons_of_mem c hd))
      (fun hd => hquote (List.mem_cons_of_mem c hd))
    rw [List.cons_append, readLiteral?, if_pos (hprintable c List.mem_cons_self), hrest]
    · rfl
    · exact hc

/-! ## Text in several lines -/

section Lines

variable {quote : Char} {literal : Bool} {fuel : Nat}

/-- Tripled quotes end a text. -/
theorem readLines?_close {rest : List Char} (hrest : rest.head? ≠ some quote) :
    readLines? quote literal (fuel + 1) (quote :: quote :: quote :: rest) = some ([], rest) := by
  have hnone : rest.takeWhile (· = quote) = [] := by
    cases rest with
    | nil => rfl
    | cons c rest =>
      have hc : c ≠ quote := fun heq => hrest (congrArg some heq)
      simp [hc]
  unfold readLines?
  simp [hnone]

variable {c : Char} {rest : List Char}
  (hquotes : ((c :: rest).takeWhile (· = quote)).length < 3)

include hquotes

/-- A line may end between tripled quotes. -/
theorem readLines?_newline (hc : c = '\n') :
    readLines? quote literal (fuel + 1) (c :: rest) =
      (readLines? quote literal fuel rest).map (consRead c) := by
  subst hc
  rw [readLines?]
  dsimp only
  rw [if_neg (by omega)]
  cases readLines? quote literal fuel rest <;> rfl

/-- A character that needs no escape is read as it stands between tripled quotes. -/
theorem readLines?_plain (hslash : c ≠ '\\') (hprintable : isPrintable c = true) :
    readLines? quote literal (fuel + 1) (c :: rest) =
      (readLines? quote literal fuel rest).map (consRead c) := by
  have hline : c ≠ '\n' := by
    rintro rfl
    cases hprintable
  have hreturn : c ≠ '\r' := by
    rintro rfl
    cases hprintable
  conv_lhs => unfold readLines?
  dsimp only
  rw [if_neg (by omega)]
  split
  · rename_i heq
    cases heq
  · rename_i heq
    exact absurd (List.cons.inj heq).1 hline
  · rename_i heq
    exact absurd (List.cons.inj heq).1 hreturn
  · rename_i heq
    exact absurd (List.cons.inj heq).1 hslash
  · rename_i heq
    obtain ⟨rfl, rfl⟩ := List.cons.inj heq
    rw [if_pos hprintable]
    cases readLines? quote literal fuel rest <;> rfl

/-- A backslash is no escape between tripled single quotes. -/
theorem readLines?_backslash (hliteral : literal = true) (hc : c = '\\') :
    readLines? quote literal (fuel + 1) (c :: rest) =
      (readLines? quote literal fuel rest).map (consRead c) := by
  conv_lhs => unfold readLines?
  dsimp only
  rw [if_neg (by omega)]
  subst hliteral hc
  split
  · rename_i heq
    cases heq
  · rename_i heq
    exact absurd (List.cons.inj heq).1 (by decide)
  · rename_i heq
    exact absurd (List.cons.inj heq).1 (by decide)
  · rename_i heq
    rw [if_pos rfl, ← (List.cons.inj heq).2]
    cases readLines? quote true fuel rest <;> rfl
  · rename_i hslash heq
    exact (hslash (List.cons.inj heq).1.symm).elim

end Lines

/-- What stands behind a backslash stands for a character. -/
theorem readLines?_escape {letter c : Char} (h : escapedChar? letter = some c) (fuel : Nat)
    (rest : List Char) :
    readLines? '"' false (fuel + 1) ('\\' :: letter :: rest) =
      (readLines? '"' false fuel rest).map (consRead c) := by
  have hquotes : ¬3 ≤ (('\\' :: letter :: rest).takeWhile (· = '"')).length := by simp
  conv_lhs => unfold readLines?
  dsimp only
  rw [if_neg hquotes]
  split
  · rename_i heq
    cases heq
  · rename_i heq
    exact absurd (List.cons.inj heq).1 (by decide)
  · rename_i heq
    exact absurd (List.cons.inj heq).1 (by decide)
  · rename_i heq
    rw [if_neg (by simp), ← (List.cons.inj heq).2]
    split
    · rename_i hletter
      rw [(List.cons.inj hletter).1] at h
      cases h
    · rename_i hletter
      rw [(List.cons.inj hletter).1] at h
      cases h
    · rename_i hletter
      obtain ⟨rfl, rfl⟩ := List.cons.inj hletter
      rw [h]
      cases readLines? '"' false fuel rest <;> rfl
    · rename_i hletter
      cases hletter
  · rename_i hslash heq
    exact (hslash (List.cons.inj heq).1.symm).elim

/-- Hexadecimal digits stand for a character between tripled double quotes, too. -/
theorem readLines?_unit {a b c d code : Char} (h : charOfHex? [a, b, c, d] = some code)
    (fuel : Nat) (rest : List Char) :
    readLines? '"' false (fuel + 1) ('\\' :: 'u' :: a :: b :: c :: d :: rest) =
      (readLines? '"' false fuel rest).map (consRead code) := by
  have hquotes : ¬3 ≤ (('\\' :: 'u' :: a :: b :: c :: d :: rest).takeWhile (· = '"')).length := by
    simp
  conv_lhs => unfold readLines?
  dsimp only
  rw [if_neg hquotes]
  split
  · rename_i heq
    cases heq
  · rename_i heq
    exact absurd (List.cons.inj heq).1 (by decide)
  · rename_i heq
    exact absurd (List.cons.inj heq).1 (by decide)
  · rename_i heq
    rw [if_neg (by simp), ← (List.cons.inj heq).2]
    simp only [h]
    cases readLines? '"' false fuel rest <;> rfl
  · rename_i hslash heq
    exact (hslash (List.cons.inj heq).1.symm).elim

/-- In front of another character there are no quotes. -/
theorem length_takeWhile_of_ne {c quote : Char} (h : c ≠ quote) (rest : List Char) :
    ((c :: rest).takeWhile (· = quote)).length < 3 := by
  simp [h]

/-- A character between tripled double quotes is read from whatever was written for it. -/
theorem readLines?_writeQuotedChar (c : Char) (fuel : Nat) (rest : List Char) :
    readLines? '"' false (fuel + 1) (writeQuotedChar true c rest) =
      (readLines? '"' false fuel rest).map (consRead c) := by
  unfold writeQuotedChar
  by_cases hline : c = '\n'
  · rw [if_pos (by simp [hline])]
    exact readLines?_newline (length_takeWhile_of_ne (by simp [hline]) rest) hline
  rw [if_neg (by simp [hline])]
  cases hletter : escapeLetter? c with
  | some letter => exact readLines?_escape (escapedChar?_of_escapeLetter? hletter) fuel rest
  | none =>
    dsimp only
    split
    · rename_i hprintable
      exact readLines?_plain (length_takeWhile_of_ne (ne_of_escapeLetter? hletter rfl) rest)
        (ne_of_escapeLetter? hletter rfl) hprintable
    · rename_i hprintable
      rw [readLines?_unit (charOfHex?_hexCapital hprintable)]

/-- What is written of several lines behind tripled quotes is read up to the closing ones. -/
theorem readLines?_foldr_writeQuotedChar (chars : List Char) {rest : List Char}
    (hrest : rest.head? ≠ some '"') {fuel : Nat} (hfuel : chars.length < fuel) :
    readLines? '"' false fuel (chars.foldr (writeQuotedChar true) ('"' :: '"' :: '"' :: rest)) =
      some (chars, rest) := by
  induction chars generalizing fuel with
  | nil =>
    obtain ⟨fuel, rfl⟩ := Nat.exists_eq_add_one_of_ne_zero (Nat.ne_of_gt hfuel)
    exact readLines?_close hrest
  | cons c chars ih =>
    obtain ⟨fuel, rfl⟩ := Nat.exists_eq_add_one_of_ne_zero (Nat.ne_zero_of_lt hfuel)
    rw [List.foldr_cons, readLines?_writeQuotedChar, ih (Nat.lt_of_succ_lt_succ hfuel)]
    rfl

/-- At least one character is written for each. -/
theorem length_lt_writeQuotedChar (tripled : Bool) (c : Char) (rest : List Char) :
    rest.length < (writeQuotedChar tripled c rest).length := by
  unfold writeQuotedChar
  split
  · exact Nat.lt_succ_self _
  · split
    · simp only [List.length_cons]
      omega
    · split <;> simp only [List.length_cons] <;> omega

/-- At least as many characters are written as there are. -/
theorem length_le_foldr_writeQuotedChar (tripled : Bool) (chars rest : List Char) :
    chars.length ≤ (chars.foldr (writeQuotedChar tripled) rest).length := by
  induction chars with
  | nil => exact Nat.zero_le _
  | cons c chars ih =>
    exact Nat.lt_of_le_of_lt ih (length_lt_writeQuotedChar tripled c _)

/-- Without three single quotes in a row, and none at the end, fewer than three stand in front. -/
theorem length_takeWhile_of_not_hasTripleQuote {chars : List Char} (hne : chars ≠ [])
    (htriple : hasTripleQuote chars = false) (hlast : chars.getLast? ≠ some '\'')
    (rest : List Char) : ((chars ++ rest).takeWhile (· = '\'')).length < 3 := by
  match chars with
  | [c] =>
    have hc : c ≠ '\'' := fun heq => hlast (congrArg some heq)
    exact length_takeWhile_of_ne hc rest
  | [c, d] =>
    have hd : d ≠ '\'' := fun heq => hlast (congrArg some heq)
    by_cases hc : c = '\'' <;> simp [hc, hd]
  | c :: d :: e :: chars =>
    by_cases hc : c = '\''
    · by_cases hd : d = '\''
      · have he : e ≠ '\'' := by
          rintro rfl
          rw [hc, hd] at htriple
          cases htriple
        simp [hc, hd, he]
      · simp [hc, hd]
    · exact length_takeWhile_of_ne hc _

/-- Where there are no three quotes in a row there are none behind the first character. -/
theorem hasTripleQuote_of_cons {c : Char} {chars : List Char}
    (h : hasTripleQuote (c :: chars) = false) : hasTripleQuote chars = false := by
  unfold hasTripleQuote at h
  split at h
  · cases h
  · rename_i heq
    rw [(List.cons.inj heq).2]
    exact h
  · rename_i heq
    cases heq

/-- A text of several lines that stands as it is between tripled quotes is read. -/
theorem readLines?_append {chars rest : List Char}
    (hprintable : ∀ c ∈ chars, c = '\n' ∨ isPrintable c = true)
    (htriple : hasTripleQuote chars = false) (hlast : chars.getLast? ≠ some '\'')
    (hrest : rest.head? ≠ some '\'') {fuel : Nat} (hfuel : chars.length < fuel) :
    readLines? '\'' true fuel (chars ++ '\'' :: '\'' :: '\'' :: rest) = some (chars, rest) := by
  induction chars generalizing fuel with
  | nil =>
    obtain ⟨fuel, rfl⟩ := Nat.exists_eq_add_one_of_ne_zero (Nat.ne_of_gt hfuel)
    exact readLines?_close hrest
  | cons c chars ih =>
    obtain ⟨fuel, rfl⟩ := Nat.exists_eq_add_one_of_ne_zero (Nat.ne_zero_of_lt hfuel)
    have hquotes := length_takeWhile_of_not_hasTripleQuote (List.cons_ne_nil c chars) htriple hlast
      ('\'' :: '\'' :: '\'' :: rest)
    have hlast' : chars.getLast? ≠ some '\'' := by
      cases chars with
      | nil => simp
      | cons d chars => simpa using hlast
    have hread := ih (fun d hd => hprintable d (List.mem_cons_of_mem c hd))
      (hasTripleQuote_of_cons htriple) hlast' (Nat.lt_of_succ_lt_succ hfuel)
    have hstep : readLines? '\'' true (fuel + 1) (c :: (chars ++ '\'' :: '\'' :: '\'' :: rest)) =
        (readLines? '\'' true fuel (chars ++ '\'' :: '\'' :: '\'' :: rest)).map (consRead c) := by
      by_cases hslash : c = '\\'
      · exact readLines?_backslash hquotes rfl hslash
      · rcases hprintable c List.mem_cons_self with hline | hplain
        · exact readLines?_newline hquotes hline
        · exact readLines?_plain hquotes hslash hplain
    rw [List.cons_append, hstep, hread]
    rfl

/-! ## Quoted text -/

section Quotes

variable {chars rest tail : List Char}

/-- A double quote opens a text in one line, unless it is tripled. -/
theorem readText?_double (hquotes : ∀ tail, rest ≠ '"' :: '"' :: tail)
    (h : readQuoted? rest = some (chars, tail)) :
    readText? ('"' :: rest) = some (String.ofList chars, tail) := by
  unfold readText?
  dsimp only
  split
  · rename_i heq
    exact absurd (List.cons.inj heq).2 (hquotes _)
  · rename_i heq
    rw [← (List.cons.inj heq).2, h]
    rfl
  · rename_i heq
    cases (List.cons.inj heq).1
  · rename_i heq
    cases (List.cons.inj heq).1
  · rename_i hquote _ _
    exact absurd rfl (hquote _)

/-- A single quote opens a text in one line, unless it is tripled. -/
theorem readText?_single {c : Char} (hc : c ≠ '\'')
    (h : readLiteral? (c :: rest) = some (chars, tail)) :
    readText? ('\'' :: c :: rest) = some (String.ofList chars, tail) := by
  unfold readText?
  dsimp only
  split
  · rename_i heq
    cases (List.cons.inj heq).1
  · rename_i heq
    cases (List.cons.inj heq).1
  · rename_i heq
    exact absurd (List.cons.inj (List.cons.inj heq).2).1 hc
  · rename_i heq
    rw [← (List.cons.inj heq).2, h]
    rfl
  · rename_i hquote
    exact absurd rfl (hquote _)

/-- Tripled double quotes open a text of several lines. -/
theorem readText?_tripleDouble
    (h : readLines? '"' false (rest.length + 1) (skipLineBreak rest) = some (chars, tail)) :
    readText? ('"' :: '"' :: '"' :: rest) = some (String.ofList chars, tail) := by
  unfold readText?
  simp only [h, Option.map_some]

/-- Tripled single quotes open a text of several lines. -/
theorem readText?_tripleSingle
    (h : readLines? '\'' true (rest.length + 1) (skipLineBreak rest) = some (chars, tail)) :
    readText? ('\'' :: '\'' :: '\'' :: rest) = some (String.ofList chars, tail) := by
  unfold readText?
  simp only [h, Option.map_some]

end Quotes

/-- A character inside quotes is not written as a quote. -/
theorem head?_writeQuotedChar (tripled : Bool) (c : Char) (rest : List Char) :
    (writeQuotedChar tripled c rest).head? ≠ some '"' := by
  unfold writeQuotedChar
  split
  · rename_i hline
    have hc : c = '\n' := by simpa using (Bool.and_eq_true_iff.mp hline).2
    simp [hc]
  · split
    · simp
    · rename_i hletter
      have hc : c ≠ '"' := ne_of_escapeLetter? hletter rfl
      split <;> simp [hc]

/-- What a text that stands as it is in single quotes is made of. -/
theorem isLiteral_iff {chars : List Char} :
    isLiteral chars = true ↔
      (∃ c ∈ chars, c = '"' ∨ c = '\\') ∧ (∀ c ∈ chars, c = '\n' ∨ isPrintable c = true) ∧
        hasTripleQuote chars = false ∧ chars.getLast? ≠ some '\'' := by
  simp [isLiteral, and_assoc]

/-- Only a line break in front of a text is skipped. -/
theorem skipLineBreak_cons {c : Char} (hline : c ≠ '\n') (hreturn : c ≠ '\r') (rest : List Char) :
    skipLineBreak (c :: rest) = c :: rest := by
  unfold skipLineBreak
  split
  · rename_i heq
    exact absurd (List.cons.inj heq).1 hline
  · rename_i heq
    exact absurd (List.cons.inj heq).1 hreturn
  · rfl

section Written

variable {chars rest : List Char}

/-- A text between tripled single quotes is read, with a line break in front of it or not. -/
theorem readText?_literal_tripled (hliteral : isLiteral chars = true)
    (hrest : rest.head? ≠ some '\'') (start : List Char)
    (hstart : skipLineBreak (start ++ (chars ++ '\'' :: '\'' :: '\'' :: rest)) =
      chars ++ '\'' :: '\'' :: '\'' :: rest) :
    readText? ('\'' :: '\'' :: '\'' :: (start ++ (chars ++ '\'' :: '\'' :: '\'' :: rest))) =
      some (String.ofList chars, rest) := by
  obtain ⟨_, hprintable, htriple, hlast⟩ := isLiteral_iff.mp hliteral
  refine readText?_tripleSingle ?_
  rw [hstart]
  refine readLines?_append hprintable htriple hlast hrest ?_
  simp only [List.length_append, List.length_cons]
  omega

/-- A text of several lines is read from tripled single quotes. -/
theorem readText?_literal_lines (hliteral : isLiteral chars = true)
    (hrest : rest.head? ≠ some '\'') :
    readText? ('\'' :: '\'' :: '\'' :: '\n' :: (chars ++ '\'' :: '\'' :: '\'' :: rest)) =
      some (String.ofList chars, rest) :=
  readText?_literal_tripled hliteral hrest ['\n'] rfl

/-- A text that stands as it is in one line starts with a character that can be printed. -/
theorem exists_of_isLiteral (hliteral : isLiteral chars = true) (hline : '\n' ∉ chars) :
    ∃ c others, chars = c :: others ∧ isPrintable c = true := by
  obtain ⟨⟨special, hspecial, _⟩, hprintable, _⟩ := isLiteral_iff.mp hliteral
  obtain ⟨c, others, rfl⟩ := List.exists_cons_of_ne_nil (List.ne_nil_of_mem hspecial)
  refine ⟨c, others, rfl, (hprintable c List.mem_cons_self).resolve_left ?_⟩
  rintro rfl
  exact hline List.mem_cons_self

/-- A text in one line with quotes in it is read from tripled single quotes. -/
theorem readText?_literal_quotes (hliteral : isLiteral chars = true) (hline : '\n' ∉ chars)
    (hrest : rest.head? ≠ some '\'') :
    readText? ('\'' :: '\'' :: '\'' :: (chars ++ '\'' :: '\'' :: '\'' :: rest)) =
      some (String.ofList chars, rest) := by
  refine readText?_literal_tripled hliteral hrest [] ?_
  obtain ⟨c, others, rfl, hc⟩ := exists_of_isLiteral hliteral hline
  refine skipLineBreak_cons ?_ ?_ _
  · rintro rfl
    cases hc
  · rintro rfl
    cases hc

/-- A text in one line without quotes in it is read from single quotes. -/
theorem readText?_literal (hliteral : isLiteral chars = true) (hline : '\n' ∉ chars)
    (hquote : '\'' ∉ chars) :
    readText? ('\'' :: (chars ++ '\'' :: rest)) = some (String.ofList chars, rest) := by
  obtain ⟨_, hprintable, _⟩ := isLiteral_iff.mp hliteral
  have hplain : ∀ c ∈ chars, isPrintable c = true := fun c hc =>
    (hprintable c hc).resolve_left fun heq => hline (heq ▸ hc)
  have hread := readLiteral?_append hplain hquote rest
  obtain ⟨c, others, rfl, _⟩ := exists_of_isLiteral hliteral hline
  exact readText?_single (fun heq => hquote (heq ▸ List.mem_cons_self)) hread

/-- A text of several lines with escapes is read from tripled double quotes. -/
theorem readText?_quoted_lines (hrest : rest.head? ≠ some '"') :
    readText? ('"' :: '"' :: '"' :: '\n' ::
      chars.foldr (writeQuotedChar true) ('"' :: '"' :: '"' :: rest)) =
      some (String.ofList chars, rest) := by
  refine readText?_tripleDouble (readLines?_foldr_writeQuotedChar chars hrest ?_)
  have hlength := length_le_foldr_writeQuotedChar true chars ('"' :: '"' :: '"' :: rest)
  rw [List.length_cons]
  omega

/-- A text in one line with escapes is read from double quotes. -/
theorem readText?_quoted (hrest : rest.head? ≠ some '"') :
    readText? ('"' :: chars.foldr (writeQuotedChar false) ('"' :: rest)) =
      some (String.ofList chars, rest) := by
  refine readText?_double ?_ (readQuoted?_foldr_writeQuotedChar chars rest)
  intro tail heq
  cases chars with
  | nil => exact hrest (congrArg List.head? (List.cons.inj heq).2)
  | cons c chars => exact head?_writeQuotedChar false c _ (congrArg List.head? heq)

end Written

/-- A written text is read back, if no quote follows it. -/
theorem readText?_writeText (text : String) {rest : List Char} (hdouble : rest.head? ≠ some '"')
    (hsingle : rest.head? ≠ some '\'') : readText? (writeText text rest) = some (text, rest) := by
  have htext : String.ofList text.toList = text := String.ofList_toList
  unfold writeText
  dsimp only
  split_ifs with hliteral hline hquote hline
  · rw [readText?_literal_lines hliteral hsingle, htext]
  · rw [readText?_literal_quotes hliteral (by simpa using hline) hsingle, htext]
  · rw [readText?_literal hliteral (by simpa using hline) (by simpa using hquote), htext]
  · rw [readText?_quoted_lines hdouble, htext]
  · rw [readText?_quoted hdouble, htext]

example : writeText "it's \"so\"" [] = "'''it's \"so\"'''".toList := by decide

/-- What is written of a character does not depend on what follows it. -/
theorem writeQuotedChar_append (tripled : Bool) (c : Char) (text rest : List Char) :
    writeQuotedChar tripled c text ++ rest = writeQuotedChar tripled c (text ++ rest) := by
  unfold writeQuotedChar
  split
  · rfl
  · split
    · rfl
    · split <;> rfl

/-- What is written of characters does not depend on what follows them. -/
theorem foldr_writeQuotedChar_append (tripled : Bool) (chars text rest : List Char) :
    chars.foldr (writeQuotedChar tripled) text ++ rest =
      chars.foldr (writeQuotedChar tripled) (text ++ rest) := by
  induction chars with
  | nil => rfl
  | cons c chars ih => rw [List.foldr_cons, writeQuotedChar_append, ih, List.foldr_cons]

/-- What is written of a text does not depend on what follows it. -/
theorem writeText_append (text : String) (behind rest : List Char) :
    writeText text behind ++ rest = writeText text (behind ++ rest) := by
  unfold writeText
  dsimp only
  split_ifs <;> simp [foldr_writeQuotedChar_append]

/-- A written text starts with a quote. -/
theorem exists_quote_writeText (text : String) (rest : List Char) :
    ∃ quote tail, writeText text rest = quote :: tail ∧ (quote = '"' ∨ quote = '\'') := by
  unfold writeText
  dsimp only
  split_ifs
  · exact ⟨_, _, rfl, .inr rfl⟩
  · exact ⟨_, _, rfl, .inr rfl⟩
  · exact ⟨_, _, rfl, .inr rfl⟩
  · exact ⟨_, _, rfl, .inl rfl⟩
  · exact ⟨_, _, rfl, .inl rfl⟩

end Procurement.Toml
