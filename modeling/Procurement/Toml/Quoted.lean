import Procurement.Text.Decimal

/-!
# Quoted text in settings files

Text stands in double quotes, with escapes, or in single quotes, as it is.
Either kind of quote may be tripled; then the text may have several lines, and a
line break right behind the opening quotes does not count.
-/

namespace Procurement.Toml

open Procurement.Text

/-- Whether a character may stand in a quoted text or a comment as it is. -/
def isPrintable (c : Char) : Bool := c = '\t' || (32 ≤ c.toNat && c.toNat ≠ 127)

/-- The character with the code point that hexadecimal digits denote. -/
def charOfHex? (ds : List Char) : Option Char :=
  let code := numberOfDigits 16 ds
  if ds.all isHexDigit && code.isValidChar then some (Char.ofNat code) else none

/-- The character that a one-letter escape stands for. -/
def escapedChar? : Char → Option Char
  | 'b' => some '\x08'
  | 't' => some '\t'
  | 'n' => some '\n'
  | 'f' => some '\x0c'
  | 'r' => some '\r'
  | '"' => some '"'
  | '\\' => some '\\'
  | _ => none

/-- Puts a character in front of what was read behind it. -/
def consRead (c : Char) (read : List Char × List Char) : List Char × List Char :=
  (c :: read.1, read.2)

/-- Reads text in double quotes from behind the opening quote. -/
def readQuoted? : List Char → Option (List Char × List Char)
  | [] => none
  | '"' :: rest => some ([], rest)
  | '\\' :: 'u' :: a :: b :: c :: d :: rest => do
    let code ← charOfHex? [a, b, c, d]
    pure (consRead code (← readQuoted? rest))
  | '\\' :: 'U' :: a :: b :: c :: d :: e :: f :: g :: h :: rest => do
    let code ← charOfHex? [a, b, c, d, e, f, g, h]
    pure (consRead code (← readQuoted? rest))
  | '\\' :: c :: rest => do
    let escaped ← escapedChar? c
    pure (consRead escaped (← readQuoted? rest))
  | c :: rest => do
    if isPrintable c then pure (consRead c (← readQuoted? rest)) else none

/-- Reads text in single quotes from behind the opening quote. -/
def readLiteral? : List Char → Option (List Char × List Char)
  | [] => none
  | '\'' :: rest => some ([], rest)
  | c :: rest => do
    if isPrintable c then pure (consRead c (← readLiteral? rest)) else none

/-- A text without the line break at its front, if there is one. -/
def skipLineBreak : List Char → List Char
  | '\n' :: rest => rest
  | '\r' :: '\n' :: rest => rest
  | rest => rest

/-- What follows a backslash at the end of a line: the text from the next character on
that is neither space nor line break. -/
def continueLine? (text : List Char) : Option (List Char) :=
  match text.dropWhile fun c => c = ' ' || c = '\t' with
  | '\n' :: rest => some (rest.dropWhile fun c => c = ' ' || c = '\t' || c = '\n' || c = '\r')
  | '\r' :: '\n' :: rest =>
    some (rest.dropWhile fun c => c = ' ' || c = '\t' || c = '\n' || c = '\r')
  | _ => none

/-- Reads text of several lines, up to three quotes in a row; one or two more quotes in
front of these belong to the text. Escapes count unless the text is literal. -/
def readLines? (quote : Char) (literal : Bool) : Nat → List Char → Option (List Char × List Char)
  | 0, _ => none
  | fuel + 1, text =>
    let quotes := (text.takeWhile (· = quote)).length
    if 3 ≤ quotes then
      let extra := min (quotes - 3) 2
      some (List.replicate extra quote, text.drop (extra + 3))
    else
      match text with
      | [] => none
      | '\n' :: rest => do pure (consRead '\n' (← readLines? quote literal fuel rest))
      | '\r' :: '\n' :: rest => do pure (consRead '\n' (← readLines? quote literal fuel rest))
      | '\\' :: rest =>
        if literal then do pure (consRead '\\' (← readLines? quote literal fuel rest))
        else
          match rest with
          | 'u' :: a :: b :: c :: d :: rest => do
            let code ← charOfHex? [a, b, c, d]
            pure (consRead code (← readLines? quote literal fuel rest))
          | 'U' :: a :: b :: c :: d :: e :: f :: g :: h :: rest => do
            let code ← charOfHex? [a, b, c, d, e, f, g, h]
            pure (consRead code (← readLines? quote literal fuel rest))
          | c :: rest =>
            match escapedChar? c with
            | some escaped => do
              pure (consRead escaped (← readLines? quote literal fuel rest))
            | none => do readLines? quote literal fuel (← continueLine? (c :: rest))
          | [] => none
      | c :: rest => do
        if isPrintable c then pure (consRead c (← readLines? quote literal fuel rest)) else none

/-- Reads a quoted text of any kind from its opening quotes on. -/
def readText? (text : List Char) : Option (String × List Char) :=
  let read := match text with
    | '"' :: '"' :: '"' :: rest => readLines? '"' false (rest.length + 1) (skipLineBreak rest)
    | '"' :: rest => readQuoted? rest
    | '\'' :: '\'' :: '\'' :: rest =>
      readLines? '\'' true (rest.length + 1) (skipLineBreak rest)
    | '\'' :: rest => readLiteral? rest
    | _ => none
  read.map fun (chars, rest) => (String.ofList chars, rest)

/-- A hexadecimal digit. -/
def hexCapital (n : Nat) : Char := "0123456789ABCDEF".toList.getD n '0'

/-- The letter that stands for a character behind a backslash. -/
def escapeLetter? : Char → Option Char
  | '\x08' => some 'b'
  | '\t' => some 't'
  | '\n' => some 'n'
  | '\x0c' => some 'f'
  | '\r' => some 'r'
  | '"' => some '"'
  | '\\' => some '\\'
  | _ => none

/-- A character inside double quotes, written in front of the given text. Between tripled
quotes a line break stands as it is. -/
def writeQuotedChar (tripled : Bool) (c : Char) (rest : List Char) : List Char :=
  if tripled && c = '\n' then c :: rest
  else
    match escapeLetter? c with
    | some letter => '\\' :: letter :: rest
    | none =>
      if isPrintable c then c :: rest
      else
        '\\' :: 'u' :: '0' :: '0' :: hexCapital (c.toNat / 16) :: hexCapital (c.toNat % 16) :: rest

/-- Whether single quotes stand in a row of three. -/
def hasTripleQuote : List Char → Bool
  | '\'' :: '\'' :: '\'' :: _ => true
  | _ :: rest => hasTripleQuote rest
  | [] => false

/-- Whether a text is written in single quotes: in double quotes it needs backslashes, and all
that is in it can stand in single quotes. -/
def isLiteral (chars : List Char) : Bool :=
  chars.any (fun c => c = '"' || c = '\\') && chars.all (fun c => c = '\n' || isPrintable c) &&
    !hasTripleQuote chars && chars.getLast? != some '\''

/-- A quoted text, written in front of the given text. The quotes are tripled around several
lines, and around single quotes in a text that is written as it is. -/
def writeText (text : String) (rest : List Char) : List Char :=
  let chars := text.toList
  if isLiteral chars then
    if chars.contains '\n' then
      '\'' :: '\'' :: '\'' :: '\n' :: (chars ++ '\'' :: '\'' :: '\'' :: rest)
    else if chars.contains '\'' then
      '\'' :: '\'' :: '\'' :: (chars ++ '\'' :: '\'' :: '\'' :: rest)
    else '\'' :: (chars ++ '\'' :: rest)
  else if chars.contains '\n' then
    '"' :: '"' :: '"' :: '\n' :: chars.foldr (writeQuotedChar true) ('"' :: '"' :: '"' :: rest)
  else '"' :: chars.foldr (writeQuotedChar false) ('"' :: rest)

end Procurement.Toml
