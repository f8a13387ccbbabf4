import Procurement.Json.Basic
import Procurement.Text.Decimal

/-!
# Reading JSON

The reader takes exactly the texts that the grammar of JSON allows, with blanks
around the value and nothing after it. Blanks are space, tab, line feed and
carriage return.
-/

namespace Procurement.Json

open Procurement.Text

/-- Whether a character is a blank between the parts of a JSON text. -/
def isSpace (c : Char) : Bool := c = ' ' || c = '\t' || c = '\n' || c = '\r'

/-- A text without the blanks at its front. -/
def skipSpace (text : List Char) : List Char := text.dropWhile isSpace

/-- The number that four hexadecimal digits denote. -/
def codeUnit? (a b c d : Char) : Option Nat :=
  if [a, b, c, d].all isHexDigit then some (numberOfDigits 16 [a, b, c, d]) else none

/-- The character that a one-letter escape stands for. -/
def simpleEscape? : Char → Option Char
  | '"' => some '"'
  | '\\' => some '\\'
  | '/' => some '/'
  | 'b' => some '\x08'
  | 'f' => some '\x0c'
  | 'n' => some '\n'
  | 'r' => some '\r'
  | 't' => some '\t'
  | _ => none

/-- Puts a character, or the lack of one, in front of what was read after it. -/
def consChar (c : Option Char) (read : Option (List Char) × List Char) :
    Option (List Char) × List Char :=
  ((do pure ((← c) :: (← read.1))), read.2)

/-- Whether a code unit is the first half of a surrogate pair. -/
def isHighSurrogate (unit : Nat) : Bool := 0xD800 ≤ unit && unit < 0xDC00

/-- Whether a code unit is the second half of a surrogate pair. -/
def isLowSurrogate (unit : Nat) : Bool := 0xDC00 ≤ unit && unit < 0xE000

/-- The character that a surrogate pair stands for. -/
def pairedChar (high low : Nat) : Char :=
  Char.ofNat (0x10000 + (high - 0xD800) * 0x400 + (low - 0xDC00))

/-- Reads a string from behind its opening quote. The characters are missing if an
escape names half a surrogate pair. -/
def readChars : List Char → Option (Option (List Char) × List Char)
  | [] => none
  | '"' :: rest => some (some [], rest)
  | '\\' :: 'u' :: a :: b :: c :: d :: '\\' :: 'u' :: e :: f :: g :: h :: rest => do
    let unit ← codeUnit? a b c d
    let next ← codeUnit? e f g h
    if isHighSurrogate unit && isLowSurrogate next then
      pure (consChar (some (pairedChar unit next)) (← readChars rest))
    else
      let follow ← readChars ('\\' :: 'u' :: e :: f :: g :: h :: rest)
      if isHighSurrogate unit || isLowSurrogate unit then pure (none, follow.2)
      else pure (consChar (some (Char.ofNat unit)) follow)
  | '\\' :: 'u' :: a :: b :: c :: d :: rest => do
    let unit ← codeUnit? a b c d
    let follow ← readChars rest
    if isHighSurrogate unit || isLowSurrogate unit then pure (none, follow.2)
    else pure (consChar (some (Char.ofNat unit)) follow)
  | '\\' :: c :: rest => do
    let escaped ← simpleEscape? c
    pure (consChar (some escaped) (← readChars rest))
  | c :: rest => do
    if c.toNat < 32 then none
    else pure (consChar (some c) (← readChars rest))

/-- Splits off the digits at the front of a text, of which there must be one. -/
def readDigits? (text : List Char) : Option (List Char × List Char) :=
  match takeDigits text.length text with
  | ([], _) => none
  | found => some found

/-- Reads a fraction, if there is one. -/
def readFraction? : List Char → Option (List Char × List Char)
  | '.' :: rest => readDigits? rest
  | rest => some ([], rest)

/-- Reads an exponent, if there is one. -/
def readExponent? : List Char → Option (Option Int × List Char)
  | c :: rest =>
    if c = 'e' || c = 'E' then do
      let (sign, rest) := match rest with
        | '-' :: rest => ((-1 : Int), rest)
        | '+' :: rest => (1, rest)
        | rest => (1, rest)
      let (ds, rest) ← readDigits? rest
      pure (some (sign * numberOfDigits 10 ds), rest)
    else some (none, c :: rest)
  | [] => some (none, [])

/-- What the coefficient of a number stays below. -/
def coefficientBound : Nat := 18446744073709551616

/-- Takes digits into a coefficient up to the first with which it would reach the bound,
and gives back the digits from that one on. -/
def gather : Nat → List Char → Nat × List Char
  | n, [] => (n, [])
  | n, c :: ds =>
    if n * 10 + digitValue c < coefficientBound then gather (n * 10 + digitValue c) ds
    else (n, c :: ds)

/-- The number with the given digits. Digits for which the coefficient has no room count
as places in front of the point and not at all behind it. -/
def numberOf (negative : Bool) (whole fraction : List Char) (exponent : Option Int) : Json :=
  let (coefficient, left) := gather 0 whole
  let isWhole := fraction.isEmpty && left.isEmpty && exponent.isNone
  if isWhole && !negative then integer coefficient
  else if isWhole && 0 < coefficient && coefficient ≤ 9223372036854775808 then
    integer (-coefficient)
  else
    let (coefficient, dropped) := gather coefficient fraction
    real negative coefficient
      (exponent.getD 0 + left.length - (fraction.length - dropped.length : Nat))

/-- Reads a number behind its sign. -/
def readUnsigned? (negative : Bool) (text : List Char) : Option (Json × List Char) := do
  let (whole, rest) ← readDigits? text
  if whole.head? = some '0' && 1 < whole.length then none
  let (fraction, rest) ← readFraction? rest
  let (exponent, rest) ← readExponent? rest
  pure (numberOf negative whole fraction exponent, rest)

/-- Reads a number. -/
def readNumber? : List Char → Option (Json × List Char)
  | '-' :: rest => readUnsigned? true rest
  | rest => readUnsigned? false rest

/-- An object with the given members, unless a key of it is no text. -/
def objectOf (members : List (Option String × Json)) : Json :=
  match members.mapM fun (key, value) => key.map fun key => (key, value) with
  | some members => object members
  | none => unpaired

mutual

/-- Reads a value, nested no deeper than the fuel allows. -/
def readValue? : Nat → List Char → Option (Json × List Char)
  | 0, _ => none
  | fuel + 1, text =>
    match skipSpace text with
    | 'n' :: 'u' :: 'l' :: 'l' :: rest => some (null, rest)
    | 't' :: 'r' :: 'u' :: 'e' :: rest => some (bool true, rest)
    | 'f' :: 'a' :: 'l' :: 's' :: 'e' :: rest => some (bool false, rest)
    | '"' :: rest => do
      let (chars, rest) ← readChars rest
      match chars with
      | some chars => pure (string (String.ofList chars), rest)
      | none => pure (unpaired, rest)
    | '[' :: rest =>
      match skipSpace rest with
      | ']' :: rest => some (array [], rest)
      | rest => do
        let (items, rest) ← readItems? fuel rest
        pure (array items, rest)
    | '{' :: rest =>
      match skipSpace rest with
      | '}' :: rest => some (object [], rest)
      | rest => do
        let (members, rest) ← readMembers? fuel rest
        pure (objectOf members, rest)
    | rest => readNumber? rest

/-- Reads the items of an array and the bracket behind them. -/
def readItems? : Nat → List Char → Option (List Json × List Char)
  | 0, _ => none
  | fuel + 1, text => do
    let (item, rest) ← readValue? fuel text
    match skipSpace rest with
    | ']' :: rest => pure ([item], rest)
    | ',' :: rest =>
      let (items, rest) ← readItems? fuel rest
      pure (item :: items, rest)
    | _ => none

/-- Reads the members of an object and the brace behind them. -/
def readMembers? : Nat → List Char → Option (List (Option String × Json) × List Char)
  | 0, _ => none
  | fuel + 1, text => do
    match skipSpace text with
    | '"' :: rest =>
      let (key, rest) ← readChars rest
      let key := key.map String.ofList
      match skipSpace rest with
      | ':' :: rest =>
        let (value, rest) ← readValue? fuel rest
        match skipSpace rest with
        | '}' :: rest => pure ([(key, value)], rest)
        | ',' :: rest =>
          let (members, rest) ← readMembers? fuel rest
          pure ((key, value) :: members, rest)
        | _ => none
      | _ => none
    | _ => none

end

/-- The value that a whole text denotes. Each level of nesting takes at least one
character, so twice the length of the text is fuel enough. -/
def read? (text : String) : Option Json :=
  let chars := text.toList
  match readValue? (2 * chars.length + 2) chars with
  | some (value, rest) => if skipSpace rest = [] then some value else none
  | none => none

end Procurement.Json
