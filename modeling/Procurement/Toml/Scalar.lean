import Procurement.Text.Decimal
import Procurement.Toml.Basic

/-!
# Booleans and numbers in settings files

A boolean or number is one unbroken word. Digits may be grouped by underscores,
each between two digits. Whole numbers have 64 bits and may be given in base 2,
8, 10 or 16; in base 10 they have no leading zeros. A number too great for a
float is refused unless it is negative.
-/

namespace Procurement.Toml

open Procurement.Text

/-- Whether a character can be part of a boolean or number. -/
def isWordChar (c : Char) : Bool :=
  c.isAlphanum || c = '_' || c = '+' || c = '-' || c = '.' || c = ':'

/-- The digits of a group without the underscores between them, if all is well placed. -/
def ungroup? (isDigit : Char → Bool) : List Char → Option (List Char)
  | [] => none
  | [c] => if isDigit c then some [c] else none
  | c :: '_' :: rest => if isDigit c then (ungroup? isDigit rest).map (c :: ·) else none
  | c :: rest => if isDigit c then (ungroup? isDigit rest).map (c :: ·) else none

/-- The digits of a whole number in base 10, which has no leading zeros. -/
def wholeDigits? (word : List Char) : Option (List Char) :=
  (ungroup? Char.isDigit word).filter fun ds => ds.length = 1 || ds.head? ≠ some '0'

/-- Splits a sign off the front of a word, telling whether it was a minus. -/
def splitSign : List Char → Bool × List Char
  | '-' :: rest => (true, rest)
  | '+' :: rest => (false, rest)
  | rest => (false, rest)

/-- A whole number of 64 bits. -/
def integerIn64? (n : Int) : Option Toml :=
  if -9223372036854775808 ≤ n ∧ n ≤ 9223372036854775807 then some (integer n) else none

/-- Reads digits in a base with the given digit characters. -/
def readBased? (base : Nat) (isDigit : Char → Bool) (word : List Char) : Option Toml := do
  integerIn64? (numberOfDigits base (← ungroup? isDigit word))

/-- Reads a whole number in base 10. -/
def readWhole? (word : List Char) : Option Toml := do
  let (negative, rest) := splitSign word
  let n : Int := numberOfDigits 10 (← wholeDigits? rest)
  integerIn64? (if negative then -n else n)

/-- The digits of an exponent, with its sign, if there is an exponent. -/
def exponentDigits? : List Char → Option (List Char)
  | [] => some []
  | e :: rest =>
    if e = 'e' || e = 'E' then do
      let (negative, ds) := splitSign rest
      let ds ← ungroup? Char.isDigit ds
      pure ('e' :: if negative then '-' :: ds else ds)
    else none

/-- The digits of a fraction and of an exponent, of which there must be at least one. -/
def decimalTail? : List Char → Option (List Char)
  | '.' :: rest => do
    let fraction ← ungroup? Char.isDigit (rest.takeWhile fun c => c.isDigit || c = '_')
    let exponent ← exponentDigits? (rest.dropWhile fun c => c.isDigit || c = '_')
    pure ('.' :: fraction ++ exponent)
  | [] => none
  | rest => exponentDigits? rest

/-- Reads a number with a fraction or an exponent. -/
def readDecimal? (word : List Char) : Option Toml := do
  let (negative, rest) := splitSign word
  let whole ← wholeDigits? (rest.takeWhile fun c => c.isDigit || c = '_')
  let tail ← decimalTail? (rest.dropWhile fun c => c.isDigit || c = '_')
  let value ← Binary64.ofText? ((if negative then ['-'] else []) ++ whole ++ tail)
  match value with
  | .infinite false => none
  | value => pure (float value)

/-- Reads a boolean or number, which is the whole word. -/
def ofWord? (word : List Char) : Option Toml :=
  match word with
  | ['t', 'r', 'u', 'e'] => some (boolean true)
  | ['f', 'a', 'l', 's', 'e'] => some (boolean false)
  | '0' :: 'x' :: rest => readBased? 16 isHexDigit rest
  | '0' :: 'o' :: rest => readBased? 8 (fun c => '0' ≤ c && c ≤ '7') rest
  | '0' :: 'b' :: rest => readBased? 2 (fun c => c = '0' || c = '1') rest
  | _ =>
    match splitSign word with
    | (negative, ['i', 'n', 'f']) => some (float (.infinite negative))
    | (_, ['n', 'a', 'n']) => some (float .nan)
    | _ =>
      match readWhole? word with
      | some value => some value
      | none => readDecimal? word

end Procurement.Toml
