import Procurement.Json.Basic
import Procurement.Text.Decimal

/-!
# Writing JSON

Values are written without blanks. Inside strings the quote, the backslash and
the control characters are escaped, by a letter if they have one.
-/

namespace Procurement.Json

open Procurement.Text

/-- A hexadecimal digit. -/
def hexDigit (n : Nat) : Char := "0123456789abcdef".toList.getD n '0'

/-- The letter behind the backslash in the short escape of a character, if it has one. -/
def escapeLetter? : Char → Option Char
  | '"' => some '"'
  | '\\' => some '\\'
  | '\x08' => some 'b'
  | '\x0c' => some 'f'
  | '\n' => some 'n'
  | '\r' => some 'r'
  | '\t' => some 't'
  | _ => none

/-- A character inside a string, written in front of the given text. -/
def writeChar (c : Char) (rest : List Char) : List Char :=
  match escapeLetter? c with
  | some letter => '\\' :: letter :: rest
  | none =>
    if c.toNat < 32 then
      '\\' :: 'u' :: '0' :: '0' :: hexDigit (c.toNat / 16) :: hexDigit (c.toNat % 16) :: rest
    else c :: rest

/-- A string in quotes, written in front of the given text. -/
def writeString (text : String) (rest : List Char) : List Char :=
  '"' :: text.toList.foldr writeChar ('"' :: rest)

/-- A number that is not whole, written in front of the given text. -/
def writeReal (negative : Bool) (coefficient : Nat) (exponent : Int) (rest : List Char) :
    List Char :=
  let unsigned := digits coefficient ++ 'e' :: signedDigits exponent ++ rest
  if negative then '-' :: unsigned else unsigned

mutual

/-- A value, written in front of the given text. -/
def writeBefore : Json → List Char → List Char
  | null, rest => "null".toList ++ rest
  | bool true, rest => "true".toList ++ rest
  | bool false, rest => "false".toList ++ rest
  | integer value, rest => signedDigits value ++ rest
  | real negative coefficient exponent, rest => writeReal negative coefficient exponent rest
  | string text, rest => writeString text rest
  | array items, rest => '[' :: writeItems items (']' :: rest)
  | object members, rest => '{' :: writeMembers members ('}' :: rest)
  | unpaired, rest => "\"\\ud800\"".toList ++ rest

/-- The items of an array with commas between them. -/
def writeItems : List Json → List Char → List Char
  | [], rest => rest
  | [item], rest => writeBefore item rest
  | item :: next :: items, rest => writeBefore item (',' :: writeItems (next :: items) rest)

/-- The members of an object with commas between them. -/
def writeMembers : List (String × Json) → List Char → List Char
  | [], rest => rest
  | [(key, value)], rest => writeString key (':' :: writeBefore value rest)
  | (key, value) :: next :: members, rest =>
    writeString key (':' :: writeBefore value (',' :: writeMembers (next :: members) rest))

end

/-- A value as text. -/
def write (value : Json) : String := String.ofList (value.writeBefore [])

end Procurement.Json
