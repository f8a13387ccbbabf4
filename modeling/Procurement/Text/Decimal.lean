/-!
# Decimal digits

Whole numbers in decimal, padded on the left with zeros where a format fixes
their width, and read back digit by digit.
-/

namespace Procurement.Text

/-- The decimal digits of a number, most significant first. -/
def digits (n : Nat) : List Char := Nat.toDigits 10 n

/-- The digits of a number, with zeros in front up to the given width. -/
def paddedDigits (width n : Nat) : List Char :=
  List.replicate (width - (digits n).length) '0' ++ digits n

/-- The digits of a number with a minus sign in front if it is negative. -/
def signedDigits (n : Int) : List Char :=
  if n < 0 then '-' :: digits n.natAbs else digits n.natAbs

/-- Whether a character is a hexadecimal digit. -/
def isHexDigit (c : Char) : Bool :=
  c.isDigit || ('a' ≤ c && c ≤ 'f') || ('A' ≤ c && c ≤ 'F')

/-- The value of a digit, or of a letter standing for a digit above nine. -/
def digitValue (c : Char) : Nat :=
  if c.isDigit then c.toNat - '0'.toNat
  else if 'a' ≤ c && c ≤ 'z' then c.toNat - 'a'.toNat + 10
  else c.toNat - 'A'.toNat + 10

/-- The number that digits denote in the given base. -/
def numberOfDigits (base : Nat) (ds : List Char) : Nat :=
  ds.foldl (fun n c => n * base + digitValue c) 0

/-- Splits off the decimal digits at the front of a text, at most `most` of them. -/
def takeDigits (most : Nat) (text : List Char) : List Char × List Char :=
  let ds := (text.take most).takeWhile Char.isDigit
  (ds, text.drop ds.length)

/-- Reads an optional sign and at least one digit, and nothing else. -/
def readInteger? (text : List Char) : Option Int :=
  let unsigned (ds : List Char) : Option Nat :=
    if ds ≠ [] && ds.all Char.isDigit then some (numberOfDigits 10 ds) else none
  match text with
  | '-' :: ds => (unsigned ds).map fun n => -(n : Int)
  | '+' :: ds => (unsigned ds).map Int.ofNat
  | ds => (unsigned ds).map Int.ofNat

end Procurement.Text
