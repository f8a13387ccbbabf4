import Procurement.Text.Decimal

/-!
# Percent signs

In addresses a percent sign with two hexadecimal digits behind it stands for the
byte that they denote. Other percent signs stand for themselves.
-/

namespace Procurement.Text

/-- The value of the byte of a hexadecimal digit. -/
def nibble? (b : UInt8) : Option UInt8 :=
  if 48 ≤ b && b ≤ 57 then some (b - 48)
  else if 97 ≤ b && b ≤ 102 then some (b - 87)
  else if 65 ≤ b && b ≤ 70 then some (b - 55)
  else none

/-- The byte that two hexadecimal digits denote. -/
def octet? (high low : UInt8) : Option UInt8 := do pure ((← nibble? high) * 16 + (← nibble? low))

/-- The bytes of a text with its percent signs resolved. -/
def percentDecoded : List UInt8 → List UInt8
  | 37 :: high :: low :: rest =>
    match octet? high low with
    | some b => b :: percentDecoded rest
    | none => 37 :: percentDecoded (high :: low :: rest)
  | b :: rest => b :: percentDecoded rest
  | [] => []

/-- The bytes of a text. -/
def bytesOf (text : List Char) : List UInt8 := (String.ofList text).toUTF8.toList

/-- A text with its percent signs resolved, if that gives a text. -/
def percentDecoded? (text : List Char) : Option String :=
  String.fromUTF8? ⟨(percentDecoded (bytesOf text)).toArray⟩

end Procurement.Text
