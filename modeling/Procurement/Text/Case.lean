/-!
# Lower case

Names and words of settings are compared in lower case. Of the characters whose
lower case is an ASCII letter, all but one are ASCII letters themselves.
-/

namespace Procurement.Text

/-- The sign for the unit kelvin, whose lower case is the letter k. -/
def kelvinSign : Char := '\u212A'

/-- A character in lower case, if that is ASCII. -/
def lowerChar (c : Char) : Char := if c = kelvinSign then 'k' else c.toLower

/-- A text in lower case, as far as that is ASCII. -/
def lower (text : String) : String := String.ofList (text.toList.map lowerChar)

end Procurement.Text
