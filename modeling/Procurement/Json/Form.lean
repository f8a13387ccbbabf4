import Procurement.Binary64
import Procurement.Json.Fields
import Procurement.Json.Reader
import Procurement.Json.Writer
import Procurement.Vocabulary

/-!
# Values with a JSON form

A value of a vocabulary is its word as a string, or an object whose only member
has the word as its key and nothing as its value; it is written as the string.
-/

namespace Procurement

/-- Values that are written as JSON and read back from it. -/
class JsonForm (α : Type) where
  toJson : α → Json
  ofJson? : Json → Option α

namespace JsonForm

/-- The text of a value. -/
def encode {α : Type} [JsonForm α] (value : α) : String := (toJson value).write

/-- The value that a text gives. -/
def decode? (α : Type) [JsonForm α] (text : String) : Option α := (Json.read? text).bind ofJson?

end JsonForm

namespace Json

/-- The value of a vocabulary that a string, or an object with a single empty member, names. -/
def ofWord? {α : Type} [Vocabulary α] : Json → Option α
  | string text => Vocabulary.ofWord? text
  | object [(word, null)] => Vocabulary.ofWord? word
  | _ => none

instance {α : Type} [Vocabulary α] : JsonForm α where
  toJson value := string (Vocabulary.word value)
  ofJson? := ofWord?

/-- How deep a value may be nested to be set aside for a later look. -/
def depthLimit : Nat := 126

/-- Whether a number is finite when its coefficient and its power of ten are each taken
to the nearest float and multiplied. Among the powers of ten those beyond 308 are infinite. -/
def isFiniteNumber (coefficient : Nat) (exponent : Int) : Bool :=
  coefficient = 0 || exponent < 0 ||
    exponent ≤ 308 &&
      ((Binary64.ofDecimal false coefficient 0).times
        (Binary64.ofDecimal false 1 exponent)).isFinite

mutual

/-- Whether all strings of a value are texts and all its numbers are finite. -/
def isPlain : Json → Bool
  | unpaired => false
  | real _ coefficient exponent => isFiniteNumber coefficient exponent
  | array items => itemsArePlain items
  | object members => membersArePlain members
  | _ => true

/-- Whether all items of an array are plain. -/
def itemsArePlain : List Json → Bool
  | [] => true
  | item :: items => item.isPlain && itemsArePlain items

/-- Whether all members of an object are plain. -/
def membersArePlain : List (String × Json) → Bool
  | [] => true
  | (_, value) :: members => value.isPlain && membersArePlain members

end

/-- Whether a value can be set aside until it is known what it is for. -/
def isHoldable (value : Json) : Bool := value.isPlain && value.depth ≤ depthLimit

end Json

end Procurement
