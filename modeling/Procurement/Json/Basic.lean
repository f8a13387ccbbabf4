/-!
# JSON values

A value keeps the members of its objects in their order, repeated keys
included, and tells whole numbers of up to 64 bits from others. An escape that names half of a
surrogate pair denotes no character; a string that holds one, or an object that
has it in a key, is well formed but is no text.
-/

namespace Procurement

/-- A JSON value. -/
inductive Json where
  | null
  | bool (value : Bool)
  /-- A number written without fraction and exponent, minus zero and those of more than 64
  bits apart. -/
  | integer (value : Int)
  /-- Any other number, as a coefficient of up to 64 bits and a power of ten. -/
  | real (negative : Bool) (coefficient : Nat) (exponent : Int)
  | string (text : String)
  | array (items : List Json)
  | object (members : List (String × Json))
  /-- A string, or an object with a key, that holds half a surrogate pair. -/
  | unpaired

namespace Json

/-- The text of a string. -/
def string? : Json → Option String
  | string text => some text
  | _ => none

/-- The value of a whole number. -/
def integer? : Json → Option Int
  | integer value => some value
  | _ => none

/-- The truth value of a boolean. -/
def bool? : Json → Option Bool
  | bool value => some value
  | _ => none

/-- The items of an array. -/
def items? : Json → Option (List Json)
  | array items => some items
  | _ => none

/-- The members of an object. -/
def members? : Json → Option (List (String × Json))
  | object members => some members
  | _ => none

/-- The last member of an object with the given key. -/
def member? (key : String) : Json → Option Json
  | object members => members.reverse.lookup key
  | _ => none

end Json

end Procurement
