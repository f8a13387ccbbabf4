import Procurement.Json.Basic

/-!
# Records as JSON objects

A record is read from an object that has each of its fields once, whatever other
members there are, or from an array of the fields in their order. Numbers are
taken as they are: a whole number in range, never a text.
-/

namespace Procurement.Json

/-- The values of the named fields, each a member exactly once. -/
def fieldsOfObject? (names : List String) (members : List (String × Json)) :
    Option (List Json) :=
  names.mapM fun name =>
    match members.filter fun member => member.1 == name with
    | [(_, value)] => some value
    | _ => none

/-- The values of the named fields of a record given as an object or as an array. -/
def fields? (names : List String) : Json → Option (List Json)
  | object members => fieldsOfObject? names members
  | array items => if items.length = names.length then some items else none
  | _ => none

/-- A whole number in the range of signed 64-bit numbers. -/
def int64? (value : Json) : Option Int :=
  value.integer?.filter fun n => -9223372036854775808 ≤ n ∧ n ≤ 9223372036854775807

/-- A natural number below the given bound. -/
def natBelow? (bound : Nat) (value : Json) : Option Nat :=
  match value.integer? with
  | some n => if 0 ≤ n ∧ n < bound then some n.toNat else none
  | none => none

mutual

/-- How deep arrays and objects are nested in a value. -/
def depth : Json → Nat
  | array items => itemsDepth items + 1
  | object members => membersDepth members + 1
  | _ => 0

/-- The greatest depth of the items of an array. -/
def itemsDepth : List Json → Nat
  | [] => 0
  | item :: items => max item.depth (itemsDepth items)

/-- The greatest depth of the members of an object. -/
def membersDepth : List (String × Json) → Nat
  | [] => 0
  | (_, value) :: members => max value.depth (membersDepth members)

end

end Procurement.Json
