import Procurement.Json.Writer

/-!
# Writing JSON for readers

Each item and member stands on a line of its own, two spaces further in than
what holds it. An empty array or object is written in one piece.
-/

namespace Procurement.Json

/-- A line break and the blanks in front of what stands at the given depth. -/
def lineAt (depth : Nat) (rest : List Char) : List Char :=
  '\n' :: (List.replicate (2 * depth) ' ' ++ rest)

mutual

/-- A value at the given depth, written in front of the given text. -/
def layBefore (depth : Nat) : Json → List Char → List Char
  | array [], rest => '[' :: ']' :: rest
  | array items, rest =>
    '[' :: layItems (depth + 1) items (lineAt depth (']' :: rest))
  | object [], rest => '\x7b' :: '\x7d' :: rest
  | object members, rest =>
    '\x7b' :: layMembers (depth + 1) members (lineAt depth ('\x7d' :: rest))
  | value, rest => writeBefore value rest

/-- The items of an array, each on its own line. -/
def layItems (depth : Nat) : List Json → List Char → List Char
  | [], rest => rest
  | [item], rest => lineAt depth (layBefore depth item rest)
  | item :: items, rest => lineAt depth (layBefore depth item (',' :: layItems depth items rest))

/-- The members of an object, each on its own line. -/
def layMembers (depth : Nat) : List (String × Json) → List Char → List Char
  | [], rest => rest
  | [(key, value)], rest =>
    lineAt depth (writeString key (':' :: ' ' :: layBefore depth value rest))
  | (key, value) :: members, rest =>
    lineAt depth (writeString key
      (':' :: ' ' :: layBefore depth value (',' :: layMembers depth members rest)))

end

/-- The text of a value, laid out in lines. -/
def pretty (value : Json) : String := String.ofList (value.layBefore 0 [])

end Procurement.Json
