/-!
# Places in a text by bytes

A place in a text is a number of bytes in front of it. A character takes up one
to four bytes, so some numbers are no places.
-/

namespace Procurement.Text

/-- The number of bytes that characters take up. -/
def byteCount : List Char → Nat
  | [] => 0
  | c :: text => c.utf8Size + byteCount text

/-- The characters behind a number of bytes. -/
def dropBytes? : Nat → List Char → Option (List Char)
  | 0, text => some text
  | _ + 1, [] => none
  | n + 1, c :: text =>
    if c.utf8Size ≤ n + 1 then dropBytes? (n + 1 - c.utf8Size) text else none

/-- The characters that a number of bytes at the front make up. -/
def takeBytes? : Nat → List Char → Option (List Char)
  | 0, _ => some []
  | _ + 1, [] => none
  | n + 1, c :: text =>
    if c.utf8Size ≤ n + 1 then (takeBytes? (n + 1 - c.utf8Size) text).map (c :: ·) else none

/-- The characters between two places, if both are places and come in this order. -/
def slice? (first last : Nat) (text : List Char) : Option (List Char) :=
  if first ≤ last then (dropBytes? first text).bind (takeBytes? (last - first)) else none

end Procurement.Text
