/-!
# Parts of a text

A mark cuts a text into parts. There is one part more than there are marks, and a
part may be empty.
-/

namespace Procurement.Text

/-- The first part of a text and the parts behind it. -/
def cutAt (mark : Char) : List Char → List Char × List (List Char)
  | [] => ([], [])
  | c :: text =>
    let (part, others) := cutAt mark text
    if c = mark then ([], part :: others) else (c :: part, others)

/-- The parts of a text, in their order. -/
def parts (mark : Char) (text : String) : List String :=
  let (part, others) := cutAt mark text.toList
  (part :: others).map String.ofList

/-- A text without the mark is cut nowhere. -/
theorem cutAt_of_notMem {mark : Char} {text : List Char} (h : mark ∉ text) :
    cutAt mark text = (text, []) := by
  induction text with
  | nil => rfl
  | cons c text ih =>
    have hc : c ≠ mark := fun hc => h (hc ▸ List.mem_cons_self)
    rw [cutAt, ih fun htext => h (List.mem_cons_of_mem c htext)]
    exact if_neg hc

/-- A text without the mark is one part. -/
theorem parts_of_notMem {mark : Char} {text : String} (h : mark ∉ text.toList) :
    parts mark text = [text] := by
  rw [parts, cutAt_of_notMem h]
  simp

end Procurement.Text
