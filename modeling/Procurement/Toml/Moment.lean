import Procurement.Text.Decimal
import Procurement.Toml.Basic

/-!
# Days and times in settings files

A moment is a day, a time of day, or both and perhaps an offset from universal
time. It is kept as text in one form: a capital T between day and time, nine
digits of a fraction at most and no zeros at its end, and offsets with less than
an hour of minutes.
-/

namespace Procurement.Toml

open Procurement.Text

/-- How far hours and minutes of a moment may go. -/
structure ClockBounds where
  lastHour : Nat
  lastOffsetHour : Nat
  lastOffsetMinute : Nat

/-- The bounds for moments that stand in a file. -/
def ClockBounds.written : ClockBounds := ⟨23, 23, 59⟩

/-- The bounds for moments that stand in a text. -/
def ClockBounds.quoted : ClockBounds := ⟨24, 99, 99⟩

/-- The number of days in a month. -/
def monthDays (year month : Nat) : Nat :=
  let leap := year % 4 = 0 ∧ (year % 100 ≠ 0 ∨ year % 400 = 0)
  if month = 2 then (if leap then 29 else 28)
  else if month ∈ [4, 6, 9, 11] then 30
  else 31

/-- Reads two digits that denote a number within bounds. -/
def readPair? (least greatest : Nat) : List Char → Option (Nat × List Char)
  | a :: b :: rest =>
    let n := numberOfDigits 10 [a, b]
    if a.isDigit && b.isDigit && least ≤ n && n ≤ greatest then some (n, rest) else none
  | _ => none

/-- Reads the given mark. -/
def readSign? (mark : Char) : List Char → Option (List Char)
  | c :: rest => if c = mark then some rest else none
  | [] => none

/-- Reads a day: year, month and day of the month. -/
def readDay? (text : List Char) : Option (List Char × List Char) := do
  let year := text.take 4
  if year.length ≠ 4 ∨ !year.all Char.isDigit then none
  let (month, rest) ← readPair? 1 12 (← readSign? '-' (text.drop 4))
  let (_, rest) ← readPair? 1 (monthDays (numberOfDigits 10 year) month) (← readSign? '-' rest)
  pure (text.take 10, rest)

/-- Reads a fraction of a second, if there is one. -/
def readSecondFraction? : List Char → Option (List Char × List Char)
  | '.' :: rest =>
    match rest.takeWhile Char.isDigit with
    | [] => none
    | ds =>
      let kept := ((ds.take 9).reverse.dropWhile (· = '0')).reverse
      some (if kept.isEmpty then [] else '.' :: kept, rest.drop ds.length)
  | rest => some ([], rest)

/-- Reads a time of day: hour, minute, second and perhaps a fraction of it. -/
def readTime? (bounds : ClockBounds) (text : List Char) : Option (List Char × List Char) := do
  let (_, rest) ← readPair? 0 bounds.lastHour text
  let (_, rest) ← readPair? 0 59 (← readSign? ':' rest)
  let (_, rest) ← readPair? 0 60 (← readSign? ':' rest)
  let (fraction, rest) ← readSecondFraction? rest
  pure (text.take 8 ++ fraction, rest)

/-- Reads an offset from universal time of up to a day, if there is one. -/
def readTimeOffset? (bounds : ClockBounds) : List Char → Option (List Char × List Char)
  | [] => some ([], [])
  | c :: rest =>
    if c = 'Z' ∨ c = 'z' then some (['Z'], rest)
    else if c = '+' ∨ c = '-' then do
      let (hours, rest) ← readPair? 0 bounds.lastOffsetHour rest
      let (minutes, rest) ← readPair? 0 bounds.lastOffsetMinute (← readSign? ':' rest)
      let total := hours * 60 + minutes
      let sign := if c = '-' ∧ total ≠ 0 then '-' else '+'
      if total ≤ 1440 then
        pure (sign :: paddedDigits 2 (total / 60) ++ ':' :: paddedDigits 2 (total % 60), rest)
      else none
    else some ([], c :: rest)

/-- Reads what follows a day: a mark and a time of day with its offset, if there are any. -/
def readTimeOfDay? (bounds : ClockBounds) : List Char → Option (List Char × List Char)
  | c :: rest =>
    if c = 'T' ∨ c = 't' ∨ c = ' ' then do
      let (time, rest) ← readTime? bounds rest
      let (offset, rest) ← readTimeOffset? bounds rest
      pure ('T' :: time ++ offset, rest)
    else none
  | [] => none

/-- Reads a moment in a file. A blank behind a day may be followed by something else. -/
def readMoment? (text : List Char) : Option (Toml × List Char) :=
  match readDay? text with
  | some (day, rest) =>
    match readTimeOfDay? .written rest with
    | some (time, rest) => some (moment (String.ofList (day ++ time)), rest)
    | none => some (moment (String.ofList day), rest)
  | none => do
    let (time, rest) ← readTime? .written text
    pure (moment (String.ofList time), rest)

/-- The moment that a whole text denotes. -/
def momentOfText? (text : List Char) : Option Toml :=
  if text[2]? = some ':' then
    match readTime? .quoted text with
    | some (time, []) => some (moment (String.ofList time))
    | _ => none
  else
    match readDay? text with
    | some (day, []) => some (moment (String.ofList day))
    | some (day, rest) =>
      match readTimeOfDay? .quoted rest with
      | some (time, []) => some (moment (String.ofList (day ++ time)))
      | _ => none
    | none => none

end Procurement.Toml
