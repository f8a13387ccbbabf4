import Procurement.Instant.Basic
import Procurement.Text.Decimal

/-!
# Instants as text

Instants are written in the form of RFC 3339 in UTC, with a fraction of 0, 3, 6
or 9 digits, the fewest of these that lose nothing. Years outside 0 to 9999 are
signed. The reader takes any offset from UTC, and is lenient about blanks
between the parts and about leading zeros.
-/

namespace Procurement.Instant

open Procurement.Text

/-- A year in four digits; outside 0 to 9999 with a sign and four digits or more. -/
def yearText (year : Int) : List Char :=
  if year < 0 then '-' :: paddedDigits 4 year.natAbs
  else if year ≤ 9999 then paddedDigits 4 year.natAbs
  else '+' :: paddedDigits 4 year.natAbs

/-- A fraction of a second in the fewest of 0, 3, 6 and 9 digits that lose nothing. -/
def fractionText (nanos : Nat) : List Char :=
  if nanos = 0 then []
  else if nanos % 1000000 = 0 then '.' :: paddedDigits 3 (nanos / 1000000)
  else if nanos % 1000 = 0 then '.' :: paddedDigits 6 (nanos / 1000)
  else '.' :: paddedDigits 9 nanos

/-- An instant as text in UTC, followed by the given name of that zone. A leap
second is second number 60. -/
def textWithZone (zone : List Char) (t : Instant) : List Char :=
  let (year, month, day) := t.date
  let second := t.secondOfDay
  let leap := t.nanos / 1000000000
  yearText year ++ ['-'] ++ paddedDigits 2 month ++ ['-'] ++ paddedDigits 2 day ++ ['T'] ++
    paddedDigits 2 (second / 3600) ++ [':'] ++ paddedDigits 2 (second / 60 % 60) ++ [':'] ++
    paddedDigits 2 (second % 60 + leap) ++ fractionText (t.nanos % 1000000000) ++ zone

/-- The text of an instant in answers. -/
def text (t : Instant) : String := String.ofList (textWithZone ['Z'] t)

/-- The text by which stored instants are ordered. -/
def storedText (t : Instant) : String := String.ofList (textWithZone "+00:00".toList t)

/-- Reads one or two digits after blanks. -/
def readPart? (text : List Char) : Option (Nat × List Char) :=
  match takeDigits 2 (skipBlanks text) with
  | ([], _) => none
  | (ds, rest) => some (numberOfDigits 10 ds, rest)

/-- Reads a year: up to four digits, or a sign and any number of digits. -/
def readYear? (text : List Char) : Option (Int × List Char) :=
  let any (rest : List Char) (sign : Int) (most : Nat) : Option (Int × List Char) :=
    match takeDigits most rest with
    | ([], _) => none
    | (ds, rest) => some (sign * numberOfDigits 10 ds, rest)
  match skipBlanks text with
  | '-' :: rest => any rest (-1) rest.length
  | '+' :: rest => any rest 1 rest.length
  | rest => any rest 1 4

/-- Reads the given mark after blanks. -/
def readMark? (mark : Char) (text : List Char) : Option (List Char) :=
  match skipBlanks text with
  | c :: rest => if c = mark then some rest else none
  | [] => none

/-- Reads a fraction of a second, if there is one; digits after the ninth are dropped. -/
def readFraction? (text : List Char) : Option (Nat × List Char) :=
  match text with
  | '.' :: rest =>
    match takeDigits 9 rest with
    | ([], _) => none
    | (ds, rest) =>
      some (numberOfDigits 10 ds * Nat.pow 10 (9 - ds.length), rest.dropWhile Char.isDigit)
  | _ => some (0, text)

/-- Reads an offset from UTC, in seconds: `Z`, `UTC`, or a sign, two digits of hours
and two of minutes, with colons and blanks allowed between them. -/
def readOffset? (text : List Char) : Option (Int × List Char) :=
  let signed (sign : Int) (rest : List Char) : Option (Int × List Char) :=
    match rest with
    | a :: b :: rest =>
      if a.isDigit && b.isDigit then
        match rest.dropWhile fun c => c = ':' || isBlank c with
        | c :: d :: rest =>
          if c.isDigit && d.isDigit && c < '6' then
            let minutes := numberOfDigits 10 [a, b] * 60 + numberOfDigits 10 [c, d]
            if minutes < 24 * 60 then some (sign * minutes * 60, rest) else none
          else none
        | _ => none
      else none
    | _ => none
  match text with
  | 'Z' :: rest | 'z' :: rest => some (0, rest)
  | '+' :: rest => signed 1 rest
  | '-' :: rest | '\u2212' :: rest => signed (-1) rest
  | a :: b :: c :: rest =>
    if [a, b, c].map Char.toUpper = ['U', 'T', 'C'] then some (0, rest) else none
  | _ => none

/-- The instant of a calendar day and time of day at an offset from UTC, provided the
day and time exist and both they and the instant lie in the calendar's span. -/
def ofLocal? (year : Int) (month day hour minute second nanos : Nat) (offset : Int) :
    Option Instant :=
  if isDate year month day && hour ≤ 23 && minute ≤ 59 && second ≤ 60 then
    let seconds := daysOfDate year month day * 86400 + hour * 3600 + minute * 60 + min second 59
    let nanos := if second = 60 then nanos + 1000000000 else nanos
    if firstSecond ≤ seconds ∧ seconds ≤ lastSecond then ofUnix? (seconds - offset) nanos
    else none
  else none

/-- Reads an instant from its text. -/
def ofText? (text : List Char) : Option Instant := do
  let (year, rest) ← readYear? text
  let (month, rest) ← readPart? (← readMark? '-' rest)
  let (day, rest) ← readPart? (← readMark? '-' rest)
  match rest with
  | c :: rest =>
    if c ≠ 'T' && c ≠ 't' && c ≠ ' ' then none
    else
      let (hour, rest) ← readPart? rest
      let (minute, rest) ← readPart? (← readMark? ':' rest)
      let (second, rest) ← readPart? (← readMark? ':' rest)
      let (nanos, rest) ← readFraction? rest
      let (offset, rest) ← readOffset? (skipBlanks rest)
      if skipBlanks rest = [] then ofLocal? year month day hour minute second nanos offset
      else none
  | [] => none

end Procurement.Instant
