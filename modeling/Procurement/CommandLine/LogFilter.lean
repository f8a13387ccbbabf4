import Procurement.Binary64
import Procurement.Text.Blank
import Procurement.Text.Letter
import Procurement.Text.Pattern
import Procurement.Text.Slice

/-!
# Log filters

A filter is a list of directives with commas between them. A directive is a
level, or a target with an optional span in brackets and an optional level
behind an equals sign. A level is a word or a number up to five. The places of
the parts are found in the directive without the blanks at its ends, and the
parts are taken from the same places of the directive with them.
-/

namespace Procurement

open Procurement.Text

/-- What is wrong with a log filter. -/
inductive FilterFault where
  | directive
  | level
  | field
  /-- A part starts or ends within a character. -/
  | split
  deriving DecidableEq, Repr

/-- The sentence about a faulty log filter, unless the fault ends the program. -/
def FilterFault.message? : FilterFault → Option String
  | directive => some "invalid filter directive"
  | level => some "error parsing level filter"
  | field => some "invalid field filter: error building NFA"
  | split => none

/-- Where the reader is in a directive. Parts start at the given places. -/
inductive FilterState where
  | start
  /-- In a word that is a level or a target. -/
  | word (first : Nat)
  /-- In the name of a span. -/
  | span (first : Nat)
  /-- In a field of a span. -/
  | field (first : Nat)
  | fieldsEnd
  | target
  | level (first : Nat)

/-- Whether a text is a level. The empty text is one. -/
def isLevel (text : List Char) : Bool :=
  let number := match readInteger? text with
    | some n => text.head? ≠ some '-' && 0 ≤ n && n ≤ 5
    | none => false
  number || ["", "error", "warn", "info", "debug", "trace", "off"].contains
    (String.ofList (text.map Char.toLower))

/-- Whether a character may start a directive that does not start with a span. -/
def startsDirective (c : Char) : Bool := c = '-' || c = ':' || c = '_' || isAlphanumeric c

/-- Checks a field: a name, and perhaps an equals sign with a number or a pattern behind it. -/
def checkField (text : List Char) : Except FilterFault Unit :=
  match trimBlanks text with
  | [] => throw .directive
  | text =>
    let value := (text.dropWhile (· ≠ '=')).drop 1 |>.takeWhile (· ≠ '=')
    if (Binary64.ofText? value).isSome || isPattern value then pure () else throw .field

/-- The part of a directive between two places. -/
def partOf (text : List Char) (first last : Nat) : Except FilterFault (List Char) :=
  match slice? first last text with
  | some part => pure part
  | none => throw .split

/-- The state after the next character, at the given place. -/
def FilterState.next (text : List Char) (place : Nat) (c : Char) :
    FilterState → Except FilterFault FilterState
  | start =>
    if c = '[' then pure (span (place + 1))
    else if startsDirective c then pure (word place)
    else throw .directive
  | word first => do
    if c = '=' ∨ c = '[' then
      let _ ← partOf text first place
      pure (if c = '=' then level (place + 1) else span (place + 1))
    else pure (word first)
  | span first => do
    if c = ']' ∨ c = '\x7b' then
      let _ ← partOf text first place
      pure (if c = ']' then target else field (place + 1))
    else pure (span first)
  | field first => do
    if c = '\x7d' then
      checkField (← partOf text first place)
      pure fieldsEnd
    else pure (field first)
  | fieldsEnd => if c = ']' then pure target else throw .directive
  | target => if c = '=' then pure (level (place + 1)) else throw .directive
  | level first => pure (level first)

/-- Checks one directive. -/
def checkDirective (text : List Char) : Except FilterFault Unit := do
  let step (state : Nat × FilterState) (c : Char) : Except FilterFault (Nat × FilterState) := do
    pure (state.1 + c.utf8Size, ← state.2.next text state.1 c)
  match (← (trimBlanks text).foldlM step (0, .start)).2 with
  | .word first => do
    let _ ← partOf text first (byteCount text)
  | .target => pure ()
  | .level first => do
    if isLevel (← partOf text first (byteCount text)) then pure () else throw .level
  | _ => throw .directive

/-- Checks a log filter. -/
def checkFilter (text : String) : Except FilterFault Unit :=
  ((text.splitOn ",").filter (· ≠ "")).forM fun directive => checkDirective directive.toList

end Procurement
