import Procurement.Settings.Environment
import Procurement.Text.Blank
import Procurement.Text.Letter

/-!
# Environment files

An environment file has one assignment on each line. Values may be quoted, wholly
or in part; outside single quotes a backslash takes away the meaning of the next
character, and a dollar sign stands for the value of the variable that it names.
A line that ends within quotes goes on in the next one. Lines behind a faulty one
do not count.
-/

namespace Procurement

open Procurement.Text

/-- How the characters of a value are taken. -/
inductive ValueMode where
  | plain
  /-- Between single quotes. -/
  | single
  /-- Between double quotes. -/
  | double
  /-- Behind the value; only a comment may follow. -/
  | ended
  deriving DecidableEq

/-- The character that a backslash and a character stand for. -/
def unescaped? (c : Char) : Option Char :=
  if c ∈ ['\\', '\'', '"', '$', ' '] then some c else if c = 'n' then some '\n' else none

/-- Reads a value; `lookup` gives the values of variables, empty for those that are not set. -/
def readVariableValue? (lookup : String → String) :
    Nat → ValueMode → List Char → Option (List Char)
  | 0, _, _ => none
  | _ + 1, mode, [] => if mode = .plain ∨ mode = .ended then some [] else none
  | fuel + 1, .ended, c :: rest =>
    if c = ' ' ∨ c = '\t' then readVariableValue? lookup fuel .ended rest
    else if c = '#' then some []
    else none
  | fuel + 1, .single, c :: rest =>
    if c = '\'' then readVariableValue? lookup fuel .plain rest
    else (readVariableValue? lookup fuel .single rest).map (c :: ·)
  | fuel + 1, mode, '\\' :: rest =>
    match rest with
    | c :: rest => do
      let c ← unescaped? c
      pure (c :: (← readVariableValue? lookup fuel mode rest))
    | [] => if mode = .plain then some [] else none
  | fuel + 1, mode, '$' :: '\x7b' :: rest =>
    let name := rest.takeWhile (· ≠ '\x7d')
    match rest.drop name.length with
    | _ :: rest => do
      let value := (lookup (String.ofList name)).toList
      pure (value ++ (← readVariableValue? lookup fuel mode rest))
    | [] => none
  | fuel + 1, mode, '$' :: rest =>
    let name := rest.takeWhile isAlphanumeric
    let value := (lookup (String.ofList name)).toList
    match rest.drop name.length with
    | '$' :: rest => do pure (value ++ (← readVariableValue? lookup fuel mode ('$' :: rest)))
    | c :: rest => do pure (value ++ c :: (← readVariableValue? lookup fuel mode rest))
    | [] => if mode = .plain then some value else none
  | fuel + 1, .double, c :: rest =>
    if c = '"' then readVariableValue? lookup fuel .plain rest
    else (readVariableValue? lookup fuel .double rest).map (c :: ·)
  | fuel + 1, .plain, c :: rest =>
    if c = '\'' then readVariableValue? lookup fuel .single rest
    else if c = '"' then readVariableValue? lookup fuel .double rest
    else if c = ' ' ∨ c = '\t' then readVariableValue? lookup fuel .ended rest
    else (readVariableValue? lookup fuel .plain rest).map (c :: ·)

/-- Reads the name of a variable. -/
def readVariableName? (text : List Char) : Option (String × List Char) :=
  match text with
  | c :: _ =>
    if c.isAlpha || c = '_' then
      let name := text.takeWhile fun c => c.isAlphanum || c = '_' || c = '.'
      some (String.ofList name, skipBlanks (text.drop name.length))
    else none
  | [] => none

/-- Reads a name and the equals sign behind it. The word `export` may stand in front. -/
def readAssigned? (text : List Char) : Option (String × List Char) := do
  let (name, rest) ← readVariableName? text
  match rest with
  | '=' :: rest => pure (name, skipBlanks rest)
  | _ =>
    if name = "export" then
      match ← readVariableName? rest with
      | (name, '=' :: rest) => pure (name, skipBlanks rest)
      | _ => none
    else none

/-- Reads the assignment on a line; a line may be empty or a comment. -/
def readAssignment? (lookup : String → String) (line : List Char) :
    Option (Option (String × String)) :=
  match trimBlanks line with
  | [] | '#' :: _ => some none
  | text => do
    let (name, rest) ← readAssigned? text
    match rest with
    | [] | '#' :: _ => pure (some (name, ""))
    | rest =>
      let value ← readVariableValue? lookup (rest.length + 1) .plain rest
      pure (some (name, String.ofList value))

/-- Where a reader is that looks for the end of a line. -/
inductive LineState where
  | plain
  /-- Behind a blank; a comment may start here. -/
  | blank
  | single
  | double
  /-- Behind a backslash, in the state that goes on behind the next character. -/
  | escaped (state : LineState)
  deriving DecidableEq

/-- The state behind a character that is outside quotes. -/
def LineState.ofPlain (c : Char) : LineState :=
  if c = '\\' then escaped plain else if c = '"' then double else if c = '\'' then single else plain

/-- The state behind the next character. -/
def LineState.next : LineState → Char → LineState
  | plain, c => if isBlank c && c ≠ '\n' && c ≠ '\r' then blank else ofPlain c
  | blank, c => ofPlain c
  | single, c => if c = '\\' then escaped single else if c = '\'' then plain else single
  | double, c => if c = '\\' then escaped double else if c = '"' then plain else double
  | escaped state, _ => state

/-- A line without a comment at its end, and the state at its end if it has no comment. -/
def cutComment : LineState → List Char → List Char × Option LineState
  | state, [] => ([], some state)
  | state, c :: rest =>
    if state = .blank ∧ c = '#' then ([], none)
    else
      let (kept, last) := cutComment (state.next c) rest
      (c :: kept, last)

/-- Joins lines that quotes hold together; `begun` is the start of the next one. The last
is `none` if it does not end. -/
def joinLines (begun : List Char) (state : LineState) :
    List (List Char) → List (Option (List Char))
  | [] => if state = .plain then [] else [none]
  | line :: lines =>
    let whole := begun ++ line
    if (skipBlanks whole).head? = some '#' then some [] :: joinLines [] .plain lines
    else
      match cutComment state line with
      | (kept, none) => some (begun ++ kept) :: joinLines [] .plain lines
      | (_, some .plain) => some whole :: joinLines [] .plain lines
      | (_, some state) => joinLines whole state lines

/-- The lines of a text, each with the line feed that ends it. -/
def endedLines : List Char → List (List Char)
  | [] => []
  | c :: rest =>
    if c = '\n' then [c] :: endedLines rest
    else
      match endedLines rest with
      | line :: lines => (c :: line) :: lines
      | [] => [[c]]

/-- The variables of an environment and, for those it does not have, of the lines of a
file, where the first assignment to a variable counts. There is no environment with a
null character in a value. -/
def addLines? (environment assigned : Environment) :
    List (Option (List Char)) → Option Environment
  | [] | none :: _ => some environment
  | some line :: lines =>
    let lookup (name : String) : String :=
      match environment.lookup name with
      | some value => value
      | none => (assigned.lookup name).getD ""
    match readAssignment? lookup line with
    | none => some environment
    | some none => addLines? environment assigned lines
    | some (some (name, value)) =>
      if (environment.lookup name).isSome then
        addLines? environment ((name, value) :: assigned) lines
      else if value.contains '\x00' then none
      else addLines? (environment ++ [(name, value)]) ((name, value) :: assigned) lines

/-- The variables of an environment together with those of a file's text. A byte order
mark in front of the text does not count. -/
def Environment.withFile? (environment : Environment) (text : String) : Option Environment :=
  let text := match text.toList with
    | '\ufeff' :: rest => rest
    | text => text
  addLines? environment [] (joinLines [] .plain (endedLines text))

end Procurement
