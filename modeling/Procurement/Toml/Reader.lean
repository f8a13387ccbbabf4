import Procurement.Toml.Document
import Procurement.Toml.Moment
import Procurement.Toml.Quoted
import Procurement.Toml.Scalar

/-!
# Reading settings files

A file is read line by line: blank lines and comments, headers of tables and of
tables in a list, and keys with values. Only lists and tripled quotes go on from
one line to the next. Keys, and lists and tables within each other, go only so
deep.
-/

namespace Procurement.Toml

/-- A text without the spaces and tabs at its front. -/
def skipGap (text : List Char) : List Char := text.dropWhile fun c => c = ' ' || c = '\t'

/-- Whether a character may stand in a key that is not quoted. -/
def isKeyChar (c : Char) : Bool := c.isAlphanum || c = '_' || c = '-'

/-- Reads one part of a key. -/
def readKeyPart? (text : List Char) : Option (String × List Char) :=
  match text with
  | '"' :: '"' :: '"' :: _ | '\'' :: '\'' :: '\'' :: _ => none
  | '"' :: _ | '\'' :: _ => readText? text
  | _ =>
    match text.takeWhile isKeyChar with
    | [] => none
    | chars => some (String.ofList chars, text.drop chars.length)

/-- Reads parts of a key, with points between them, as many as are allowed. -/
def readKeyParts? : Nat → List Char → Option (List String × List Char)
  | 0, _ => none
  | most + 1, text => do
    let (part, rest) ← readKeyPart? (skipGap text)
    match skipGap rest with
    | '.' :: rest =>
      let (parts, rest) ← readKeyParts? most rest
      pure (part :: parts, rest)
    | rest => pure ([part], rest)

/-- How many parts a key may have, and how deep lists and tables in one line may be nested. -/
def greatestDepth : Nat := 79

/-- Reads a key. -/
def readKey? (text : List Char) : Option (List String × List Char) :=
  readKeyParts? greatestDepth text

/-- Skips the rest of a line, which holds at most a comment. -/
def skipLineEnd? (text : List Char) : Option (List Char) :=
  let rest := match skipGap text with
    | '#' :: rest => rest.dropWhile isPrintable
    | rest => rest
  match rest with
  | [] => some []
  | '\n' :: rest => some rest
  | '\r' :: '\n' :: rest => some rest
  | _ => none

/-- Skips blanks, line breaks and comments. -/
def skipFiller (inComment : Bool) : List Char → Option (List Char)
  | [] => some []
  | '\n' :: rest => skipFiller false rest
  | '\r' :: '\n' :: rest => skipFiller false rest
  | c :: rest =>
    if inComment then (if isPrintable c then skipFiller true rest else none)
    else if c = ' ' || c = '\t' then skipFiller false rest
    else if c = '#' then skipFiller true rest
    else some (c :: rest)

/-- A table written in one line, from its keys and values. -/
def inlineTable? (pairs : List (List String × Toml)) : Option Toml := do
  let entries ← pairs.foldlM (fun (entries : Nodes) (path, value) => do
    addValue? path.dropLast (← path.getLast?) value .header entries) []
  pure (table (finishEntries entries))

mutual

/-- Reads a value, in which lists and tables may be nested as deep as the first number says. -/
def readValue? (room : Nat) : Nat → List Char → Option (Toml × List Char)
  | 0, _ => none
  | fuel + 1, text =>
    match text, room with
    | '"' :: _, _ | '\'' :: _, _ => do
      let (text, rest) ← readText? text
      pure (string text, rest)
    | '[' :: _, 0 | '{' :: _, 0 => none
    | '[' :: rest, room + 1 => do
      let (items, rest) ← readItems? room fuel rest
      pure (array items, rest)
    | '{' :: rest, room + 1 =>
      match skipGap rest with
      | '}' :: rest => some (table [], rest)
      | rest => do
        let (pairs, rest) ← readPairs? room fuel rest
        pure (← inlineTable? pairs, rest)
    | _, _ =>
      match readMoment? text with
      | some found => some found
      | none => do
        let word := text.takeWhile isWordChar
        pure (← ofWord? word, text.drop word.length)

/-- Reads the items of a list and the bracket behind them. -/
def readItems? (room : Nat) : Nat → List Char → Option (List Toml × List Char)
  | 0, _ => none
  | fuel + 1, text => do
    match ← skipFiller false text with
    | ']' :: rest => pure ([], rest)
    | text =>
      let (item, rest) ← readValue? room fuel text
      match ← skipFiller false rest with
      | ']' :: rest => pure ([item], rest)
      | ',' :: rest =>
        let (items, rest) ← readItems? room fuel rest
        pure (item :: items, rest)
      | _ => none

/-- Reads the keys and values of a table in one line and the brace behind them. -/
def readPairs? (room : Nat) : Nat → List Char → Option (List (List String × Toml) × List Char)
  | 0, _ => none
  | fuel + 1, text => do
    let (path, rest) ← readKey? text
    match rest with
    | '=' :: rest =>
      let (value, rest) ← readValue? room fuel (skipGap rest)
      match skipGap rest with
      | '}' :: rest => pure ([(path, value)], rest)
      | ',' :: rest =>
        let (pairs, rest) ← readPairs? room fuel rest
        pure ((path, value) :: pairs, rest)
      | _ => none
    | _ => none

end

/-- Reads the key of a header and what closes it. -/
def readHeader? (closing : List Char) (text : List Char) : Option (List String × List Char) := do
  let (path, rest) ← readKey? text
  if closing.isPrefixOf rest then pure (path, rest.drop closing.length) else none

/-- Reads the lines of a file into a document under construction, under the given header. -/
def readLinesOf? : Nat → List String → Nodes → List Char → Option Nodes
  | 0, _, _, _ => none
  | fuel + 1, header, root, text =>
    match skipGap text with
    | [] => some root
    | '[' :: '[' :: rest => do
      let (path, rest) ← readHeader? [']', ']'] rest
      let root ← openElement? path.dropLast (← path.getLast?) root
      readLinesOf? fuel path root (← skipLineEnd? rest)
    | '[' :: rest => do
      let (path, rest) ← readHeader? [']'] rest
      let root ← openTable? path.dropLast (← path.getLast?) root
      readLinesOf? fuel path root (← skipLineEnd? rest)
    | c :: rest =>
      if c = '#' || c = '\n' || c = '\r' then do
        readLinesOf? fuel header root (← skipLineEnd? (c :: rest))
      else do
        let (path, rest) ← readKey? (c :: rest)
        match rest with
        | '=' :: rest =>
          let (value, rest) ←
            readValue? greatestDepth (2 * rest.length + 2) (skipGap rest)
          let root ← addUnder? header path.dropLast (← path.getLast?) value root
          readLinesOf? fuel header root (← skipLineEnd? rest)
        | _ => none

/-- The key by which a table says that it is a moment. -/
def momentKey : String := "$__toml_private_datetime"

mutual

/-- A value in which each table whose first key says so is the moment that the text of the
key denotes. -/
def withMoments? : Toml → Option Toml
  | array items => (itemsWithMoments? items).map array
  | table [] => some (table [])
  | table ((key, value) :: entries) =>
    if key = momentKey then
      match value with
      | string text => momentOfText? text.toList
      | _ => none
    else do
      let value ← withMoments? value
      pure (table ((key, value) :: (← entriesWithMoments? entries)))
  | value => some value

/-- The items of a list with their moments. -/
def itemsWithMoments? : List Toml → Option (List Toml)
  | [] => some []
  | item :: items => do pure ((← withMoments? item) :: (← itemsWithMoments? items))

/-- The entries of a table with their moments. -/
def entriesWithMoments? : List (String × Toml) → Option (List (String × Toml))
  | [] => some []
  | (key, value) :: entries => do
    pure ((key, ← withMoments? value) :: (← entriesWithMoments? entries))

end

/-- The table that a whole file denotes. One or two marks of the byte order may stand at its
front. -/
def read? (text : String) : Option Toml := do
  let chars := match text.toList with
    | '\uFEFF' :: '\uFEFF' :: rest => rest
    | '\uFEFF' :: rest => rest
    | chars => chars
  let root ← readLinesOf? (chars.length + 1) [] [] chars
  match ← withMoments? (table (finishEntries root)) with
  | table entries => pure (table entries)
  | _ => none

end Procurement.Toml
