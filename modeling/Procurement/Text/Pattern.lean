import Procurement.Text.Decimal
import Procurement.Text.Letter

/-!
# Patterns

Which texts are patterns for matching values: characters, sets of characters in
brackets, groups, alternatives and repetitions. Counted repetitions are not among
them, nor is what needs to know the class of a character beyond ASCII, unless
the pattern says that it is about ASCII alone.
-/

namespace Procurement.Text

/-- How a part of a pattern is meant. -/
structure PatternMode where
  /-- The case of letters does not matter. -/
  caseless : Bool := false
  /-- Classes of characters are those of ASCII. -/
  ascii : Bool := false

/-- What a backslash and the characters behind it stand for. -/
inductive Escaped where
  | character (c : Char)
  /-- A class of characters, such as digits. -/
  | kind
  /-- The start or end of the text. -/
  | edge
  /-- A place between a word and something else. -/
  | boundary

/-- Whether a character other than a letter or digit may stand behind a backslash. -/
def isEscapable (c : Char) : Bool :=
  c.toNat < 128 && !c.isAlphanum && c ≠ '<' && c ≠ '>'

/-- Reads the number of a character, with the given number of hexadecimal digits. -/
def readCodePoint? (count : Nat) (text : List Char) : Option (Escaped × List Char) :=
  let ds := text.take count
  let n := numberOfDigits 16 ds
  if ds.length = count && ds.all isHexDigit && n.isValidChar then
    some (.character (Char.ofNat n), text.drop count)
  else none

/-- Reads what is behind a backslash. -/
def readEscaped? : List Char → Option (Escaped × List Char)
  | [] => none
  | c :: rest =>
    match c with
    | 'x' => readCodePoint? 2 rest
    | 'u' => readCodePoint? 4 rest
    | 'U' => readCodePoint? 8 rest
    | 'd' | 's' | 'w' | 'D' | 'S' | 'W' => some (.kind, rest)
    | 'a' => some (.character '\x07', rest)
    | 'f' => some (.character '\x0c', rest)
    | 'n' => some (.character '\n', rest)
    | 'r' => some (.character '\r', rest)
    | 't' => some (.character '\t', rest)
    | 'v' => some (.character '\x0b', rest)
    | 'A' | 'z' => some (.edge, rest)
    | 'b' | 'B' | '<' | '>' => some (.boundary, rest)
    | c => if isEscapable c then some (.character c, rest) else none

/-- Reads a character of a set, or the class of characters that an escape stands for. -/
def readSetItem? (mode : PatternMode) : List Char → Option (Option Char × List Char)
  | [] => none
  | '\\' :: rest => do
    match ← readEscaped? rest with
    | (.character c, rest) => pure (some c, rest)
    | (.kind, rest) => if mode.ascii then pure (none, rest) else none
    | _ => none
  | c :: rest => some (some c, rest)

/-- Reads an item of a set, which may be a range from one character to another. -/
def readSetRange? (mode : PatternMode) (text : List Char) : Option (List Char) := do
  let (first, rest) ← readSetItem? mode text
  match rest with
  | [] => none
  | '-' :: ']' :: _ | '-' :: '-' :: _ => pure rest
  | '-' :: rest =>
    let (last, rest) ← readSetItem? mode rest
    if (← first) ≤ (← last) then pure rest else none
  | _ => pure rest

/-- The names of the classes of ASCII characters. -/
def asciiClasses : List String :=
  ["alnum", "alpha", "ascii", "blank", "cntrl", "digit", "graph", "lower", "print", "punct",
    "space", "upper", "word", "xdigit"]

/-- Reads the name of a class of ASCII characters from behind its opening bracket. -/
def readAsciiClass? (text : List Char) : Option (List Char) :=
  match text with
  | ':' :: rest =>
    let rest := match rest with
      | '^' :: rest => rest
      | rest => rest
    let name := rest.takeWhile (· ≠ ':')
    match rest.drop name.length with
    | ':' :: ']' :: rest => if String.ofList name ∈ asciiClasses then some rest else none
    | _ => none
  | _ => none

/-- Skips what may open a set behind its bracket: a mark of negation, and then hyphens or a
closing bracket that stand for themselves. -/
def skipSetOpening (text : List Char) : List Char :=
  let text := match text with
    | '^' :: rest => rest
    | text => text
  match text with
  | ']' :: rest => rest
  | text => text.dropWhile (· = '-')

/-- Reads the rest of a set that is inside the given number of brackets. -/
def readSet? (mode : PatternMode) : Nat → Nat → List Char → Option (List Char)
  | 0, _, _ => none
  | _ + 1, 0, text => some text
  | fuel + 1, depth + 1, text =>
    match text with
    | '[' :: rest =>
      match readAsciiClass? rest with
      | some rest => readSet? mode fuel (depth + 1) rest
      | none => readSet? mode fuel (depth + 2) (skipSetOpening rest)
    | ']' :: rest => readSet? mode fuel depth rest
    | '&' :: '&' :: rest | '-' :: '-' :: rest | '~' :: '~' :: rest =>
      readSet? mode fuel (depth + 1) rest
    | text => (readSetRange? mode text).bind (readSet? mode fuel (depth + 1))

/-- The mode after flags have been set or, behind a hyphen, unset. The flags seen so far
must not come again, and something must be behind a hyphen. -/
def setFlags? (seen : List Char) (mode : PatternMode) : List Char → Option PatternMode
  | [] => if seen.head? = some '-' then none else some mode
  | c :: flags =>
    let unset := seen.contains '-'
    if seen.contains c then none
    else
      match c with
      | 'i' => setFlags? (c :: seen) { mode with caseless := !unset } flags
      | 'u' => setFlags? (c :: seen) { mode with ascii := unset } flags
      | '-' | 'm' | 's' | 'U' | 'R' | 'x' => setFlags? (c :: seen) mode flags
      | _ => none

/-- Whether a text can be the name of a group. -/
def isGroupName : List Char → Bool
  | [] => false
  | c :: name =>
    (c = '_' || (isAlphanumeric c && !c.isDigit)) &&
      name.all fun c => isAlphanumeric c || ['_', '.', '[', ']'].contains c

/-- Where a reader of a pattern is. -/
structure PatternState where
  mode : PatternMode := {}
  /-- The modes outside the groups around, innermost first. -/
  outer : List PatternMode := []
  /-- The names of groups so far. -/
  names : List (List Char) := []
  /-- Whether what was read last can be repeated. -/
  repeatable : Bool := false

namespace PatternState

/-- The state behind something that can be repeated. -/
def behindItem (state : PatternState) : PatternState := { state with repeatable := true }

/-- The state at the start of a group with a mode of its own. -/
def inGroup (state : PatternState) (mode : PatternMode) : PatternState :=
  { state with mode, outer := state.mode :: state.outer, repeatable := false }

/-- The state at the start of a group with a name. -/
def inNamedGroup? (state : PatternState) (text : List Char) :
    Option (PatternState × List Char) :=
  let name := text.takeWhile (· ≠ '>')
  match text.drop name.length with
  | _ :: rest =>
    if isGroupName name && !state.names.contains name then
      some ({ state.inGroup state.mode with names := name :: state.names }, rest)
    else none
  | [] => none

/-- The state behind an opening parenthesis and what belongs to it. -/
def open? (state : PatternState) : List Char → Option (PatternState × List Char)
  | '?' :: '=' :: _ | '?' :: '!' :: _ | '?' :: '<' :: '=' :: _ | '?' :: '<' :: '!' :: _ => none
  | '?' :: 'P' :: '<' :: rest | '?' :: '<' :: rest => state.inNamedGroup? rest
  | '?' :: rest => do
    let flags := rest.takeWhile fun c => c ≠ ':' && c ≠ ')'
    let mode ← setFlags? [] state.mode flags
    match rest.drop flags.length with
    | ':' :: rest => pure (state.inGroup mode, rest)
    | _ :: rest =>
      if flags.isEmpty then none else pure ({ state with mode, repeatable := false }, rest)
    | [] => none
  | rest => some (state.inGroup state.mode, rest)

/-- Whether a character can stand for itself. -/
def allowsCharacter (state : PatternState) : Bool := !state.mode.caseless || state.mode.ascii

/-- The state behind an escape. -/
def behindEscape? (state : PatternState) : Escaped → Option PatternState
  | .character _ => if state.allowsCharacter then some state.behindItem else none
  | .kind | .boundary => if state.mode.ascii then some state.behindItem else none
  | .edge => some state.behindItem

end PatternState

/-- Whether a text goes on with a pattern up to its end. -/
def goesOnAsPattern : Nat → PatternState → List Char → Bool
  | 0, _, _ => false
  | _ + 1, state, [] => state.outer.isEmpty
  | fuel + 1, state, c :: rest =>
    match c with
    | '(' =>
      match state.open? rest with
      | some (state, rest) => goesOnAsPattern fuel state rest
      | none => false
    | ')' =>
      match state.outer with
      | mode :: outer => goesOnAsPattern fuel { state.behindItem with mode, outer } rest
      | [] => false
    | '|' => goesOnAsPattern fuel { state with repeatable := false } rest
    | '[' =>
      match readSet? state.mode (rest.length + 2) 1 (skipSetOpening rest) with
      | some rest => state.allowsCharacter && goesOnAsPattern fuel state.behindItem rest
      | none => false
    | '*' | '+' | '?' =>
      let rest := match rest with
        | '?' :: rest => rest
        | rest => rest
      state.repeatable && goesOnAsPattern fuel state.behindItem rest
    | '{' => false
    | '\\' =>
      match readEscaped? rest with
      | some (escaped, rest) =>
        match state.behindEscape? escaped with
        | some state => goesOnAsPattern fuel state rest
        | none => false
      | none => false
    | '.' | '^' | '$' => goesOnAsPattern fuel state.behindItem rest
    | _ => state.allowsCharacter && goesOnAsPattern fuel state.behindItem rest

/-- Whether a text is a pattern. -/
def isPattern (text : List Char) : Bool := goesOnAsPattern (text.length + 1) {} text

end Procurement.Text
