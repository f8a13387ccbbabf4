import Procurement.Text.Decimal
import Procurement.Vocabulary

/-!
# Arguments

The arguments of a run name one command. Options start with two dashes and take
a value, either behind an equals sign or as the next argument, which then must
not look like an option. The options for the settings file and the database may
stand anywhere. Behind two dashes alone nothing is an option.
-/

namespace Procurement

open Procurement.Text

/-- The kinds of entities that commands work on. -/
inductive EntityChoice where
  | tender
  | bid
  deriving DecidableEq, Repr

/-- What a run is asked to do. -/
inductive Command where
  | migrate
  | stats
  | decide (actor bid : String) (decision : Decision)
  | rollback (kind : EntityChoice) (id : String) (version : Int) (actor : String)
  | history (kind : EntityChoice) (id : String)
  | reviews (requester tender author : String) (offset : Int) (limit : Option Int)
  deriving DecidableEq

/-- A command and the options that do not belong to it. -/
structure Invocation where
  /-- The settings file to use. -/
  config : Option String
  /-- The address of the database to use. -/
  database : Option String
  command : Command
  deriving DecidableEq

/-- Why arguments name no command to carry out. -/
inductive Unserved where
  /-- An explanation is asked for. -/
  | help
  /-- The arguments are not understood. -/
  | misuse
  deriving DecidableEq, Repr

/-- What a command, or the program as a whole, understands: its options and the arguments
that are not options, each with a test of its values. -/
structure Grammar where
  options : List (String × (String → Bool))
  positions : List (String × (String → Bool))

/-- Any text will do. -/
def anyText (_ : String) : Bool := true

/-- A whole number of 64 bits. -/
def wholeNumber? (text : String) : Option Int :=
  (readInteger? text.toList).filter fun n => -9223372036854775808 ≤ n ∧ n ≤ 9223372036854775807

/-- The kind of entity that a word names. -/
def EntityChoice.ofWord? : String → Option EntityChoice
  | "tender" => some tender
  | "bid" => some bid
  | _ => none

/-- Whether a word is a decision. -/
def isDecisionWord (text : String) : Bool :=
  match Decision.read text with
  | .ok _ => true
  | .error _ => false

/-- The options that may stand anywhere. -/
def commonOptions : List (String × (String → Bool)) := [("config", anyText), ("database", anyText)]

/-- What the program understands in front of a command. -/
def programGrammar : Grammar := ⟨commonOptions, []⟩

/-- What each command understands. -/
def commandGrammars : List (String × Grammar) :=
  let number (text : String) : Bool := (wholeNumber? text).isSome
  let kind (text : String) : Bool := (EntityChoice.ofWord? text).isSome
  [("migrate", ⟨commonOptions, []⟩),
    ("stats", ⟨commonOptions, []⟩),
    ("decide",
      ⟨[("actor", anyText), ("bid", anyText), ("decision", isDecisionWord)] ++ commonOptions, []⟩),
    ("rollback",
      ⟨("actor", anyText) :: commonOptions,
        [("kind", kind), ("id", anyText), ("version", number)]⟩),
    ("history", ⟨commonOptions, [("kind", kind), ("id", anyText)]⟩),
    ("reviews",
      ⟨[("requester", anyText), ("tender", anyText), ("author", anyText), ("offset", number),
          ("limit", number)] ++ commonOptions, []⟩)]

/-- The values given so far, and the argument that is still to be settled. -/
structure Reading where
  /-- The settled values by the names of what they are for. -/
  given : List (String × String) := []
  /-- An option, with its value once it has one, or an argument that is no option. -/
  pending : Option (String × Option String) := none
  /-- How many arguments there were that are no options. -/
  position : Nat := 0
  /-- Nothing that follows is an option. -/
  literal : Bool := false

namespace Reading

/-- Whether the next argument may be the value of an option. -/
def awaitsValue (r : Reading) : Bool :=
  match r.pending with
  | some (_, none) => true
  | _ => false

/-- Adds the pending value, which must be there, pass its test and be the first of its name. -/
def settle (grammar : Grammar) (r : Reading) : Except Unserved Reading :=
  match r.pending with
  | none => .ok r
  | some (_, none) => .error .misuse
  | some (name, some value) =>
    let test := (grammar.options ++ grammar.positions).lookup name
    if (r.given.lookup name).isNone && test.any (fun test => test value) then
      .ok { r with given := (name, value) :: r.given, pending := none }
    else .error .misuse

/-- Reads an option from behind its dashes. -/
def readOption (grammar : Grammar) (r : Reading) (text : List Char) : Except Unserved Reading := do
  let name := String.ofList (text.takeWhile (· ≠ '='))
  let value := match text.dropWhile (· ≠ '=') with
    | _ :: value => some (String.ofList value)
    | [] => none
  if name = "help" then
    match value with
    | some _ => throw .misuse
    | none => do
      let _ ← r.settle grammar
      throw .help
  else if (grammar.options.lookup name).isSome then do
    let r ← r.settle grammar
    let r := { r with pending := some (name, value) }
    if value.isSome then r.settle grammar else pure r
  else throw .misuse

/-- Reads an argument that is no option. -/
def readPosition (grammar : Grammar) (r : Reading) (text : String) : Except Unserved Reading := do
  match grammar.positions[r.position]? with
  | none => throw .misuse
  | some (name, _) =>
    let r ← r.settle grammar
    pure { r with pending := some (name, some text), position := r.position + 1 }

/-- Reads one argument. -/
def readArgument (grammar : Grammar) (r : Reading) (argument : String) :
    Except Unserved Reading := do
  if r.literal then r.readPosition grammar argument
  else
    match argument.toList with
    | ['-', '-'] => pure { r with literal := true }
    | '-' :: '-' :: text => r.readOption grammar text
    | '-' :: 'h' :: _ => do
      let _ ← r.settle grammar
      throw .help
    | '-' :: _ :: _ => throw .misuse
    | _ =>
      match r.pending with
      | some (name, none) => pure { r with pending := some (name, some argument) }
      | _ => r.readPosition grammar argument

end Reading

/-- Reads the arguments of a command. -/
def readCommandArguments (grammar : Grammar) (arguments : List String) :
    Except Unserved (List (String × String)) := do
  let reading ← arguments.foldlM (fun (r : Reading) argument => r.readArgument grammar argument) {}
  let reading ← reading.settle grammar
  pure reading.given

/-- What is said to a request for help on the named commands, of which there is at most one. -/
def helpOn : List String → Unserved
  | [] => .help
  | [name] => if name = "help" ∨ (commandGrammars.lookup name).isSome then .help else .misuse
  | _ => .misuse

/-- The command that a name and values make, if all values are there that it needs. -/
def commandOf? (name : String) (given : List (String × String)) : Option Command := do
  let text (key : String) : Option String := given.lookup key
  let kind : Option EntityChoice := (text "kind").bind EntityChoice.ofWord?
  let number (key : String) : Option Int := (text key).bind wholeNumber?
  match name with
  | "migrate" => pure .migrate
  | "stats" => pure .stats
  | "decide" =>
    let decision ← (Decision.read (← text "decision")).toOption
    pure (.decide (← text "actor") (← text "bid") decision)
  | "rollback" => pure (.rollback (← kind) (← text "id") (← number "version") (← text "actor"))
  | "history" => pure (.history (← kind) (← text "id"))
  | "reviews" =>
    pure (.reviews (← text "requester") (← text "tender") (← text "author")
      ((number "offset").getD 0) (number "limit"))
  | _ => none

/-- Reads arguments up to the name of a command, and then the command. -/
def readInvocation : Reading → List String → Except Unserved Invocation
  | _, [] => throw .misuse
  | r, argument :: rest => do
    let command := if r.literal || r.awaitsValue then none else commandGrammars.lookup argument
    match command with
    | some grammar => do
      let own ← readCommandArguments grammar rest
      match commandOf? argument own with
      | none => throw .misuse
      | some command => do
        let r ← r.settle programGrammar
        let given := own ++ r.given
        pure { config := given.lookup "config", database := given.lookup "database", command }
    | none =>
      if argument = "help" && !r.literal && !r.awaitsValue then throw (helpOn rest)
      else do readInvocation (← r.readArgument programGrammar argument) rest

/-- The invocation that arguments make. -/
def Invocation.ofArguments (arguments : List String) : Except Unserved Invocation :=
  readInvocation {} arguments

end Procurement
