import Procurement.Settings.Typed

/-!
# Layers of settings

A layer gives values to keys. A layer laid over a table replaces the values it
gives and keeps the others, and does the same within tables. Keys count in lower
case. The key of a layer may be a path: names with points between them, and
places of items in brackets, which count from the end if they are negative.
-/

namespace Procurement

open Procurement.Text

mutual

/-- A value laid over another one. -/
def Toml.over (base : Toml) : Toml → Toml
  | .table entries => overEntries base entries
  | value => value

/-- The entries of a table laid over a value; over anything but a table they make one. -/
def overEntries (base : Toml) : List (String × Toml) → Toml
  | [] => base
  | (key, value) :: entries =>
    let key := lower key
    let inner := Toml.over ((base.get? key).getD (.table [])) value
    overEntries (.table (putEntry key inner base.entries)) entries

end

/-- One step of a path: into an entry of a table, or to an item of a list. -/
inductive PathPart where
  | key (name : String)
  | item (place : Int)
  deriving DecidableEq, Repr

/-- Whether a character may stand in a path's name of an entry. -/
def isNameChar (c : Char) : Bool := c.isAlphanum || c = ' ' || c = '_' || c = '-'

/-- A text without the spaces and tabs at its front. -/
def skipGaps (text : List Char) : List Char := text.dropWhile fun c => c = ' ' || c = '\t'

/-- Reads the place of an item, a number of 64 bits, and the bracket behind it. -/
def readPlace? (text : List Char) : Option (Int × List Char) :=
  let (negative, rest) := match skipGaps text with
    | '-' :: rest => (true, rest)
    | rest => (false, rest)
  let (ds, rest) := takeDigits rest.length rest
  let n : Int := numberOfDigits 10 ds
  let n := if negative then -n else n
  match skipGaps rest with
  | ']' :: rest =>
    if ds ≠ [] ∧ -9223372036854775808 ≤ n ∧ n ≤ 9223372036854775807 then some (n, rest) else none
  | _ => none

/-- Reads the rest of a path behind its first name. -/
def readPathParts? : Nat → List Char → Option (List PathPart)
  | _, [] => some []
  | 0, _ => none
  | fuel + 1, '.' :: text =>
    match text.takeWhile isNameChar with
    | [] => none
    | name => do
      pure (.key (String.ofList name) :: (← readPathParts? fuel (text.drop name.length)))
  | fuel + 1, '[' :: text => do
    let (place, rest) ← readPlace? text
    pure (.item place :: (← readPathParts? fuel rest))
  | _ + 1, _ => none

/-- The parts of a path; a key that is no path is taken as a whole. -/
def pathParts (key : String) : List PathPart :=
  let name := key.toList.takeWhile isNameChar
  match name, readPathParts? key.length (key.toList.drop name.length) with
  | _ :: _, some parts => .key (String.ofList name) :: parts
  | _, _ => [.key key]

/-- The number of items that a list may get. It stands for memory: a list grows as far as
there is room for it. -/
def longestList : Nat := 1000000

/-- The index in a list of the given length that a place means, if the list can have it. -/
def indexOfPlace? (length : Nat) (place : Int) : Option Nat :=
  let index := if 0 ≤ place then place else length + place
  if 0 ≤ index ∧ index < longestList then some index.toNat else none

/-- A list with an item put at an index; if it is too short, items that were never given
come in between. -/
def putItem (index : Nat) (item : Toml) (items : List Toml) : List Toml :=
  (items ++ List.replicate (index + 1 - items.length) Toml.missing).set index item

/-- A value laid over what a path leads to. Tables and lists are made on the way where
there are none. There is no result if an item would come in front of its list. -/
def Toml.overAt? (base : Toml) : List PathPart → Toml → Option Toml
  | [], value => some value
  | [.key name], value => some (overEntries base [(name, value)])
  | .key name :: path, value => do
    let key := lower name
    let inner ← Toml.overAt? ((base.get? key).getD .missing) path value
    pure (.table (putEntry key inner base.entries))
  | .item place :: path, value => do
    let index ← indexOfPlace? base.items.length place
    let inner ← Toml.overAt? (base.items.getD index .missing) path value
    pure (.array (putItem index inner base.items))

/-- The values that a layer gives to its keys. -/
abbrev Layer := List (String × Toml)

/-- A layer laid over a table. -/
def Layer.over? (base : Toml) (layer : Layer) : Option Toml :=
  layer.foldlM (fun base (key, value) => base.overAt? (pathParts key) value) base

/-- What is wrong with settings. -/
inductive SettingsFault where
  /-- There are none, or they cannot be understood. -/
  | unreadable
  /-- A path leads in front of a list. -/
  | misplaced
  deriving DecidableEq, Repr

/-- The settings that layers give when each is laid over those before it, and the first
over the settings that hold by default. -/
def Settings.ofLayers (layers : List Layer) : Except SettingsFault Settings := do
  let start := ({} : Settings).toToml
  match layers.foldlM Layer.over? start with
  | none => throw .misplaced
  | some value =>
    match Settings.ofToml? value with
    | some settings => pure settings
    | none => throw .unreadable

end Procurement
