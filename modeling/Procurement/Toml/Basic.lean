import Procurement.Binary64

/-!
# Untyped settings

Values as settings files and environments give them, before it is known what
type a setting has. A table keeps its entries in the order in which they came,
and has each key once.
-/

namespace Procurement

/-- An untyped value. -/
inductive Toml where
  | boolean (value : Bool)
  | integer (value : Int)
  | float (value : Binary64)
  | string (text : String)
  /-- A day, a time of day or both, by its text. -/
  | moment (text : String)
  | array (items : List Toml)
  | table (entries : List (String × Toml))
  /-- An item of a list that was never given. -/
  | missing

namespace Toml

/-- The entries of a table; other values have none. -/
def entries : Toml → List (String × Toml)
  | table entries => entries
  | _ => []

/-- The items of a list; other values have none. -/
def items : Toml → List Toml
  | array items => items
  | _ => []

/-- The value of a key in a table. -/
def get? (value : Toml) (key : String) : Option Toml := value.entries.lookup key

mutual

/-- Whether two values are the same. -/
def same : Toml → Toml → Bool
  | boolean a, boolean b => a = b
  | integer a, integer b => a = b
  | float a, float b => a = b
  | string a, string b | moment a, moment b => a = b
  | array a, array b => sameItems a b
  | table a, table b => sameEntries a b
  | missing, missing => true
  | _, _ => false

/-- Whether two lists have the same items. -/
def sameItems : List Toml → List Toml → Bool
  | [], [] => true
  | a :: as, b :: bs => a.same b && sameItems as bs
  | _, _ => false

/-- Whether two tables have the same entries, in the same order. -/
def sameEntries : List (String × Toml) → List (String × Toml) → Bool
  | [], [] => true
  | (key, a) :: as, (key', b) :: bs => key = key' && a.same b && sameEntries as bs
  | _, _ => false

end

mutual

/-- Just equal values are the same. -/
theorem same_iff (a b : Toml) : a.same b = true ↔ a = b := by
  cases a with
  | array items => cases b <;> simp [same, sameItems_iff items]
  | table entries => cases b <;> simp [same, sameEntries_iff entries]
  | _ => cases b <;> simp [same]

/-- Just equal lists have the same items. -/
theorem sameItems_iff (as bs : List Toml) : sameItems as bs = true ↔ as = bs := by
  cases as with
  | nil => cases bs <;> simp [sameItems]
  | cons a as => cases bs <;> simp [sameItems, same_iff a, sameItems_iff as]

/-- Just equal tables have the same entries. -/
theorem sameEntries_iff (as bs : List (String × Toml)) :
    sameEntries as bs = true ↔ as = bs := by
  cases as with
  | nil => cases bs <;> simp [sameEntries]
  | cons entry as =>
    obtain ⟨key, a⟩ := entry
    cases bs with
    | nil => simp [sameEntries]
    | cons entry bs => simp [sameEntries, same_iff a, sameEntries_iff as, Prod.ext_iff]

end

/-- Values can be compared. -/
instance : DecidableEq Toml := fun a b => decidable_of_iff _ (same_iff a b)

end Toml

/-- Gives a key a value, in the place of the value that it had or behind all others. -/
def putEntry {α : Type} (key : String) (value : α) : List (String × α) → List (String × α)
  | [] => [(key, value)]
  | (k, v) :: entries =>
    if k = key then (key, value) :: entries else (k, v) :: putEntry key value entries

/-- A key has the value that it was given last. -/
theorem lookup_putEntry_self {α : Type} (key : String) (value : α)
    (entries : List (String × α)) : (putEntry key value entries).lookup key = some value := by
  induction entries with
  | nil => simp [putEntry]
  | cons entry entries ih =>
    obtain ⟨k, v⟩ := entry
    by_cases h : k = key
    · simp [putEntry, h]
    · have hk : (key == k) = false := by simpa using Ne.symm h
      simp [putEntry, h, List.lookup_cons, hk, ih]

/-- Giving a key a value leaves the values of all other keys. -/
theorem lookup_putEntry_of_ne {α : Type} {key other : String} (value : α)
    (entries : List (String × α)) (hne : other ≠ key) :
    (putEntry key value entries).lookup other = entries.lookup other := by
  have hother : (other == key) = false := by simpa using hne
  induction entries with
  | nil => simp [putEntry, List.lookup_cons, hother]
  | cons entry entries ih =>
    obtain ⟨k, v⟩ := entry
    by_cases h : k = key
    · subst h
      simp [putEntry, List.lookup_cons, hother]
    · simp [putEntry, h, List.lookup_cons, ih]

end Procurement
