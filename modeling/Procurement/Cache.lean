/-!
# Caches

A cache remembers identifiers that are known to be stored, or what usernames
stand for, and counts how it is used. Nothing is ever forgotten. Filling a
cache at the start is not counted; looking up is, by its result.
-/

namespace Procurement

/-- How often a cache was looked up with and without success, and added to. -/
structure Counters where
  hits : UInt64 := 0
  misses : UInt64 := 0
  additions : UInt64 := 0
  deriving DecidableEq, Repr

namespace Counters

/-- The counters after one more successful look-up. -/
def hit (c : Counters) : Counters := { c with hits := c.hits + 1 }

/-- The counters after one more look-up in vain. -/
def miss (c : Counters) : Counters := { c with misses := c.misses + 1 }

/-- The counters after one more addition. -/
def addition (c : Counters) : Counters := { c with additions := c.additions + 1 }

/-- The counters after a look-up with the given result. -/
def lookup (c : Counters) (found : Bool) : Counters := if found then c.hit else c.miss

end Counters

/-- The identifiers known to be stored. -/
structure ExistenceCache where
  /-- The identifiers, each once, in the order of their arrival. -/
  ids : List String := []
  counters : Counters := {}
  deriving DecidableEq, Repr

namespace ExistenceCache

/-- Whether an identifier is known. -/
def knows (cache : ExistenceCache) (id : String) : Bool := cache.ids.contains id

/-- The number of known identifiers. -/
def size (cache : ExistenceCache) : Nat := cache.ids.length

/-- Makes an identifier known, without counting. -/
def learn (cache : ExistenceCache) (id : String) : ExistenceCache :=
  if cache.knows id then cache else { cache with ids := cache.ids ++ [id] }

/-- Makes identifiers known, without counting. -/
def warmUp (cache : ExistenceCache) (ids : List String) : ExistenceCache :=
  ids.foldl learn cache

/-- Adds an identifier; an addition is counted only if it was not known before. -/
def add (cache : ExistenceCache) (id : String) : ExistenceCache :=
  if cache.knows id then cache
  else { ids := cache.ids ++ [id], counters := cache.counters.addition }

/-- Looks an identifier up and counts the look-up. -/
def lookup (cache : ExistenceCache) (id : String) : Bool × ExistenceCache :=
  let found := cache.knows id
  (found, { cache with counters := cache.counters.lookup found })

end ExistenceCache

/-- What keys stand for. -/
structure LookupCache where
  /-- The keys with their values, each key once, in the order of their arrival. -/
  entries : List (String × String) := []
  counters : Counters := {}
  deriving DecidableEq, Repr

namespace LookupCache

/-- What a key stands for. -/
def value? (cache : LookupCache) (key : String) : Option String := cache.entries.lookup key

/-- The number of keys. -/
def size (cache : LookupCache) : Nat := cache.entries.length

/-- Lets a key stand for a value, in place of an earlier one, without counting. -/
def learn (cache : LookupCache) (key value : String) : LookupCache :=
  if (cache.value? key).isSome then
    { cache with
      entries := cache.entries.map fun entry => if entry.1 = key then (key, value) else entry }
  else { cache with entries := cache.entries ++ [(key, value)] }

/-- Takes in entries, the later ones prevailing, without counting. -/
def warmUp (cache : LookupCache) (entries : List (String × String)) : LookupCache :=
  entries.foldl (fun cache entry => cache.learn entry.1 entry.2) cache

/-- Adds an entry; every addition is counted. -/
def add (cache : LookupCache) (key value : String) : LookupCache :=
  let cache := cache.learn key value
  { cache with counters := cache.counters.addition }

/-- Looks a key up and counts the look-up. -/
def lookup (cache : LookupCache) (key : String) : Option String × LookupCache :=
  let found := cache.value? key
  (found, { cache with counters := cache.counters.lookup found.isSome })

end LookupCache

/-- The caches of a market: the identifiers of its tenders and bids, and the
identifiers that its usernames stand for. -/
structure Caches where
  tenders : ExistenceCache := {}
  bids : ExistenceCache := {}
  users : LookupCache := {}
  deriving DecidableEq, Repr

end Procurement
