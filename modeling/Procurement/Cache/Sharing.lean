import Procurement.Cache

/-!
# Sharing caches

A cache lies in memory and is used through references to it. A copy of a
reference leads to the same cache, counters included, so what is done through
one of them shows through the other.
-/

namespace Procurement

/-- What can be asked of a cache that is taught entries. -/
inductive CacheOperation (Entry : Type) where
  | add (entry : Entry)
  | warmUp (entries : List Entry)
  | lookup (key : String)
  | size
  | isEmpty
  | counters
  /-- Writes the counters to the log. -/
  | log
  deriving DecidableEq, Repr

/-- What a cache answers. -/
inductive CacheAnswer (Found : Type) where
  | done
  | found (value : Found)
  | size (number : Nat)
  | isEmpty (value : Bool)
  | counters (value : Counters)
  deriving DecidableEq, Repr

/-- Carries out an operation on a cache of identifiers. -/
def ExistenceCache.perform (cache : ExistenceCache) :
    CacheOperation String → CacheAnswer Bool × ExistenceCache
  | .add id => (.done, cache.add id)
  | .warmUp ids => (.done, cache.warmUp ids)
  | .lookup id =>
    let (found, next) := cache.lookup id
    (.found found, next)
  | .size => (.size cache.size, cache)
  | .isEmpty => (.isEmpty (cache.size == 0), cache)
  | .counters => (.counters cache.counters, cache)
  | .log => (.done, cache)

/-- Carries out an operation on a cache of keys with their values. -/
def LookupCache.perform (cache : LookupCache) :
    CacheOperation (String × String) → CacheAnswer (Option String) × LookupCache
  | .add (key, value) => (.done, cache.add key value)
  | .warmUp entries => (.done, cache.warmUp entries)
  | .lookup key =>
    let (found, next) := cache.lookup key
    (.found found, next)
  | .size => (.size cache.size, cache)
  | .isEmpty => (.isEmpty (cache.size == 0), cache)
  | .counters => (.counters cache.counters, cache)
  | .log => (.done, cache)

/-- A reference to the cache at a place in memory. -/
structure CacheReference where
  place : Nat
  deriving DecidableEq, Repr

/-- One more reference to the same cache. -/
def CacheReference.copy (reference : CacheReference) : CacheReference :=
  { place := reference.place }

/-- The references through which a cache is used. -/
inductive CacheUser where
  /-- The reference that the cache was made with. -/
  | maker
  /-- A copy of that reference. -/
  | sharer
  deriving DecidableEq, Repr

/-- The reference of a user to the cache that was made with the given one. -/
def CacheUser.reference (made : CacheReference) : CacheUser → CacheReference
  | .maker => made
  | .sharer => made.copy

/-- Memory with caches, each at a place of its own. -/
structure CacheMemory (Cache : Type) where
  caches : List Cache := []
  deriving DecidableEq, Repr

namespace CacheMemory

variable {Cache Operation Answer : Type}

/-- Puts a new cache into memory, with a reference to it. -/
def make (memory : CacheMemory Cache) (cache : Cache) : CacheReference × CacheMemory Cache :=
  ({ place := memory.caches.length }, { caches := memory.caches ++ [cache] })

/-- Carries out an operation on the cache that a reference leads to, if it leads to one. -/
def use (perform : Cache → Operation → Answer × Cache) (reference : CacheReference)
    (operation : Operation) (memory : CacheMemory Cache) : Option Answer × CacheMemory Cache :=
  match memory.caches[reference.place]? with
  | some cache =>
    let (answer, next) := perform cache operation
    (some answer, { caches := memory.caches.set reference.place next })
  | none => (none, memory)

/-- Carries out operations of the users of one cache, in the order in which they come. -/
def interleave (perform : Cache → Operation → Answer × Cache) (made : CacheReference) :
    List (CacheUser × Operation) → CacheMemory Cache → List (Option Answer) × CacheMemory Cache
  | [], memory => ([], memory)
  | (user, operation) :: work, memory =>
    let (answer, memory) := memory.use perform (user.reference made) operation
    let (answers, memory) := memory.interleave perform made work
    (answer :: answers, memory)

end CacheMemory

end Procurement
