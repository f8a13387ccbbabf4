import Procurement.Cache
import Mathlib.Data.List.Nodup

/-!
# What caches know

A cache differs from another only in what it was taught, if look-ups are left out
of account. What a cache learns from an addition does not depend on how often it
was looked up, and an addition teaches it exactly one thing.
-/

namespace Procurement

/-- The counters as if nothing had ever been looked up. -/
def Counters.uncounted (c : Counters) : Counters := { additions := c.additions }

/-- A look-up is not seen once look-ups are left out of account. -/
theorem Counters.uncounted_lookup (c : Counters) (found : Bool) :
    (c.lookup found).uncounted = c.uncounted := by
  cases found <;> rfl

namespace ExistenceCache

/-- The cache as if nothing had ever been looked up in it. -/
def uncounted (cache : ExistenceCache) : ExistenceCache :=
  { cache with counters := cache.counters.uncounted }

/-- Looking an identifier up teaches a cache nothing. -/
theorem uncounted_lookup (cache : ExistenceCache) (id : String) :
    (cache.lookup id).2.uncounted = cache.uncounted :=
  congrArg (fun counters => { cache with counters }) (Counters.uncounted_lookup _ _)

/-- What an addition does to a cache does not depend on earlier look-ups. -/
theorem uncounted_add (cache : ExistenceCache) (id : String) :
    (cache.add id).uncounted = (cache.uncounted.add id).uncounted := by
  have hknows : cache.uncounted.knows id = cache.knows id := rfl
  unfold add
  rw [hknows]
  split <;> rfl

/-- An identifier is known once it has been added. -/
theorem knows_add (cache : ExistenceCache) (id : String) : (cache.add id).knows id = true := by
  unfold add
  split
  · assumption
  · simp [knows]

/-- A cache knows just the identifiers that it holds. -/
theorem knows_iff (cache : ExistenceCache) (id : String) : cache.knows id = true ↔ id ∈ cache.ids :=
  List.contains_iff_mem

/-- A new identifier goes behind all others. -/
theorem ids_add {cache : ExistenceCache} {id : String} (h : id ∉ cache.ids) :
    (cache.add id).ids = cache.ids ++ [id] := by
  unfold add
  rw [if_neg (by rwa [knows_iff])]

/-- A new identifier that is learnt goes behind all others. -/
theorem ids_learn {cache : ExistenceCache} {id : String} (h : id ∉ cache.ids) :
    (cache.learn id).ids = cache.ids ++ [id] := by
  unfold learn
  rw [if_neg (by rwa [knows_iff])]

/-- Filling a cache with new identifiers keeps their order. -/
theorem ids_warmUp {cache : ExistenceCache} {ids : List String}
    (h : (cache.ids ++ ids).Nodup) : (cache.warmUp ids).ids = cache.ids ++ ids := by
  induction ids generalizing cache with
  | nil => exact (List.append_nil _).symm
  | cons id rest ih =>
    have hnew : id ∉ cache.ids := by
      intro hmem
      exact List.disjoint_of_nodup_append h hmem List.mem_cons_self
    have hrest : (cache.learn id).ids ++ rest = cache.ids ++ id :: rest := by
      rw [ids_learn hnew, List.append_assoc, List.singleton_append]
    rw [← hrest]
    exact ih (hrest ▸ h)

end ExistenceCache

namespace LookupCache

/-- The cache as if nothing had ever been looked up in it. -/
def uncounted (cache : LookupCache) : LookupCache :=
  { cache with counters := cache.counters.uncounted }

/-- Looking a key up teaches a cache nothing. -/
theorem uncounted_lookup (cache : LookupCache) (key : String) :
    (cache.lookup key).2.uncounted = cache.uncounted :=
  congrArg (fun counters => { cache with counters }) (Counters.uncounted_lookup _ _)

/-- What an addition does to a cache of keys does not depend on earlier look-ups. -/
theorem uncounted_add (cache : LookupCache) (key value : String) :
    (cache.add key value).uncounted = (cache.uncounted.add key value).uncounted := by
  have hvalue : cache.uncounted.value? key = cache.value? key := rfl
  unfold add learn
  rw [hvalue]
  split <;> rfl

/-- A key stands for nothing just if no entry has it. -/
theorem value?_eq_none_iff (cache : LookupCache) (key : String) :
    cache.value? key = none ↔ key ∉ cache.entries.map Prod.fst := by
  rw [value?, List.lookup_eq_none_iff, List.mem_map]
  constructor
  · rintro h ⟨entry, hentry, rfl⟩
    exact absurd rfl (bne_iff_ne.mp (h entry hentry))
  · intro h entry hentry
    exact bne_iff_ne.mpr fun heq => h ⟨entry, hentry, heq.symm⟩

/-- A key that stands in one entry stands for the value in that entry. -/
theorem value?_eq_some_iff {cache : LookupCache} (h : (cache.entries.map Prod.fst).Nodup)
    (key value : String) : cache.value? key = some value ↔ (key, value) ∈ cache.entries := by
  constructor
  · intro hvalue
    obtain ⟨before, rest, heq, _⟩ := List.lookup_eq_some_iff.mp hvalue
    rw [heq]
    exact List.mem_append_right _ List.mem_cons_self
  · intro hmem
    cases hvalue : cache.value? key with
    | none =>
      exact absurd (List.mem_map_of_mem hmem) ((value?_eq_none_iff cache key).mp hvalue)
    | some value' =>
      obtain ⟨before, rest, heq, _⟩ := List.lookup_eq_some_iff.mp hvalue
      have hmem' : (key, value') ∈ cache.entries := by
        rw [heq]
        exact List.mem_append_right _ List.mem_cons_self
      have hsame := List.inj_on_of_nodup_map h hmem' hmem rfl
      rw [(Prod.mk.inj hsame).2]

/-- A new key that is learnt goes behind all others. -/
theorem entries_learn {cache : LookupCache} {key : String}
    (h : key ∉ cache.entries.map Prod.fst) (value : String) :
    (cache.learn key value).entries = cache.entries ++ [(key, value)] := by
  unfold learn
  rw [(value?_eq_none_iff cache key).mpr h]
  rfl

/-- A new key goes behind all others. -/
theorem entries_add {cache : LookupCache} {key : String}
    (h : key ∉ cache.entries.map Prod.fst) (value : String) :
    (cache.add key value).entries = cache.entries ++ [(key, value)] :=
  entries_learn h value

/-- Filling a cache with new keys keeps their order. -/
theorem entries_warmUp {cache : LookupCache} {entries : List (String × String)}
    (h : ((cache.entries ++ entries).map Prod.fst).Nodup) :
    (cache.warmUp entries).entries = cache.entries ++ entries := by
  induction entries generalizing cache with
  | nil => exact (List.append_nil _).symm
  | cons entry rest ih =>
    have hnew : entry.1 ∉ cache.entries.map Prod.fst := by
      intro hmem
      rw [List.map_append] at h
      exact List.disjoint_of_nodup_append h hmem List.mem_cons_self
    have hrest : (cache.learn entry.1 entry.2).entries ++ rest =
        cache.entries ++ entry :: rest := by
      rw [entries_learn hnew, List.append_assoc, List.singleton_append]
    rw [← hrest]
    exact ih (hrest ▸ h)

end LookupCache

/-- The caches as if nothing had ever been looked up in them. -/
def Caches.uncounted (caches : Caches) : Caches where
  tenders := caches.tenders.uncounted
  bids := caches.bids.uncounted
  users := caches.users.uncounted

/-! ## Contents -/

/-- What a cache of identifiers knows, with nothing counted. -/
def ExistenceCache.contents (cache : ExistenceCache) : ExistenceCache := { ids := cache.ids }

/-- What a cache of keys knows, with nothing counted. -/
def LookupCache.contents (cache : LookupCache) : LookupCache := { entries := cache.entries }

/-- What is known does not depend on what was counted. -/
theorem ExistenceCache.contents_add (cache : ExistenceCache) (id : String) :
    (cache.add id).contents = (cache.contents.add id).contents := by
  have hknows : cache.contents.knows id = cache.knows id := rfl
  unfold add
  rw [hknows]
  split <;> rfl

/-- What keys stand for does not depend on what was counted. -/
theorem LookupCache.contents_add (cache : LookupCache) (key value : String) :
    (cache.add key value).contents = (cache.contents.add key value).contents := by
  have hvalue : cache.contents.value? key = cache.value? key := rfl
  unfold add learn
  rw [hvalue]
  split <;> rfl

/-- What the caches know, with nothing counted. -/
def Caches.contents (caches : Caches) : Caches where
  tenders := caches.tenders.contents
  bids := caches.bids.contents
  users := caches.users.contents

end Procurement
