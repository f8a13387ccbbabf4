import Procurement.Cache.Sharing
import Procurement.Proofs.Cache
import Mathlib.Data.List.Dedup
import Mathlib.Data.List.Induction
import Mathlib.Data.List.Perm.Subperm

/-!
# Caches and what was done to them

After any operations a cache of identifiers is the set of those that it was taught, and
a cache of keys the map from each key to the value that it was taught last. The counters
show how many look-ups found something and how many did not, and the additions; a set
counts an addition only if it grows by it.
-/

namespace Procurement

section PerformAll

variable {Cache Operation Answer : Type} (perform : Cache → Operation → Answer × Cache)

/-- Carries out operations on a cache, one after the other. -/
def performAll (cache : Cache) : List Operation → List Answer × Cache
  | [] => ([], cache)
  | operation :: rest =>
    let (answer, cache) := perform cache operation
    let (answers, cache) := performAll cache rest
    (answer :: answers, cache)

/-- The last operation is carried out after all others, and answered behind them. -/
theorem performAll_append_singleton (cache : Cache) (history : List Operation)
    (operation : Operation) :
    performAll perform cache (history ++ [operation]) =
      ((performAll perform cache history).1 ++
          [(perform (performAll perform cache history).2 operation).1],
        (perform (performAll perform cache history).2 operation).2) := by
  induction history generalizing cache with
  | nil => rfl
  | cons first rest ih =>
    simp only [List.cons_append, performAll, ih]

end PerformAll

/-! ## Histories -/

namespace CacheOperation

variable {Entry : Type}

/-- The entries that an operation teaches a cache. -/
def taught : CacheOperation Entry → List Entry
  | add entry => [entry]
  | warmUp entries => entries
  | lookup _ | size | isEmpty | counters | log => []

/-- Whether an operation looks something up. -/
def isLookup : CacheOperation Entry → Bool
  | lookup _ => true
  | _ => false

/-- Whether an operation is an addition. -/
def isAddition : CacheOperation Entry → Bool
  | add _ => true
  | _ => false

/-- Whether no counter takes notice of an operation. -/
def isSilent (operation : CacheOperation Entry) : Bool :=
  !operation.isLookup && !operation.isAddition

/-- The entries that operations teach a cache, in their order. -/
def taughtBy (history : List (CacheOperation Entry)) : List Entry := history.flatMap taught

/-- The last operation teaches behind all others. -/
theorem taughtBy_append_singleton (history : List (CacheOperation Entry))
    (operation : CacheOperation Entry) :
    taughtBy (history ++ [operation]) = taughtBy history ++ operation.taught := by
  simp [taughtBy]

/-- How many different names the entries have that operations teach. -/
def sizeBy (name : Entry → String) (history : List (CacheOperation Entry)) : Nat :=
  ((taughtBy history).map name).dedup.length

/-- The size is zero just if nothing was taught. -/
theorem sizeBy_beq_zero (name : Entry → String) (history : List (CacheOperation Entry)) :
    (sizeBy name history == 0) = (taughtBy history).isEmpty := by
  rw [Bool.eq_iff_iff, beq_iff_eq, List.isEmpty_iff, sizeBy, List.length_eq_zero_iff,
    List.dedup_eq_nil, List.map_eq_nil_iff]

/-- Teaching more makes no cache smaller. -/
theorem sizeBy_le_append (name : Entry → String) (history : List (CacheOperation Entry))
    (operation : CacheOperation Entry) :
    sizeBy name history ≤ sizeBy name (history ++ [operation]) := by
  unfold sizeBy
  rw [taughtBy_append_singleton, List.map_append]
  refine (List.subperm_of_subset (List.nodup_dedup _) fun entry hentry => ?_).length_le
  rw [List.mem_dedup] at hentry ⊢
  exact List.mem_append_left _ hentry

end CacheOperation

open CacheOperation

/-- How many operations meet a condition on themselves and what came before them. -/
def occasions {Operation : Type} (condition : List Operation → Operation → Bool)
    (before : List Operation) : List Operation → Nat
  | [] => 0
  | operation :: rest =>
    (condition before operation).toNat + occasions condition (before ++ [operation]) rest

/-- The last operation is an occasion if it meets the condition on what came before it. -/
theorem occasions_append_singleton {Operation : Type}
    (condition : List Operation → Operation → Bool) (before history : List Operation)
    (operation : Operation) :
    occasions condition before (history ++ [operation]) =
      occasions condition before history + (condition (before ++ history) operation).toNat := by
  induction history generalizing before with
  | nil => simp [occasions]
  | cons first rest ih =>
    rw [List.cons_append, occasions, ih, occasions, List.append_assoc, List.singleton_append,
      Nat.add_assoc]

/-! ## Counting -/

/-- Whether an answer is a finding of the given kind. -/
def CacheAnswer.finds {Found : Type} (kind : Found → Bool) : CacheAnswer Found → Bool
  | found value => kind value
  | _ => false

namespace Counters

/-- Counters that show the given numbers, as far as they have room. -/
def ofNumbers (hits misses additions : Nat) : Counters where
  hits := UInt64.ofNat hits
  misses := UInt64.ofNat misses
  additions := UInt64.ofNat additions

/-- One more addition shows as one more, as far as there is room. -/
theorem addition_ofNumbers (hits misses additions : Nat) :
    (ofNumbers hits misses additions).addition = ofNumbers hits misses (additions + 1) := by
  simp [ofNumbers, addition, UInt64.ofNat_add]

/-- One more look-up shows as a hit or as a miss, as far as there is room. -/
theorem lookup_ofNumbers (hits misses additions : Nat) (found : Bool) :
    (ofNumbers hits misses additions).lookup found =
      ofNumbers (hits + found.toNat) (misses + (!found).toNat) additions := by
  cases found <;> simp [ofNumbers, lookup, hit, miss, UInt64.ofNat_add]

/-- Hits and misses together show how many look-ups there were, as far as there is room. -/
theorem hits_add_misses_ofNumbers (hits misses additions : Nat) :
    (ofNumbers hits misses additions).hits + (ofNumbers hits misses additions).misses =
      UInt64.ofNat (hits + misses) :=
  UInt64.ofNat_add hits misses |>.symm

/-- Counters that show how many answers were hits and how many were misses, and the
given number of additions. -/
def Counted {Found : Type} (isHit : Found → Bool) (answers : List (CacheAnswer Found))
    (additions : Nat) (c : Counters) : Prop :=
  c = ofNumbers (answers.countP (·.finds isHit)) (answers.countP (·.finds (!isHit ·))) additions

section Counted

variable {Found : Type} {isHit : Found → Bool} {answers : List (CacheAnswer Found)}
  {additions : Nat} {c : Counters} (h : c.Counted isHit answers additions)

include h

/-- A counted addition is one more than before. -/
theorem Counted.addition : c.addition.Counted isHit answers (additions + 1) := by
  unfold Counted at *
  rw [h, addition_ofNumbers]

/-- An answer that is no finding is not counted. -/
theorem Counted.silent {answer : CacheAnswer Found}
    (hanswer : answer.finds (fun _ => true) = false) :
    c.Counted isHit (answers ++ [answer]) additions := by
  unfold Counted at *
  cases answer <;> simp_all [CacheAnswer.finds, List.countP_append]

/-- A look-up is counted by what it finds. -/
theorem Counted.lookup (value : Found) :
    (c.lookup (isHit value)).Counted isHit (answers ++ [.found value]) additions := by
  unfold Counted at *
  rw [h, lookup_ofNumbers]
  cases hvalue : isHit value <;> simp [List.countP_append, CacheAnswer.finds, hvalue]

end Counted

end Counters

/-- Each finding is a hit or a miss. -/
theorem countP_finds_add {Found : Type} (isHit : Found → Bool)
    (answers : List (CacheAnswer Found)) :
    answers.countP (·.finds isHit) + answers.countP (·.finds (!isHit ·)) =
      answers.countP (·.finds fun _ => true) := by
  induction answers with
  | nil => rfl
  | cons answer rest ih =>
    simp only [List.countP_cons, ← ih]
    cases answer with
    | found value => cases hvalue : isHit value <;> simp [CacheAnswer.finds, hvalue] <;> omega
    | done | size | isEmpty | counters => rfl

/-- If just look-ups are answered with findings, there are as many of these as of those. -/
theorem countP_finds_performAll {Cache Entry Found : Type}
    {perform : Cache → CacheOperation Entry → CacheAnswer Found × Cache}
    (h : ∀ cache operation,
      (perform cache operation).1.finds (fun _ => true) = operation.isLookup)
    (cache : Cache) (history : List (CacheOperation Entry)) :
    (performAll perform cache history).1.countP (·.finds fun _ => true) =
      history.countP isLookup := by
  induction history generalizing cache with
  | nil => rfl
  | cons operation rest ih =>
    simp only [performAll, List.countP_cons, h, ih]

/-! ## Contracts -/

/-- What a cache that is taught entries promises to those who use it. -/
structure CacheContract (Entry Found : Type) where
  /-- What a key finds after entries were taught. -/
  find : List Entry → String → Found
  isHit : Found → Bool
  /-- By what entries are told apart. -/
  name : Entry → String
  /-- How many of the operations count as additions. -/
  additions : List (CacheOperation Entry) → Nat

namespace CacheContract

variable {Cache Entry Found : Type} (contract : CacheContract Entry Found)
  (perform : Cache → CacheOperation Entry → CacheAnswer Found × Cache)

/-- What a cache answers on its own after operations with their answers, if it keeps its
contract. -/
structure Kept (history : List (CacheOperation Entry)) (answers : List (CacheAnswer Found))
    (cache : Cache) : Prop where
  lookup : ∀ key,
    (perform cache (.lookup key)).1 = .found (contract.find (taughtBy history) key)
  size : (perform cache .size).1 = .size (sizeBy contract.name history)
  isEmpty : (perform cache .isEmpty).1 = .isEmpty (taughtBy history).isEmpty
  counters : ∃ c : Counters, (perform cache .counters).1 = .counters c ∧
    c.Counted contract.isHit answers (contract.additions history)

end CacheContract

/-! ## Sets of identifiers -/

namespace ExistenceCache

/-- The number of additions that make a cache greater. -/
def growthsBy (history : List (CacheOperation String)) : Nat :=
  occasions (fun before operation =>
    operation.isAddition && sizeBy id before < sizeBy id (before ++ [operation])) [] history

/-- A cache that knows just the given identifiers. -/
structure Remembers (cache : ExistenceCache) (ids : List String) : Prop where
  nodup : cache.ids.Nodup
  mem_iff : ∀ id, id ∈ cache.ids ↔ id ∈ ids

/-- A cache tells just the identifiers that it remembers. -/
theorem Remembers.knows_eq {cache : ExistenceCache} {ids : List String}
    (h : cache.Remembers ids) (id : String) : cache.knows id = decide (id ∈ ids) := by
  rw [Bool.eq_iff_iff, knows_iff, h.mem_iff, decide_eq_true_iff]

/-- A cache has the size of what it remembers, with each identifier once. -/
theorem Remembers.size_eq {cache : ExistenceCache} {ids : List String}
    (h : cache.Remembers ids) : cache.size = (ids.map id).dedup.length := by
  rw [List.map_id]
  refine List.Perm.length_eq ((List.perm_ext_iff_of_nodup h.nodup ids.nodup_dedup).mpr fun id => ?_)
  rw [h.mem_iff, List.mem_dedup]

/-- A cache remembers what it learns. -/
theorem Remembers.learn {cache : ExistenceCache} {ids : List String} (h : cache.Remembers ids)
    (id : String) : (cache.learn id).Remembers (ids ++ [id]) := by
  by_cases hid : id ∈ cache.ids
  · have hsame : cache.learn id = cache := if_pos ((knows_iff cache id).mpr hid)
    rw [hsame]
    refine ⟨h.nodup, fun other => ?_⟩
    rw [h.mem_iff, List.mem_append, List.mem_singleton]
    constructor
    · exact Or.inl
    · rintro (hold | rfl)
      · exact hold
      · exact (h.mem_iff other).mp hid
  · refine ⟨?_, fun other => ?_⟩
    · rw [ids_learn hid]
      exact List.nodup_append_comm.mp (List.nodup_cons.mpr ⟨hid, h.nodup⟩)
    · rw [ids_learn hid, List.mem_append, List.mem_append, h.mem_iff]

/-- A cache remembers what it is filled with. -/
theorem Remembers.warmUp {cache : ExistenceCache} {ids : List String} (h : cache.Remembers ids)
    (more : List String) : (cache.warmUp more).Remembers (ids ++ more) := by
  induction more generalizing cache ids with
  | nil => rwa [List.append_nil]
  | cons id rest ih =>
    rw [← List.singleton_append, ← List.append_assoc]
    exact ih (h.learn id)

/-- An addition teaches what it would teach uncounted. -/
theorem ids_add_eq_learn (cache : ExistenceCache) (id : String) :
    (cache.add id).ids = (cache.learn id).ids := by
  unfold add learn
  split <;> rfl

/-- Filling a cache of identifiers is not counted. -/
theorem counters_warmUp (cache : ExistenceCache) (ids : List String) :
    (cache.warmUp ids).counters = cache.counters := by
  induction ids generalizing cache with
  | nil => rfl
  | cons id rest ih =>
    refine (ih (cache.learn id)).trans ?_
    unfold learn
    split <;> rfl

/-- The last operation is one more growth if it is an addition that makes the cache greater. -/
theorem growthsBy_append_singleton (history : List (CacheOperation String))
    (operation : CacheOperation String) :
    growthsBy (history ++ [operation]) = growthsBy history +
      (operation.isAddition && sizeBy id history < sizeBy id (history ++ [operation])).toNat :=
  occasions_append_singleton _ _ _ _

/-- An addition makes a cache greater just if the identifier is new to it. -/
theorem Remembers.sizeBy_lt_iff {cache : ExistenceCache}
    {history : List (CacheOperation String)} (h : cache.Remembers (taughtBy history))
    (name : String) :
    sizeBy id history < sizeBy id (history ++ [.add name]) ↔ cache.knows name = false := by
  have hbefore : sizeBy id history = cache.ids.length := h.size_eq.symm
  have hafter : sizeBy id (history ++ [.add name]) = (cache.learn name).ids.length := by
    rw [sizeBy, taughtBy_append_singleton]
    exact (h.learn name).size_eq.symm
  rw [hbefore, hafter]
  cases hknows : cache.knows name <;> simp [ExistenceCache.learn, hknows]

/-- What a cache that was new knows, and what it has counted, after operations with
their answers. -/
structure Reflects (history : List (CacheOperation String)) (answers : List (CacheAnswer Bool))
    (cache : ExistenceCache) : Prop where
  remembers : cache.Remembers (taughtBy history)
  counted : cache.counters.Counted id answers (growthsBy history)

/-- An addition is remembered, and counted if the identifier was new. -/
theorem Reflects.add {history : List (CacheOperation String)} {answers : List (CacheAnswer Bool)}
    {cache : ExistenceCache} (h : cache.Reflects history answers) (id : String) :
    (cache.add id).Reflects (history ++ [.add id]) (answers ++ [.done]) := by
  have hids := ids_add_eq_learn cache id
  have hlearn := h.remembers.learn id
  have hgrows := h.remembers.sizeBy_lt_iff id
  constructor
  · rw [taughtBy_append_singleton]
    exact ⟨hids ▸ hlearn.nodup, hids ▸ hlearn.mem_iff⟩
  · rw [growthsBy_append_singleton]
    cases hknows : cache.knows id with
    | true =>
      rw [ExistenceCache.add, if_pos hknows]
      simpa [isAddition, hgrows, hknows] using h.counted.silent rfl
    | false =>
      rw [ExistenceCache.add, if_neg (by simp [hknows])]
      simpa [isAddition, hgrows, hknows] using (h.counted.silent rfl).addition

/-- What teaches nothing leaves what is remembered. -/
theorem Reflects.of_ids_eq {history : List (CacheOperation String)}
    {answers : List (CacheAnswer Bool)} {cache next : ExistenceCache}
    {operation : CacheOperation String} {answer : CacheAnswer Bool}
    (h : cache.Reflects history answers) (hids : next.ids = cache.ids)
    (htaught : operation.taught = []) (hadd : operation.isAddition = false)
    (hcounted : next.counters.Counted id (answers ++ [answer]) (growthsBy history)) :
    next.Reflects (history ++ [operation]) (answers ++ [answer]) := by
  constructor
  · rw [taughtBy_append_singleton, htaught, List.append_nil]
    exact ⟨hids ▸ h.remembers.nodup, hids ▸ h.remembers.mem_iff⟩
  · rw [growthsBy_append_singleton, hadd]
    exact hcounted

/-- Each operation keeps a cache in agreement with what was done to it. -/
theorem Reflects.perform {history : List (CacheOperation String)}
    {answers : List (CacheAnswer Bool)} {cache : ExistenceCache}
    (h : cache.Reflects history answers) (operation : CacheOperation String) :
    (cache.perform operation).2.Reflects (history ++ [operation])
      (answers ++ [(cache.perform operation).1]) := by
  cases operation with
  | add id => exact h.add id
  | warmUp ids =>
    constructor
    · rw [taughtBy_append_singleton]
      exact h.remembers.warmUp ids
    · rw [growthsBy_append_singleton]
      have hcounters : (cache.perform (.warmUp ids)).2.counters = cache.counters :=
        counters_warmUp cache ids
      rw [hcounters]
      exact h.counted.silent rfl
  | lookup id => exact h.of_ids_eq rfl rfl rfl (h.counted.lookup _)
  | size | isEmpty | counters | log => exact h.of_ids_eq rfl rfl rfl (h.counted.silent rfl)

/-- Over all operations a cache of identifiers reflects what was done to it. -/
theorem reflects_performAll (history : List (CacheOperation String)) :
    (performAll perform {} history).2.Reflects history (performAll perform {} history).1 := by
  induction history using List.reverseRecOn with
  | nil => exact ⟨⟨List.nodup_nil, fun _ => Iff.rfl⟩, rfl⟩
  | append_singleton history operation ih =>
    rw [performAll_append_singleton]
    exact ih.perform operation

/-- A set: an identifier is found just if it was taught, and an addition counts just if
it makes the set greater. -/
def contract : CacheContract String Bool where
  find taught id := decide (id ∈ taught)
  isHit := id
  name := id
  additions := growthsBy

/-- A cache of identifiers keeps its contract. -/
theorem kept (history : List (CacheOperation String)) :
    contract.Kept perform history (performAll perform {} history).1
      (performAll perform {} history).2 := by
  have h := reflects_performAll history
  have hsize : (performAll perform {} history).2.size = sizeBy id history := h.remembers.size_eq
  constructor
  · exact fun id => congrArg CacheAnswer.found (h.remembers.knows_eq id)
  · exact congrArg CacheAnswer.size hsize
  · rw [← sizeBy_beq_zero id, ← hsize]
    rfl
  · exact ⟨_, rfl, h.counted⟩

/-- A cache of identifiers answers just look-ups with findings. -/
theorem finds_perform (cache : ExistenceCache) (operation : CacheOperation String) :
    (cache.perform operation).1.finds (fun _ => true) = operation.isLookup := by
  cases operation <;> rfl

/-- No counter moves for what is neither a look-up nor an addition. -/
theorem counters_perform {operation : CacheOperation String}
    (h : operation.isSilent = true) (cache : ExistenceCache) :
    (cache.perform operation).2.counters = cache.counters := by
  cases operation with
  | add => cases h
  | lookup => cases h
  | warmUp ids => exact counters_warmUp cache ids
  | size | isEmpty | counters | log => rfl

end ExistenceCache

/-! ## Maps of keys -/

namespace LookupCache

/-- A cache in which each key stands for the last value that it has in the given entries. -/
structure Remembers (cache : LookupCache) (entries : List (String × String)) : Prop where
  nodup : (cache.entries.map Prod.fst).Nodup
  value?_eq : ∀ key, cache.value? key = entries.reverse.lookup key

/-- A cache of keys has the size of what it remembers, with each key once. -/
theorem Remembers.size_eq {cache : LookupCache} {entries : List (String × String)}
    (h : cache.Remembers entries) : cache.size = (entries.map Prod.fst).dedup.length := by
  have hkeys : (cache.entries.map Prod.fst).Perm (entries.map Prod.fst).dedup := by
    refine (List.perm_ext_iff_of_nodup h.nodup (List.nodup_dedup _)).mpr fun key => ?_
    rw [List.mem_dedup, ← not_iff_not, ← value?_eq_none_iff, h.value?_eq,
      List.lookup_eq_none_iff]
    simp only [List.mem_reverse, bne_iff_ne, List.mem_map, not_exists, not_and, ne_comm (a := key),
      ne_eq]
  rw [← hkeys.length_eq, List.length_map]
  rfl

/-- A key that is given another value stays where it was. -/
theorem map_fst_learn_of_mem (cache : LookupCache) (key value : String) :
    (cache.entries.map fun entry => if entry.1 = key then (key, value) else entry).map Prod.fst =
      cache.entries.map Prod.fst := by
  rw [List.map_map]
  refine List.map_congr_left fun entry _ => ?_
  by_cases hkey : entry.1 = key <;> simp [hkey]

/-- What a key stands for is in the first entry that has it. -/
theorem lookup_cons_eq_ite (entry : String × String) (entries : List (String × String))
    (key : String) :
    (entry :: entries).lookup key = if key = entry.1 then some entry.2 else entries.lookup key := by
  rw [List.lookup_cons]
  by_cases h : key = entry.1
  · simp [h]
  · rw [if_neg h, beq_false_of_ne h]

/-- Giving a key another value leaves what other keys stand for. -/
theorem lookup_map_learn (entries : List (String × String)) (key value other : String) :
    (entries.map fun entry => if entry.1 = key then (key, value) else entry).lookup other =
      if other = key then (entries.lookup key).map fun _ => value else entries.lookup other := by
  induction entries with
  | nil => simp
  | cons entry rest ih =>
    rw [List.map_cons, lookup_cons_eq_ite, ih, lookup_cons_eq_ite, lookup_cons_eq_ite]
    by_cases hentry : entry.1 = key <;> by_cases hother : other = key <;>
      simp [hentry, hother, eq_comm (a := key)]

/-- A key stands for the value that it learnt last. -/
theorem value?_learn (cache : LookupCache) (key value other : String) :
    (cache.learn key value).value? other =
      if other = key then some value else cache.value? other := by
  cases hvalue : cache.value? key with
  | some old =>
    have hlearn : (cache.learn key value).entries = cache.entries.map fun entry =>
        if entry.1 = key then (key, value) else entry := by
      unfold learn
      rw [hvalue]
      rfl
    unfold value? at *
    rw [hlearn, lookup_map_learn, hvalue, Option.map_some]
  | none =>
    rw [value?, entries_learn ((value?_eq_none_iff cache key).mp hvalue), List.lookup_append,
      lookup_cons_eq_ite, ← value?]
    by_cases hother : other = key <;> simp [hother, hvalue]

/-- A cache of keys remembers what it learns, the later value in place of the earlier. -/
theorem Remembers.learn {cache : LookupCache} {entries : List (String × String)}
    (h : cache.Remembers entries) (key value : String) :
    (cache.learn key value).Remembers (entries ++ [(key, value)]) := by
  constructor
  · by_cases hkey : key ∈ cache.entries.map Prod.fst
    · have hsome : (cache.value? key).isSome = true := by
        rw [Option.isSome_iff_ne_none, ne_eq, value?_eq_none_iff]
        exact not_not_intro hkey
      unfold LookupCache.learn
      rw [if_pos hsome, map_fst_learn_of_mem]
      exact h.nodup
    · rw [entries_learn hkey, List.map_append]
      exact List.nodup_append_comm.mp (List.nodup_cons.mpr ⟨hkey, h.nodup⟩)
  · intro other
    rw [value?_learn, List.reverse_append, h.value?_eq, List.reverse_singleton,
      List.singleton_append, lookup_cons_eq_ite]

/-- A cache of keys remembers what it is filled with, the later values in place of the earlier. -/
theorem Remembers.warmUp {cache : LookupCache} {entries : List (String × String)}
    (h : cache.Remembers entries) (more : List (String × String)) :
    (cache.warmUp more).Remembers (entries ++ more) := by
  induction more generalizing cache entries with
  | nil => rwa [List.append_nil]
  | cons entry rest ih =>
    rw [← List.singleton_append, ← List.append_assoc]
    exact ih (h.learn entry.1 entry.2)

/-- Learning is not counted. -/
theorem counters_learn (cache : LookupCache) (key value : String) :
    (cache.learn key value).counters = cache.counters := by
  unfold learn
  split <;> rfl

/-- Filling a cache of keys is not counted. -/
theorem counters_warmUp (cache : LookupCache) (entries : List (String × String)) :
    (cache.warmUp entries).counters = cache.counters := by
  induction entries generalizing cache with
  | nil => rfl
  | cons entry rest ih =>
    exact (ih (cache.learn entry.1 entry.2)).trans (counters_learn cache entry.1 entry.2)

/-- What a cache that was new knows, and what it has counted, after operations with
their answers. -/
structure Reflects (history : List (CacheOperation (String × String)))
    (answers : List (CacheAnswer (Option String))) (cache : LookupCache) : Prop where
  remembers : cache.Remembers (taughtBy history)
  counted : cache.counters.Counted Option.isSome answers (history.countP isAddition)

/-- What teaches nothing leaves what keys stand for. -/
theorem Reflects.of_entries_eq {history : List (CacheOperation (String × String))}
    {answers : List (CacheAnswer (Option String))} {cache next : LookupCache}
    {operation : CacheOperation (String × String)} {answer : CacheAnswer (Option String)}
    (h : cache.Reflects history answers) (hentries : next.entries = cache.entries)
    (htaught : operation.taught = []) (hadd : operation.isAddition = false)
    (hcounted : next.counters.Counted Option.isSome (answers ++ [answer])
      (history.countP isAddition)) :
    next.Reflects (history ++ [operation]) (answers ++ [answer]) := by
  constructor
  · rw [taughtBy_append_singleton, htaught, List.append_nil]
    refine ⟨hentries ▸ h.remembers.nodup, fun key => ?_⟩
    unfold value?
    rw [hentries]
    exact h.remembers.value?_eq key
  · simpa [List.countP_append, hadd] using hcounted

/-- Each operation keeps a cache in agreement with what was done to it. -/
theorem Reflects.perform {history : List (CacheOperation (String × String))}
    {answers : List (CacheAnswer (Option String))} {cache : LookupCache}
    (h : cache.Reflects history answers) (operation : CacheOperation (String × String)) :
    (cache.perform operation).2.Reflects (history ++ [operation])
      (answers ++ [(cache.perform operation).1]) := by
  cases operation with
  | add entry =>
    have hlearn := h.remembers.learn entry.1 entry.2
    constructor
    · rw [taughtBy_append_singleton]
      exact ⟨hlearn.nodup, hlearn.value?_eq⟩
    · have hcounters : (cache.perform (.add entry)).2.counters = cache.counters.addition :=
        congrArg Counters.addition (counters_learn cache entry.1 entry.2)
      rw [hcounters, List.countP_append]
      exact (h.counted.silent rfl).addition
  | warmUp entries =>
    constructor
    · rw [taughtBy_append_singleton]
      exact h.remembers.warmUp entries
    · have hcounters : (cache.perform (.warmUp entries)).2.counters = cache.counters :=
        counters_warmUp cache entries
      rw [hcounters, List.countP_append]
      exact h.counted.silent rfl
  | lookup key => exact h.of_entries_eq rfl rfl rfl (h.counted.lookup _)
  | size | isEmpty | counters | log => exact h.of_entries_eq rfl rfl rfl (h.counted.silent rfl)

/-- Over all operations a cache of keys reflects what was done to it. -/
theorem reflects_performAll (history : List (CacheOperation (String × String))) :
    (performAll perform {} history).2.Reflects history (performAll perform {} history).1 := by
  induction history using List.reverseRecOn with
  | nil => exact ⟨⟨List.nodup_nil, fun _ => rfl⟩, rfl⟩
  | append_singleton history operation ih =>
    rw [performAll_append_singleton]
    exact ih.perform operation

/-- A map: a key finds the last value that it was taught with, and every addition counts. -/
def contract : CacheContract (String × String) (Option String) where
  find taught key := taught.reverse.lookup key
  isHit := Option.isSome
  name := Prod.fst
  additions history := history.countP isAddition

/-- A cache of keys keeps its contract. -/
theorem kept (history : List (CacheOperation (String × String))) :
    contract.Kept perform history (performAll perform {} history).1
      (performAll perform {} history).2 := by
  have h := reflects_performAll history
  have hsize : (performAll perform {} history).2.size = sizeBy Prod.fst history :=
    h.remembers.size_eq
  constructor
  · exact fun key => congrArg CacheAnswer.found (h.remembers.value?_eq key)
  · exact congrArg CacheAnswer.size hsize
  · rw [← sizeBy_beq_zero Prod.fst, ← hsize]
    rfl
  · exact ⟨_, rfl, h.counted⟩

/-- A cache of keys answers just look-ups with findings. -/
theorem finds_perform (cache : LookupCache)
    (operation : CacheOperation (String × String)) :
    (cache.perform operation).1.finds (fun _ => true) = operation.isLookup := by
  cases operation <;> rfl

/-- No counter of a cache of keys moves for what is neither a look-up nor an addition. -/
theorem counters_perform {operation : CacheOperation (String × String)}
    (h : operation.isSilent = true) (cache : LookupCache) :
    (cache.perform operation).2.counters = cache.counters := by
  cases operation with
  | add => cases h
  | lookup => cases h
  | warmUp entries => exact counters_warmUp cache entries
  | size | isEmpty | counters | log => rfl

end LookupCache

end Procurement
