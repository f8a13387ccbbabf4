import Procurement.Proofs.CacheHistory

/-!
# Users of one cache

However the users of a cache take turns, what they are answered is what the cache would
answer to one of them alone. So the cache keeps its contract towards all of them
together.
-/

namespace Procurement

open CacheOperation

/-! ## One cache behind all references -/

section Sharing

variable {Cache Operation Answer : Type} (perform : Cache → Operation → Answer × Cache)

/-- All users of a cache refer to the same one. -/
theorem CacheUser.reference_eq (made : CacheReference) (user : CacheUser) :
    user.reference made = made := by
  cases user <;> rfl

/-- An operation through a reference is an operation on the cache at its place, and
leaves the other caches as they are. -/
theorem CacheMemory.use_eq {memory : CacheMemory Cache} {reference : CacheReference}
    {cache : Cache} (h : memory.caches[reference.place]? = some cache) (operation : Operation) :
    memory.use perform reference operation =
      (some (perform cache operation).1,
        { caches := memory.caches.set reference.place (perform cache operation).2 }) := by
  unfold use
  rw [h]

/-- The users of a cache work on the cache itself, whoever has which turn. -/
theorem CacheMemory.interleave_eq {memory : CacheMemory Cache} {made : CacheReference}
    {cache : Cache} (h : memory.caches[made.place]? = some cache)
    (work : List (CacheUser × Operation)) :
    memory.interleave perform made work =
      (((performAll perform cache (work.map Prod.snd)).1).map some,
        { caches := memory.caches.set made.place
            (performAll perform cache (work.map Prod.snd)).2 }) := by
  induction work generalizing memory cache with
  | nil =>
    obtain ⟨hplace, hcache⟩ := List.getElem?_eq_some_iff.mp h
    simp only [interleave, List.map_nil, performAll, ← hcache, List.set_getElem_self]
  | cons turn rest ih =>
    obtain ⟨user, operation⟩ := turn
    have hplace : made.place < memory.caches.length := (List.getElem?_eq_some_iff.mp h).1
    have huse := use_eq perform h operation
    have hnext : (memory.caches.set made.place (perform cache operation).2)[made.place]? =
        some (perform cache operation).2 := by
      rw [List.getElem?_set_self hplace]
    have hrest := @ih ⟨memory.caches.set made.place (perform cache operation).2⟩ _ hnext
    simp only [interleave, CacheUser.reference_eq, huse, hrest, List.map_cons, performAll,
      List.set_set]

/-- What the users of a new cache are answered as they take turns. -/
def CacheMemory.answersTo (memory : CacheMemory Cache) (cache : Cache)
    (work : List (CacheUser × Operation)) : List (Option Answer) :=
  let (made, memory) := memory.make cache
  (memory.interleave perform made work).1

/-- What a user of a new cache is answered after the users have taken turns. -/
def CacheMemory.answerAfter (memory : CacheMemory Cache) (cache : Cache)
    (work : List (CacheUser × Operation)) (user : CacheUser) (operation : Operation) :
    Option Answer :=
  let (made, memory) := memory.make cache
  ((memory.interleave perform made work).2.use perform (user.reference made) operation).1

/-- A new cache is where its reference leads. -/
theorem CacheMemory.getElem?_make (memory : CacheMemory Cache) (cache : Cache) :
    (memory.make cache).2.caches[(memory.make cache).1.place]? = some cache :=
  List.getElem?_concat_length

/-- Users who take turns are answered as one user would be. -/
theorem CacheMemory.answersTo_eq (memory : CacheMemory Cache) (cache : Cache)
    (work : List (CacheUser × Operation)) :
    memory.answersTo perform cache work =
      (performAll perform cache (work.map Prod.snd)).1.map some := by
  unfold answersTo
  dsimp only
  rw [interleave_eq perform (getElem?_make memory cache)]

/-- After users took turns each of them is answered as one user would be. -/
theorem CacheMemory.answerAfter_eq (memory : CacheMemory Cache) (cache : Cache)
    (work : List (CacheUser × Operation)) (user : CacheUser) (operation : Operation) :
    memory.answerAfter perform cache work user operation =
      some (perform (performAll perform cache (work.map Prod.snd)).2 operation).1 := by
  have hmade := getElem?_make memory cache
  have hplace := (List.getElem?_eq_some_iff.mp hmade).1
  unfold answerAfter
  dsimp only
  rw [interleave_eq perform hmade, CacheUser.reference_eq, use_eq perform]
  exact List.getElem?_set_self hplace

end Sharing

/-! ## Contracts with all users -/

namespace CacheContract

variable {Cache Entry Found : Type} (contract : CacheContract Entry Found)
  (perform : Cache → CacheOperation Entry → CacheAnswer Found × Cache)

/-- The users of a new cache find it to be as its contract says, whoever of them did
what before. -/
structure Holds (new : Cache) (memory : CacheMemory Cache)
    (work : List (CacheUser × CacheOperation Entry)) (user : CacheUser) : Prop where
  lookup : ∀ key, memory.answerAfter perform new work user (.lookup key) =
    some (.found (contract.find (taughtBy (work.map Prod.snd)) key))
  size : memory.answerAfter perform new work user .size =
    some (.size (sizeBy contract.name (work.map Prod.snd)))
  grows : ∀ turn, sizeBy contract.name (work.map Prod.snd) ≤
    sizeBy contract.name ((work ++ [turn]).map Prod.snd)
  isEmpty : memory.answerAfter perform new work user .isEmpty =
    some (.isEmpty (taughtBy (work.map Prod.snd)).isEmpty)
  counters : ∃ c : Counters,
    memory.answerAfter perform new work user .counters = some (.counters c) ∧
    c.hits = UInt64.ofNat ((memory.answersTo perform new work).countP
      fun answer => answer.any (·.finds contract.isHit)) ∧
    c.misses = UInt64.ofNat ((memory.answersTo perform new work).countP
      fun answer => answer.any (·.finds (!contract.isHit ·))) ∧
    c.hits + c.misses = UInt64.ofNat ((work.map Prod.snd).countP isLookup) ∧
    c.additions = UInt64.ofNat (contract.additions (work.map Prod.snd))
  silent : ∀ turn, turn.2.isSilent = true →
    memory.answerAfter perform new (work ++ [turn]) user .counters =
      memory.answerAfter perform new work user .counters

variable {contract perform}

/-- A cache that keeps its contract alone keeps it towards all its users. -/
theorem holds_of_kept {new : Cache}
    (hkept : ∀ history, contract.Kept perform history (performAll perform new history).1
      (performAll perform new history).2)
    (hfinds : ∀ cache operation,
      (perform cache operation).1.finds (fun _ => true) = operation.isLookup)
    (hsilent : ∀ cache operation, operation.isSilent = true →
      (perform (perform cache operation).2 .counters).1 = (perform cache .counters).1)
    (memory : CacheMemory Cache) (work : List (CacheUser × CacheOperation Entry))
    (user : CacheUser) : contract.Holds perform new memory work user := by
  have hwork := hkept (work.map Prod.snd)
  constructor
  · intro key
    rw [CacheMemory.answerAfter_eq, hwork.lookup]
  · rw [CacheMemory.answerAfter_eq, hwork.size]
  · intro turn
    rw [List.map_append]
    exact sizeBy_le_append _ _ _
  · rw [CacheMemory.answerAfter_eq, hwork.isEmpty]
  · obtain ⟨c, hanswer, hcounted⟩ := hwork.counters
    refine ⟨c, ?_, ?_, ?_, ?_, ?_⟩
    · rw [CacheMemory.answerAfter_eq, hanswer]
    · rw [CacheMemory.answersTo_eq, List.countP_map, hcounted]
      rfl
    · rw [CacheMemory.answersTo_eq, List.countP_map, hcounted]
      rfl
    · rw [hcounted, Counters.hits_add_misses_ofNumbers, countP_finds_add,
        countP_finds_performAll hfinds]
    · rw [hcounted]
      rfl
  · intro turn hturn
    rw [CacheMemory.answerAfter_eq, CacheMemory.answerAfter_eq, List.map_append, List.map_singleton,
      performAll_append_singleton, hsilent _ _ hturn]

end CacheContract

/-- However the users of a cache of identifiers take turns, it is a set to them; a cache
of keys is a map. -/
theorem shared_caches_keep_contracts :
    (∀ memory work user, ExistenceCache.contract.Holds ExistenceCache.perform {} memory work user) ∧
    ∀ memory work user, LookupCache.contract.Holds LookupCache.perform {} memory work user := by
  constructor
  · exact CacheContract.holds_of_kept ExistenceCache.kept ExistenceCache.finds_perform
      fun cache _ h => congrArg CacheAnswer.counters (ExistenceCache.counters_perform h cache)
  · exact CacheContract.holds_of_kept LookupCache.kept LookupCache.finds_perform
      fun cache _ h => congrArg CacheAnswer.counters (LookupCache.counters_perform h cache)

end Procurement
