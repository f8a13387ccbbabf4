import Procurement.Proofs.Reading

/-!
# Reading from catalogues

Tenders and bids are two catalogues that differ in where they keep their register
and their cache. What is needed of that to reason about both at once are a few
laws. From them follow the answers of all requests that only read a catalogue:
they depend on what the cache knows and on what the register holds.
-/

namespace Procurement

/-- A catalogue finds in the tables and caches what it put there, and nothing else of
its kind. -/
structure Catalogue.Lawful {Status Origin Content : Type}
    (c : Catalogue Status Origin Content) : Prop where
  register_setRegister : ∀ tables register, c.register (c.setRegister tables register) = register
  setRegister_register : ∀ tables, c.setRegister tables (c.register tables) = tables
  cache_setCache : ∀ caches cache, c.cache (c.setCache caches cache) = cache
  ids_contents : ∀ caches, (c.cache caches.contents).ids = (c.cache caches).ids
  uncounted_setCache : ∀ caches cache, cache.uncounted = (c.cache caches).uncounted →
    (c.setCache caches cache).uncounted = caches.uncounted
  applyTo_registration : ∀ id caches,
    (c.registration id).applyTo caches = c.setCache caches ((c.cache caches).add id)

/-- The catalogue of tenders keeps its register and its cache apart from all others. -/
theorem tenders_lawful : tenders.Lawful where
  register_setRegister _ _ := rfl
  setRegister_register _ := rfl
  cache_setCache _ _ := rfl
  ids_contents _ := rfl
  uncounted_setCache caches _ h :=
    congrArg (fun tenders => { caches.uncounted with tenders }) h
  applyTo_registration _ _ := rfl

/-- The catalogue of bids keeps its register and its cache apart from all others. -/
theorem bids_lawful : bids.Lawful where
  register_setRegister _ _ := rfl
  setRegister_register _ := rfl
  cache_setCache _ _ := rfl
  ids_contents _ := rfl
  uncounted_setCache caches _ h := congrArg (fun bids => { caches.uncounted with bids }) h
  applyTo_registration _ _ := rfl

namespace Catalogue

open Market

variable {Status Origin Content : Type} {c : Catalogue Status Origin Content}

/-- Whether an entity exists is answered by the cache alone. -/
@[simp] theorem answer_exists? (m : Market) (id : String) :
    m.answer (c.exists? id) = .ok ((c.cache m.caches).knows id) := rfl

/-- Caches with the same contents know the same identifiers. -/
theorem Lawful.knows_of_contents (hc : c.Lawful) {caches caches' : Caches}
    (h : caches.contents = caches'.contents) (id : String) :
    (c.cache caches).knows id = (c.cache caches').knows id := by
  have hids : (c.cache caches).ids = (c.cache caches').ids := by
    rw [← hc.ids_contents caches, ← hc.ids_contents caches', h]
  rw [ExistenceCache.knows, ExistenceCache.knows, hids]

/-- Caches that differ in their counters alone know the same identifiers. -/
theorem Lawful.knows_congr (hc : c.Lawful) {caches caches' : Caches}
    (h : caches.uncounted = caches'.uncounted) (id : String) :
    (c.cache caches).knows id = (c.cache caches').knows id := by
  have hcontents : caches.contents = caches'.contents := (congrArg Caches.contents h :)
  exact hc.knows_of_contents hcontents id

/-- Asking whether an entity exists changes nothing but counters. -/
theorem Lawful.onlyReads_exists? (hc : c.Lawful) (id : String) : OnlyReads (c.exists? id) where
  after_uncounted m :=
    congrArg (fun caches => { m with caches })
      (hc.uncounted_setCache m.caches _ (ExistenceCache.uncounted_lookup _ id))
  answer_of_contents h := by
    rw [answer_exists?, answer_exists?, hc.knows_of_contents (caches_of_contents h)]

/-- Only an identifier that the cache knows passes. -/
theorem answer_ensureExists (m : Market) (id : String) :
    m.answer (c.ensureExists id) =
      if (c.cache m.caches).knows id then .ok () else .error (.notFound c.kind id) := by
  unfold ensureExists
  rw [answer_bind, answer_exists?]
  dsimp only
  split <;> rfl

/-- Refusing unknown identifiers changes nothing but counters. -/
theorem Lawful.onlyReads_ensureExists (hc : c.Lawful) (id : String) :
    OnlyReads (c.ensureExists id) :=
  (hc.onlyReads_exists? id).bind fun _ => onlyReads_ite _ (onlyReads_pure ()) (onlyReads_throw _)

/-- A request about one entity is refused if the cache does not know the entity. -/
theorem Lawful.answer_ensureExists_bind {α : Type} (hc : c.Lawful) {next : Unit → MarketM α}
    (hnext : ∀ a, IgnoresCounts (next a)) (m : Market) (id : String) :
    m.answer (c.ensureExists id >>= next) =
      if (c.cache m.caches).knows id then m.answer (next ()) else .error (.notFound c.kind id) := by
  rw [(hc.onlyReads_ensureExists id).answer_bind hnext, answer_ensureExists]
  split <;> rfl

/-- Loading all identifiers changes nothing. -/
theorem onlyReads_loadIds : OnlyReads c.loadIds := onlyReads_stored _

/-- Reading an entity changes nothing but counters. -/
theorem Lawful.onlyReads_get (hc : c.Lawful) (id : String) : OnlyReads (c.get id) :=
  (hc.onlyReads_ensureExists id).bind fun _ => onlyReads_storedOr _ _

/-- An entity is read from the register if the cache knows it, and is not found otherwise. -/
theorem Lawful.answer_get (hc : c.Lawful) (m : Market) (id : String) :
    m.answer (c.get id) =
      if (c.cache m.caches).knows id then
        found (.notFound c.kind id) ((c.register m.tables).find? id)
      else .error (.notFound c.kind id) := by
  unfold get
  rw [hc.answer_ensureExists_bind fun _ => (onlyReads_storedOr _ _).ignoresCounts, answer_storedOr]

/-- What is read of an entity is stored. -/
theorem Lawful.find?_of_answer_get (hc : c.Lawful) {m : Market} {id : String}
    {entity : Entity Status Origin Content} (h : m.answer (c.get id) = .ok entity) :
    (c.register m.tables).find? id = some entity := by
  rw [hc.answer_get] at h
  split at h
  · exact found_eq_ok_iff.mp h
  · cases h

/-- Reading a row changes nothing but counters. -/
theorem Lawful.onlyReads_row (hc : c.Lawful) (id : String) : OnlyReads (c.row id) :=
  (hc.onlyReads_ensureExists id).bind fun _ => onlyReads_storedOr _ _

/-- A row is read from the register if the cache knows its entity, and is not found otherwise. -/
theorem Lawful.answer_row (hc : c.Lawful) (m : Market) (id : String) :
    m.answer (c.row id) =
      if (c.cache m.caches).knows id then
        found (.notFound c.kind id) ((c.register m.tables).row? id)
      else .error (.notFound c.kind id) := by
  unfold row
  rw [hc.answer_ensureExists_bind fun _ => (onlyReads_storedOr _ _).ignoresCounts, answer_storedOr]

/-- A row that is read is stored. -/
theorem Lawful.row?_of_answer_row (hc : c.Lawful) {m : Market} {id : String}
    {row : Row Status Origin} (h : m.answer (c.row id) = .ok row) :
    (c.register m.tables).row? id = some row := by
  rw [hc.answer_row] at h
  split at h
  · exact found_eq_ok_iff.mp h
  · cases h

/-- Reading a status changes nothing but counters. -/
theorem Lawful.onlyReads_status (hc : c.Lawful) (id : String) : OnlyReads (c.status id) :=
  (hc.onlyReads_row id).bind fun row => onlyReads_pure row.status

/-- Listing entities changes nothing. -/
theorem onlyReads_list [Named Content] (admits : Entity Status Origin Content → Bool)
    (page : Page) : OnlyReads (c.list admits page) :=
  onlyReads_stored _

/-- Reading the content of a version changes nothing but counters. -/
theorem Lawful.onlyReads_contentVersion (hc : c.Lawful) (id : String) (version : Int) :
    OnlyReads (c.contentVersion id version) :=
  (hc.onlyReads_ensureExists id).bind fun _ =>
    (onlyReads_storedOr _ _).bind fun _ => onlyReads_pure _

/-- Reading a history changes nothing but counters. -/
theorem Lawful.onlyReads_history (hc : c.Lawful) (id : String) : OnlyReads (c.history id) :=
  (hc.onlyReads_ensureExists id).bind fun _ => onlyReads_stored _

/-- Reading all there is of an entity changes nothing but counters. -/
theorem Lawful.onlyReads_dossier (hc : c.Lawful) (id : String) : OnlyReads (c.dossier id) :=
  (hc.onlyReads_get id).bind fun _ => (hc.onlyReads_history id).bind fun _ => onlyReads_pure _

end Catalogue

end Procurement
