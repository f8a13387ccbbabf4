import Procurement.Proofs.Runs

/-!
# Caches mirror the tables

As long as no cache is taught anything by hand, the caches of a market hold what
the tables hold, in the same order: writes teach them exactly what was stored,
and an assembly fills them anew. So the check of the cache, which comes first in
every request about one entity, never disagrees with what is stored.
-/

namespace Procurement

/-- No two users have the same username or the same identifier. -/
structure Tables.Keyed (t : Tables) : Prop where
  usernames : (t.users.map User.username).Nodup
  userIds : (t.users.map User.id).Nodup

/-- New users are told apart from all others. -/
theorem Tables.Keyed.of_applyTo? {t t' : Tables} (ht : t.Keyed) {write : Write}
    (h : write.applyTo? t = some t') : t'.Keyed := by
  obtain ⟨husers, _⟩ := Write.rows_of_applyTo? h
  cases write with
  | user user =>
    obtain ⟨hfresh, _⟩ := Tables.eq_of_addUser h
    constructor
    · rw [husers, List.map_append]
      refine ht.usernames.append (List.nodup_singleton _) ?_
      intro username hold hnew
      obtain ⟨u, hu, rfl⟩ := List.mem_map.mp hold
      exact (hfresh u hu).2 (List.mem_singleton.mp hnew)
    · rw [husers, List.map_append]
      refine ht.userIds.append (List.nodup_singleton _) ?_
      intro id hold hnew
      obtain ⟨u, hu, rfl⟩ := List.mem_map.mp hold
      exact (hfresh u hu).1 (List.mem_singleton.mp hnew)
  | _ =>
    have hsame : t'.users = t.users := husers.trans (List.append_nil _)
    exact ⟨hsame ▸ ht.usernames, hsame ▸ ht.userIds⟩

/-- The caches hold what the tables hold, in the same order. -/
structure Caches.Mirror (caches : Caches) (t : Tables) : Prop where
  tenders : caches.tenders.ids = t.tenders.ids
  bids : caches.bids.ids = t.bids.ids
  users : caches.users.entries = t.usernames

/-- Look-ups do not part the caches from the tables. -/
theorem Caches.Mirror.of_uncounted {caches caches' : Caches} {t : Tables} (h : caches.Mirror t)
    (heq : caches.uncounted = caches'.uncounted) : caches'.Mirror t where
  tenders := (congrArg (fun c => c.tenders.ids) heq).symm.trans h.tenders
  bids := (congrArg (fun c => c.bids.ids) heq).symm.trans h.bids
  users := (congrArg (fun c => c.users.entries) heq).symm.trans h.users

namespace Market

/-- Outside a transaction the caches learn of a write at once. -/
theorem caches_of_write? {m n : Market} (hm : m.transaction = none) {write : Write}
    (hn : m.write? write = some n) :
    n.caches = write.registration?.elim m.caches fun r => r.applyTo m.caches := by
  obtain ⟨tables, _, rfl⟩ := Option.map_eq_some_iff.mp hn
  cases write.registration? with
  | none => rfl
  | some registration => simp only [Option.elim_some, registered, hm]

/-- What a cache of identifiers learns of a change is what the change adds. -/
theorem ids_of_change? {Status Origin Content : Type} {r r' : Register Status Origin Content}
    {initial : Status} {change : Change Status Origin Content}
    (h : r.change? initial change = some r') {cache : ExistenceCache} (hcache : cache.ids = r.ids) :
    (change.inserted?.elim cache cache.add).ids = r'.ids := by
  rw [Register.ids_of_change? h]
  cases hinserted : change.inserted? with
  | none => simpa using hcache
  | some id =>
    have hfresh : id ∉ cache.ids := hcache ▸ Register.not_mem_ids_of_inserted? h hinserted
    rw [Option.elim_some, ExistenceCache.ids_add hfresh, hcache]
    rfl

/-- What the caches learn of a write is what it stores. -/
theorem mirror_of_write? {m n : Market} (h : m.caches.Mirror m.tables) (hm : m.Sound)
    {write : Write} (hstored : ∀ registration, write ≠ .notice registration)
    (hn : m.write? write = some n) : n.caches.Mirror n.tables := by
  have htables := applyTo?_of_write? hn
  rw [caches_of_write? hm.settled hn]
  cases write with
  | user user =>
    obtain ⟨hfresh, heq⟩ := Tables.eq_of_addUser htables
    have hnew : user.username ∉ m.caches.users.entries.map Prod.fst := by
      rw [h.users]
      simpa [Tables.usernames] using fun u hu => (hfresh u hu).2
    have hentries : (m.caches.users.add user.username user.id).entries = n.tables.usernames := by
      rw [LookupCache.entries_add hnew, h.users, heq]
      simp [Tables.usernames]
    exact ⟨heq ▸ h.tenders, heq ▸ h.bids, hentries⟩
  | tender change =>
    obtain ⟨register, hregister, heq⟩ := Catalogue.exists_of_change? htables
    have hids := ids_of_change? hregister h.tenders
    rw [heq]
    cases hinserted : change.inserted? <;>
      simp only [Write.registration?, hinserted] at hids ⊢ <;>
      exact ⟨hids, h.bids, h.users⟩
  | bid change =>
    obtain ⟨register, hregister, heq⟩ := Catalogue.exists_of_change? htables
    have hids := ids_of_change? hregister h.bids
    rw [heq]
    cases hinserted : change.inserted? <;>
      simp only [Write.registration?, hinserted] at hids ⊢ <;>
      exact ⟨h.tenders, hids, h.users⟩
  | organization organization =>
    rw [Tables.eq_of_addOrganization htables]
    exact ⟨h.tenders, h.bids, h.users⟩
  | responsibility link =>
    rw [Tables.eq_of_addResponsibility htables]
    exact ⟨h.tenders, h.bids, h.users⟩
  | feedback feedback =>
    rw [Tables.eq_of_addFeedback htables]
    exact ⟨h.tenders, h.bids, h.users⟩
  | notice registration => exact absurd rfl (hstored registration)

/-- Writes that teach no cache by hand keep the caches and the tables alike. -/
theorem mirror_of_writeAll? {m n : Market} (h : m.caches.Mirror m.tables) (hm : m.Sound)
    {writes : List Write} (hstored : ∀ registration, Write.notice registration ∉ writes)
    (hn : m.writeAll? writes = some n) : n.caches.Mirror n.tables := by
  induction writes generalizing m with
  | nil => exact Option.some.inj hn ▸ h
  | cons write rest ih =>
    obtain ⟨next, hnext, hrest⟩ := Option.bind_eq_some_iff.mp hn
    have hnotice : ∀ registration, write ≠ .notice registration := by
      rintro registration rfl
      exact hstored registration List.mem_cons_self
    have hsound : next.Sound := hm.of_writeAll? (by rw [writeAll?_singleton, hnext])
    exact ih (mirror_of_write? h hm hnotice hnext) hsound
      (fun registration hmem => hstored registration (List.mem_cons_of_mem _ hmem)) hrest

/-- Writes keep users apart. -/
theorem keyed_of_writeAll? {m n : Market} (h : m.tables.Keyed) {writes : List Write}
    (hn : m.writeAll? writes = some n) : n.tables.Keyed :=
  keeps_of_writeAll? hn Tables.Keyed (fun _ _ _ _ happlied ht => ht.of_applyTo? happlied) h

/-- A sound market whose caches hold what its tables hold, each user under keys of its own. -/
structure Faithful (m : Market) : Prop extends m.Sound where
  keyed : m.tables.Keyed
  mirror : m.caches.Mirror m.tables

/-- A username is resolved exactly to the identifier stored with it. -/
theorem Faithful.value?_eq_some_iff {m : Market} (hm : m.Faithful) (username id : String) :
    m.caches.users.value? username = some id ↔
      ∃ user ∈ m.tables.users, user.username = username ∧ user.id = id := by
  have hkeys : (m.caches.users.entries.map Prod.fst).Nodup := by
    rw [hm.mirror.users]
    simpa [Tables.usernames, Function.comp_def] using hm.keyed.usernames
  rw [LookupCache.value?_eq_some_iff hkeys, hm.mirror.users, Tables.usernames, List.mem_map]
  simp only [Prod.mk.injEq]

/-- A username stands for nothing just if no user of that name is stored. -/
theorem Faithful.value?_eq_none_iff {m : Market} (hm : m.Faithful) (username : String) :
    m.caches.users.value? username = none ↔
      ∀ user ∈ m.tables.users, user.username ≠ username := by
  rw [LookupCache.value?_eq_none_iff, hm.mirror.users]
  simp [Tables.usernames]

/-- An assembly fills the caches with what is stored. -/
theorem mirror_warmCaches {t : Tables} (htenders : t.tenders.Dense) (hbids : t.bids.Dense)
    (ht : t.Keyed) : (warmCaches t).Mirror t where
  tenders := ExistenceCache.ids_warmUp (by simpa using htenders.unique)
  bids := ExistenceCache.ids_warmUp (by simpa using hbids.unique)
  users := LookupCache.entries_warmUp
    (by simpa [Tables.usernames, Function.comp_def] using ht.usernames)

end Market

/-- Whether a step teaches a cache by hand. -/
def Step.learns : Step → Bool
  | .request _ (.learn _) => true
  | _ => false

/-- What is written in the name of a user teaches no cache by hand. -/
theorem Market.notice_not_mem_writesOf (m : Market) (username : String) {write : String → Write}
    {registration : Registration} (h : ∀ userId, write userId ≠ .notice registration) :
    Write.notice registration ∉ m.writesOf username write := by
  intro hmem
  obtain ⟨userId, _, heq⟩ := List.mem_map.mp hmem
  exact h userId heq

/-- No operation of a service teaches a cache by hand. -/
theorem Operation.notice_not_mem_writes (m : Market) (op : Operation)
    (registration : Registration) : Write.notice registration ∉ op.writes m := by
  cases op with
  | makeResponsible organizationId username => exact m.notice_not_mem_writesOf username (by simp)
  | createTender actor organizationId content => exact m.notice_not_mem_writesOf actor (by simp)
  | submitDecision actor bidId decision =>
    intro hmem
    exact absurd (Market.silent_of_mem_decisionWrites hmem) (by simp [Write.registration?])
  | submitFeedback actor bidId content =>
    intro hmem
    obtain ⟨row, _, hwrite⟩ := List.mem_flatMap.mp hmem
    exact m.notice_not_mem_writesOf actor (by simp) hwrite
  | _ => simp [writes]

/-- No operation of a store teaches a cache by hand. -/
theorem StoreOperation.notice_not_mem_writes (m : Market) (op : StoreOperation)
    (registration : Registration) : Write.notice registration ∉ op.writes m := by
  cases op with
  | insertTender organizationId creator content =>
    exact m.notice_not_mem_writesOf creator (by simp)
  | onTenders op | onBids op =>
    intro hmem
    obtain ⟨change, _, heq, _⟩ := CatalogueOperation.exists_of_mem_writes hmem
    cases heq
  | decideIfPublished bidId target =>
    simp only [writes, Catalogue.transitionWrites]
    split <;> simp
  | _ => simp [writes]

namespace Session

/-- A step that teaches no cache by hand writes nothing that would. -/
theorem notice_not_mem_writes (s : Session) {step : Step} (h : step.learns = false)
    (registration : Registration) : Write.notice registration ∉ s.writes step := by
  unfold writes
  split
  · rename_i id request answer hanswer
    cases request with
    | operation op => exact op.notice_not_mem_writes _ registration
    | store op => exact op.notice_not_mem_writes _ registration
    | feedback op => cases op <;> simp [Request.writes, FeedbackOperation.writes]
    | learn registration => cases h
    | _ => simp [Request.writes]
  · simp

/-- A new market is faithful. -/
theorem faithful_fresh (stage : Stage) (decisionLimit : Option UInt64) :
    (fresh stage decisionLimit).market.Faithful where
  toSound := sound_fresh stage decisionLimit
  keyed := ⟨List.nodup_nil, List.nodup_nil⟩
  mirror := ⟨rfl, rfl, rfl⟩

/-- Offering an identifier leaves a market faithful. -/
theorem faithful_offer {m : Market} (hm : m.Faithful) (offered : Option String) :
    (m.offer offered).Faithful :=
  ⟨sound_offer hm.toSound offered, hm.keyed, hm.mirror⟩

/-- After an assembly the caches hold what the tables hold. -/
theorem mirror_assemble {s : Session} (hs : s.market.Faithful) :
    (s.step .assemble).2.market.caches.Mirror (s.step .assemble).2.market.tables := by
  obtain ⟨stage, m⟩ := s
  cases stage with
  | bare => exact hs.mirror
  | migrated => exact Market.mirror_warmCaches hs.tenders hs.bids hs.keyed
  | assembled => exact Market.mirror_warmCaches hs.tenders hs.bids hs.keyed

/-- A step that teaches no cache by hand leaves the market faithful. -/
theorem faithful_step {s : Session} (hs : s.market.Faithful) {step : Step}
    (hstep : step.learns = false) : (s.step step).2.market.Faithful := by
  obtain ⟨n, hn, htables, _, hcaches⟩ := exists_writeAll? hs.toSound step
  refine ⟨sound_step hs.toSound step, htables ▸ Market.keyed_of_writeAll? hs.keyed hn, ?_⟩
  -- An assembly is the only step that changes the caches beside its writes.
  by_cases hassemble : step = .assemble
  · rw [hassemble]
    exact mirror_assemble hs
  · have hmirror := Market.mirror_of_writeAll? hs.mirror hs.toSound
      (s.notice_not_mem_writes hstep) hn
    rw [← htables]
    exact hmirror.of_uncounted (hcaches hassemble)

/-- As long as no cache is taught anything by hand, a market stays faithful. -/
theorem faithful_after {s : Session} (hs : s.market.Faithful) {steps : List Step}
    (hsteps : ∀ step ∈ steps, step.learns = false) : (s.after steps).market.Faithful := by
  induction steps generalizing s with
  | nil => exact hs
  | cons step rest ih =>
    exact ih (faithful_step hs (hsteps step List.mem_cons_self))
      fun step' hmem => hsteps step' (List.mem_cons_of_mem _ hmem)

end Session

end Procurement
