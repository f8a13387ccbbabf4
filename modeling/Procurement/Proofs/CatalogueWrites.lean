import Procurement.Proofs.Writing

/-!
# Writing to catalogues

Each request that writes to a catalogue performs one change to its register. Its
last step reads the entity again; in a dense register that cannot fail, because
the entity has a row and the content which the row points at.
-/

namespace Procurement

/-- The writes to a catalogue are changes to its register, registered with its cache if they
add an entity. -/
structure Catalogue.Writes {Status Origin Content : Type} (c : Catalogue Status Origin Content)
    (write : Change Status Origin Content → Write) : Prop extends c.Lawful where
  applyTo?_write : ∀ tables change, (write change).applyTo? tables = c.change? tables change
  registration?_write : ∀ change,
    (write change).registration? = change.inserted?.map c.registration

/-- What is written to the tenders are changes to their register, and new ones are registered. -/
theorem tenders_writes : tenders.Writes .tender where
  toLawful := tenders_lawful
  applyTo?_write _ _ := rfl
  registration?_write _ := rfl

/-- What is written to the bids are changes to their register, and new ones are registered. -/
theorem bids_writes : bids.Writes .bid where
  toLawful := bids_lawful
  applyTo?_write _ _ := rfl
  registration?_write _ := rfl

namespace Catalogue

open Market

variable {Status Origin Content : Type} {c : Catalogue Status Origin Content}
  {write : Change Status Origin Content → Write}

/-- The cache knows the entity, and the register has a row of it. -/
def Has (c : Catalogue Status Origin Content) (m : Market) (id : String) : Prop :=
  (c.cache m.caches).knows id = true ∧ id ∈ (c.register m.tables).ids

/-- An entity that can be read has a row. -/
theorem Has.exists_row? {m : Market} {id : String} (h : c.Has m id) :
    ∃ row, (c.register m.tables).row? id = some row :=
  Option.isSome_iff_exists.mp ((Register.isSome_row?_iff id).mpr h.2)

/-- Whether an entity can be read depends on what lasts of a market. -/
theorem Lawful.has_congr (hc : c.Lawful) {m m' : Market} (h : m.substance = m'.substance)
    {id : String} (hhas : c.Has m id) : c.Has m' id := by
  obtain ⟨hknows, hmem⟩ := hhas
  constructor
  · rwa [← hc.knows_congr (caches_of_substance h)]
  · rwa [← tables_of_substance h]

/-- What can be read is not refused. -/
theorem Lawful.exists_answer_get (hc : c.Lawful) {m : Market}
    (hdense : (c.register m.tables).Dense) {id : String} (hhas : c.Has m id) :
    ∃ entity, m.answer (c.get id) = .ok entity := by
  obtain ⟨hknows, hmem⟩ := hhas
  have hfound : ((c.register m.tables).find? id).isSome := by
    rw [hdense.isSome_find?]
    exact (Register.isSome_row?_iff id).mpr hmem
  obtain ⟨entity, hentity⟩ := Option.isSome_iff_exists.mp hfound
  exact ⟨entity, by rw [hc.answer_get, if_pos hknows, hentity, found_some]⟩

/-- Only entities that the cache knows are let through. -/
theorem knows_of_answer_ensureExists {m : Market} {id : String}
    (h : m.answer (c.ensureExists id) = .ok ()) : (c.cache m.caches).knows id = true := by
  rw [answer_ensureExists] at h
  by_contra hunknown
  simp [hunknown] at h

/-! ## What a change leaves behind -/

section Changed

variable {m n : Market} {change : Change Status Origin Content}

/-- A write to a catalogue is a change to its register, and what it adds is registered. -/
theorem Writes.exists_of_write? (hw : c.Writes write) (h : m.write? (write change) = some n) :
    ∃ register, (c.register m.tables).change? c.initial change = some register ∧
      n = (change.inserted?.map c.registration).elim
        { m with tables := c.setRegister m.tables register }
        ({ m with tables := c.setRegister m.tables register } : Market).registered := by
  unfold Market.write? at h
  rw [hw.applyTo?_write, hw.registration?_write] at h
  unfold change? at h
  split at h
  · cases hregister : (c.register m.tables).change? c.initial change with
    | none => simp [hregister] at h
    | some register =>
      rw [hregister] at h
      exact ⟨register, rfl, (Option.some.inj h).symm⟩
  · simp at h

/-- The register after a write is the one before it with the change. -/
theorem Writes.change?_of_write? (hw : c.Writes write) (h : m.write? (write change) = some n) :
    (c.register m.tables).change? c.initial change = some (c.register n.tables) := by
  obtain ⟨register, hregister, rfl⟩ := hw.exists_of_write? h
  rw [hregister]
  cases change.inserted? with
  | none => exact congrArg some (hw.register_setRegister m.tables register).symm
  | some id =>
    refine congrArg some ?_
    rw [Option.map_some, Option.elim_some, tables_registered]
    exact (hw.register_setRegister m.tables register).symm

/-- Writing to a dense register leaves it dense. -/
theorem Writes.dense_of_write? (hw : c.Writes write) (hdense : (c.register m.tables).Dense)
    (h : m.write? (write change) = some n) : (c.register n.tables).Dense :=
  hdense.of_change? (hw.change?_of_write? h)

/-- A change that adds nothing leaves the caches alone. -/
theorem Writes.caches_of_write? (hw : c.Writes write) (hquiet : change.inserted? = none)
    (h : m.write? (write change) = some n) : n.caches = m.caches := by
  obtain ⟨register, _, rfl⟩ := hw.exists_of_write? h
  rw [hquiet]
  rfl

/-- Entities that can be read before a change that adds nothing can be read after it. -/
theorem Writes.has_of_write? (hw : c.Writes write) (hquiet : change.inserted? = none)
    (h : m.write? (write change) = some n) {id : String} (hhas : c.Has m id) : c.Has n id := by
  obtain ⟨hknows, hmem⟩ := hhas
  constructor
  · rwa [hw.caches_of_write? hquiet h]
  · rw [Register.ids_of_change? (hw.change?_of_write? h)]
    exact List.mem_append_left _ hmem

/-- Outside a transaction, an entity can be read as soon as it is added. -/
theorem Writes.has_of_write?_insert (hw : c.Writes write) (hm : m.transaction = none)
    {id : String} (hinserted : change.inserted? = some id)
    (h : m.write? (write change) = some n) : c.Has n id := by
  constructor
  · obtain ⟨register, _, rfl⟩ := hw.exists_of_write? h
    rw [hinserted, Option.map_some, Option.elim_some]
    unfold registered
    rw [hm]
    dsimp only
    rw [hw.applyTo_registration, hw.cache_setCache]
    exact ExistenceCache.knows_add _ id
  · rw [Register.ids_of_change? (hw.change?_of_write? h), hinserted]
    simp

end Changed

/-! ## Changing what is there -/

section Changing

variable {α : Type} {m : Market} {change : Change Status Origin Content}

/-- Reading an entity again after a write to the catalogue does not fail. -/
theorem Writes.exists_answer_get_after (hw : c.Writes write)
    (hdense : (c.register m.tables).Dense) {first : MarketM α}
    (hfirst : Performs m first [write change]) {m' : Market} (hm : m'.uncounted = m.uncounted)
    {a : α} (ha : m'.answer first = .ok a) {id : String}
    (hhas : ∀ {n}, m.write? (write change) = some n → c.Has n id) :
    ∃ entity, (m'.after first).answer (c.get id) = .ok entity := by
  have hsubstance := hfirst.accepted hm ha
  rw [writeAll?_singleton] at hsubstance
  obtain ⟨n, hn, hlast⟩ := Option.map_eq_some_iff.mp hsubstance
  refine hw.exists_answer_get ?_ (hw.has_congr hlast (hhas hn))
  rw [← tables_of_substance hlast]
  exact hw.dense_of_write? hdense hn

/-- A request that writes and then reads an entity that is there performs its write. -/
theorem Writes.performs_bind_get (hw : c.Writes write) (hdense : (c.register m.tables).Dense)
    {first : MarketM α} (hfirst : Performs m first [write change]) {target : α → String}
    (hhas : ∀ {m' : Market}, m'.uncounted = m.uncounted → ∀ {a}, m'.answer first = .ok a →
      ∀ {n}, m.write? (write change) = some n → c.Has n (target a)) :
    Performs m (first >>= fun a => c.get (target a)) [write change] :=
  hfirst.bind_reads (fun a => hw.onlyReads_get (target a)) fun hm _ ha =>
    Or.inl (hw.exists_answer_get_after hdense hfirst hm ha (hhas hm ha))

/-- Replacing a register leaves everything else. -/
@[simp] theorem after_update (m : Market) (f : Register Status Origin Content → _) :
    m.after (c.update f) =
      { m with tables := c.setRegister m.tables (f (c.register m.tables)) } := rfl

/-- Replacing the register by a changed one performs the change. -/
theorem Writes.performs_update (hw : c.Writes write) (hquiet : change.inserted? = none)
    {f : Register Status Origin Content → Register Status Origin Content}
    (hf : (c.register m.tables).change? c.initial change = some (f (c.register m.tables))) :
    Performs m (c.update f) [write change] where
  accepted _ hm _ _ := by
    have hsupported : change.isSupported (c.supports m.tables) = true := by
      cases change with
      | insert => cases hquiet
      | _ => rfl
    rw [writeAll?_singleton, after_update, tables_of_uncounted hm]
    unfold write?
    rw [hw.applyTo?_write, hw.registration?_write, hquiet]
    unfold change?
    rw [if_pos hsupported, hf]
    exact congrArg some (congrArg
      (fun n => { n with ids := {}, tables := c.setRegister m.tables (f (c.register m.tables)) })
      hm.symm)
  refused _ _ _ hrefusal := by cases hrefusal

/-- Sets the status of an entity, unless there is none under the identifier. -/
theorem Writes.performs_setStatus (hw : c.Writes write) (hdense : (c.register m.tables).Dense)
    (id : String) (status : Status) :
    Performs m (c.setStatus id status) [write (.setStatus id status)] := by
  refine (hw.onlyReads_ensureExists id).performs_bind fun {_} hknown => ?_
  have hupdate : Performs m (c.update fun register => register.setStatus id status)
      [write (.setStatus id status)] := hw.performs_update rfl rfl
  -- The cache may know what is not stored; then nothing is written, and reading is refused.
  by_cases hmem : id ∈ (c.register m.tables).ids
  · exact hw.performs_bind_get hdense hupdate fun _ _ _ _ hn =>
      hw.has_of_write? rfl hn ⟨knows_of_answer_ensureExists hknown, hmem⟩
  · refine hupdate.bind_reads (fun _ => hw.onlyReads_get id) fun {m'} hm {_} _ => Or.inr ?_
    rw [after_update, tables_of_uncounted hm,
      Register.setStatus_of_row?_eq_none ((Register.row?_eq_none_iff id).mpr hmem),
      hw.setRegister_register]
    exact congrArg (fun n => { n with ids := {}, tables := m.tables }) hm

/-- Appends content as the next version. -/
theorem Writes.performs_append (hw : c.Writes write) (hdense : (c.register m.tables).Dense)
    {id : String} (hknows : (c.cache m.caches).knows id = true) (content : Content) :
    Performs m (c.append id content) [write (.append id content)] := by
  refine (onlyReads_storedOr _ _).performs_bind fun {register} hregister => ?_
  rw [answer_storedOr] at hregister
  have happend := found_eq_ok_iff.mp hregister
  obtain ⟨row, hrow, _⟩ := hdense.eq_of_append? happend
  have hupdate : Performs m (c.update fun _ => register) [write (.append id content)] :=
    hw.performs_update rfl happend
  exact hw.performs_bind_get hdense hupdate fun _ _ _ _ hn =>
    hw.has_of_write? rfl hn ⟨hknows, Register.mem_ids_of_row? hrow⟩

/-- Content can always be appended to what is there. -/
theorem Writes.exists_answer_append (hw : c.Writes write) (hdense : (c.register m.tables).Dense)
    {id : String} (hhas : c.Has m id) (content : Content) :
    ∃ entity, m.answer (c.append id content) = .ok entity := by
  obtain ⟨row, hrow⟩ := hhas.exists_row?
  have hlatest := hdense.latest?_of_mem (Register.mem_of_row? hrow)
  rw [Register.id_of_row? hrow] at hlatest
  obtain ⟨register, happend⟩ : ∃ register, (c.register m.tables).append? id content =
      some register := by
    unfold Register.append?
    rw [hlatest]
    exact ⟨_, rfl⟩
  have happended : m.answer (storedOr .storageUnavailable fun tables =>
      (c.register tables).append? id content) = .ok register := by
    rw [answer_storedOr, happend, found_some]
  have hregister := hw.register_setRegister m.tables register
  have hread : ∃ entity, ({ m with tables := c.setRegister m.tables register } : Market).answer
      (c.get id) = .ok entity := by
    refine hw.exists_answer_get ?_ ⟨hhas.1, ?_⟩
    · rw [hregister]
      exact hdense.of_append? happend
    · rw [hregister, Register.ids_of_append? happend]
      exact hhas.2
  obtain ⟨entity, hentity⟩ := hread
  refine ⟨entity, answer_bind_eq_ok_iff.mpr ⟨register, happended, ?_⟩⟩
  rw [after_storedOr]
  exact answer_bind_eq_ok_iff.mpr ⟨(), rfl, hentity⟩

/-- An edit appends content to an entity. -/
theorem Writes.performs_edit (hw : c.Writes write) (hdense : (c.register m.tables).Dense)
    (id : String) (content : Content) :
    Performs m (c.edit id content) [write (.append id content)] :=
  (hw.onlyReads_ensureExists id).performs_bind fun hknown =>
    hw.performs_append hdense (knows_of_answer_ensureExists hknown) content

/-- Restoring an old version comes to the same as appending its content. -/
theorem Writes.write?_restore (hw : c.Writes write) {id : String} {version : Int}
    {content : Content} (h : (c.register m.tables).content? id version = some content) :
    m.write? (write (.restore id version)) = m.write? (write (.append id content)) := by
  unfold write?
  rw [hw.applyTo?_write, hw.applyTo?_write, hw.registration?_write, hw.registration?_write]
  simp [change?, Register.change?, Change.isSupported, Change.inserted?, h]

/-- A roll-back restores a version of an entity. -/
theorem Writes.performs_rollback (hw : c.Writes write) (hdense : (c.register m.tables).Dense)
    (id : String) (version : Int) :
    Performs m (c.rollback id version) [write (.restore id version)] := by
  refine (hw.onlyReads_ensureExists id).performs_bind fun {_} hknown => ?_
  refine (onlyReads_storedOr _ _).performs_bind fun {content} hcontent => ?_
  rw [answer_storedOr] at hcontent
  refine (hw.performs_append hdense (knows_of_answer_ensureExists hknown) content).of_eq ?_
  rw [writeAll?_singleton, writeAll?_singleton, hw.write?_restore (found_eq_ok_iff.mp hcontent)]

end Changing

/-! ## Adding entities -/

section Adding

variable {m : Market}

/-- An addition under the next identifier. -/
theorem Writes.performs_insert (hw : c.Writes write) (m : Market) (origin : Origin)
    (content : Content) :
    Performs m (c.insert origin content) [write (.insert m.ids.draw.1 origin m.now content)] := by
  refine performs_drawId_get_bind fun {m'} hnow => ?_
  rw [hnow]
  refine performs_store_register ?_ (hw.registration?_write _) m.ids.draw.1
  rw [hw.applyTo?_write]
  unfold change?
  simp only [Register.change?, Change.isSupported]
  by_cases hsupports : c.supports m.tables origin = true <;>
    cases (c.register m.tables).insert? m.ids.draw.1 c.initial origin m.now content <;>
    simp [hsupports, Except.toOption]

/-- A new entity gets the next identifier of the supply. -/
theorem eq_of_answer_insert {origin : Origin} {content : Content} {id : String}
    (h : m.answer (c.insert origin content) = .ok id) : id = m.ids.draw.1 := by
  unfold insert at h
  rw [answer_bind, answer_drawId, after_drawId] at h
  dsimp only at h
  rw [answer_bind, answer_get, after_get] at h
  dsimp only at h
  rw [answer_bind] at h
  split at h
  · rw [answer_bind] at h
    exact (Except.ok.inj h).symm
  · cases h

/-- What was added can be read at once. -/
theorem Writes.performs_insert_get (hw : c.Writes write) (hdense : (c.register m.tables).Dense)
    (hm : m.transaction = none) (origin : Origin) (content : Content) :
    Performs m (c.insert origin content >>= fun id => c.get id)
      [write (.insert m.ids.draw.1 origin m.now content)] := by
  refine hw.performs_bind_get hdense (hw.performs_insert m origin content) ?_
  intro m' huncounted id hid n hn
  rw [eq_of_answer_insert hid, ids_of_uncounted huncounted]
  exact hw.has_of_write?_insert hm rfl hn

end Adding

/-! ## Passing from one status to another -/

section Transition

variable [DecidableEq Status] {m : Market}

/-- The writes by which an entity passes from one of some statuses to another. -/
def transitionWrites (c : Catalogue Status Origin Content)
    (write : Change Status Origin Content → Write) (m : Market) (id : String)
    (sources : List Status) (target : Status) : List Write :=
  if ((c.register m.tables).row? id).any fun row => row.status ∈ sources then
    [write (.setStatus id target)]
  else []

/-- An entity in one of the statuses to start from passes to the other status. -/
theorem transitionWrites_of_mem {id : String} {row : Row Status Origin} {sources : List Status}
    (hrow : (c.register m.tables).row? id = some row) (hstatus : row.status ∈ sources)
    (target : Status) :
    c.transitionWrites write m id sources target = [write (.setStatus id target)] := by
  unfold transitionWrites
  rw [hrow]
  simp [hstatus]

/-- The answer to a passage shows the row that had a status to start from, if the entity
is known. -/
theorem Writes.answer_transition (hw : c.Writes write) (m : Market) (id : String)
    (sources : List Status) (target : Status) :
    m.answer (c.transition id sources target) =
      if (c.cache m.caches).knows id then
        .ok (((c.register m.tables).row? id).filter fun row => row.status ∈ sources)
      else .error (.notFound c.kind id) := by
  unfold transition
  rw [answer_bind, answer_ensureExists]
  by_cases hknows : (c.cache m.caches).knows id = true
  · rw [if_pos hknows, if_pos hknows]
    dsimp only
    rw [answer_bind, answer_stored, after_stored,
      (hw.onlyReads_ensureExists id).tables_after m]
    dsimp only
    cases ((c.register m.tables).row? id).filter fun row => row.status ∈ sources <;> rfl
  · rw [if_neg hknows, if_neg hknows]

/-- The row that a passage shows is the one from before it. -/
theorem Writes.eq_of_answer_transition (hw : c.Writes write) {id : String}
    {sources : List Status} {target : Status} {row? : Option (Row Status Origin)}
    (h : m.answer (c.transition id sources target) = .ok row?) :
    ((c.register m.tables).row? id).filter (fun row => row.status ∈ sources) = row? := by
  rw [hw.answer_transition] at h
  split at h
  · exact Except.ok.inj h
  · cases h

/-- A passage sets the status of an entity in a status to start from, and writes nothing
otherwise. -/
theorem Writes.performs_transition (hw : c.Writes write) (m : Market) (id : String)
    (sources : List Status) (target : Status) :
    Performs m (c.transition id sources target) (c.transitionWrites write m id sources target) := by
  refine (hw.onlyReads_ensureExists id).performs_bind fun {_} _ => ?_
  refine (onlyReads_stored _).performs_bind fun {row?} hrow? => ?_
  obtain rfl := Except.ok.inj hrow?
  unfold transitionWrites
  rw [← Option.isSome_filter]
  cases ((c.register m.tables).row? id).filter fun row => row.status ∈ sources with
  | none => exact (onlyReads_pure none).performs m
  | some row =>
    have hupdate : Performs m (c.update fun register => register.setStatus id target)
        [write (.setStatus id target)] := hw.performs_update rfl rfl
    exact hupdate.bind_reads (fun _ => onlyReads_pure _) fun _ _ _ => Or.inl ⟨_, rfl⟩

/-- Setting a status answers whether the entity had a status to start from, if it is known. -/
theorem Writes.answer_setStatusFrom (hw : c.Writes write) (m : Market) (id : String)
    (sources : List Status) (target : Status) :
    m.answer (c.setStatusFrom id sources target) =
      if (c.cache m.caches).knows id then
        .ok (((c.register m.tables).row? id).any fun row => row.status ∈ sources)
      else .error (.notFound c.kind id) := by
  unfold setStatusFrom
  rw [answer_bind, hw.answer_transition]
  by_cases hknows : (c.cache m.caches).knows id = true
  · rw [if_pos hknows, if_pos hknows, ← Option.isSome_filter]
    rfl
  · rw [if_neg hknows, if_neg hknows]

/-- Setting a status from some others writes it if the entity has one of these. -/
theorem Writes.performs_setStatusFrom (hw : c.Writes write) (m : Market) (id : String)
    (sources : List Status) (target : Status) :
    Performs m (c.setStatusFrom id sources target)
      (c.transitionWrites write m id sources target) :=
  (hw.performs_transition m id sources target).bind_reads (fun _ => onlyReads_pure _)
    fun _ _ _ => Or.inl ⟨_, rfl⟩

/-- What setting a status answers tells whether the entity had a status to start from. -/
theorem Writes.any_of_answer_setStatusFrom (hw : c.Writes write) {id : String}
    {sources : List Status} {target : Status} {changed : Bool}
    (h : m.answer (c.setStatusFrom id sources target) = .ok changed) :
    (c.cache m.caches).knows id = true ∧
      ((c.register m.tables).row? id).any (fun row => row.status ∈ sources) = changed := by
  rw [hw.answer_setStatusFrom] at h
  split at h
  · exact ⟨by assumption, Except.ok.inj h⟩
  · cases h

/-- A request that goes on only if an entity could pass to another status. -/
theorem Writes.achieves_setStatusFrom_bind {α : Type} (hw : c.Writes write) (m : Market)
    (id : String) (sources : List Status) (target : Status) {next : MarketM α}
    (hnext : OnlyReads next) (refusal : MarketError) :
    Achieves m (c.setStatusFrom id sources target >>= fun changed =>
      if changed then next else throw refusal) [write (.setStatus id target)] := by
  intro m' hm a ha
  obtain ⟨changed, hchanged, ha⟩ := answer_bind_eq_ok_iff.mp ha
  cases changed with
  | false => cases ha
  | true =>
    have hpassed := (hw.any_of_answer_setStatusFrom hchanged).2
    have hfirst := (hw.performs_setStatusFrom m id sources target).accepted hm hchanged
    unfold transitionWrites at hfirst
    rw [tables_of_uncounted hm] at hpassed
    rw [if_pos hpassed] at hfirst
    rw [hfirst, after_bind_of_answer hchanged]
    exact congrArg some (substance_of_uncounted (hnext.after_uncounted _)).symm

/-- An entity passes to another status and is read again, or the request is refused. -/
theorem Writes.performs_setStatusFrom_get (hw : c.Writes write)
    (hdense : (c.register m.tables).Dense) (id : String) (sources : List Status)
    (target : Status) (refusal : MarketError) :
    Performs m (c.setStatusFrom id sources target >>= fun changed =>
      if changed then c.get id else throw refusal) [write (.setStatus id target)] where
  accepted := hw.achieves_setStatusFrom_bind m id sources target (hw.onlyReads_get id) refusal
  refused {m'} hm refusal' hrefused := by
    have hfirst := hw.performs_setStatusFrom m id sources target
    cases hchanged : m'.answer (c.setStatusFrom id sources target) with
    | error refusal'' =>
      rw [after_bind, hchanged]
      exact hfirst.refused hm hchanged
    | ok changed =>
      obtain ⟨hknows, hpassed⟩ := hw.any_of_answer_setStatusFrom hchanged
      rw [tables_of_uncounted hm] at hpassed
      unfold transitionWrites at hfirst
      rw [after_bind_of_answer hchanged]
      cases changed with
      | false =>
        rw [hpassed] at hfirst
        exact (Option.some.inj (hfirst.accepted hm hchanged)).symm
      | true =>
        rw [if_pos hpassed] at hfirst
        obtain ⟨row, hrow, _⟩ := (Option.any_eq_true _ _).mp hpassed
        have hmem : id ∈ (c.register m.tables).ids := Register.mem_ids_of_row? hrow
        rw [hw.knows_congr (caches_of_uncounted hm)] at hknows
        obtain ⟨entity, hentity⟩ := hw.exists_answer_get_after hdense hfirst hm hchanged
          fun hn => hw.has_of_write? rfl hn ⟨hknows, hmem⟩
        rw [answer_bind, hchanged] at hrefused
        exact absurd (hentity.symm.trans hrefused) (by simp)

end Transition
end Catalogue

end Procurement
