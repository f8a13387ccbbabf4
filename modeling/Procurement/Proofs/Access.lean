import Procurement.Proofs.Chronicle
import Procurement.Proofs.CatalogueWrites

/-!
# Accesses to entities

An operation on one entity of a catalogue sees of it what its chronicle says, and moves
the chronicle on. So the operation is described by an access: its reply and its effect, both
as functions of the chronicle, and its reply if the cache does not know the entity. Each
operation on a catalogue is shown to do what its access says, and nothing else.
-/

namespace Procurement

/-- What an operation does with one entity. -/
structure EntityAccess (Status Origin Content : Type) where
  /-- The identifier of the entity. -/
  id : String
  /-- The reply if the entity is not known. -/
  unknown : Reply
  /-- The reply to be had from a chronicle. -/
  reply : Chronicle Status Origin Content → Reply
  /-- What becomes of the chronicle. -/
  effect : Chronicle Status Origin Content → Chronicle Status Origin Content

/-- The reply to an access, with the chronicle of the entity if it is known. -/
def EntityAccess.replyTo {Status Origin Content : Type} (a : EntityAccess Status Origin Content) :
    Option (Chronicle Status Origin Content) → Reply
  | none => a.unknown
  | some x => a.reply x

namespace Chronicle

variable {Status Origin Content : Type}

/-- The chronicle with its status set if it was one of the given statuses. -/
def moveFrom [DecidableEq Status] (x : Chronicle Status Origin Content) (sources : List Status)
    (target : Status) : Chronicle Status Origin Content :=
  if x.status ∈ sources then { x with status := target } else x

/-- The row of a chronicle passes the filter just if its status is one of those to start from. -/
theorem filter_row [DecidableEq Status] (x : Chronicle Status Origin Content) (id : String)
    (sources : List Status) :
    (some (x.row id)).filter (fun row => row.status ∈ sources) =
      if x.status ∈ sources then some (x.row id) else none := by
  have hstatus : (x.row id).status = x.status := rfl
  simp only [Option.filter_some, decide_eq_true_eq, hstatus]

/-- The chronicle with an old content appended, if there is a version of that number. -/
def restore (x : Chronicle Status Origin Content) (version : Int) :
    Chronicle Status Origin Content :=
  (x.content? version).elim x x.append

end Chronicle

/-- An access to an entity that has to be known, with an effect. -/
def Catalogue.writing {Status Origin Content α : Type} (c : Catalogue Status Origin Content)
    (id : String) (form : α → Answer)
    (reply : Chronicle Status Origin Content → Except MarketError α)
    (effect : Chronicle Status Origin Content → Chronicle Status Origin Content) :
    EntityAccess Status Origin Content where
  id := id
  unknown := .error (.notFound c.kind id)
  reply x := (reply x).map form
  effect := effect

/-- An access to an entity that has to be known, without effect. -/
def Catalogue.reading {Status Origin Content α : Type} (c : Catalogue Status Origin Content)
    (id : String) (form : α → Answer)
    (reply : Chronicle Status Origin Content → Except MarketError α) :
    EntityAccess Status Origin Content :=
  c.writing id form reply fun x => x

/-- The access to one entity that an operation is, if it is one. -/
def CatalogueOperation.access? {Status Origin Content : Type} [DecidableEq Status]
    (c : Catalogue Status Origin Content) (forms : Answer.Forms Status Origin Content) :
    CatalogueOperation Status Content → Option (EntityAccess Status Origin Content)
  | .exists id => some
    { id, unknown := .ok (.flag false), reply := fun _ => .ok (.flag true), effect := fun x => x }
  | .loadIds => none
  | .get id => some (c.reading id forms.entity fun x => .ok (x.entity id))
  | .status id => some (c.reading id forms.status fun x => .ok x.status)
  | .setStatus id target => some <|
    c.writing id forms.entity (fun x => .ok ({ x with status := target }.entity id))
      fun x => { x with status := target }
  | .setStatusFrom sources id target => some <|
    c.writing id .flag (fun x => .ok (decide (x.status ∈ sources)))
      fun x => x.moveFrom sources target
  | .setStatusIfPublished id target => some <|
    c.writing id .flag (fun x => .ok (decide (x.status ∈ [c.published])))
      fun x => x.moveFrom [c.published] target
  | .edit id content => some <|
    c.writing id forms.entity (fun x => .ok ((x.append content).entity id))
      fun x => x.append content
  | .rollback id version => some <|
    c.writing id forms.entity (fun x =>
        (Market.found (.invalidVersion c.kind id version) (x.content? version)).map fun content =>
          (x.append content).entity id)
      fun x => x.restore version
  | .contentVersion id version => some <| c.reading id forms.version fun x =>
    (Market.found (.invalidVersion c.kind id version) (x.content? version)).map fun content =>
      ⟨id, version, content⟩
  | .history id => some (c.reading id forms.history fun x => .ok (x.history id))

namespace Catalogue

open Market

variable {Status Origin Content α β : Type} {c : Catalogue Status Origin Content} {m : Market}
  {id : String}

/-! ## What a request leaves -/

/-- A request about an entity that gets this answer, and leaves the entity with this chronicle and
everything else as it was. -/
structure Leaves (c : Catalogue Status Origin Content) (m : Market) (request : MarketM α)
    (answer : Except MarketError α) (id : String) (x : Chronicle Status Origin Content) :
    Prop where
  answer : m.answer request = answer
  exists_register : ∃ register, (m.after request).tables = c.setRegister m.tables register ∧
    register.Dense ∧ ∀ other, register.chronicle? other =
      if other = id then some x else (c.register m.tables).chronicle? other

/-- Putting something around the answer does not change what is left. -/
theorem Leaves.map {request : MarketM α} {answer : Except MarketError α}
    {x : Chronicle Status Origin Content} (h : c.Leaves m request answer id x) (f : α → β) :
    c.Leaves m (f <$> request) (answer.map f) id x where
  answer := by rw [answer_map, h.answer]
  exists_register := by
    rw [after_map]
    exact h.exists_register

/-- A request that only reads leaves every entity with its chronicle. -/
theorem Lawful.leaves_of_onlyReads (hc : c.Lawful) (hdense : (c.register m.tables).Dense)
    {x : Chronicle Status Origin Content} (hx : (c.register m.tables).chronicle? id = some x)
    {request : MarketM α} (hread : OnlyReads request) :
    c.Leaves m request (m.answer request) id x where
  answer := rfl
  exists_register := by
    refine ⟨c.register m.tables, ?_, hdense, fun other => ?_⟩
    · rw [hread.tables_after, hc.setRegister_register]
    · by_cases hother : other = id
      · rw [if_pos hother, hother, hx]
      · rw [if_neg hother]

/-- What follows a successful look-up in the cache meets the market as it was, up to the
counters. -/
theorem Lawful.leaves_ensureExists_bind (hc : c.Lawful)
    (hknows : (c.cache m.caches).knows id = true) {next : Unit → MarketM α}
    {answer : Except MarketError α} {x : Chronicle Status Origin Content}
    (hnext : ∀ {m' : Market}, m'.tables = m.tables → (c.cache m'.caches).knows id = true →
      c.Leaves m' (next ()) answer id x) :
    c.Leaves m (c.ensureExists id >>= next) answer id x := by
  have hpassed : m.answer (c.ensureExists id) = .ok () := by
    rw [answer_ensureExists, if_pos hknows]
  have hread := (hc.onlyReads_ensureExists id).after_uncounted m
  have htables := tables_of_uncounted hread
  have hleaves := hnext htables ((hc.knows_congr (caches_of_uncounted hread) id).trans hknows)
  refine ⟨?_, ?_⟩
  · rw [answer_bind, hpassed]
    exact hleaves.answer
  · rw [after_bind_of_answer hpassed, ← htables]
    exact hleaves.exists_register

/-- What follows a question to the tables meets the market as it was. -/
theorem leaves_stored_bind {query : Tables → β} {next : β → MarketM α}
    {answer : Except MarketError α} {x : Chronicle Status Origin Content}
    (hnext : c.Leaves m (next (query m.tables)) answer id x) :
    c.Leaves m (stored query >>= next) answer id x :=
  ⟨hnext.answer, hnext.exists_register⟩

section Known

variable (hc : c.Lawful) (hknows : (c.cache m.caches).knows id = true)

include hc hknows

/-- An entity that is read at the end is answered as it was left. -/
theorem Lawful.leaves_update_get
    {f : Register Status Origin Content → Register Status Origin Content}
    {x : Chronicle Status Origin Content} (hdense : (f (c.register m.tables)).Dense)
    (hx : ∀ other, (f (c.register m.tables)).chronicle? other =
      if other = id then some x else (c.register m.tables).chronicle? other) :
    c.Leaves m (c.update f >>= fun _ => c.get id) (.ok (x.entity id)) id x := by
  have hupdated : m.answer (c.update f) = .ok () := rfl
  have hfound : (f (c.register m.tables)).find? id = some (x.entity id) :=
    hdense.find?_of_chronicle? ((hx id).trans (if_pos rfl))
  refine ⟨?_, f (c.register m.tables), ?_, hdense, hx⟩
  · rw [answer_bind, hupdated]
    dsimp only
    rw [hc.answer_get, after_update, hc.register_setRegister, hfound]
    exact if_pos hknows
  · rw [after_bind_of_answer hupdated, (hc.onlyReads_get id).tables_after, after_update]

variable (hdense : (c.register m.tables).Dense) {x : Chronicle Status Origin Content}
  (hx : (c.register m.tables).chronicle? id = some x)

include hdense hx

omit hc hknows in
/-- Setting a status moves the chronicle of one entity on. -/
theorem chronicle?_setStatus_of_eq (status : Status) (other : String) :
    ((c.register m.tables).setStatus id status).chronicle? other =
      if other = id then some { x with status } else (c.register m.tables).chronicle? other := by
  rw [hdense.chronicle?_setStatus]
  by_cases hother : other = id
  · rw [if_pos hother, if_pos hother, hother, hx, Option.map_some]
  · rw [if_neg hother, if_neg hother]

/-- An entity that is known is read as its chronicle tells. -/
theorem Lawful.answer_get_of_chronicle? : m.answer (c.get id) = .ok (x.entity id) := by
  rw [hc.answer_get, if_pos hknows, hdense.find?_of_chronicle? hx, found_some]

/-- The row of an entity that is known is read as its chronicle tells. -/
theorem Lawful.answer_row_of_chronicle? : m.answer (c.row id) = .ok (x.row id) := by
  rw [hc.answer_row, if_pos hknows, hdense.row?_of_chronicle? hx, found_some]

/-- The content of a version is read as the chronicle tells, and other numbers are refused. -/
theorem Lawful.answer_contentVersion_of_chronicle? (version : Int) :
    m.answer (c.contentVersion id version) =
      (found (.invalidVersion c.kind id version) (x.content? version)).map fun content =>
        ⟨id, version, content⟩ := by
  have hread : ∀ _ : Unit, OnlyReads (do
      let content ← storedOr (.invalidVersion c.kind id version) fun tables =>
        (c.register tables).content? id version
      pure (⟨id, version, content⟩ : ContentVersion Content)) :=
    fun _ => (onlyReads_storedOr _ _).bind fun _ => onlyReads_pure _
  unfold contentVersion
  rw [hc.answer_ensureExists_bind fun a => (hread a).ignoresCounts, if_pos hknows, answer_bind,
    answer_storedOr, hdense.content?_of_chronicle? hx]
  cases x.content? version <;> rfl

/-- The history of an entity that is known is read as its chronicle tells. -/
theorem Lawful.answer_history_of_chronicle? : m.answer (c.history id) = .ok (x.history id) := by
  unfold history
  rw [hc.answer_ensureExists_bind fun _ => (onlyReads_stored _).ignoresCounts, if_pos hknows,
    answer_stored, hdense.history_of_chronicle? hx]

/-- Appended content is told by the chronicle, and the entity is answered with it. -/
theorem Lawful.leaves_append (content : Content) :
    c.Leaves m (c.append id content) (.ok ((x.append content).entity id)) id
      (x.append content) := by
  obtain ⟨register, happend⟩ : ∃ register, (c.register m.tables).append? id content =
      some register := by
    unfold Register.append?
    rw [hdense.latest?_of_chronicle? hx]
    exact ⟨_, rfl⟩
  have hfound : m.answer (storedOr .storageUnavailable fun tables =>
      (c.register tables).append? id content) = .ok register := by
    rw [answer_storedOr, happend, found_some]
  have hchronicle (other : String) : register.chronicle? other =
      if other = id then some (x.append content) else (c.register m.tables).chronicle? other := by
    rw [hdense.chronicle?_of_append? happend]
    by_cases hother : other = id
    · rw [if_pos hother, if_pos hother, hother, hx, Option.map_some]
    · rw [if_neg hother, if_neg hother]
  have hleaves : c.Leaves m (c.update (fun _ => register) >>= fun _ => c.get id)
      (.ok ((x.append content).entity id)) id (x.append content) :=
    hc.leaves_update_get hknows (hdense.of_append? happend) hchronicle
  refine ⟨?_, ?_⟩
  · unfold append
    rw [answer_bind, hfound, after_storedOr]
    exact hleaves.answer
  · unfold append
    rw [after_bind_of_answer hfound, after_storedOr]
    exact hleaves.exists_register

/-- An entity passes to another status if it has one of the given ones, and its row before is
answered. -/
theorem Lawful.leaves_transition [DecidableEq Status] (sources : List Status) (target : Status) :
    c.Leaves m (c.transition id sources target)
      (.ok (if x.status ∈ sources then some (x.row id) else none)) id
      (x.moveFrom sources target) := by
  refine hc.leaves_ensureExists_bind hknows fun {m'} htables _ => leaves_stored_bind ?_
  rw [← htables] at hdense hx
  rw [hdense.row?_of_chronicle? hx, x.filter_row]
  unfold Chronicle.moveFrom
  by_cases hmem : x.status ∈ sources
  · rw [if_pos hmem, if_pos hmem]
    exact ⟨rfl, _, rfl, hdense.setStatus id target, chronicle?_setStatus_of_eq hdense hx target⟩
  · rw [if_neg hmem, if_neg hmem]
    exact hc.leaves_of_onlyReads hdense hx (onlyReads_pure none)

/-- A status that is set is told by the chronicle, and the entity is answered with it. -/
theorem Lawful.leaves_setStatus (status : Status) :
    c.Leaves m (c.setStatus id status) (.ok ({ x with status }.entity id)) id
      { x with status } := by
  refine hc.leaves_ensureExists_bind hknows fun {m'} htables hknows' => ?_
  rw [← htables] at hdense hx
  exact hc.leaves_update_get hknows' (hdense.setStatus id status)
    (chronicle?_setStatus_of_eq hdense hx status)

/-- An edit is told by the chronicle as the content behind all others. -/
theorem Lawful.leaves_edit (content : Content) :
    c.Leaves m (c.edit id content) (.ok ((x.append content).entity id)) id
      (x.append content) := by
  refine hc.leaves_ensureExists_bind hknows fun {m'} htables hknows' => ?_
  rw [← htables] at hdense hx
  exact hc.leaves_append hknows' hdense hx content

/-- An old content is taken up again, if there is a version of that number. -/
theorem Lawful.leaves_rollback (version : Int) :
    c.Leaves m (c.rollback id version)
      ((found (.invalidVersion c.kind id version) (x.content? version)).map fun content =>
        (x.append content).entity id) id (x.restore version) := by
  refine hc.leaves_ensureExists_bind hknows fun {m'} htables hknows' => ?_
  rw [← htables] at hdense hx
  have hfound : m'.answer (storedOr (.invalidVersion c.kind id version) fun tables =>
      (c.register tables).content? id version) =
        found (.invalidVersion c.kind id version) (x.content? version) := by
    rw [answer_storedOr, hdense.content?_of_chronicle? hx]
  unfold Chronicle.restore
  cases hcontent : x.content? version with
  | none =>
    have hkept := hc.leaves_of_onlyReads hdense hx (onlyReads_pure ())
    rw [hcontent, found_none] at hfound
    refine ⟨?_, ?_⟩
    · rw [answer_bind, hfound]
      rfl
    · rw [after_bind, hfound, after_storedOr]
      exact hkept.exists_register
  | some content =>
    have happended := hc.leaves_append hknows' hdense hx content
    rw [hcontent, found_some] at hfound
    refine ⟨?_, ?_⟩
    · rw [answer_bind, hfound, after_storedOr]
      exact happended.answer
    · rw [after_bind_of_answer hfound, after_storedOr]
      exact happended.exists_register

end Known

/-! ## Operations as accesses -/

/-- A request that does what an access says, and nothing else. -/
structure Accesses (c : Catalogue Status Origin Content) (request : MarketM Answer)
    (a : EntityAccess Status Origin Content) : Prop where
  unknown : ∀ m : Market, (c.cache m.caches).knows a.id = false →
    m.answer request = a.unknown ∧ (m.after request).tables = m.tables
  known : ∀ (m : Market) x, (c.cache m.caches).knows a.id = true → (c.register m.tables).Dense →
    (c.register m.tables).chronicle? a.id = some x →
      c.Leaves m request (a.reply x) a.id (a.effect x)

/-- A request that starts with the cache goes no further if the entity is not known. -/
theorem Lawful.refused_of_unknown (hc : c.Lawful) (hunknown : (c.cache m.caches).knows id = false)
    (next : Unit → MarketM α) :
    m.answer (c.ensureExists id >>= next) = .error (.notFound c.kind id) ∧
      (m.after (c.ensureExists id >>= next)).tables = m.tables := by
  have hrefused : m.answer (c.ensureExists id) = .error (.notFound c.kind id) := by
    rw [answer_ensureExists, hunknown]
    rfl
  constructor
  · rw [answer_bind, hrefused]
  · rw [after_bind, hrefused]
    exact (hc.onlyReads_ensureExists id).tables_after m

/-- A request that starts with the cache is an access if it is one to what is known. -/
theorem Lawful.accesses_writing (hc : c.Lawful) {next : Unit → MarketM α} (form : α → Answer)
    {reply : Chronicle Status Origin Content → Except MarketError α}
    {effect : Chronicle Status Origin Content → Chronicle Status Origin Content}
    (hknown : ∀ (m : Market) x, (c.cache m.caches).knows id = true → (c.register m.tables).Dense →
      (c.register m.tables).chronicle? id = some x →
        c.Leaves m (c.ensureExists id >>= next) (reply x) id (effect x)) :
    c.Accesses (form <$> (c.ensureExists id >>= next)) (c.writing id form reply effect) where
  unknown m (hunknown : (c.cache m.caches).knows id = false) := by
    obtain ⟨hrefused, htables⟩ := hc.refused_of_unknown hunknown next
    rw [answer_map, after_map, hrefused]
    exact ⟨rfl, htables⟩
  known m x hknows hdense hx := (hknown m x hknows hdense hx).map form

/-- A request that starts with the cache and only reads is an access without effect. -/
theorem Lawful.accesses_reading (hc : c.Lawful) {next : Unit → MarketM α} (form : α → Answer)
    {reply : Chronicle Status Origin Content → Except MarketError α}
    (hread : OnlyReads (c.ensureExists id >>= next))
    (hreply : ∀ (m : Market) x, (c.cache m.caches).knows id = true → (c.register m.tables).Dense →
      (c.register m.tables).chronicle? id = some x →
        m.answer (c.ensureExists id >>= next) = reply x) :
    c.Accesses (form <$> (c.ensureExists id >>= next)) (c.reading id form reply) :=
  hc.accesses_writing form fun m x hknows hdense hx =>
    hreply m x hknows hdense hx ▸ hc.leaves_of_onlyReads hdense hx hread

/-- What is made of the row of an entity is made of its chronicle. -/
theorem Lawful.accesses_row (hc : c.Lawful) (id : String) (form : α → Answer)
    (view : Row Status Origin → α) :
    c.Accesses (form <$> do
      let row ← c.row id
      pure (view row)) (c.reading id form fun x => .ok (view (x.row id))) := by
  have hread : OnlyReads (c.row id >>= fun row => pure (view row)) :=
    (hc.onlyReads_row id).bind fun _ => onlyReads_pure _
  unfold row at hread ⊢
  rw [bind_assoc] at hread ⊢
  refine hc.accesses_reading form hread fun m x hknows hdense hx => ?_
  rw [← bind_assoc]
  exact answer_bind_eq_ok_iff.mpr ⟨_, hc.answer_row_of_chronicle? hknows hdense hx, rfl⟩

/-- What is made of the passage to another status depends on the chronicle. -/
theorem Lawful.accesses_transition [DecidableEq Status] (hc : c.Lawful) (id : String)
    (form : α → Answer) (sources : List Status) (target : Status)
    (view : Option (Row Status Origin) → α) :
    c.Accesses (form <$> do
      let row? ← c.transition id sources target
      pure (view row?))
      (c.writing id form
        (fun x => .ok (view (if x.status ∈ sources then some (x.row id) else none)))
        fun x => x.moveFrom sources target) := by
  have hleaves (m : Market) x (hknows : (c.cache m.caches).knows id = true)
      (hdense : (c.register m.tables).Dense)
      (hx : (c.register m.tables).chronicle? id = some x) :=
    (hc.leaves_transition hknows hdense hx sources target).map view
  rw [← map_eq_pure_bind]
  unfold transition at hleaves ⊢
  rw [map_bind] at hleaves ⊢
  exact hc.accesses_writing form hleaves

/-- Setting a status from some others is an access that tells whether the entity had one
of these. -/
theorem Lawful.accesses_setStatusFrom [DecidableEq Status] (hc : c.Lawful) (id : String)
    (sources : List Status) (target : Status) :
    c.Accesses (.flag <$> c.setStatusFrom id sources target)
      (c.writing id .flag (fun x => .ok (decide (x.status ∈ sources)))
        fun x => x.moveFrom sources target) := by
  have hflag (x : Chronicle Status Origin Content) :
      (if x.status ∈ sources then some (x.row id) else none).isSome =
        decide (x.status ∈ sources) := by
    by_cases hmem : x.status ∈ sources <;> simp [hmem]
  have haccesses := hc.accesses_transition id .flag sources target Option.isSome
  simp only [hflag] at haccesses
  exact haccesses

end Catalogue

/-- Every operation on a catalogue does what its access says. -/
theorem CatalogueOperation.accesses {Status Origin Content : Type} [DecidableEq Status]
    {c : Catalogue Status Origin Content} (hc : c.Lawful)
    (forms : Answer.Forms Status Origin Content) {op : CatalogueOperation Status Content}
    {a : EntityAccess Status Origin Content} (ha : op.access? c forms = some a) :
    c.Accesses (op.perform c forms) a := by
  cases op with
  | «exists» id =>
    obtain rfl := Option.some.inj ha
    refine ⟨fun m hunknown => ⟨?_, ?_⟩, fun m x hknows hdense hx => ?_⟩
    · exact congrArg (fun found => (Except.ok (Answer.flag found) : Reply)) hunknown
    · exact ((hc.onlyReads_exists? id).map Answer.flag).tables_after m
    · have hknown : m.answer (Answer.flag <$> c.exists? id) = .ok (.flag true) :=
        congrArg (fun found => (Except.ok (Answer.flag found) : Reply)) hknows
      exact hknown ▸ hc.leaves_of_onlyReads hdense hx ((hc.onlyReads_exists? id).map _)
  | loadIds => cases ha
  | get id =>
    obtain rfl := Option.some.inj ha
    exact hc.accesses_reading forms.entity (hc.onlyReads_get id) fun m x hknows hdense hx =>
      hc.answer_get_of_chronicle? hknows hdense hx
  | status id =>
    obtain rfl := Option.some.inj ha
    exact hc.accesses_row id forms.status Row.status
  | setStatus id target =>
    obtain rfl := Option.some.inj ha
    exact hc.accesses_writing forms.entity fun m x hknows hdense hx =>
      hc.leaves_setStatus hknows hdense hx target
  | setStatusFrom sources id target | setStatusIfPublished id target =>
    obtain rfl := Option.some.inj ha
    exact hc.accesses_setStatusFrom id _ target
  | edit id content =>
    obtain rfl := Option.some.inj ha
    exact hc.accesses_writing forms.entity fun m x hknows hdense hx =>
      hc.leaves_edit hknows hdense hx content
  | rollback id version =>
    obtain rfl := Option.some.inj ha
    exact hc.accesses_writing forms.entity fun m x hknows hdense hx =>
      hc.leaves_rollback hknows hdense hx version
  | contentVersion id version =>
    obtain rfl := Option.some.inj ha
    exact hc.accesses_reading forms.version (hc.onlyReads_contentVersion id version)
      fun m x hknows hdense hx => hc.answer_contentVersion_of_chronicle? hknows hdense hx version
  | history id =>
    obtain rfl := Option.some.inj ha
    exact hc.accesses_reading forms.history (hc.onlyReads_history id) fun m x hknows hdense hx =>
      hc.answer_history_of_chronicle? hknows hdense hx

namespace StoreOperation

/-- The access to one tender that an operation is, if it is one. -/
def tenderAccess? : StoreOperation → Option (EntityAccess TenderStatus TenderOrigin TenderContent)
  | onTenders op => op.access? tenders Answer.tenderForms
  | _ => none

/-- The access to one bid that an operation is, if it is one. -/
def bidAccess? : StoreOperation → Option (EntityAccess BidStatus BidOrigin BidContent)
  | tenderOf bidId => some (bids.reading bidId .text fun x => .ok x.origin.tenderId)
  | bidAuthor bidId => some (bids.reading bidId .author fun x => .ok x.origin.author)
  | decideIfPublished bidId target => some <|
    bids.writing bidId .optionalText
      (fun x => .ok (if x.status ∈ [.published] then some x.origin.tenderId else none))
      fun x => x.moveFrom [.published] target
  | onBids op => op.access? bids Answer.bidForms
  | _ => none

/-- Every operation on a tender does what its access says. -/
theorem accesses_tenders {op : StoreOperation}
    {a : EntityAccess TenderStatus TenderOrigin TenderContent}
    (ha : op.tenderAccess? = some a) : tenders.Accesses op.perform a := by
  cases op with
  | onTenders op => exact op.accesses tenders_lawful Answer.tenderForms ha
  | _ => cases ha

/-- Every operation on a bid does what its access says. -/
theorem accesses_bids {op : StoreOperation} {a : EntityAccess BidStatus BidOrigin BidContent}
    (ha : op.bidAccess? = some a) : bids.Accesses op.perform a := by
  cases op with
  | tenderOf bidId =>
    obtain rfl := Option.some.inj ha
    exact bids_lawful.accesses_row bidId .text fun row => row.origin.tenderId
  | bidAuthor bidId =>
    obtain rfl := Option.some.inj ha
    exact bids_lawful.accesses_row bidId .author fun row => row.origin.author
  | decideIfPublished bidId target =>
    obtain rfl := Option.some.inj ha
    have hview (x : Chronicle BidStatus BidOrigin BidContent) :
        (if x.status ∈ [.published] then some (x.row bidId) else none).map
            (fun row => row.origin.tenderId) =
          if x.status ∈ [.published] then some x.origin.tenderId else none := by
      by_cases hmem : x.status ∈ [.published] <;> simp only [hmem] <;> rfl
    have haccesses := bids_lawful.accesses_transition bidId .optionalText [.published] target
      (Option.map fun row => row.origin.tenderId)
    simp only [hview] at haccesses
    exact haccesses
  | onBids op => exact op.accesses bids_lawful Answer.bidForms ha
  | _ => cases ha

end StoreOperation

end Procurement
