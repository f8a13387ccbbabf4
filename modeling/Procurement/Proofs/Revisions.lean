import Procurement.Proofs.Access
import Procurement.Proofs.Mirror

/-!
# Revisions

An edit puts its content behind all versions of an entity, and a rollback puts the content
of an old version there again. Either way the entity has one more version, to which its row
points, and nothing else has changed. What the entity shows follows: the entity, its history,
and each version of its content.
-/

namespace Procurement

variable {Status Origin Content : Type}

/-- The entity under its next version. -/
def Entity.revised (entity : Entity Status Origin Content) (content : Content) :
    Entity Status Origin Content :=
  { entity with version := entity.version + 1, content }

/-- The register with one more version of an entity, at which the row of the entity points. -/
def Register.revised (r : Register Status Origin Content) (id : String) (version : Nat)
    (content : Content) : Register Status Origin Content where
  rows := r.rows.map fun row => if row.id = id then { row with version } else row
  revisions := r.revisions ++ [{ owner := id, version, content }]

/-! ## The history of a chronicle -/

namespace Chronicle

variable (x : Chronicle Status Origin Content) (id : String)

/-- With a new content the chronicle tells of the entity under its next version. -/
theorem entity_append (content : Content) :
    (x.append content).entity id = (x.entity id).revised content := by
  simp [entity, Entity.revised, append, version, Chronicle.content]

/-- The history has as many versions as the newest one says. -/
@[simp] theorem length_history : (x.history id).length = x.version := by
  simp [history]

/-- A new content stands in the history behind all others, under the next number. -/
theorem history_append (content : Content) :
    (x.append content).history id =
      x.history id ++ [⟨id, (x.version : Int) + 1, content⟩] := by
  simp [history, List.zipIdx_append, Int.add_comm]

/-- Each place of the history tells of the content with its number. -/
theorem getElem?_history (i : Nat) :
    (x.history id)[i]? = x.contents[i]?.map fun content => ⟨id, (i : Int) + 1, content⟩ := by
  simp [history, List.getElem?_map, List.getElem?_zipIdx, Function.comp_def, Int.add_comm]

/-- A version in the history says what the chronicle says under its number. -/
theorem content?_of_getElem?_history {v : Int} (hv : 1 ≤ v) {version : ContentVersion Content}
    (h : (x.history id)[(v - 1).toNat]? = some version) :
    x.content? v = some version.content ∧ version = ⟨id, v, version.content⟩ := by
  rw [getElem?_history] at h
  obtain ⟨content, hcontent, rfl⟩ := Option.map_eq_some_iff.mp h
  have hnumber : (((v - 1).toNat : Nat) : Int) + 1 = v := by omega
  constructor
  · rw [content?, if_pos hv, hcontent]
  · rw [hnumber]

/-- The history has no other versions. -/
theorem content?_eq_none_of_not_le {v : Int} (hv : ¬ (1 ≤ v ∧ v ≤ x.version)) :
    x.content? v = none := by
  by_cases hpositive : 1 ≤ v
  · have hbeyond : x.contents.length ≤ (v - 1).toNat := by
      rw [length_contents]
      omega
    rw [content?, if_pos hpositive, List.getElem?_eq_none hbeyond]
  · rw [content?, if_neg hpositive]

end Chronicle

/-! ## Appending to a register -/

namespace Register

/-- Content is appended under the number behind the newest version. -/
theorem append?_of_latest? {r : Register Status Origin Content} {id : String} {latest : Nat}
    (h : r.latest? id = some latest) (content : Content) :
    r.append? id content = some (r.revised id (latest + 1) content) := by
  rw [append?, h, Option.map_some, mapRow_eq]
  rfl

end Register

/-! ## What an entity shows -/

namespace Catalogue

/-- What the requests about an entity show of it: the entity, its history, and the versions of
its content. -/
structure Displays (c : Catalogue Status Origin Content)
    (forms : Answer.Forms Status Origin Content)
    (request : CatalogueOperation Status Content → Request) (m : Market)
    (entity : Entity Status Origin Content) (history : List (ContentVersion Content)) : Prop where
  get : ∀ offered, (m.step (.request offered (request (.get entity.id)))).1 =
    .ok (forms.entity entity)
  versions : ∀ offered, (m.step (.request offered (request (.history entity.id)))).1 =
    .ok (forms.history history)
  length : (history.length : Int) = entity.version
  numbered : ∀ (i : Nat) version, history[i]? = some version →
    version.entityId = entity.id ∧ version.version = i + 1
  contentVersion : ∀ (offered : Option String) (v : Int) version, 1 ≤ v →
    history[(v - 1).toNat]? = some version →
    (m.step (.request offered (request (.contentVersion entity.id v)))).1 =
      .ok (forms.version version)
  noVersion : ∀ (offered : Option String) (v : Int), ¬ (1 ≤ v ∧ v ≤ entity.version) →
    (m.step (.request offered (request (.contentVersion entity.id v)))).1 =
      .error (.invalidVersion c.kind entity.id v)

/-- A request about an entity that gives it one more version, with this content, and is answered
with the entity under that version. Nothing else changes. -/
structure Appends (c : Catalogue Status Origin Content)
    (forms : Answer.Forms Status Origin Content)
    (request : CatalogueOperation Status Content → Request) (m : Market)
    (op : CatalogueOperation Status Content) (entity : Entity Status Origin Content)
    (history : List (ContentVersion Content)) (content : Content) : Prop where
  answer : ∀ offered, (m.step (.request offered (request op))).1 =
    .ok (forms.entity (entity.revised content))
  displays : ∀ offered, c.Displays forms request (m.step (.request offered (request op))).2
    (entity.revised content) (history ++ [⟨entity.id, entity.version + 1, content⟩])
  tables : ∀ offered, (m.step (.request offered (request op))).2.tables =
    c.setRegister m.tables
      ((c.register m.tables).revised entity.id (history.length + 1) content)

/-- What edits and rollbacks do to an entity with this history. -/
structure Revises (c : Catalogue Status Origin Content)
    (forms : Answer.Forms Status Origin Content)
    (request : CatalogueOperation Status Content → Request) (m : Market)
    (entity : Entity Status Origin Content) (history : List (ContentVersion Content)) : Prop where
  edit : ∀ content, c.Appends forms request m (.edit entity.id content) entity history content
  rollback : ∀ (v : Int) version, 1 ≤ v → history[(v - 1).toNat]? = some version →
    c.Appends forms request m (.rollback entity.id v) entity history version.content
  refused : ∀ (offered : Option String) (v : Int), ¬ (1 ≤ v ∧ v ≤ entity.version) →
    let next := m.step (.request offered (request (.rollback entity.id v)))
    next.1 = .error (.invalidVersion c.kind entity.id v) ∧ next.2.tables = m.tables ∧
      next.2.caches.uncounted = m.caches.uncounted

open Market

/-- An accepted change to what is there replaces the register by the changed one, and leaves the
caches as they were. -/
theorem Writes.after_of_accepted {α : Type} {c : Catalogue Status Origin Content}
    {write : Change Status Origin Content → Write} (hw : c.Writes write)
    {change : Change Status Origin Content} (hquiet : change.inserted? = none) {m : Market}
    {work : MarketM α} (hperforms : Performs m work [write change]) {a : α}
    (ha : m.answer work = .ok a) :
    ∃ register, (c.register m.tables).change? c.initial change = some register ∧
      (m.after work).tables = c.setRegister m.tables register ∧
      (m.after work).caches.uncounted = m.caches.uncounted := by
  have haccepted := hperforms.accepted rfl ha
  rw [writeAll?_singleton] at haccepted
  obtain ⟨n, hn, hsubstance⟩ := Option.map_eq_some_iff.mp haccepted
  obtain ⟨register, hregister, rfl⟩ := hw.exists_of_write? hn
  rw [hquiet] at hsubstance
  exact ⟨register, hregister, (tables_of_substance hsubstance).symm,
    (caches_of_substance hsubstance).symm⟩

section Requests

variable {c : Catalogue Status Origin Content} {write : Change Status Origin Content → Write}
  (hw : c.Writes write) [DecidableEq Status] {forms : Answer.Forms Status Origin Content}
  {request : CatalogueOperation Status Content → Request}
  (hrequest : ∀ op, (request op).perform = op.perform c forms) {m : Market} {id : String}
  {x : Chronicle Status Origin Content} (hknows : (c.cache m.caches).knows id = true)
  (hdense : (c.register m.tables).Dense) (hx : (c.register m.tables).chronicle? id = some x)

include hw hrequest hknows hdense hx

/-- A request about an entity is answered as the access that it is. -/
theorem Writes.reply_eq (op : CatalogueOperation Status Content)
    {a : EntityAccess Status Origin Content} (ha : op.access? c forms = some a) (hid : a.id = id)
    (offered : Option String) :
    (m.step (.request offered (request op))).1 = a.reply x := by
  subst hid
  have hleaves := (op.accesses hw.toLawful forms ha).known (m.offer offered) x hknows hdense hx
  rw [← hrequest op] at hleaves
  exact hleaves.answer

/-- A version of the content is answered as the chronicle tells, and other numbers are refused. -/
theorem Writes.reply_contentVersion (offered : Option String) (v : Int) :
    (m.step (.request offered (request (.contentVersion id v)))).1 =
      ((found (.invalidVersion c.kind id v) (x.content? v)).map fun content =>
        (⟨id, v, content⟩ : ContentVersion Content)).map forms.version :=
  hw.reply_eq hrequest hknows hdense hx (.contentVersion id v) rfl rfl offered

/-- A roll-back is answered with the old content as the newest, and refused for other numbers. -/
theorem Writes.reply_rollback (offered : Option String) (v : Int) :
    (m.step (.request offered (request (.rollback id v)))).1 =
      ((found (.invalidVersion c.kind id v) (x.content? v)).map fun content =>
        (x.append content).entity id).map forms.entity :=
  hw.reply_eq hrequest hknows hdense hx (.rollback id v) rfl rfl offered

/-- An entity shows what its chronicle says. -/
theorem Writes.displays : c.Displays forms request m (x.entity id) (x.history id) where
  get := hw.reply_eq hrequest hknows hdense hx (.get id) rfl rfl
  versions := hw.reply_eq hrequest hknows hdense hx (.history id) rfl rfl
  length := congrArg Int.ofNat (x.length_history id)
  numbered i version hversion := by
    rw [x.getElem?_history] at hversion
    obtain ⟨content, _, rfl⟩ := Option.map_eq_some_iff.mp hversion
    exact ⟨rfl, rfl⟩
  contentVersion offered v version hv hversion := by
    obtain ⟨hcontent, hnumber⟩ := x.content?_of_getElem?_history id hv hversion
    have hreply := hw.reply_contentVersion hrequest hknows hdense hx offered v
    rw [hcontent, found_some] at hreply
    rw [hnumber]
    exact hreply
  noVersion offered v hv := by
    have hnone : x.content? v = none := x.content?_eq_none_of_not_le hv
    have hreply := hw.reply_contentVersion hrequest hknows hdense hx offered v
    rw [hnone, found_none] at hreply
    exact hreply

/-- A request that is answered with the entity under its next version appends the content, if all
that it writes is one change which has this effect on the register. -/
theorem Writes.appends (op : CatalogueOperation Status Content)
    (change : Change Status Origin Content) (hquiet : change.inserted? = none) {content : Content}
    (hperforms : ∀ offered, Performs (m.offer offered) (request op).perform [write change])
    (hchange : (c.register m.tables).change? c.initial change =
      (c.register m.tables).append? id content)
    (hanswer : ∀ offered, (m.step (.request offered (request op))).1 =
      .ok (forms.entity ((x.append content).entity id))) :
    c.Appends forms request m op (x.entity id) (x.history id) content := by
  have happend := Register.append?_of_latest? (hdense.latest?_of_chronicle? hx) content
  have hafter (offered : Option String) :
      (m.step (.request offered (request op))).2.tables =
          c.setRegister m.tables ((c.register m.tables).revised id (x.version + 1) content) ∧
        (m.step (.request offered (request op))).2.caches.uncounted = m.caches.uncounted := by
    obtain ⟨register, hregister, htables, hcaches⟩ :=
      hw.after_of_accepted hquiet (hperforms offered) (hanswer offered)
    have hrevised := hregister.symm.trans (hchange.trans happend)
    rw [Option.some.inj hrevised] at htables
    exact ⟨htables, hcaches⟩
  refine ⟨?_, ?_, ?_⟩
  · intro offered
    rw [hanswer offered, x.entity_append]
  · intro offered
    obtain ⟨htables, hcaches⟩ := hafter offered
    generalize (m.step (.request offered (request op))).2 = m' at htables hcaches
    have hregister : c.register m'.tables =
        (c.register m.tables).revised id (x.version + 1) content := by
      rw [htables, hw.register_setRegister]
    have hknows' : (c.cache m'.caches).knows id = true :=
      (hw.knows_congr hcaches id).trans hknows
    have hdense' : (c.register m'.tables).Dense := hregister ▸ hdense.of_append? happend
    have hx' : (c.register m'.tables).chronicle? id = some (x.append content) := by
      rw [hregister, hdense.chronicle?_of_append? happend, if_pos rfl, hx, Option.map_some]
    have hdisplays := hw.displays hrequest hknows' hdense' hx'
    rw [x.entity_append, x.history_append] at hdisplays
    exact hdisplays
  · intro offered
    rw [x.length_history]
    exact (hafter offered).1

omit hknows hx in
/-- A request for an edit appends its content. -/
theorem Writes.performs_edit_request (offered : Option String) (content : Content) :
    Performs (m.offer offered) (request (.edit id content)).perform
      [write (.append id content)] := by
  have hoffered : (c.register (m.offer offered).tables).Dense := hdense
  rw [hrequest]
  exact (hw.performs_edit hoffered id content).map forms.entity

omit hknows hx in
/-- A request for a roll-back restores its version. -/
theorem Writes.performs_rollback_request (offered : Option String) (v : Int) :
    Performs (m.offer offered) (request (.rollback id v)).perform [write (.restore id v)] := by
  have hoffered : (c.register (m.offer offered).tables).Dense := hdense
  rw [hrequest]
  exact (hw.performs_rollback hoffered id v).map forms.entity

/-- Edits append the content given, rollbacks the content of an old version, and a rollback to no
version is refused and changes nothing. -/
theorem Writes.revises : c.Revises forms request m (x.entity id) (x.history id) where
  edit content := by
    refine hw.appends hrequest hknows hdense hx (.edit id content) (.append id content) rfl ?_
      rfl ?_
    · intro offered
      exact hw.performs_edit_request hrequest hdense offered content
    · exact hw.reply_eq hrequest hknows hdense hx (.edit id content) rfl rfl
  rollback v version hv hversion := by
    obtain ⟨hcontent, _⟩ := x.content?_of_getElem?_history id hv hversion
    have hstored := (hdense.content?_of_chronicle? hx v).trans hcontent
    refine hw.appends hrequest hknows hdense hx (.rollback id v) (.restore id v) rfl ?_ ?_ ?_
    · intro offered
      exact hw.performs_rollback_request hrequest hdense offered v
    · simp only [Register.change?, hstored, Option.bind_some]
    · intro offered
      rw [hw.reply_rollback hrequest hknows hdense hx offered v, hcontent]
      rfl
  refused offered v hv := by
    have hnone : x.content? v = none := x.content?_eq_none_of_not_le hv
    have hreply := hw.reply_rollback hrequest hknows hdense hx offered v
    rw [hnone, found_none] at hreply
    have hsame := (hw.performs_rollback_request hrequest hdense offered v).refused rfl hreply
    exact ⟨hreply, tables_of_substance hsame, caches_of_substance hsame⟩

end Requests

/-- Whatever is stored in a register that the cache mirrors shows a history, and is revised as this
history allows. -/
theorem Writes.exists_revises {c : Catalogue Status Origin Content}
    {write : Change Status Origin Content → Write} (hw : c.Writes write) [DecidableEq Status]
    {forms : Answer.Forms Status Origin Content}
    {request : CatalogueOperation Status Content → Request}
    (hrequest : ∀ op, (request op).perform = op.perform c forms) {m : Market}
    (hagree : (c.cache m.caches).ids = (c.register m.tables).ids)
    (hdense : (c.register m.tables).Dense) {id : String}
    (hid : id ∈ (c.register m.tables).ids) :
    ∃ entity history, entity.id = id ∧ c.Displays forms request m entity history ∧
      c.Revises forms request m entity history := by
  have hknows : (c.cache m.caches).knows id = true := by
    rw [ExistenceCache.knows_iff, hagree]
    exact hid
  obtain ⟨x, hx⟩ := hdense.exists_chronicle?_of_mem hid
  exact ⟨x.entity id, x.history id, rfl, hw.displays hrequest hknows hdense hx,
    hw.revises hrequest hknows hdense hx⟩

end Catalogue

namespace Session

/-- In every run, each stored tender and each stored bid shows its history, and is revised by edits
and rollbacks behind the services as this history allows. -/
theorem revisions_append_versions (stage : Stage) (decisionLimit : Option UInt64)
    (steps : List Step) (hsteps : ∀ step ∈ steps, step.learns = false) :
    let m := ((fresh stage decisionLimit).after steps).market
    let onTenders op := Request.store (.onTenders op)
    let onBids op := Request.store (.onBids op)
    (∀ id ∈ m.tables.tenders.ids, ∃ tender history, tender.id = id ∧
      tenders.Displays Answer.tenderForms onTenders m tender history ∧
      tenders.Revises Answer.tenderForms onTenders m tender history) ∧
    (∀ id ∈ m.tables.bids.ids, ∃ bid history, bid.id = id ∧
      bids.Displays Answer.bidForms onBids m bid history ∧
      bids.Revises Answer.bidForms onBids m bid history) := by
  intro m onTenders onBids
  have hm : m.Faithful := faithful_after (faithful_fresh stage decisionLimit) hsteps
  constructor
  · intro id hid
    exact tenders_writes.exists_revises (fun _ => rfl) hm.mirror.tenders hm.tenders hid
  · intro id hid
    exact bids_writes.exists_revises (fun _ => rfl) hm.mirror.bids hm.bids hid

/-- After an edit, the first version of a tender can be taken up again, but not a third one. -/
theorem revisions_append_versions_edited :
    let road : TenderContent := ⟨"road", "", .construction⟩
    let bridge : TenderContent := ⟨"bridge", "", .construction⟩
    let request op := Step.request none (.store (.onTenders op))
    let steps := biddingRun ++ [request (.edit "t" bridge)]
    let m := ((fresh .assembled none).after steps).market
    let tender : Tender := ⟨"t", .published, ⟨"o", "u"⟩, 2, Instant.initial, bridge⟩
    (∀ step ∈ steps, step.learns = false) ∧ "t" ∈ m.tables.tenders.ids ∧
      (m.step (request (.rollback "t" 1))).1 = .ok (.tender (tender.revised road)) ∧
      (m.step (request (.rollback "t" 3))).1 = .error (.invalidVersion .tender "t" 3) ∧
      (m.step (request (.rollback "t" 3))).2.tables = m.tables := by
  intro road bridge request steps m tender
  have hlearns : ∀ step ∈ steps, step.learns = false := by decide
  have hstored : "t" ∈ m.tables.tenders.ids := by decide
  obtain ⟨shown, history, hid, hdisplays, hrevises⟩ :=
    (revisions_append_versions .assembled none steps hlearns).1 "t" hstored
  have hget := hdisplays.get none
  have hversions := hdisplays.versions none
  rw [hid] at hget hversions
  have hshown : (m.step (request (.get "t"))).1 = .ok (.tender tender) := by decide
  have hhistory : (m.step (request (.history "t"))).1 =
      .ok (.tenderHistory [⟨"t", 1, road⟩, ⟨"t", 2, bridge⟩]) := by decide
  obtain rfl := Answer.tender.inj (Except.ok.inj (hshown.symm.trans hget))
  obtain rfl := Answer.tenderHistory.inj (Except.ok.inj (hhistory.symm.trans hversions))
  have hrestored := hrevises.rollback 1 ⟨"t", 1, road⟩ (by decide) rfl
  have hrefused := hrevises.refused none 3 (by decide)
  exact ⟨hlearns, hstored, hrestored.answer none, hrefused.1, hrefused.2.1⟩

end Session

end Procurement
