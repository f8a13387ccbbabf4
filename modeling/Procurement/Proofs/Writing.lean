import Procurement.Proofs.Catalogue
import Procurement.Proofs.Register

/-!
# What requests write

What a request writes is described as a list of writes, each to one table, with
the registration that goes along with it. A request performs its writes when it
carries them out as a whole if it is accepted, and leaves everything that lasts
as it was if it is refused. Counters and the supply of identifiers do not last.
-/

namespace Procurement

/-- One write to one of the tables. -/
inductive Write where
  | user (user : User)
  | organization (organization : Organization)
  | responsibility (link : Responsibility)
  | tender (change : Change TenderStatus TenderOrigin TenderContent)
  | bid (change : Change BidStatus BidOrigin BidContent)
  | feedback (feedback : Feedback)
  /-- Nothing is written, but a cache learns of a row all the same. -/
  | notice (registration : Registration)
  deriving DecidableEq

/-- What a cache has to learn with a write. -/
def Write.registration? : Write → Option Registration
  | .user u => some (.user u.username u.id)
  | .tender change => change.inserted?.map .tender
  | .bid change => change.inserted?.map .bid
  | .notice registration => some registration
  | _ => none

/-- Whether all that a change refers to is stored; only what is added refers to anything. -/
def Change.isSupported {Status Origin Content : Type} (supports : Origin → Bool) :
    Change Status Origin Content → Bool
  | .insert _ origin _ _ => supports origin
  | _ => true

/-- The tables after a change to one kind of entities, if it is possible and supported. -/
def Catalogue.change? {Status Origin Content : Type} (c : Catalogue Status Origin Content)
    (tables : Tables) (change : Change Status Origin Content) : Option Tables :=
  if change.isSupported (c.supports tables) then
    ((c.register tables).change? c.initial change).map (c.setRegister tables)
  else none

/-- The tables after a write, if no rule of theirs forbids it. -/
def Write.applyTo? (t : Tables) : Write → Option Tables
  | .user u => (t.addUser u).toOption
  | .organization o => (t.addOrganization o).toOption
  | .responsibility link => (t.addResponsibility link).toOption
  | .tender change => tenders.change? t change
  | .bid change => bids.change? t change
  | .feedback f => (t.addFeedback f).toOption
  | .notice _ => some t

namespace Market

variable {α β : Type}

/-- The market after a write and its registration. -/
def write? (m : Market) (write : Write) : Option Market :=
  (write.applyTo? m.tables).map fun tables =>
    let written : Market := { m with tables }
    write.registration?.elim written written.registered

/-- The market after writes, one after the other. -/
def writeAll? (m : Market) : List Write → Option Market
  | [] => some m
  | write :: rest => (m.write? write).bind fun next => next.writeAll? rest

/-- Without writes nothing changes. -/
@[simp] theorem writeAll?_nil (m : Market) : m.writeAll? [] = some m := rfl

/-- One write is carried out by itself. -/
@[simp] theorem writeAll?_singleton (m : Market) (write : Write) :
    m.writeAll? [write] = m.write? write := by
  unfold writeAll?
  cases m.write? write <;> rfl

/-- Writes in two parts are carried out one part after the other. -/
theorem writeAll?_append (m : Market) (writes writes' : List Write) :
    m.writeAll? (writes ++ writes') =
      (m.writeAll? writes).bind fun next => next.writeAll? writes' := by
  induction writes generalizing m with
  | nil => rfl
  | cons write rest ih =>
    simp only [List.cons_append, writeAll?, Option.bind_assoc]
    exact congrArg _ (funext fun next => ih next)

/-- What lasts of a market: all but the counted look-ups and the supply of identifiers. -/
def substance (m : Market) : Market := { m.uncounted with ids := {} }

/-- Look-ups do not last. -/
theorem substance_of_uncounted {m m' : Market} (h : m.uncounted = m'.uncounted) :
    m.substance = m'.substance :=
  congrArg (fun n => { n with ids := {} }) h

section Substance

variable {m m' : Market} (h : m.substance = m'.substance)

include h

/-- The tables last. -/
theorem tables_of_substance : m.tables = m'.tables := (congrArg Market.tables h :)

/-- The transaction lasts. -/
theorem transaction_of_substance : m.transaction = m'.transaction :=
  (congrArg Market.transaction h :)

/-- What the caches know lasts. -/
theorem caches_of_substance : m.caches.uncounted = m'.caches.uncounted :=
  (congrArg Market.caches h :)

end Substance

/-- Registrations teach caches the same, whatever was looked up before. -/
private theorem uncounted_applyTo (r : Registration) (caches : Caches) :
    (r.applyTo caches).uncounted = (r.applyTo caches.uncounted).uncounted := by
  cases r with
  | tender id =>
    exact congrArg (fun tenders => { caches.uncounted with tenders })
      (caches.tenders.uncounted_add id)
  | bid id =>
    exact congrArg (fun bids => { caches.uncounted with bids }) (caches.bids.uncounted_add id)
  | user username id =>
    exact congrArg (fun users => { caches.uncounted with users })
      (caches.users.uncounted_add username id)

/-- A registration leaves the tables. -/
theorem tables_registered (m : Market) (r : Registration) : (m.registered r).tables = m.tables := by
  unfold registered
  split <;> rfl

/-- What lasts of a registration depends on what lasted before it. -/
theorem substance_registered (m : Market) (r : Registration) :
    (m.registered r).substance = (m.substance.registered r).substance := by
  obtain ⟨tables, caches, transaction, now, ids, decisionLimit, slow⟩ := m
  cases transaction with
  | none =>
    exact congrArg
      (fun caches => { tables, caches, transaction := none, now, decisionLimit, slow : Market })
      (uncounted_applyTo r caches)
  | some handle => rfl

/-- What lasts of a write depends on what lasted before it. -/
theorem map_substance_write? (m : Market) (write : Write) :
    (m.write? write).map substance = (m.substance.write? write).map substance := by
  unfold write?
  simp only [Option.map_map]
  refine congrArg (fun f => (write.applyTo? m.tables).map f) (funext fun tables => ?_)
  simp only [Function.comp_apply]
  cases write.registration? with
  | none => rfl
  | some r => exact substance_registered { m with tables } r

/-- What lasts of a write does not depend on what does not last. -/
theorem write?_congr {m m' : Market} (h : m.substance = m'.substance) (write : Write) :
    (m.write? write).map substance = (m'.write? write).map substance := by
  rw [map_substance_write? m, map_substance_write? m', h]

/-- What lasts of several writes does not depend on what does not last. -/
theorem writeAll?_congr {m m' : Market} (h : m.substance = m'.substance) (writes : List Write) :
    (m.writeAll? writes).map substance = (m'.writeAll? writes).map substance := by
  induction writes generalizing m m' with
  | nil => exact congrArg some h
  | cons write rest ih =>
    have hwrite := write?_congr h write
    simp only [writeAll?]
    cases hm : m.write? write with
    | none =>
      rw [hm, Option.map_none] at hwrite
      rw [Option.map_eq_none_iff.mp hwrite.symm]
    | some next =>
      rw [hm, Option.map_some] at hwrite
      obtain ⟨next', hnext', heq⟩ := Option.map_eq_some_iff.mp hwrite.symm
      rw [hnext']
      exact ih heq.symm

/-- A request that carries out writes if it is accepted, whatever it leaves behind if it is
refused. What the counters show does not matter. -/
def Achieves (m : Market) (request : MarketM α) (writes : List Write) : Prop :=
  ∀ ⦃m' : Market⦄, m'.uncounted = m.uncounted → ∀ ⦃a⦄, m'.answer request = .ok a →
    (m.writeAll? writes).map substance = some (m'.after request).substance

/-- A request that carries out writes if it is accepted, and leaves what lasts as it was if
it is refused. -/
structure Performs (m : Market) (request : MarketM α) (writes : List Write) : Prop where
  accepted : Achieves m request writes
  refused : ∀ ⦃m' : Market⦄, m'.uncounted = m.uncounted →
    ∀ ⦃refusal⦄, m'.answer request = .error refusal → (m'.after request).substance = m.substance

/-- What only reads performs no writes. -/
theorem OnlyReads.performs {request : MarketM α} (h : OnlyReads request) (m : Market) :
    Performs m request [] where
  accepted {m'} hm _ _ := by
    rw [writeAll?_nil, Option.map_some]
    exact congrArg some (substance_of_uncounted ((h.after_uncounted m').trans hm)).symm
  refused {m'} hm _ _ := substance_of_uncounted ((h.after_uncounted m').trans hm)

/-- Writes that come to the same are performed alike. -/
theorem Performs.of_eq {m : Market} {request : MarketM α} {writes writes' : List Write}
    (h : Performs m request writes)
    (heq : (m.writeAll? writes').map substance = (m.writeAll? writes).map substance) :
    Performs m request writes' where
  accepted _ hm _ ha := heq.trans (h.accepted hm ha)
  refused _ hm _ hrefusal := h.refused hm hrefusal

/-- A request that is always refused performs any writes. -/
theorem Performs.of_refused {m : Market} {request : MarketM α} {writes : List Write}
    (h : Performs m request writes)
    (hrefused : ∀ {m' : Market}, m'.uncounted = m.uncounted → ∀ a, m'.answer request ≠ .ok a)
    (writes' : List Write) : Performs m request writes' where
  accepted _ hm a ha := absurd ha (hrefused hm a)
  refused _ hm _ hrefusal := h.refused hm hrefusal

/-- Putting something around an answer leaves the writes. -/
theorem Performs.map {m : Market} {request : MarketM α} {writes : List Write}
    (h : Performs m request writes) (f : α → β) : Performs m (f <$> request) writes where
  accepted {m'} hm b hb := by
    rw [answer_map] at hb
    cases ha : m'.answer request with
    | error refusal => simp [ha, Except.map] at hb
    | ok a => rw [after_map, h.accepted hm ha]
  refused {m'} hm refusal hrefusal := by
    rw [answer_map] at hrefusal
    cases ha : m'.answer request with
    | error refusal => rw [after_map, h.refused hm ha]
    | ok a => simp [ha, Except.map] at hrefusal

section Sequence

variable {m : Market} {first : MarketM α} {next : α → MarketM β} {writes : List Write}

/-- Two requests achieve their writes one after the other. -/
theorem Achieves.bind {writes' : List Write} (hfirst : Achieves m first writes)
    (hnext : ∀ {m' : Market}, m'.uncounted = m.uncounted → ∀ {a}, m'.answer first = .ok a →
      Achieves (m'.after first) (next a) writes') :
    Achieves m (first >>= next) (writes ++ writes') := by
  intro m' hm b hb
  obtain ⟨a, ha, hb⟩ := answer_bind_eq_ok_iff.mp hb
  obtain ⟨n, hn, hsubstance⟩ := Option.map_eq_some_iff.mp (hfirst hm ha)
  rw [after_bind_of_answer ha, writeAll?_append, hn, Option.bind_some, writeAll?_congr hsubstance]
  exact hnext hm ha rfl hb

/-- After a request that only reads, the next one performs its own writes. -/
theorem OnlyReads.performs_bind (hfirst : OnlyReads first)
    (hnext : ∀ {a}, m.answer first = .ok a → Performs m (next a) writes) :
    Performs m (first >>= next) writes where
  accepted {m'} hm b hb := by
    have hread := (hfirst.after_uncounted m').trans hm
    obtain ⟨a, ha, hb⟩ := answer_bind_eq_ok_iff.mp hb
    rw [after_bind_of_answer ha]
    exact (hnext ((hfirst.answer_congr hm).symm.trans ha)).accepted hread hb
  refused {m'} hm refusal hrefusal := by
    have hread := (hfirst.after_uncounted m').trans hm
    rw [Market.answer_bind] at hrefusal
    rw [Market.after_bind]
    cases ha : m'.answer first with
    | error refusal => exact substance_of_uncounted hread
    | ok a =>
      rw [ha] at hrefusal
      exact (hnext ((hfirst.answer_congr hm).symm.trans ha)).refused hread hrefusal

/-- What is read after writes must not be refused any more, unless they changed nothing. -/
theorem Performs.bind_reads (hfirst : Performs m first writes) (hnext : ∀ a, OnlyReads (next a))
    (haccepts : ∀ {m' : Market}, m'.uncounted = m.uncounted → ∀ {a}, m'.answer first = .ok a →
      (∃ b, (m'.after first).answer (next a) = .ok b) ∨ (m'.after first).substance = m.substance) :
    Performs m (first >>= next) writes where
  accepted {m'} hm b hb := by
    obtain ⟨a, ha, hb⟩ := answer_bind_eq_ok_iff.mp hb
    rw [after_bind_of_answer ha, hfirst.accepted hm ha]
    exact congrArg some (substance_of_uncounted ((hnext a).after_uncounted _)).symm
  refused {m'} hm refusal hrefusal := by
    rw [answer_bind] at hrefusal
    rw [after_bind]
    cases ha : m'.answer first with
    | error refusal => exact hfirst.refused hm ha
    | ok a =>
      rw [ha] at hrefusal
      rcases haccepts hm ha with ⟨b, hb⟩ | hsame
      · exact absurd (hb.symm.trans hrefusal) (by simp)
      · exact (substance_of_uncounted ((hnext a).after_uncounted _)).trans hsame

/-- Reading the whole market shows it up to its counters. -/
theorem performs_get_bind {next : Market → MarketM β}
    (hnext : ∀ {m' : Market}, m'.uncounted = m.uncounted → Performs m (next m') writes) :
    Performs m (get >>= next) writes where
  accepted {m'} hm b hb := by
    rw [answer_bind] at hb
    rw [after_bind]
    exact (hnext hm).accepted hm hb
  refused {m'} hm refusal hrefusal := by
    rw [answer_bind] at hrefusal
    rw [after_bind]
    exact (hnext hm).refused hm hrefusal

/-- The next identifier is the first one of the supply. -/
@[simp] theorem answer_drawId (m : Market) : m.answer drawId = .ok m.ids.draw.1 := rfl

/-- A draw takes one identifier from the supply. -/
@[simp] theorem after_drawId (m : Market) : m.after drawId = { m with ids := m.ids.draw.2 } := rfl

/-- A draw from the supply of identifiers does not last. -/
theorem performs_drawId_bind {next : String → MarketM β}
    (hnext : Performs { m with ids := m.ids.draw.2 } (next m.ids.draw.1) writes) :
    Performs m (drawId >>= next) writes := by
  have hsubstance : ({ m with ids := m.ids.draw.2 } : Market).substance = m.substance := rfl
  have hdrawn : ∀ {m' : Market}, m'.uncounted = m.uncounted →
      ({ m' with ids := m'.ids.draw.2 } : Market).uncounted =
        ({ m with ids := m.ids.draw.2 } : Market).uncounted :=
    fun hm => congrArg (fun n : Market => { n with ids := n.ids.draw.2 }) hm
  refine ⟨fun {m'} hm b hb => ?_, fun {m'} hm refusal hrefusal => ?_⟩
  · rw [answer_bind, answer_drawId, after_drawId] at hb
    rw [after_bind, answer_drawId, after_drawId, writeAll?_congr hsubstance.symm]
    dsimp only at hb ⊢
    rw [ids_of_uncounted hm] at hb ⊢
    exact hnext.accepted (ids_of_uncounted hm ▸ hdrawn hm) hb
  · rw [answer_bind, answer_drawId, after_drawId] at hrefusal
    rw [after_bind, answer_drawId, after_drawId]
    dsimp only at hrefusal ⊢
    rw [ids_of_uncounted hm] at hrefusal ⊢
    exact hnext.refused (ids_of_uncounted hm ▸ hdrawn hm) hrefusal

/-- An identifier is drawn, and then the time is read. -/
theorem performs_drawId_get_bind {next : String → Market → MarketM β}
    (hnext : ∀ {m' : Market}, m'.now = m.now →
      Performs { m with ids := m.ids.draw.2 } (next m.ids.draw.1 m') writes) :
    Performs m (drawId >>= fun id => get >>= next id) writes :=
  performs_drawId_bind (performs_get_bind fun hm => hnext (congrArg Market.now hm :))

end Sequence

section Storing

variable {m : Market} {refusal : Violation → MarketError}
  {insertion : Tables → Except Violation Tables}

/-- Storing is accepted unless a rule of the tables forbids it. -/
theorem answer_store (m : Market) (refusal : Violation → MarketError)
    (insertion : Tables → Except Violation Tables) :
    m.answer (store refusal insertion) = match insertion m.tables with
      | .ok _ => .ok ()
      | .error violation => .error (refusal violation) := by
  unfold store
  rw [answer_bind, answer_get, after_get]
  dsimp only
  cases insertion m.tables <;> rfl

/-- Storing changes the tables unless one of their rules forbids it. -/
theorem after_store (m : Market) (refusal : Violation → MarketError)
    (insertion : Tables → Except Violation Tables) :
    m.after (store refusal insertion) = match insertion m.tables with
      | .ok tables => { m with tables }
      | .error _ => m := by
  unfold store
  rw [after_bind, answer_get, after_get]
  dsimp only
  cases insertion m.tables <;> rfl

/-- A registration is always accepted. -/
@[simp] theorem answer_register (m : Market) (r : Registration) :
    m.answer (register r) = .ok () := rfl

/-- A registration teaches the caches, at once or at the end of a transaction. -/
@[simp] theorem after_register (m : Market) (r : Registration) :
    m.after (register r) = m.registered r := rfl

/-- An insertion that no cache has to learn of performs its write. -/
theorem performs_store {write : Write}
    (hwrite : (insertion m.tables).toOption = write.applyTo? m.tables)
    (hsilent : write.registration? = none) :
    Performs m (store refusal insertion) [write] where
  accepted {m'} hm _ ha := by
    rw [answer_store, tables_of_uncounted hm] at ha
    rw [after_store, tables_of_uncounted hm, writeAll?_singleton]
    unfold write?
    rw [← hwrite, hsilent]
    cases h : insertion m.tables with
    | error violation => simp [h] at ha
    | ok tables => exact congrArg some (congrArg (fun n => { n with ids := {}, tables }) hm.symm)
  refused {m'} hm _ hrefusal := by
    rw [answer_store, tables_of_uncounted hm] at hrefusal
    rw [after_store, tables_of_uncounted hm]
    cases h : insertion m.tables with
    | error violation => exact substance_of_uncounted hm
    | ok tables => simp [h] at hrefusal

/-- An insertion performs its write together with the registration that follows it. -/
theorem performs_store_register {write : Write} {registration : Registration}
    (hwrite : (insertion m.tables).toOption = write.applyTo? m.tables)
    (hregistration : write.registration? = some registration) (a : α) :
    Performs m (store refusal insertion >>= fun _ => register registration >>= fun _ => pure a)
      [write] where
  accepted {m'} hm b hb := by
    rw [answer_bind, answer_store, tables_of_uncounted hm] at hb
    rw [after_bind, answer_store, after_store, tables_of_uncounted hm, writeAll?_singleton]
    unfold write?
    rw [← hwrite, hregistration]
    cases h : insertion m.tables with
    | error violation => simp [h] at hb
    | ok tables =>
      have hwritten : ({ m' with tables } : Market).substance = { m with tables }.substance :=
        congrArg (fun n => { n with ids := {}, tables }) hm
      refine congrArg some ?_
      change (({ m with tables } : Market).registered registration).substance =
        (({ m' with tables } : Market).registered registration).substance
      rw [substance_registered, ← hwritten, ← substance_registered]
  refused {m'} hm _ hrefusal := by
    rw [answer_bind, answer_store, tables_of_uncounted hm] at hrefusal
    rw [after_bind, answer_store, after_store, tables_of_uncounted hm]
    cases h : insertion m.tables with
    | error violation => exact substance_of_uncounted hm
    | ok tables => simp [h, Except.map] at hrefusal

end Storing

end Market

end Procurement
