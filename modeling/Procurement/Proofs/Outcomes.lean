import Procurement.Proofs.Runs
import Procurement.Proofs.Work

/-!
# How transactions end

Work in a transaction may exceed its limit, be refused, give up, or return a value
and either let go of the transaction or not. Only a value that is returned in time
by work that let go of the transaction takes effect: the tables are then those that
the work saw at its end, and the caches learn of what it created. In the other four
cases the tables, and what the caches know, are as before.
-/

namespace Procurement

/-! ## What the caches learn -/

/-- Between two states of the caches exactly the given rows became known. -/
structure Caches.Gains (caches caches' : Caches) (created : List Registration) : Prop where
  tenders : ∀ id, id ∈ caches'.tenders.ids ↔ id ∈ caches.tenders.ids ∨ .tender id ∈ created
  bids : ∀ id, id ∈ caches'.bids.ids ↔ id ∈ caches.bids.ids ∨ .bid id ∈ created
  users : caches'.users.entries = caches.users.entries

/-- What caches gain does not depend on how they were used before. -/
theorem Caches.Gains.of_uncounted {caches caches' caches'' : Caches} {created : List Registration}
    (hgains : caches.Gains caches'' created) (h : caches.uncounted = caches'.uncounted) :
    caches'.Gains caches'' created := by
  have htenders : caches.tenders.ids = caches'.tenders.ids := (congrArg (·.tenders.ids) h :)
  have hbids : caches.bids.ids = caches'.bids.ids := (congrArg (·.bids.ids) h :)
  have husers : caches.users.entries = caches'.users.entries := (congrArg (·.users.entries) h :)
  exact ⟨htenders ▸ hgains.tenders, hbids ▸ hgains.bids, husers ▸ hgains.users⟩

/-- After an addition the cache knows what it knew before, and what was added. -/
theorem ExistenceCache.mem_add (cache : ExistenceCache) (id id' : String) :
    id' ∈ (cache.add id).ids ↔ id' ∈ cache.ids ∨ id' = id := by
  by_cases hmem : id ∈ cache.ids
  · have hsame : cache.add id = cache := if_pos ((cache.knows_iff id).mpr hmem)
    rw [hsame, or_iff_left_of_imp fun heq => heq ▸ hmem]
  · rw [ids_add hmem, List.mem_append, List.mem_singleton]

namespace Registration

variable (r : Registration) (caches : Caches)

/-- A cache learns of a tender from its registration alone. -/
theorem mem_tenders_applyTo (id : String) :
    id ∈ (r.applyTo caches).tenders.ids ↔ id ∈ caches.tenders.ids ∨ .tender id = r := by
  cases r with
  | tender new =>
    rw [Registration.tender.injEq]
    exact caches.tenders.mem_add new id
  | bid new | user username new => simp [applyTo]

/-- A cache learns of a bid from its registration alone. -/
theorem mem_bids_applyTo (id : String) :
    id ∈ (r.applyTo caches).bids.ids ↔ id ∈ caches.bids.ids ∨ .bid id = r := by
  cases r with
  | bid new =>
    rw [Registration.bid.injEq]
    exact caches.bids.mem_add new id
  | tender new | user username new => simp [applyTo]

/-- Only the registration of a user teaches the cache of users. -/
theorem users_applyTo {r : Registration} (h : ∀ username id, .user username id ≠ r) :
    (r.applyTo caches).users = caches.users := by
  cases r with
  | user username id => exact absurd rfl (h username id)
  | tender id | bid id => rfl

end Registration

/-- Caches that are told of tenders and bids alone gain these. -/
theorem Caches.gains_foldl_applyTo (caches : Caches) {created : List Registration}
    (h : ∀ username id, .user username id ∉ created) :
    caches.Gains (created.foldl (fun caches r => r.applyTo caches) caches) created := by
  induction created generalizing caches with
  | nil => exact ⟨by simp, by simp, rfl⟩
  | cons r rest ih =>
    have hrest := ih (r.applyTo caches) fun username id hmem =>
      h username id (List.mem_cons_of_mem r hmem)
    refine ⟨fun id => ?_, fun id => ?_, ?_⟩
    · rw [List.foldl_cons, hrest.tenders, r.mem_tenders_applyTo, List.mem_cons, or_assoc]
    · rw [List.foldl_cons, hrest.bids, r.mem_bids_applyTo, List.mem_cons, or_assoc]
    · rw [List.foldl_cons, hrest.users, Registration.users_applyTo]
      rintro username id rfl
      exact h username id List.mem_cons_self

/-- Operations on tenders and bids create no users. -/
theorem Work.user_not_mem_created {α : Type} (work : Work α) (m : Market) (username id : String) :
    .user username id ∉ work.created m := by
  intro hmem
  obtain ⟨moment, -, hcreated⟩ := List.mem_filterMap.mp hmem
  revert hcreated
  unfold StoreOperation.created?
  split <;> simp

/-! ## Five endings -/

namespace Market

variable {α : Type}

/-- A market that is left with the tables, and with what the caches know, as they were. -/
structure RolledBack (before after : Market) : Prop where
  tables : after.tables = before.tables
  caches : after.caches.contents = before.caches.contents

/-- How a transaction ends and what it leaves, by the end of its work: how that ends, the market
that it sees at its end, and the rows that it created. -/
structure Transacted (before : Market) (limit : Option UInt64) (conclusion : Conclusion α)
    (view : Market) (created : List Registration) (ending : Ending α) (after : Market) : Prop where
  commits : ∀ value, conclusion.exceeded? before limit = none →
    conclusion.ending = .returns (.ok value) → conclusion.keepsHandle = false →
      ending = .returns (.ok value) ∧ after.tables = view.tables ∧
        before.tables.Gains after.tables created ∧ before.caches.Gains after.caches created
  refuses : ∀ refusal, conclusion.exceeded? before limit = none →
    conclusion.ending = .returns (.error refusal) →
      ending = .returns (.error refusal) ∧ before.RolledBack after
  panics : ∀ message, conclusion.exceeded? before limit = none →
    conclusion.ending = .panics message → ending = .panics message ∧ before.RolledBack after
  expires : ∀ milliseconds, conclusion.exceeded? before limit = some milliseconds →
    ending = .returns (.error (.deadlineExceeded "decision_transaction" milliseconds)) ∧
      before.RolledBack after
  outlived : ∀ value, conclusion.exceeded? before limit = none →
    conclusion.ending = .returns (.ok value) → conclusion.keepsHandle = true →
      ending = .returns (.error .transactionInUse) ∧ before.RolledBack after

/-- Discarding a transaction leaves the market as it was before. -/
theorem rolledBack_discard {before view : Market}
    (h : view.caches.uncounted = before.caches.uncounted) :
    before.RolledBack (discard before view) where
  tables := rfl
  caches := (congrArg Caches.contents h :)

/-- Work in a transaction takes effect as a whole when it returns a value in time and lets go of
the transaction, and not at all otherwise. Until the commit no cache knows of what it creates. -/
theorem decisionTransaction_outcome (limit : Option UInt64) (work : Work α) (m : Market) :
    (∀ moment ∈ work.moments m.opened, moment.market.caches.contents = m.caches.contents) ∧
      Transacted m limit (work.run m.opened).1 (work.run m.opened).2 (work.created m.opened)
        (decisionTransaction limit work.run m).1 (decisionTransaction limit work.run m).2 := by
  have hopened : m.opened.transaction = some {} := rfl
  have hwork : work.run m.opened = ((work.run m.opened).1, (work.run m.opened).2) := rfl
  have hgains := work.gains hopened
  have hcaches : (work.run m.opened).2.caches.uncounted = m.caches.uncounted := hgains.caches
  have hback := rolledBack_discard hcaches
  refine ⟨fun moment hmoment => ?_, ?_, ?_, ?_, ?_, ?_⟩
  · exact (congrArg Caches.contents (Work.caches_of_mem_moments hopened hmoment) :)
  · intro value hlimit hending hkeeps
    rw [decisionTransaction_of_value hwork hlimit hending hgains.transaction, hkeeps]
    have hlearned := Caches.gains_foldl_applyTo (work.run m.opened).2.caches
      (work.user_not_mem_created m.opened)
    exact ⟨rfl, rfl, hgains.tables, hlearned.of_uncounted hcaches⟩
  · intro refusal hlimit hending
    rw [decisionTransaction_of_failure hwork hlimit (by simp [hending])]
    exact ⟨hending, hback⟩
  · intro message hlimit hending
    rw [decisionTransaction_of_failure hwork hlimit (by simp [hending])]
    exact ⟨hending, hback⟩
  · intro milliseconds hlimit
    rw [decisionTransaction_of_exceeded hwork hlimit]
    exact ⟨rfl, hback⟩
  · intro value hlimit hending hkeeps
    rw [decisionTransaction_of_value hwork hlimit hending hgains.transaction, hkeeps]
    exact ⟨rfl, hback⟩

/-- A market with a published bid on a published tender. -/
def biddingMarket : Market := ((Session.fresh .assembled none).after Session.biddingRun).market

/-- Creates a tender, and keeps a reference to the transaction or not. -/
def draftingWork (keepsHandle : Bool) : Work Unit :=
  .offers (some "v") <|
    .performs (.insertTender "o" "ann" ⟨"bridge", "", .construction⟩) fun _ =>
      .ends { ending := .returns (.ok ()), keepsHandle }

/-- The commit makes a tender known; a reference to the transaction undoes its creation. -/
theorem decisionTransaction_outcome_drafting :
    (draftingWork false).created biddingMarket.opened = [.tender "v"] ∧
      "v" ∈ (decisionTransaction none (draftingWork false).run biddingMarket).2.caches.tenders.ids ∧
      (decisionTransaction none (draftingWork true).run biddingMarket).1 =
        .returns (.error .transactionInUse) ∧
      (decisionTransaction none (draftingWork true).run biddingMarket).2.tables =
        biddingMarket.tables := by
  have hcreated : (draftingWork false).created biddingMarket.opened = [.tender "v"] := by decide
  obtain ⟨_, hkept⟩ := decisionTransaction_outcome none (draftingWork false) biddingMarket
  obtain ⟨_, hdropped⟩ := decisionTransaction_outcome none (draftingWork true) biddingMarket
  obtain ⟨_, _, _, hlearned⟩ := hkept.commits () (by decide) rfl rfl
  obtain ⟨hending, hback⟩ := hdropped.outlived () (by decide) rfl rfl
  have hmem : Registration.tender "v" ∈ (draftingWork false).created biddingMarket.opened := by
    rw [hcreated]
    exact List.mem_singleton_self _
  exact ⟨hcreated, (hlearned.tenders "v").mpr (Or.inr hmem), hending, hback.tables⟩

end Market

end Procurement
