import Procurement.Proofs.Writing

/-!
# What writes do to the tables

A write changes one table and leaves the others. To the register of a catalogue,
writes are the changes among them that go to this catalogue. So whatever changes
preserve in a dense register, writes preserve in the tables.
-/

namespace Procurement

namespace Tables

variable {t t' : Tables}

/-- A new user stands behind all others, under an identifier and a name of its own. -/
theorem eq_of_addUser {user : User} (h : (t.addUser user).toOption = some t') :
    (∀ u ∈ t.users, u.id ≠ user.id ∧ u.username ≠ user.username) ∧
      t' = { t with users := t.users ++ [user] } := by
  unfold addUser at h
  split at h
  · cases h
  · rename_i hfresh
    exact ⟨by simpa using hfresh, (Option.some.inj h).symm⟩

/-- A new organization stands behind all others. -/
theorem eq_of_addOrganization {organization : Organization}
    (h : (t.addOrganization organization).toOption = some t') :
    t' = { t with organizations := t.organizations ++ [organization] } := by
  unfold addOrganization at h
  split at h
  · cases h
  · exact (Option.some.inj h).symm

/-- A new responsibility stands behind all others. -/
theorem eq_of_addResponsibility {link : Responsibility}
    (h : (t.addResponsibility link).toOption = some t') :
    t' = { t with responsibilities := t.responsibilities ++ [link] } := by
  unfold addResponsibility at h
  split at h
  · cases h
  · split at h
    · cases h
    · split at h
      · exact (Option.some.inj h).symm
      · cases h

/-- New feedback stands behind all other. -/
theorem eq_of_addFeedback {feedback : Feedback}
    (h : (t.addFeedback feedback).toOption = some t') :
    t' = { t with feedback := t.feedback ++ [feedback] } := by
  unfold addFeedback at h
  split at h
  · cases h
  · split at h
    · exact (Option.some.inj h).symm
    · cases h

end Tables

/-- A change in a catalogue is a change to its register. -/
theorem Catalogue.exists_of_change? {Status Origin Content : Type}
    {c : Catalogue Status Origin Content} {tables tables' : Tables}
    {change : Change Status Origin Content} (h : c.change? tables change = some tables') :
    ∃ register, (c.register tables).change? c.initial change = some register ∧
      tables' = c.setRegister tables register := by
  unfold change? at h
  split at h
  · obtain ⟨register, hregister, heq⟩ := Option.map_eq_some_iff.mp h
    exact ⟨register, hregister, heq.symm⟩
  · cases h

/-- All that a change refers to is stored. -/
theorem Catalogue.isSupported_of_change? {Status Origin Content : Type}
    {c : Catalogue Status Origin Content} {tables tables' : Tables}
    {change : Change Status Origin Content} (h : c.change? tables change = some tables') :
    change.isSupported (c.supports tables) = true := by
  unfold change? at h
  split at h
  · assumption
  · cases h

/-- The changes to the tenders that a write consists of. -/
def Write.tenderChanges : Write → List (Change TenderStatus TenderOrigin TenderContent)
  | .tender change => [change]
  | _ => []

/-- The changes to the bids that a write consists of. -/
def Write.bidChanges : Write → List (Change BidStatus BidOrigin BidContent)
  | .bid change => [change]
  | _ => []

/-- What a write does to the tenders and bids are the changes it makes to them. -/
theorem Write.registers_of_applyTo? {t t' : Tables} {write : Write}
    (h : write.applyTo? t = some t') :
    t.tenders.changeAll? .created write.tenderChanges = some t'.tenders ∧
      t.bids.changeAll? .created write.bidChanges = some t'.bids := by
  cases write with
  | user user =>
    obtain ⟨_, rfl⟩ := Tables.eq_of_addUser h
    exact ⟨rfl, rfl⟩
  | organization organization =>
    obtain rfl := Tables.eq_of_addOrganization h
    exact ⟨rfl, rfl⟩
  | responsibility link =>
    obtain rfl := Tables.eq_of_addResponsibility h
    exact ⟨rfl, rfl⟩
  | tender change =>
    obtain ⟨register, hregister, rfl⟩ := Catalogue.exists_of_change? h
    exact ⟨Option.bind_eq_some_iff.mpr ⟨register, hregister, rfl⟩, rfl⟩
  | bid change =>
    obtain ⟨register, hregister, rfl⟩ := Catalogue.exists_of_change? h
    exact ⟨rfl, Option.bind_eq_some_iff.mpr ⟨register, hregister, rfl⟩⟩
  | feedback feedback =>
    obtain rfl := Tables.eq_of_addFeedback h
    exact ⟨rfl, rfl⟩
  | notice registration =>
    obtain rfl := Option.some.inj h
    exact ⟨rfl, rfl⟩

/-- The users that a write adds. -/
def Write.newUsers : Write → List User
  | .user u => [u]
  | _ => []

/-- The feedback that a write adds. -/
def Write.newFeedback : Write → List Feedback
  | .feedback f => [f]
  | _ => []

/-- Users and feedback are only added, behind all others. -/
theorem Write.rows_of_applyTo? {t t' : Tables} {write : Write} (h : write.applyTo? t = some t') :
    t'.users = t.users ++ write.newUsers ∧ t'.feedback = t.feedback ++ write.newFeedback := by
  cases write with
  | user user =>
    obtain ⟨_, rfl⟩ := Tables.eq_of_addUser h
    exact ⟨rfl, (List.append_nil _).symm⟩
  | organization organization =>
    obtain rfl := Tables.eq_of_addOrganization h
    exact ⟨(List.append_nil _).symm, (List.append_nil _).symm⟩
  | responsibility link =>
    obtain rfl := Tables.eq_of_addResponsibility h
    exact ⟨(List.append_nil _).symm, (List.append_nil _).symm⟩
  | tender change =>
    obtain ⟨register, _, rfl⟩ := Catalogue.exists_of_change? h
    exact ⟨(List.append_nil _).symm, (List.append_nil _).symm⟩
  | bid change =>
    obtain ⟨register, _, rfl⟩ := Catalogue.exists_of_change? h
    exact ⟨(List.append_nil _).symm, (List.append_nil _).symm⟩
  | feedback feedback =>
    obtain rfl := Tables.eq_of_addFeedback h
    exact ⟨(List.append_nil _).symm, rfl⟩
  | notice registration =>
    obtain rfl := Option.some.inj h
    exact ⟨(List.append_nil _).symm, (List.append_nil _).symm⟩

namespace Market

/-- A write to a market is a write to its tables. -/
theorem applyTo?_of_write? {m n : Market} {write : Write} (h : m.write? write = some n) :
    write.applyTo? m.tables = some n.tables := by
  obtain ⟨tables, htables, rfl⟩ := Option.map_eq_some_iff.mp h
  rw [htables]
  cases write.registration? with
  | none => rfl
  | some registration => exact congrArg some (tables_registered { m with tables } registration).symm

/-- What each of some writes keeps, they keep together. -/
theorem keeps_of_writeAll? {m n : Market} {writes : List Write} (h : m.writeAll? writes = some n)
    (Kept : Tables → Prop)
    (hkeeps : ∀ write ∈ writes, ∀ {t t' : Tables}, write.applyTo? t = some t' → Kept t → Kept t')
    (hkept : Kept m.tables) : Kept n.tables := by
  induction writes generalizing m with
  | nil => exact Option.some.inj h ▸ hkept
  | cons write rest ih =>
    obtain ⟨next, hnext, hrest⟩ := Option.bind_eq_some_iff.mp h
    exact ih hrest (fun write' hmem => hkeeps write' (List.mem_cons_of_mem _ hmem))
      (hkeeps write List.mem_cons_self (applyTo?_of_write? hnext) hkept)

/-- What writes do to the tenders and bids are the changes that they make to them. -/
theorem registers_of_writeAll? {m n : Market} {writes : List Write}
    (h : m.writeAll? writes = some n) :
    m.tables.tenders.changeAll? .created (writes.flatMap Write.tenderChanges) =
        some n.tables.tenders ∧
      m.tables.bids.changeAll? .created (writes.flatMap Write.bidChanges) =
        some n.tables.bids := by
  induction writes generalizing m with
  | nil =>
    obtain rfl := Option.some.inj h
    exact ⟨rfl, rfl⟩
  | cons write rest ih =>
    obtain ⟨next, hnext, hrest⟩ := Option.bind_eq_some_iff.mp h
    obtain ⟨htender, hbid⟩ := Write.registers_of_applyTo? (applyTo?_of_write? hnext)
    obtain ⟨htenders, hbids⟩ := ih hrest
    rw [List.flatMap_cons, List.flatMap_cons, Register.changeAll?_append,
      Register.changeAll?_append, htender, hbid]
    exact ⟨htenders, hbids⟩

/-- Outside a transaction writes open none. -/
theorem transaction_of_write? {m n : Market} {write : Write} (h : m.write? write = some n)
    (hm : m.transaction = none) : n.transaction = none := by
  obtain ⟨tables, _, rfl⟩ := Option.map_eq_some_iff.mp h
  cases write.registration? with
  | none => exact hm
  | some registration =>
    simp only [Option.elim_some, registered, hm]

/-- Writes open no transaction. -/
theorem transaction_of_writeAll? {m n : Market} {writes : List Write}
    (h : m.writeAll? writes = some n) (hm : m.transaction = none) : n.transaction = none := by
  induction writes generalizing m with
  | nil => exact Option.some.inj h ▸ hm
  | cons write rest ih =>
    obtain ⟨next, hnext, hrest⟩ := Option.bind_eq_some_iff.mp h
    exact ih hrest (transaction_of_write? hnext hm)

/-- The registers of a market are dense, and no transaction is open. -/
structure Sound (m : Market) : Prop where
  tenders : m.tables.tenders.Dense
  bids : m.tables.bids.Dense
  settled : m.transaction = none

/-- Soundness lasts. -/
theorem Sound.of_substance {m n : Market} (hm : m.Sound) (h : m.substance = n.substance) :
    n.Sound where
  tenders := tables_of_substance h ▸ hm.tenders
  bids := tables_of_substance h ▸ hm.bids
  settled := transaction_of_substance h ▸ hm.settled

/-- Writes leave a sound market sound. -/
theorem Sound.of_writeAll? {m n : Market} {writes : List Write} (hm : m.Sound)
    (h : m.writeAll? writes = some n) : n.Sound :=
  have hregisters := registers_of_writeAll? h
  { tenders := hm.tenders.of_changeAll? hregisters.1
    bids := hm.bids.of_changeAll? hregisters.2
    settled := transaction_of_writeAll? h hm.settled }

end Market

end Procurement
