import Procurement.Market.Transaction
import Procurement.Proofs.Writing

/-!
# Writing in transactions

A transaction ends as its work does, unless the work exceeds its limit or does not
let go of the transaction. Work may write and then be refused; what it wrote is
dropped with the transaction. Provided that the work writes to the tables alone,
the transaction as a whole performs the writes of the work.
-/

namespace Procurement

/-- The limit, in milliseconds, that the work of a transaction exceeds. -/
def Conclusion.exceeded? {α : Type} (conclusion : Conclusion α) (m : Market)
    (limit : Option UInt64) : Option UInt64 :=
  if m.slow || conclusion.overdue then limit else none

namespace Market

variable {α β : Type}

/-- The market as work in a transaction finds it. -/
def opened (m : Market) : Market := { m with transaction := some {} }

/-! ## How a transaction ends -/

section Endings

variable {limit : Option UInt64} {work : StateM Market (Conclusion α)} {m view : Market}
  {conclusion : Conclusion α}

/-- Work that exceeds the limit ends the transaction with the deadline, and is discarded. -/
theorem decisionTransaction_of_exceeded {milliseconds : UInt64}
    (hwork : work m.opened = (conclusion, view))
    (hlimit : conclusion.exceeded? m limit = some milliseconds) :
    decisionTransaction limit work m =
      (.returns (.error (.deadlineExceeded "decision_transaction" milliseconds)),
        discard m view) := by
  unfold opened at hwork
  unfold Conclusion.exceeded? at hlimit
  unfold decisionTransaction
  rw [hwork]
  dsimp only
  rw [hlimit]

/-- Work that yields no value in time ends the transaction as it ends itself. -/
theorem decisionTransaction_of_failure (hwork : work m.opened = (conclusion, view))
    (hlimit : conclusion.exceeded? m limit = none)
    (hending : ∀ value, conclusion.ending ≠ .returns (.ok value)) :
    decisionTransaction limit work m = (conclusion.ending, discard m view) := by
  unfold opened at hwork
  unfold Conclusion.exceeded? at hlimit
  unfold decisionTransaction
  rw [hwork]
  dsimp only
  rw [hlimit]
  cases hcases : conclusion.ending with
  | panics message => rfl
  | returns result =>
    cases result with
    | error refusal => rfl
    | ok value => exact absurd hcases (hending value)

/-- A value that is returned in time is kept unless the transaction is still referred to. -/
theorem decisionTransaction_of_value {value : α} {registrations : List Registration}
    (hwork : work m.opened = (conclusion, view)) (hlimit : conclusion.exceeded? m limit = none)
    (hending : conclusion.ending = .returns (.ok value))
    (hopen : view.transaction = some { deferred := registrations }) :
    decisionTransaction limit work m =
      if conclusion.keepsHandle then (.returns (.error .transactionInUse), discard m view)
      else (.returns (.ok value), settle m view registrations) := by
  unfold opened at hwork
  unfold Conclusion.exceeded? at hlimit
  unfold decisionTransaction
  rw [hwork]
  dsimp only
  rw [hlimit, hending, hopen]
  cases conclusion.keepsHandle <;> rfl

end Endings

/-! ## Requests in a transaction -/

/-- A request that changes nothing that lasts but the tables. -/
def TouchesTables (request : MarketM α) : Prop :=
  ∀ m : Market, (m.after request).substance =
    { m.substance with tables := (m.after request).tables }

/-- A request that only reads touches no more than the tables. -/
theorem OnlyReads.touchesTables {request : MarketM α} (h : OnlyReads request) :
    TouchesTables request := by
  intro m
  have hsubstance := substance_of_uncounted (h.after_uncounted m)
  rw [tables_of_substance hsubstance, hsubstance]
  rfl

/-- A request that touches the tables alone leaves what the caches know. -/
theorem TouchesTables.caches_after {request : MarketM α} (h : TouchesTables request)
    (m : Market) : (m.after request).caches.uncounted = m.caches.uncounted :=
  (congrArg Market.caches (h m) :)

/-- Two requests in a row touch the tables alone if each of them does. -/
theorem TouchesTables.bind {first : MarketM α} {next : α → MarketM β}
    (hfirst : TouchesTables first) (hnext : ∀ a, TouchesTables (next a)) :
    TouchesTables (first >>= next) := by
  intro m
  rw [after_bind]
  cases m.answer first with
  | error refusal => exact hfirst m
  | ok a =>
    dsimp only
    rw [hnext a, hfirst m]

/-- A request as the work of a transaction, which ends as the request does. -/
def workOf (request : MarketM Unit) : StateM Market (Conclusion Unit) := do
  let result ← (request.run : StateM Market (Except MarketError Unit))
  pure { ending := .returns result }

/-- A transaction whose work touches the tables alone is refused and drops what the work
did, or keeps what the work did. -/
theorem TouchesTables.decisionTransaction_cases {request : MarketM Unit}
    (h : TouchesTables request) (limit : Option UInt64) (m : Market) :
    (∃ refusal after, decisionTransaction limit (workOf request) m =
        (.returns (.error refusal), after) ∧ after.substance = m.substance) ∨
      (m.opened.answer request = .ok () ∧ decisionTransaction limit (workOf request) m =
        (.returns (.ok ()), { m.opened.after request with transaction := m.transaction })) := by
  have hdiscarded : (discard m (m.opened.after request)).substance = m.substance :=
    congrArg (fun n => { n with tables := m.tables, transaction := m.transaction }) (h m.opened)
  have hopened : (m.opened.after request).transaction = some { deferred := [] } :=
    (congrArg Market.transaction (h m.opened) :)
  have hwork : workOf request m.opened =
      ({ ending := .returns (m.opened.answer request) }, m.opened.after request) := rfl
  cases hlimit : Conclusion.exceeded?
      ({ ending := .returns (m.opened.answer request) } : Conclusion Unit) m limit with
  | some milliseconds =>
    exact Or.inl ⟨_, _, decisionTransaction_of_exceeded hwork hlimit, hdiscarded⟩
  | none =>
    cases hanswer : m.opened.answer request with
    | error refusal =>
      have hfailed := decisionTransaction_of_failure hwork hlimit (by simp [hanswer])
      rw [hanswer] at hfailed
      exact Or.inl ⟨_, _, hfailed, hdiscarded⟩
    | ok _ =>
      have hending := congrArg Ending.returns hanswer
      exact Or.inr ⟨rfl, decisionTransaction_of_value hwork hlimit hending hopened⟩

/-- Writes that no cache has to learn of are writes to the tables alone. -/
theorem writeAll?_of_silent (m : Market) {writes : List Write}
    (hsilent : ∀ write ∈ writes, write.registration? = none) :
    m.writeAll? writes =
      (writes.foldlM Write.applyTo? m.tables).map fun tables =>
        { m with tables } := by
  induction writes generalizing m with
  | nil => rfl
  | cons write rest ih =>
    rw [List.foldlM_cons, writeAll?]
    unfold write?
    rw [hsilent write List.mem_cons_self]
    cases write.applyTo? m.tables with
    | none => rfl
    | some tables =>
      exact ih { m with tables } fun write' hmem => hsilent write' (List.mem_cons_of_mem _ hmem)

/-- What the work of a transaction achieves is left by the commit. -/
theorem Achieves.committed {m m' : Market} {request : MarketM α} {writes : List Write}
    (h : Achieves m.opened request writes)
    (hsilent : ∀ write ∈ writes, write.registration? = none) (hm : m'.uncounted = m.uncounted)
    {a : α} (ha : m'.opened.answer request = .ok a) :
    (m.writeAll? writes).map substance =
      some ({ m'.opened.after request with transaction := m'.transaction } : Market).substance := by
  have hopened : m'.opened.uncounted = m.opened.uncounted :=
    congrArg (fun n => { n with transaction := some {} }) hm
  have hdone := h hopened ha
  rw [writeAll?_of_silent _ hsilent] at hdone ⊢
  obtain ⟨n, hn, hsubstance⟩ := Option.map_eq_some_iff.mp hdone
  obtain ⟨tables, htables, rfl⟩ := Option.map_eq_some_iff.mp hn
  have htables' : writes.foldlM Write.applyTo? m.tables = some tables := htables
  rw [htables', transaction_of_uncounted hm]
  exact congrArg some (congrArg (fun n => { n with transaction := m.transaction }) hsubstance)

/-- A request for a transaction is answered with how the transaction ends. -/
theorem answer_decisionTransaction (m : Market) (limit : Option UInt64)
    (work : StateM Market (Conclusion α)) :
    m.answer (liftM (decisionTransaction limit work) : MarketM (Ending α)) =
      .ok (decisionTransaction limit work m).1 := rfl

/-- A request for a transaction leaves what the transaction leaves. -/
theorem after_decisionTransaction (m : Market) (limit : Option UInt64)
    (work : StateM Market (Conclusion α)) :
    m.after (liftM (decisionTransaction limit work) : MarketM (Ending α)) =
      (decisionTransaction limit work m).2 := rfl

/-- A transaction is only accepted with its work. -/
theorem TouchesTables.answer_of_decisionTransaction {m : Market} {request : MarketM Unit}
    {next : MarketM β} {b : β} (h : TouchesTables request) (limit : Option UInt64)
    (hb : m.answer (do
      match ← (decisionTransaction limit (workOf request) : StateM Market (Ending Unit)) with
      | .returns (.error refusal) => throw refusal
      | _ => next) = .ok b) :
    m.opened.answer request = .ok () := by
  rw [answer_bind, answer_decisionTransaction] at hb
  rcases h.decisionTransaction_cases limit m with ⟨refusal, after, heq, _⟩ | ⟨hok, _⟩
  · rw [heq] at hb
    cases hb
  · exact hok

/-- The transaction performs what its work achieves. Reading afterwards must not be refused. -/
theorem TouchesTables.performs_decisionTransaction {m : Market} {request : MarketM Unit}
    {next : MarketM β} {writes : List Write} (h : TouchesTables request)
    (limit : Option UInt64) (hachieves : Achieves m.opened request writes)
    (hsilent : ∀ write ∈ writes, write.registration? = none) (hnext : OnlyReads next)
    (haccepts : ∀ {n : Market}, (m.writeAll? writes).map substance = some n.substance →
      ∃ b, n.answer next = .ok b) :
    Performs m (do
      match ← (decisionTransaction limit (workOf request) : StateM Market (Ending Unit)) with
      | .returns (.error refusal) => throw refusal
      | _ => next) writes := by
  refine ⟨fun {m'} hm b hb => ?_, fun {m'} hm refusal hrefusal => ?_⟩
  · rw [answer_bind, answer_decisionTransaction, after_decisionTransaction] at hb
    rw [after_bind, answer_decisionTransaction, after_decisionTransaction]
    rcases h.decisionTransaction_cases limit m' with ⟨refusal, after, heq, _⟩ | ⟨hok, heq⟩
    · rw [heq] at hb
      cases hb
    · rw [heq]
      dsimp only
      rw [substance_of_uncounted (hnext.after_uncounted _)]
      exact hachieves.committed hsilent hm hok
  · rw [answer_bind, answer_decisionTransaction, after_decisionTransaction] at hrefusal
    rw [after_bind, answer_decisionTransaction, after_decisionTransaction]
    rcases h.decisionTransaction_cases limit m' with ⟨refusal', after, heq, hsame⟩ | ⟨hok, heq⟩
    · rw [heq]
      exact hsame.trans (substance_of_uncounted hm)
    · rw [heq] at hrefusal
      obtain ⟨b, hb⟩ := haccepts (hachieves.committed hsilent hm hok)
      exact absurd (hb.symm.trans hrefusal) (by simp)

end Market

end Procurement
