import Procurement.Market.Request
import Procurement.Proofs.Cache

/-!
# Requests that only read

A look-up in a cache is counted, so even a request that writes nothing leaves a
different market behind. This file sets the counters apart: a request that only
reads leaves the market the same up to its counters, and no answer depends on
them. Requests can then be taken apart as if reading did not change anything.
-/

namespace Procurement

namespace Market

variable {α β : Type}

/-- The market as if nothing had ever been looked up in its caches. -/
def uncounted (m : Market) : Market := { m with caches := m.caches.uncounted }

section Uncounted

variable {m m' : Market} (h : m.uncounted = m'.uncounted)

include h

/-- Look-ups leave the tables. -/
theorem tables_of_uncounted : m.tables = m'.tables := (congrArg Market.tables h :)

/-- Look-ups leave the supply of identifiers. -/
theorem ids_of_uncounted : m.ids = m'.ids := (congrArg Market.ids h :)

/-- Look-ups leave the transaction. -/
theorem transaction_of_uncounted : m.transaction = m'.transaction :=
  (congrArg Market.transaction h :)

/-- Look-ups leave what the caches know and how much was added to them. -/
theorem caches_of_uncounted : m.caches.uncounted = m'.caches.uncounted :=
  (congrArg Market.caches h :)

end Uncounted

/-- The market with nothing counted in its caches. -/
def contents (m : Market) : Market := { m with caches := m.caches.contents }

/-- Where nothing but look-ups differs, nothing but counters does. -/
theorem contents_of_uncounted {m m' : Market} (h : m.uncounted = m'.uncounted) :
    m.contents = m'.contents :=
  (congrArg contents h :)

section Contents

variable {m m' : Market} (h : m.contents = m'.contents)

include h

/-- Counters are no part of the tables. -/
theorem tables_of_contents : m.tables = m'.tables := (congrArg Market.tables h :)

/-- Counters are no part of the supply of identifiers. -/
theorem ids_of_contents : m.ids = m'.ids := (congrArg Market.ids h :)

/-- Counters are no part of the transaction. -/
theorem transaction_of_contents : m.transaction = m'.transaction :=
  (congrArg Market.transaction h :)

/-- Counters are no part of the time. -/
theorem now_of_contents : m.now = m'.now := (congrArg Market.now h :)

/-- Counters are no part of the limit for decisions. -/
theorem decisionLimit_of_contents : m.decisionLimit = m'.decisionLimit :=
  (congrArg Market.decisionLimit h :)

/-- Counters do not slow a market down. -/
theorem slow_of_contents : m.slow = m'.slow := (congrArg Market.slow h :)

/-- Markets that differ in their counters alone have caches that know the same. -/
theorem caches_of_contents : m.caches.contents = m'.caches.contents :=
  (congrArg Market.caches h :)

/-- Counters have no share in the sizes of the caches. -/
theorem counts_of_contents : m.counts = m'.counts := (congrArg counts h :)

/-- Markets that differ in their counters alone know the same usernames. -/
theorem entries_of_contents : m.caches.users.entries = m'.caches.users.entries :=
  (congrArg (fun m => m.caches.users.entries) h :)

end Contents

/-- What a market answers to a request. -/
def answer (m : Market) (request : MarketM α) : Except MarketError α := (request.run m).1

/-- The market after a request. -/
def after (m : Market) (request : MarketM α) : Market := (request.run m).2

/-- A request for nothing is answered with what it was given. -/
@[simp] theorem answer_pure (m : Market) (a : α) : m.answer (pure a) = .ok a := rfl

/-- A refused request is answered with the refusal. -/
@[simp] theorem answer_throw (m : Market) (refusal : MarketError) :
    m.answer (throw refusal : MarketM α) = .error refusal := rfl

/-- The market itself can be asked for. -/
@[simp] theorem answer_get (m : Market) : m.answer (get : MarketM Market) = .ok m := rfl

/-- Asking for the market leaves it as it is. -/
@[simp] theorem after_get (m : Market) : m.after (get : MarketM Market) = m := rfl

/-- A request followed by another is carried out up to the first refusal. -/
private theorem run_bind (m : Market) (first : MarketM α) (next : α → MarketM β) :
    (first >>= next).run m = match first.run m with
      | (.ok a, m') => (next a).run m'
      | (.error refusal, m') => (.error refusal, m') := by
  change (first.run >>= ExceptT.bindCont next) m = _
  rcases h : first.run m with ⟨_ | a, m'⟩ <;>
    simp only [bind, StateT.bind, h] <;> rfl

/-- A request followed by another is answered by the second one, unless the first is refused. -/
theorem answer_bind (m : Market) (first : MarketM α) (next : α → MarketM β) :
    m.answer (first >>= next) = match m.answer first with
      | .ok a => (m.after first).answer (next a)
      | .error refusal => .error refusal := by
  simp only [answer, after, run_bind]
  rcases first.run m with ⟨_ | a, m'⟩ <;> rfl

/-- The second of two requests is carried out after the first, unless the first is refused. -/
theorem after_bind (m : Market) (first : MarketM α) (next : α → MarketM β) :
    m.after (first >>= next) = match m.answer first with
      | .ok a => (m.after first).after (next a)
      | .error _ => m.after first := by
  simp only [answer, after, run_bind]
  rcases first.run m with ⟨_ | a, m'⟩ <;> rfl

/-- Two requests are accepted together just if each is in its turn. -/
theorem answer_bind_eq_ok_iff {m : Market} {first : MarketM α} {next : α → MarketM β} {b : β} :
    m.answer (first >>= next) = .ok b ↔
      ∃ a, m.answer first = .ok a ∧ (m.after first).answer (next a) = .ok b := by
  rw [answer_bind]
  cases m.answer first <;> simp

/-- After an accepted request the next one is carried out. -/
theorem after_bind_of_answer {m : Market} {first : MarketM α} {a : α}
    (h : m.answer first = .ok a) (next : α → MarketM β) :
    m.after (first >>= next) = (m.after first).after (next a) := by
  rw [after_bind, h]

/-- What is put around a request's answer is put around the answer alone. -/
@[simp] theorem answer_map (m : Market) (f : α → β) (request : MarketM α) :
    m.answer (f <$> request) = (m.answer request).map f := by
  rw [map_eq_pure_bind, answer_bind]
  cases m.answer request <;> rfl

/-- An answer with something put around it is accepted just if the answer itself is. -/
theorem answer_map_eq_ok_iff {m : Market} {f : α → β} {request : MarketM α} {b : β} :
    m.answer (f <$> request) = .ok b ↔ ∃ a, m.answer request = .ok a ∧ f a = b := by
  rw [answer_map]
  cases m.answer request <;> simp [Except.map]

/-- What was put around an answer can be taken off again. -/
theorem answer_injective_map_iff {m : Market} {f : α → β} (hf : Function.Injective f)
    {request : MarketM α} {a : α} :
    m.answer (f <$> request) = .ok (f a) ↔ m.answer request = .ok a := by
  rw [answer_map_eq_ok_iff]
  constructor
  · rintro ⟨a', hanswer, heq⟩
    exact hf heq ▸ hanswer
  · intro hanswer
    exact ⟨a, hanswer, rfl⟩

/-- What is put around an answer has no effect on the market. -/
@[simp] theorem after_map (m : Market) (f : α → β) (request : MarketM α) :
    m.after (f <$> request) = m.after request := by
  rw [map_eq_pure_bind, after_bind]
  cases m.answer request <;> rfl

/-- A request whose answer and effect do not depend on the counters. -/
structure IgnoresCounts (request : MarketM α) : Prop where
  answer_congr : ∀ {m m' : Market}, m.uncounted = m'.uncounted →
    m.answer request = m'.answer request
  after_congr : ∀ {m m' : Market}, m.uncounted = m'.uncounted →
    (m.after request).uncounted = (m'.after request).uncounted

/-- A request that changes nothing but counted look-ups, and whose answer depends on no counter. -/
structure OnlyReads (request : MarketM α) : Prop where
  after_uncounted : ∀ m : Market, (m.after request).uncounted = m.uncounted
  answer_of_contents : ∀ {m m' : Market}, m.contents = m'.contents →
    m.answer request = m'.answer request

/-- No look-up has an influence on the answer to a request that only reads. -/
theorem OnlyReads.answer_congr {request : MarketM α} (h : OnlyReads request) {m m' : Market}
    (hm : m.uncounted = m'.uncounted) : m.answer request = m'.answer request :=
  h.answer_of_contents (contents_of_uncounted hm)

/-- For a request that only reads, no counter matters. -/
theorem OnlyReads.ignoresCounts {request : MarketM α} (h : OnlyReads request) :
    IgnoresCounts request where
  answer_congr := h.answer_congr
  after_congr hm := by rw [h.after_uncounted, h.after_uncounted, hm]

/-- A request that only reads leaves the tables. -/
theorem OnlyReads.tables_after {request : MarketM α} (h : OnlyReads request) (m : Market) :
    (m.after request).tables = m.tables :=
  tables_of_uncounted (h.after_uncounted m)

section Composition

variable {first : MarketM α} {next : α → MarketM β}

/-- After a request that only reads, the next one is answered as if it came first. -/
theorem OnlyReads.answer_bind (hfirst : OnlyReads first) (hnext : ∀ a, IgnoresCounts (next a))
    (m : Market) :
    m.answer (first >>= next) = m.answer first >>= fun a => m.answer (next a) := by
  rw [Market.answer_bind]
  cases m.answer first with
  | error refusal => rfl
  | ok a => exact (hnext a).answer_congr (hfirst.after_uncounted m)

/-- After a request that only reads, the next one does what it would have done first. -/
theorem OnlyReads.after_bind (hfirst : OnlyReads first) (hnext : ∀ a, IgnoresCounts (next a))
    (m : Market) :
    (m.after (first >>= next)).uncounted = match m.answer first with
      | .ok a => (m.after (next a)).uncounted
      | .error _ => m.uncounted := by
  rw [Market.after_bind]
  cases m.answer first with
  | error refusal => exact hfirst.after_uncounted m
  | ok a => exact (hnext a).after_congr (hfirst.after_uncounted m)

/-- Two requests in a row only read if each of them does. -/
theorem OnlyReads.bind (hfirst : OnlyReads first) (hnext : ∀ a, OnlyReads (next a)) :
    OnlyReads (first >>= next) where
  after_uncounted m := by
    rw [hfirst.after_bind fun a => (hnext a).ignoresCounts]
    cases m.answer first with
    | error refusal => rfl
    | ok a => exact (hnext a).after_uncounted m
  answer_of_contents {m m'} hm := by
    rw [Market.answer_bind, Market.answer_bind, hfirst.answer_of_contents hm]
    cases m'.answer first with
    | error refusal => rfl
    | ok a =>
      have hafter : (m.after first).contents = (m'.after first).contents :=
        (contents_of_uncounted (hfirst.after_uncounted m)).trans
          (hm.trans (contents_of_uncounted (hfirst.after_uncounted m')).symm)
      exact (hnext a).answer_of_contents hafter

/-- What follows a request that only reads finds the market as it was, up to the counters. -/
theorem OnlyReads.exists_of_answer_bind (hfirst : OnlyReads first) {m n : Market}
    (hm : m.uncounted = n.uncounted) {b : β} (h : m.answer (first >>= next) = .ok b) :
    ∃ (a : α) (m' : Market), n.answer first = .ok a ∧ m'.uncounted = n.uncounted ∧
      m'.answer (next a) = .ok b := by
  obtain ⟨a, ha, hb⟩ := answer_bind_eq_ok_iff.mp h
  exact ⟨a, m.after first, (hfirst.answer_congr hm).symm.trans ha,
    (hfirst.after_uncounted m).trans hm, hb⟩

/-- Putting something around an answer is no more than reading. -/
theorem OnlyReads.map (hfirst : OnlyReads first) (f : α → β) : OnlyReads (f <$> first) where
  after_uncounted m := by rw [after_map, hfirst.after_uncounted]
  answer_of_contents hm := by rw [answer_map, answer_map, hfirst.answer_of_contents hm]

end Composition

/-- A request for nothing only reads. -/
theorem onlyReads_pure (a : α) : OnlyReads (pure a) where
  after_uncounted _ := rfl
  answer_of_contents _ := rfl

/-- A refused request only reads. -/
theorem onlyReads_throw (refusal : MarketError) : OnlyReads (throw refusal : MarketM α) where
  after_uncounted _ := rfl
  answer_of_contents _ := rfl

/-- A request only reads if it does so in either case. -/
theorem onlyReads_ite (condition : Prop) [Decidable condition] {yes no : MarketM α}
    (hyes : OnlyReads yes) (hno : OnlyReads no) : OnlyReads (if condition then yes else no) := by
  split
  · exact hyes
  · exact hno

/-- Counters do not matter to a request if they do not in either case. -/
theorem ignoresCounts_ite (condition : Prop) [Decidable condition] {yes no : MarketM α}
    (hyes : IgnoresCounts yes) (hno : IgnoresCounts no) :
    IgnoresCounts (if condition then yes else no) := by
  split
  · exact hyes
  · exact hno

/-- Carrying out requests that only read, one after the other, only reads. -/
theorem onlyReads_mapM (items : List α) {request : α → MarketM β}
    (h : ∀ a, OnlyReads (request a)) : OnlyReads (items.mapM request) := by
  induction items with
  | nil => exact onlyReads_pure []
  | cons item items ih =>
    rw [List.mapM_cons]
    exact (h item).bind fun b => ih.bind fun bs => onlyReads_pure (b :: bs)

/-- What is found, or a refusal if nothing is. -/
def found (refusal : MarketError) : Option α → Except MarketError α
  | some a => .ok a
  | none => .error refusal

/-- What is there is found. -/
@[simp] theorem found_some (refusal : MarketError) (a : α) : found refusal (some a) = .ok a := rfl

/-- What is not there is refused. -/
@[simp] theorem found_none (refusal : MarketError) :
    found refusal (none : Option α) = .error refusal := rfl

/-- Something is found just if it is there. -/
theorem found_eq_ok_iff {refusal : MarketError} {a? : Option α} {a : α} :
    found refusal a? = .ok a ↔ a? = some a := by
  cases a? <;> simp

/-- A question to the tables is answered from the tables. -/
@[simp] theorem answer_stored (m : Market) (query : Tables → α) :
    m.answer (stored query) = .ok (query m.tables) := rfl

/-- A question to the tables leaves the market as it is. -/
@[simp] theorem after_stored (m : Market) (query : Tables → α) : m.after (stored query) = m := rfl

/-- A question to the tables only reads. -/
theorem onlyReads_stored (query : Tables → α) : OnlyReads (stored query) where
  after_uncounted _ := rfl
  answer_of_contents {m m'} hm := by
    rw [answer_stored, answer_stored, tables_of_contents hm]

/-- What the tables do not have is refused. -/
@[simp] theorem answer_storedOr (m : Market) (refusal : MarketError) (query : Tables → Option α) :
    m.answer (storedOr refusal query) = found refusal (query m.tables) := by
  unfold storedOr
  rw [answer_bind, answer_get, after_get]
  dsimp only
  cases query m.tables <;> rfl

/-- A question that can be refused leaves the market as it is, too. -/
@[simp] theorem after_storedOr (m : Market) (refusal : MarketError) (query : Tables → Option α) :
    m.after (storedOr refusal query) = m := by
  unfold storedOr
  rw [after_bind, answer_get, after_get]
  dsimp only
  cases query m.tables <;> rfl

/-- A question that can be refused only reads, too. -/
theorem onlyReads_storedOr (refusal : MarketError) (query : Tables → Option α) :
    OnlyReads (storedOr refusal query) where
  after_uncounted m := by rw [after_storedOr]
  answer_of_contents {m m'} hm := by
    rw [answer_storedOr, answer_storedOr, tables_of_contents hm]

/-- Looking up a username is answered by the cache of users. -/
@[simp] theorem answer_lookupUser (m : Market) (username : String) :
    m.answer (lookupUser username) = .ok (m.caches.users.value? username) := rfl

/-- Looking up a username only reads. -/
theorem onlyReads_lookupUser (username : String) : OnlyReads (lookupUser username) where
  after_uncounted m := congrArg
    (fun users => { m.uncounted with caches := { m.caches.uncounted with users } })
    (LookupCache.uncounted_lookup m.caches.users username)
  answer_of_contents {m m'} hm := by
    simp only [answer_lookupUser, LookupCache.value?, entries_of_contents hm]

/-- Asking what a username stands for only reads. -/
theorem onlyReads_userId (username : String) : OnlyReads (userId username) := by
  refine (onlyReads_lookupUser username).bind fun id => ?_
  cases id with
  | none => exact onlyReads_throw _
  | some id => exact onlyReads_pure id

/-- What a username stands for is known by the cache of users alone. -/
@[simp] theorem answer_userId (m : Market) (username : String) :
    m.answer (userId username) =
      found (.notFound .user username) (m.caches.users.value? username) := by
  unfold userId
  rw [answer_bind, answer_lookupUser]
  dsimp only
  cases m.caches.users.value? username <;> rfl

end Market

end Procurement
