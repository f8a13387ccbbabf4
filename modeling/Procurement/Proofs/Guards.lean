import Procurement.Market.Bidding
import Procurement.Market.Tendering
import Procurement.Proofs.Catalogue

/-!
# Who answers for what

The checks that requests make before they write anything only read. This file
says when the checks let an actor pass: the username must be known to the cache,
and the tables must hold the link between the user and the organization, or name
the user as the author.
-/

namespace Procurement

/-- The organization that issued the tender which the bid answers. -/
def Tables.organizationOfBid? (t : Tables) (bidId : String) : Option String := do
  let bid ← t.bids.row? bidId
  let tender ← t.tenders.row? bid.origin.tenderId
  pure tender.origin.organizationId

/-- The organization of a bid is that of the tender which the bid answers, and both are stored. -/
theorem Tables.exists_of_organizationOfBid? {t : Tables} {bidId organizationId : String}
    (h : t.organizationOfBid? bidId = some organizationId) :
    ∃ bid tender, t.bids.row? bidId = some bid ∧ t.tenders.row? bid.origin.tenderId = some tender ∧
      tender.origin.organizationId = organizationId := by
  obtain ⟨bid, hbid, hrest⟩ := Option.bind_eq_some_iff.mp h
  obtain ⟨tender, htender, horganization⟩ := Option.bind_eq_some_iff.mp hrest
  exact ⟨bid, tender, hbid, htender, Option.some.inj horganization⟩

/-- The username of the user who wrote the tender. -/
def Tables.authorOfTender? (t : Tables) (tenderId : String) : Option String := do
  let tender ← t.tenders.row? tenderId
  t.usernameOf? tender.origin.creatorId

namespace Market

/-- Whether the username is known to stand for a user responsible for the organization. -/
def knowsResponsible (m : Market) (username organizationId : String) : Prop :=
  ∃ userId, m.caches.users.value? username = some userId ∧
    m.tables.isResponsible organizationId userId = true

/-- Whether the username is known to stand for the author, or for a user responsible for the
organization that is. -/
def knowsAuthor (m : Market) (username : String) (author : Author) : Prop :=
  match author.type with
  | .user => m.caches.users.value? username = some author.id
  | .organization => m.knowsResponsible username author.id

/-- Asking whether a user exists only reads. -/
theorem onlyReads_userExists (id : String) : OnlyReads (userExists id) := onlyReads_stored _

/-- Listing all usernames only reads. -/
theorem onlyReads_usernames : OnlyReads usernames := onlyReads_stored _

/-- Asking whether an organization exists only reads. -/
theorem onlyReads_organizationExists (id : String) : OnlyReads (organizationExists id) :=
  onlyReads_stored _

/-- Asking whether a user is responsible for an organization only reads. -/
theorem onlyReads_isUserResponsible (username organizationId : String) :
    OnlyReads (isUserResponsible username organizationId) :=
  (onlyReads_userId username).bind fun _ => onlyReads_stored _

/-- Whether a user is responsible is told by the tables, if the cache knows the username. -/
theorem answer_isUserResponsible (m : Market) (username organizationId : String) :
    m.answer (isUserResponsible username organizationId) =
      (found (.notFound .user username) (m.caches.users.value? username)).map
        (m.tables.isResponsible organizationId) := by
  unfold isUserResponsible
  rw [(onlyReads_userId username).answer_bind fun _ => (onlyReads_stored _).ignoresCounts,
    answer_userId]
  cases m.caches.users.value? username <;> rfl

/-- A user is found to be responsible just if the username stands for someone who is. -/
theorem answer_isUserResponsible_eq_true_iff (m : Market) (username organizationId : String) :
    m.answer (isUserResponsible username organizationId) = .ok true ↔
      m.knowsResponsible username organizationId := by
  rw [answer_isUserResponsible]
  unfold knowsResponsible
  cases m.caches.users.value? username <;> simp [Except.map]

/-- The check for a responsible user only reads. -/
theorem onlyReads_requireResponsible (username organizationId : String) :
    OnlyReads (requireResponsible username organizationId) :=
  (onlyReads_isUserResponsible username organizationId).bind fun _ =>
    onlyReads_ite _ (onlyReads_pure ()) (onlyReads_throw _)

/-- Only those pass who are known to be responsible. -/
theorem answer_requireResponsible_eq_ok_iff (m : Market) (username organizationId : String) :
    m.answer (requireResponsible username organizationId) = .ok () ↔
      m.knowsResponsible username organizationId := by
  unfold requireResponsible knowsResponsible
  rw [(onlyReads_isUserResponsible username organizationId).answer_bind fun _ =>
    ignoresCounts_ite _ (onlyReads_pure ()).ignoresCounts (onlyReads_throw _).ignoresCounts,
    answer_isUserResponsible]
  cases m.caches.users.value? username with
  | none => simp [Except.map, bind, Except.bind]
  | some userId =>
    cases h : m.tables.isResponsible organizationId userId <;>
      simp [Except.map, bind, Except.bind, h]

/-- Asking for the author of a tender only reads. -/
theorem onlyReads_tenderAuthor (tenderId : String) : OnlyReads (tenderAuthor tenderId) :=
  (tenders_lawful.onlyReads_ensureExists tenderId).bind fun _ => onlyReads_storedOr _ _

/-- The author of a tender is told by the tables, if the cache knows the tender. -/
theorem answer_tenderAuthor (m : Market) (tenderId : String) :
    m.answer (tenderAuthor tenderId) =
      if m.caches.tenders.knows tenderId then
        found (.notFound .tender tenderId) (m.tables.authorOfTender? tenderId)
      else .error (.notFound .tender tenderId) := by
  unfold tenderAuthor
  rw [tenders_lawful.answer_ensureExists_bind fun _ => (onlyReads_storedOr _ _).ignoresCounts,
    answer_storedOr]
  rfl

/-- Asking for the organization of a tender only reads. -/
theorem onlyReads_tenderOrganization (tenderId : String) :
    OnlyReads (tenderOrganization tenderId) :=
  (tenders_lawful.onlyReads_row tenderId).bind fun row => onlyReads_pure row.origin.organizationId

/-- Asking for the organization that a bid is for only reads. -/
theorem onlyReads_bidOrganization (bidId : String) : OnlyReads (bidOrganization bidId) :=
  (bids_lawful.onlyReads_ensureExists bidId).bind fun _ => onlyReads_storedOr _ _

/-- The organization that a bid is for is told by the tables, if the cache knows the bid. -/
theorem answer_bidOrganization (m : Market) (bidId : String) :
    m.answer (bidOrganization bidId) =
      if m.caches.bids.knows bidId then
        found (.notFound .bid bidId) (m.tables.organizationOfBid? bidId)
      else .error (.notFound .bid bidId) := by
  unfold bidOrganization
  rw [bids_lawful.answer_ensureExists_bind fun _ => (onlyReads_storedOr _ _).ignoresCounts,
    answer_storedOr]
  rfl

/-- If an organization is answered, the cache knows the bid and the tables hold its tender. -/
theorem of_answer_bidOrganization {m : Market} {bidId organizationId : String}
    (h : m.answer (bidOrganization bidId) = .ok organizationId) :
    m.caches.bids.knows bidId = true ∧
      m.tables.organizationOfBid? bidId = some organizationId := by
  rw [answer_bidOrganization] at h
  split at h
  · rename_i hknows
    exact ⟨hknows, found_eq_ok_iff.mp h⟩
  · cases h

/-- Asking whether a user belongs to a tender only reads. -/
theorem onlyReads_belongsToTender (username tenderId : String) :
    OnlyReads (belongsToTender username tenderId) :=
  (onlyReads_tenderOrganization tenderId).bind fun _ => onlyReads_isUserResponsible username _

/-- Asking for the author of a bid only reads. -/
theorem onlyReads_bidAuthor (bidId : String) : OnlyReads (bidAuthor bidId) :=
  (bids_lawful.onlyReads_row bidId).bind fun row => onlyReads_pure row.origin.author

/-- The author that is answered is the one in the row of the bid. -/
theorem exists_of_answer_bidAuthor {m : Market} {bidId : String} {author : Author}
    (h : m.answer (bidAuthor bidId) = .ok author) :
    ∃ row, m.tables.bids.row? bidId = some row ∧ row.origin.author = author := by
  obtain ⟨row, hrow, hauthor⟩ := answer_bind_eq_ok_iff.mp h
  exact ⟨row, bids_lawful.row?_of_answer_row hrow, Except.ok.inj hauthor⟩

/-- Asking whether a user is the author of a bid only reads. -/
theorem onlyReads_isBidAuthor (username bidId : String) :
    OnlyReads (isBidAuthor username bidId) := by
  refine (onlyReads_bidAuthor bidId).bind fun author => ?_
  obtain ⟨type, id⟩ := author
  cases type with
  | user => exact (onlyReads_userId username).bind fun userId => onlyReads_pure (userId == id)
  | organization => exact onlyReads_isUserResponsible username id

/-- The check for the author of a bid only reads. -/
theorem onlyReads_requireAuthor (username bidId : String) :
    OnlyReads (requireAuthor username bidId) :=
  (onlyReads_isBidAuthor username bidId).bind fun _ =>
    onlyReads_ite _ (onlyReads_pure ()) (onlyReads_throw _)

/-- Only those pass who are known to be the author. -/
theorem exists_of_answer_requireAuthor {m : Market} {username bidId : String}
    (h : m.answer (requireAuthor username bidId) = .ok ()) :
    ∃ bid, m.tables.bids.row? bidId = some bid ∧ m.knowsAuthor username bid.origin.author := by
  obtain ⟨isAuthor, hauthor, hpassed⟩ := answer_bind_eq_ok_iff.mp h
  cases isAuthor with
  | false => cases hpassed
  | true =>
    obtain ⟨author, m', hbid, hm', hknown⟩ :=
      (onlyReads_bidAuthor bidId).exists_of_answer_bind rfl hauthor
    obtain ⟨bid, hrow, rfl⟩ := exists_of_answer_bidAuthor hbid
    refine ⟨bid, hrow, ?_⟩
    unfold knowsAuthor
    cases htype : bid.origin.author.type with
    | user =>
      rw [htype] at hknown
      obtain ⟨userId, m'', huserId, _, hsame⟩ :=
        (onlyReads_userId username).exists_of_answer_bind hm' hknown
      rw [answer_userId] at huserId
      have heq : userId = bid.origin.author.id := by simpa using hsame
      exact heq ▸ found_eq_ok_iff.mp huserId
    | organization =>
      rw [htype] at hknown
      rw [(onlyReads_isUserResponsible username _).answer_congr hm'] at hknown
      exact (answer_isUserResponsible_eq_true_iff m username _).mp hknown

/-- The check for a member of a tender's organization only reads. -/
theorem onlyReads_requireMember (username tenderId : String) :
    OnlyReads (requireMember username tenderId) :=
  (onlyReads_tenderOrganization tenderId).bind fun _ => onlyReads_requireResponsible username _

/-- Only those pass who are known to be responsible for the tender. -/
theorem exists_of_answer_requireMember {m : Market} {username tenderId : String}
    (h : m.answer (requireMember username tenderId) = .ok ()) :
    ∃ tender, m.tables.tenders.row? tenderId = some tender ∧
      m.knowsResponsible username tender.origin.organizationId := by
  obtain ⟨organizationId, m', hissued, hm', hresponsible⟩ :=
    (onlyReads_tenderOrganization tenderId).exists_of_answer_bind rfl h
  obtain ⟨tender, htender, horganization⟩ := answer_bind_eq_ok_iff.mp hissued
  obtain rfl := Except.ok.inj horganization
  rw [(onlyReads_requireResponsible username _).answer_congr hm'] at hresponsible
  exact ⟨tender, tenders_lawful.row?_of_answer_row htender,
    (answer_requireResponsible_eq_ok_iff m username _).mp hresponsible⟩

/-- The check for those who may see the bids on a tender only reads. -/
theorem onlyReads_requireListingMember (username tenderId : String) :
    OnlyReads (requireListingMember username tenderId) :=
  (onlyReads_belongsToTender username tenderId).bind fun _ =>
    onlyReads_ite _ (onlyReads_pure ())
      ((onlyReads_tenderOrganization tenderId).bind fun _ => onlyReads_throw _)

/-- Listing published tenders only reads. -/
theorem onlyReads_publishedTenders (serviceTypes : List ServiceType) (page : Page) :
    OnlyReads (publishedTenders serviceTypes page) :=
  Catalogue.onlyReads_list _ page

/-- Listing the tenders of a user only reads. -/
theorem onlyReads_tendersOf (username : String) (page : Page) :
    OnlyReads (tendersOf username page) :=
  (onlyReads_userId username).bind fun _ => Catalogue.onlyReads_list _ page

/-- Asking whether an author exists only reads. -/
theorem onlyReads_authorExists (author : Author) : OnlyReads (authorExists author) := by
  obtain ⟨type, id⟩ := author
  cases type with
  | user => exact onlyReads_userExists id
  | organization => exact onlyReads_organizationExists id

/-- Listing the bids of an author only reads. -/
theorem onlyReads_bidsWithAuthor (authorId : String) (page : Page) :
    OnlyReads (bidsWithAuthor authorId page) :=
  Catalogue.onlyReads_list _ page

/-- Listing the bids of a user only reads. -/
theorem onlyReads_bidsOf (username : String) (page : Page) : OnlyReads (bidsOf username page) :=
  (onlyReads_userId username).bind fun _ => onlyReads_bidsWithAuthor _ page

/-- Listing all bids on a tender only reads. -/
theorem onlyReads_bidsWithTender (tenderId : String) (page : Page) :
    OnlyReads (bidsWithTender tenderId page) :=
  Catalogue.onlyReads_list _ page

/-- Listing the bids on a tender for a member only reads. -/
theorem onlyReads_bidsOn (actor tenderId : String) (page : Page) :
    OnlyReads (bidsOn actor tenderId page) :=
  (onlyReads_requireListingMember actor tenderId).bind fun _ =>
    onlyReads_bidsWithTender tenderId page

/-- Asking for the tender of a bid only reads. -/
theorem onlyReads_tenderOf (bidId : String) : OnlyReads (tenderOf bidId) :=
  (bids_lawful.onlyReads_row bidId).bind fun row => onlyReads_pure row.origin.tenderId

/-- Listing the reviews of a user's bids only reads. -/
theorem onlyReads_reviewsFor (userId : String) (page : Page) :
    OnlyReads (reviewsFor userId page) :=
  onlyReads_stored _

/-- Listing reviews for a requester only reads. -/
theorem onlyReads_reviews (requester tenderId author : String) (page : Page) :
    OnlyReads (reviews requester tenderId author page) :=
  (onlyReads_requireListingMember requester tenderId).bind fun _ =>
    (onlyReads_tenderAuthor tenderId).bind fun _ =>
      onlyReads_ite _ ((onlyReads_userId author).bind fun _ => onlyReads_reviewsFor _ page)
        (onlyReads_throw _)

end Market

end Procurement
