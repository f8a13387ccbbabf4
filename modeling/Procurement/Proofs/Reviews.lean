import Procurement.Proofs.Course
import Procurement.Proofs.InstantOrder
import Procurement.Proofs.Listings
import Procurement.Proofs.Permanence

/-!
# Reviews

Feedback records who receives it by an identifier alone, be it that of a user or of an
organization. Reviews for a user are selected by it: they are what the user receives, or an
organization that the user is responsible for. Whether the user is the author of a bid depends
on the type of the author instead. As long as no organization has the identifier of a user, both
say the same about every bid, and so the reviews are the feedback on the bids of the user. They
are sorted by the texts of their times, which is by time as long as years have four digits.
-/

namespace Procurement

namespace Tables

variable {t : Tables} {actor userId : String}

/-- Whether a user receives what is addressed to the identifier: it is that of the user, or of an
organization that the user is responsible for. -/
def Receives (t : Tables) (userId receiverId : String) : Prop :=
  receiverId = userId ∨ t.isResponsible receiverId userId = true

/-- Who acts for an organization is responsible for it under the identifier of the user. -/
theorem Keyed.actsFor_iff (ht : t.Keyed) (h : t.Named actor userId) (organizationId : String) :
    t.ActsFor actor organizationId ↔ t.isResponsible organizationId userId = true := by
  constructor
  · exact ht.isResponsible h
  · intro hresponsible
    obtain ⟨user, hstored, hname, rfl⟩ := h
    exact ⟨user, hstored, hname, hresponsible⟩

/-- A user receives what is addressed to a stored author just if the user is the author, or is
responsible for the organization that is. -/
theorem Coherent.receives_iff_authored (ht : t.Coherent) (hkeyed : t.Keyed) (hapart : t.IdsApart)
    (hnamed : t.Named actor userId) {author : Author} (hauthor : t.hasAuthor author = true) :
    t.Receives userId author.id ↔ t.Authored actor author := by
  obtain ⟨type, id⟩ := author
  unfold Receives
  cases type with
  | user =>
    have hlinked : ¬ t.isResponsible id userId = true := by
      intro hresponsible
      exact hapart.not_hasUser (hasOrganization_of_isResponsible ht.link hresponsible) hauthor
    have hauthored : t.Authored actor ⟨.user, id⟩ ↔ id = userId := hkeyed.named_iff hnamed id
    rw [hauthored]
    exact or_iff_left hlinked
  | organization =>
    have hother : ¬ id = userId := by
      rintro rfl
      exact hapart.not_hasUser hauthor (hasUser_of_named hnamed)
    have hauthored : t.Authored actor ⟨.organization, id⟩ ↔ t.isResponsible id userId = true :=
      hkeyed.actsFor_iff hnamed id
    rw [hauthored]
    exact or_iff_right hother

/-- The author of a stored bid is the one in its row. -/
theorem authoredBid_iff {bidId : String} {bid : Row BidStatus BidOrigin}
    (hbid : t.bids.row? bidId = some bid) :
    t.AuthoredBid actor bidId ↔ t.Authored actor bid.origin.author := by
  constructor
  · rintro ⟨bid', hbid', hauthored⟩
    obtain rfl := Option.some.inj (hbid.symm.trans hbid')
    exact hauthored
  · intro hauthored
    exact ⟨bid, hbid, hauthored⟩

end Tables

/-- Whether one piece of feedback is older than another, or of the same instant and before it by
identifier. -/
def Feedback.Before (a b : Feedback) : Prop :=
  a.createdAt.Before b.createdAt ∨ a.createdAt = b.createdAt ∧ a.id < b.id

namespace Market

/-! ## Authors -/

/-- Those are let pass as the author of a bid who are its author. -/
theorem answer_requireAuthor_eq_ok_iff (m : Market) (actor bidId : String) :
    m.answer (requireAuthor actor bidId) = .ok () ↔
      m.answer (isBidAuthor actor bidId) = .ok true := by
  constructor
  · intro h
    obtain ⟨isAuthor, hanswer, hpassed⟩ := answer_bind_eq_ok_iff.mp h
    cases isAuthor with
    | true => exact hanswer
    | false => cases hpassed
  · intro h
    exact answer_bind_eq_ok_iff.mpr ⟨true, h, rfl⟩

/-- Those are found to be the author of a bid who are stored as its author. -/
theorem Faithful.answer_isBidAuthor_eq_true_iff {m : Market} (hm : m.Faithful)
    (actor bidId : String) :
    m.answer (isBidAuthor actor bidId) = .ok true ↔ m.tables.AuthoredBid actor bidId := by
  rw [← answer_requireAuthor_eq_ok_iff]
  constructor
  · intro h
    obtain ⟨bid, hbid, hknown⟩ := exists_of_answer_requireAuthor h
    exact ⟨bid, hbid, hm.authored_of_knowsAuthor hknown⟩
  · rintro ⟨bid, hbid, hauthored⟩
    exact answer_requireAuthor_of_knowsAuthor (hm.knows_of_bid hbid) hbid
      (hm.knowsAuthor_of_authored hauthored)

/-! ## Feedback for a user -/

/-- The feedback for a user is all that the user receives. -/
theorem mem_feedbackFor_iff {t : Tables} {userId : String} {f : Feedback} :
    f ∈ feedbackFor t userId ↔ f ∈ t.feedback ∧ t.Receives userId f.receiverId := by
  unfold feedbackFor Tables.Receives
  rw [List.mem_mergeSort, List.mem_filter, Bool.or_eq_true, beq_iff_eq]

/-- No feedback for a user is listed twice. -/
theorem nodup_feedbackFor {t : Tables} (ht : t.FeedbackKeyed) (userId : String) :
    ((feedbackFor t userId).map Feedback.id).Nodup := by
  unfold feedbackFor
  rw [((List.mergeSort_perm _ _).map Feedback.id).nodup_iff]
  exact List.Nodup.sublist (List.filter_sublist.map Feedback.id) ht

/-- Reviews are sorted by the texts of their times, and by identifier at the same time. -/
theorem reviewPrecedes_iff (a b : Feedback) : reviewPrecedes a b = true ↔
    a.createdAt.storedText < b.createdAt.storedText ∨
      a.createdAt.storedText = b.createdAt.storedText ∧ a.id ≤ b.id := by
  unfold reviewPrecedes
  rw [Bool.or_eq_true, decide_eq_true_eq, Bool.and_eq_true, beq_iff_eq, Bool.not_eq_true',
    decide_eq_false_iff_not, String.not_lt]

/-- The feedback for a user is sorted by time, as long as years have four digits. -/
theorem pairwise_feedbackFor {t : Tables} (ht : t.FeedbackKeyed)
    (hyears : ∀ f ∈ t.feedback, f.createdAt.HasPlainYear) (userId : String) :
    (feedbackFor t userId).Pairwise Feedback.Before := by
  have hsorted := pairwise_mergeSort_of_texts (fun f : Feedback => f.createdAt.storedText)
    Feedback.id reviewPrecedes_iff (nodup_feedbackFor ht userId)
  refine hsorted.imp_of_mem ?_
  intro a b ha hb hbefore
  have hplain {f : Feedback} (hf : f ∈ feedbackFor t userId) : f.createdAt.HasPlainYear :=
    hyears f (mem_feedbackFor_iff.mp hf).1
  rcases hbefore with htext | ⟨htext, hid⟩
  · exact Or.inl ((Instant.storedText_lt_iff (hplain ha) (hplain hb)).mp htext)
  · exact Or.inr ⟨Instant.storedText_injective htext, hid⟩

/-- Reviews are the feedback for the user of the given name. -/
theorem exists_of_answer_reviews {m : Market} {requester tenderId author : String} {page : Page}
    {listed : List Feedback} (h : m.answer (reviews requester tenderId author page) = .ok listed) :
    ∃ userId, m.caches.users.value? author = some userId ∧
      listed = page.select (feedbackFor m.tables userId) := by
  obtain ⟨_, m₁, _, hm₁, hasked⟩ :=
    (onlyReads_requireListingMember requester tenderId).exists_of_answer_bind rfl h
  obtain ⟨name, m₂, _, hm₂, hnamed⟩ :=
    (onlyReads_tenderAuthor tenderId).exists_of_answer_bind hm₁ hasked
  by_cases hname : name = author
  · rw [if_pos hname] at hnamed
    obtain ⟨userId, m₃, huserId, hm₃, hlisted⟩ :=
      (onlyReads_userId author).exists_of_answer_bind hm₂ hnamed
    rw [answer_userId] at huserId
    rw [(onlyReads_reviewsFor userId page).answer_congr hm₃] at hlisted
    exact ⟨userId, found_eq_ok_iff.mp huserId, (Except.ok.inj hlisted).symm⟩
  · rw [if_neg hname] at hnamed
    cases hnamed

/-- The feedback for a user is that on the bids of which the user is the author. -/
theorem Faithful.mem_feedbackFor_iff_isBidAuthor {m : Market} (hm : m.Faithful)
    (ht : m.tables.Coherent) (hapart : m.tables.IdsApart) {author userId : String}
    (h : m.caches.users.value? author = some userId) {f : Feedback} :
    f ∈ feedbackFor m.tables userId ↔
      f ∈ m.tables.feedback ∧ m.answer (isBidAuthor author f.bidId) = .ok true := by
  rw [mem_feedbackFor_iff, hm.answer_isBidAuthor_eq_true_iff]
  refine and_congr_right fun hf => ?_
  obtain ⟨bid, hbid, hreceiver⟩ := (ht.feedback f hf).bid
  have hauthor := (ht.bid bid (Register.mem_of_row? hbid)).author
  rw [hreceiver, Tables.authoredBid_iff hbid]
  exact ht.receives_iff_authored hm.keyed hapart (hm.named_of_value? h) hauthor

end Market

namespace Session

/-- Over all runs that add nothing past the checks, if no organization has the identifier of a user,
unpaged reviews that are not refused are exactly the feedback on the bids that the named user is
the author of. For every user and every bid, the user receives what is addressed to the author of
the bid just if the user is said to be its author. -/
theorem reviews_follow_authorship (stage : Stage) (decisionLimit : Option UInt64)
    (steps : List Step) (hsteps : ∀ step ∈ steps, step.isChecked = true)
    (offered : Option String) :
    let m := ((fresh stage decisionLimit).after steps).market
    let reply request := (m.step (.request offered request)).1
    m.tables.IdsApart →
      (∀ requester tenderId author listed,
        reply (.operation (.reviews requester tenderId author Page.all)) = .ok (.reviews listed) →
          (listed.map Feedback.id).Nodup ∧ ∀ f, f ∈ listed ↔ f ∈ m.tables.feedback ∧
            reply (.relation (.isBidAuthor author f.bidId)) = .ok (.flag true)) ∧
      ∀ user ∈ m.tables.users, ∀ bid ∈ m.tables.bids.rows,
        m.tables.Receives user.id bid.origin.author.id ↔
          reply (.relation (.isBidAuthor user.username bid.id)) = .ok (.flag true) := by
  intro m reply hapart
  have hlearns : ∀ step ∈ steps, step.learns = false := fun step hmem =>
    Step.learns_of_isChecked (hsteps step hmem)
  have hfresh := faithful_fresh stage decisionLimit
  have hm : m.Faithful := faithful_after hfresh hlearns
  have hoffered : (m.offer offered).Faithful := faithful_offer hm offered
  have ht : m.tables.Coherent := coherent_after_of_isChecked hfresh Tables.coherent_empty hsteps
  have hkeyed : m.tables.FeedbackKeyed := feedbackKeyed_after hfresh.toSound List.nodup_nil steps
  have hreply (actor bidId : String) :
      reply (.relation (.isBidAuthor actor bidId)) = .ok (.flag true) ↔
        (m.offer offered).answer (Market.isBidAuthor actor bidId) = .ok true :=
    Market.answer_injective_map_iff fun _ _ => Answer.flag.inj
  constructor
  · intro requester tenderId author listed h
    have hanswer := (Market.answer_injective_map_iff fun _ _ => Answer.reviews.inj).mp h
    obtain ⟨userId, hvalue, hlisted⟩ := Market.exists_of_answer_reviews hanswer
    rw [Page.select_all] at hlisted
    subst hlisted
    refine ⟨Market.nodup_feedbackFor hkeyed userId, fun f => ?_⟩
    rw [hreply]
    exact hoffered.mem_feedbackFor_iff_isBidAuthor ht hapart hvalue
  · intro user huser bid hbid
    have hrow := hm.bids.row?_of_mem hbid
    have hnamed : m.tables.Named user.username user.id := ⟨user, huser, rfl, rfl⟩
    have hauthor := (ht.bid bid hbid).author
    rw [hreply, hoffered.answer_isBidAuthor_eq_true_iff]
    exact (ht.receives_iff_authored hm.keyed hapart hnamed hauthor).trans
      (Tables.authoredBid_iff hrow).symm

/-- The feedback on the bid of a user is found in the reviews for the user, although the bid was
edited behind the services before. -/
theorem reviews_follow_authorship_edited :
    let steps := biddingRun ++
      [.request none (.store (.onBids (.edit "b" ⟨"sand", ""⟩))),
        .request (some "f") (.operation (.submitFeedback "ann" "b" "sturdy"))]
    let m := ((fresh .assembled none).after steps).market
    let reviews := Request.operation (.reviews "ann" "t" "ann" Page.all)
    (∀ step ∈ steps, step.isChecked = true) ∧ m.tables.IdsApart ∧
      m.tables.feedback.map Feedback.id = ["f"] ∧
      ∃ listed, (m.step (.request none reviews)).1 = .ok (.reviews listed) ∧
        ∀ f, f ∈ listed ↔ f ∈ m.tables.feedback := by
  intro steps m reviews
  have hchecked : ∀ step ∈ steps, step.isChecked = true := by decide
  have hapart : m.tables.IdsApart := by
    unfold Tables.IdsApart
    decide
  have hleft : m.tables.feedback.map Feedback.id = ["f"] := by decide
  have hbid : ∀ f ∈ m.tables.feedback, f.bidId = "b" := by decide
  have hauthor : (m.step (.request none (.relation (.isBidAuthor "ann" "b")))).1 =
      .ok (.flag true) := by decide
  have hreply : (m.step (.request none reviews)).1 =
      .ok (.reviews (Market.feedbackFor m.tables "u")) := rfl
  have hreviews := (reviews_follow_authorship .assembled none steps hchecked none hapart).1
  obtain ⟨_, hlisted⟩ := hreviews "ann" "t" "ann" _ hreply
  refine ⟨hchecked, hapart, hleft, _, hreply, fun f => (hlisted f).trans ?_⟩
  constructor
  · intro h
    exact h.1
  · intro hstored
    exact ⟨hstored, hbid f hstored ▸ hauthor⟩

/-- In every run, if all feedback was left in the years 0000 to 9999, reviews are shown oldest
first, and those of the same instant by identifier, on every page and whatever the clock did in
between. -/
theorem reviews_are_chronological (stage : Stage) (decisionLimit : Option UInt64)
    (steps : List Step) (offered : Option String) :
    let m := ((fresh stage decisionLimit).after steps).market
    let reply request := (m.step (.request offered request)).1
    (∀ f ∈ m.tables.feedback, f.createdAt.HasPlainYear) → ∀ listed page,
      (∀ requester tenderId author,
        reply (.operation (.reviews requester tenderId author page)) = .ok (.reviews listed) →
          listed.Pairwise Feedback.Before) ∧
      ∀ userId, reply (.feedback (.reviewsFor userId page)) = .ok (.reviews listed) →
        listed.Pairwise Feedback.Before := by
  intro m reply hyears listed page
  have hkeyed : m.tables.FeedbackKeyed :=
    feedbackKeyed_after (sound_fresh stage decisionLimit) List.nodup_nil steps
  have hselected (userId : String) :
      (page.select (Market.feedbackFor m.tables userId)).Pairwise Feedback.Before :=
    (Market.pairwise_feedbackFor hkeyed hyears userId).sublist (page.select_sublist _)
  constructor
  · intro requester tenderId author h
    have hanswer := (Market.answer_injective_map_iff fun _ _ => Answer.reviews.inj).mp h
    obtain ⟨userId, _, rfl⟩ := Market.exists_of_answer_reviews hanswer
    exact hselected userId
  · intro userId h
    have hanswer : (m.offer offered).answer (Market.reviewsFor userId page) = .ok listed :=
      (Market.answer_injective_map_iff fun _ _ => Answer.reviews.inj).mp h
    obtain rfl := Except.ok.inj hanswer
    exact hselected userId

/-- Feedback that was left in a leap second and, with the clock moved back, before it. -/
theorem reviews_are_chronological_leap :
    let leap : Instant := ⟨1483228799, 1500000000, by decide⟩
    let earlier : Instant := ⟨1483228799, 999999999, by decide⟩
    let steps := biddingRun ++
      [.setClock leap, .request (some "f") (.operation (.submitFeedback "ann" "b" "sturdy")),
        .setClock earlier, .request (some "g") (.operation (.submitFeedback "ann" "b" "heavy"))]
    let m := ((fresh .assembled none).after steps).market
    let reviews := Request.feedback (.reviewsFor "u" Page.all)
    (∀ f ∈ m.tables.feedback, f.createdAt.HasPlainYear) ∧
      m.tables.feedback.map Feedback.createdAt = [leap, earlier] ∧ ∃ listed,
        (m.step (.request none reviews)).1 = .ok (.reviews listed) ∧
          (∀ f ∈ m.tables.feedback, f ∈ listed) ∧ listed.Pairwise Feedback.Before := by
  intro leap earlier steps m reviews
  have hyears : ∀ f ∈ m.tables.feedback, f.createdAt.HasPlainYear := by
    unfold Instant.HasPlainYear
    decide
  have hreply : (m.step (.request none reviews)).1 =
      .ok (.reviews (Market.feedbackFor m.tables "u")) := rfl
  have hreceiver : ∀ f ∈ m.tables.feedback, f.receiverId = "u" := by decide
  have htimes : m.tables.feedback.map Feedback.createdAt = [leap, earlier] := by decide
  have hsorted := (reviews_are_chronological .assembled none steps none hyears _ Page.all).2
    "u" hreply
  refine ⟨hyears, htimes, _, hreply, fun f hf => ?_, hsorted⟩
  exact Market.mem_feedbackFor_iff.mpr ⟨hf, Or.inl (hreceiver f hf)⟩

end Session

end Procurement
