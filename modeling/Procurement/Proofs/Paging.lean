import Procurement.Proofs.Reviews

/-!
# Pages of listings

Every page of a listing is cut out of the same rows, so pages that follow on one another join,
and pages of one size tile the whole. This needs that the rows come in the same order each time
and that no row comes twice. Asking for a page is counted in the caches and changes nothing else,
so the pages may be asked for one after another.
-/

namespace Procurement

/-! ## Cutting rows into pages -/

namespace Page

variable {α : Type} (rows : List α)

/-- A positive limit cuts the rows behind the offset. -/
theorem select_ofRequest_of_pos (offset : Int) {limit : Int} (hlimit : 0 < limit) :
    (ofRequest offset limit).select rows = (rows.drop offset.toNat).take limit.toNat := by
  unfold ofRequest select
  rw [if_pos hlimit]

/-- Without a positive limit all rows behind the offset are shown. -/
theorem select_ofRequest_of_not_pos (offset : Int) {limit : Int} (hlimit : ¬ 0 < limit) :
    (ofRequest offset limit).select rows = rows.drop offset.toNat := by
  unfold ofRequest select
  rw [if_neg hlimit]

/-- A page and the one that follows on it are one longer page. -/
theorem select_append {offset k l : Int} (hoffset : 0 ≤ offset) (hk : 0 < k) (hl : 0 < l) :
    (ofRequest offset k).select rows ++ (ofRequest (offset + k) l).select rows =
      (ofRequest offset (k + l)).select rows := by
  rw [select_ofRequest_of_pos rows _ hk, select_ofRequest_of_pos rows _ hl,
    select_ofRequest_of_pos rows _ (Int.add_pos hk hl), Int.toNat_add hoffset hk.le,
    Int.toNat_add hk.le hl.le, List.take_add, List.drop_drop]

/-- The page of a number has the rows that this many pages leave over, cut to its size. -/
theorem select_index (i : Nat) {size : Int} (hsize : 0 < size) :
    (ofRequest (i * size) size).select rows =
      (rows.drop (i * size.toNat)).take size.toNat := by
  have hstart : ((i : Int) * size).toNat = i * size.toNat := by
    rw [Int.toNat_mul (Int.natCast_nonneg i) hsize.le, Int.toNat_natCast]
  rw [select_ofRequest_of_pos rows _ hsize, hstart]

/-- The first pages of one size make up the first rows. -/
theorem flatMap_select {size : Int} (hsize : 0 < size) (count : Nat) :
    ((List.range count).flatMap fun i : Nat => (ofRequest (i * size) size).select rows) =
      rows.take (count * size.toNat) := by
  induction count with
  | zero => simp
  | succ count ih =>
    rw [List.range_succ, List.flatMap_append, ih, List.flatMap_singleton,
      select_index rows count hsize, Nat.succ_mul, List.take_add]

/-- Which page a row is on follows from its position. -/
theorem mem_select_iff {size : Int} (hsize : 0 < size) {i : Nat} {row : α} :
    row ∈ (ofRequest (i * size) size).select rows ↔
      ∃ position, rows[position]? = some row ∧ position / size.toNat = i := by
  have hpos : 0 < size.toNat := Int.pos_iff_toNat_pos.mp hsize
  rw [select_index rows i hsize, List.mem_iff_getElem?]
  constructor
  · rintro ⟨k, hk⟩
    rw [List.getElem?_take, List.getElem?_drop] at hk
    split at hk
    · rename_i hlt
      refine ⟨i * size.toNat + k, hk, ?_⟩
      rw [Nat.mul_comm, Nat.mul_add_div hpos, Nat.div_eq_of_lt hlt, Nat.add_zero]
    · cases hk
  · rintro ⟨position, hrow, rfl⟩
    refine ⟨position % size.toNat, ?_⟩
    rw [List.getElem?_take, List.getElem?_drop, if_pos (Nat.mod_lt _ hpos), Nat.div_add_mod']
    exact hrow

/-- Of rows that are all different, each is on one page only. -/
theorem existsUnique_mem_select {rows : List α} (hrows : rows.Nodup) {size : Int}
    (hsize : 0 < size) {row : α} (hrow : row ∈ rows) :
    ∃! i : Nat, row ∈ (ofRequest (i * size) size).select rows := by
  obtain ⟨position, hposition⟩ := List.mem_iff_getElem?.mp hrow
  refine ⟨position / size.toNat, (mem_select_iff rows hsize).mpr ⟨position, hposition, rfl⟩, ?_⟩
  intro i hi
  obtain ⟨position', hposition', rfl⟩ := (mem_select_iff rows hsize).mp hi
  have hlt : position < rows.length := (List.getElem?_eq_some_iff.mp hposition).1
  have hsame : position = position' :=
    (List.getElem?_inj hlt hrows).mp (hposition.trans hposition'.symm)
  rw [hsame]

end Page

/-- The replies to requests for pages, by offset and limit, are cut out of the given rows. An offset
that is negative counts as none, and a limit that is not positive as none. -/
structure Paged {α : Type} (key : α → String) (form : List α → Answer)
    (reply : Int → Int → Reply) (rows : List α) : Prop where
  once : (rows.map key).Nodup
  whole : reply 0 0 = .ok (form rows)
  unlimited : ∀ offset limit, limit ≤ 0 →
    reply offset limit = .ok (form (rows.drop offset.toNat))
  limited : ∀ offset limit, 0 < limit →
    reply offset limit = .ok (form ((rows.drop offset.toNat).take limit.toNat))
  /-- Pages that follow on one another join. -/
  joined : ∀ offset k l, 0 ≤ offset → 0 < k → 0 < l → ∃ first second,
    reply offset k = .ok (form first) ∧ reply (offset + k) l = .ok (form second) ∧
      reply offset (k + l) = .ok (form (first ++ second))
  /-- Pages of one size tile the rows. -/
  tiled : ∀ size, 0 < size → ∃ page : Nat → List α,
    (∀ i : Nat, reply (i * size) size = .ok (form (page i))) ∧
    (∀ count : Nat, rows.length ≤ count * size → (List.range count).flatMap page = rows) ∧
    ∀ row ∈ rows, ∃! i, row ∈ page i

/-- Pages that are cut out of different rows are paged. -/
theorem paged_of_select {α : Type} {key : α → String} {form : List α → Answer}
    {reply : Int → Int → Reply} {rows : List α} (hrows : (rows.map key).Nodup)
    (h : ∀ offset limit, reply offset limit =
      .ok (form ((Page.ofRequest offset limit).select rows))) :
    Paged key form reply rows where
  once := hrows
  whole := h 0 0
  unlimited offset limit hlimit := by
    rw [h, Page.select_ofRequest_of_not_pos rows offset hlimit.not_gt]
  limited offset limit hlimit := by
    rw [h, Page.select_ofRequest_of_pos rows offset hlimit]
  joined offset k l hoffset hk hl :=
    ⟨_, _, h _ _, h _ _, by rw [Page.select_append rows hoffset hk hl, h]⟩
  tiled size hsize := by
    refine ⟨_, fun i => h (i * size) size, ?_, fun row hrow =>
      Page.existsUnique_mem_select hrows.of_map hsize hrow⟩
    intro count hcount
    rw [Page.flatMap_select rows hsize]
    refine List.take_of_length_le ?_
    have hcast : ((count * size.toNat : Nat) : Int) = count * size := by
      rw [Nat.cast_mul, Int.toNat_of_nonneg hsize.le]
    exact Int.ofNat_le.mp (hcast ▸ hcount)

/-! ## Requests for pages -/

namespace Market

variable {α β : Type}

/-- Requests for the pages of a listing are refused all alike, or else answered out of one list of
rows, no two of which have the same key. -/
def Cuts (m : Market) (key : α → String) (request : Page → MarketM (List α)) : Prop :=
  (∃ refusal, ∀ page, m.answer (request page) = .error refusal) ∨
    ∃ rows, (rows.map key).Nodup ∧ ∀ page, m.answer (request page) = .ok (page.select rows)

/-- What is asked of the tables page by page is cut out of one list. -/
theorem cuts_stored {m : Market} {key : α → String} {query : Tables → List α}
    (h : ((query m.tables).map key).Nodup) :
    m.Cuts key fun page => stored fun tables => page.select (query tables) :=
  Or.inr ⟨query m.tables, h, fun _ => rfl⟩

/-- What is asked before the listing decides at most whether it is shown, and which. -/
theorem OnlyReads.cuts_bind {first : MarketM β} (hfirst : OnlyReads first) {m : Market}
    {key : α → String} {next : β → Page → MarketM (List α)}
    (hreads : ∀ b page, OnlyReads (next b page)) (h : ∀ b, m.Cuts key (next b)) :
    m.Cuts key fun page => first >>= fun b => next b page := by
  have hanswer (page : Page) := hfirst.answer_bind (fun b => (hreads b page).ignoresCounts) m
  cases hasked : m.answer first with
  | error refusal =>
    left
    refine ⟨refusal, fun page => ?_⟩
    rw [hanswer, hasked]
    rfl
  | ok b =>
    rcases h b with ⟨refusal, hrefused⟩ | ⟨rows, hrows, hshown⟩
    · left
      refine ⟨refusal, fun page => ?_⟩
      rw [hanswer, hasked]
      exact hrefused page
    · right
      refine ⟨rows, hrows, fun page => ?_⟩
      rw [hanswer, hasked]
      exact hshown page

end Market

/-- The listings that are shown page by page: those for users, and those behind them that check no
one's authority. -/
inductive Listing where
  | publishedTenders (serviceTypes : List ServiceType)
  | tendersOf (username : String)
  | bidsOn (actor tenderId : String)
  | bidsOf (username : String)
  | reviews (requester tenderId author : String)
  | bidsWithTender (tenderId : String)
  | bidsWithAuthor (authorId : String)
  | reviewsFor (userId : String)

namespace Listing

/-- What a listing is made of. -/
abbrev Entry : Listing → Type
  | publishedTenders _ | tendersOf _ => Tender
  | bidsOn .. | bidsOf _ | bidsWithTender _ | bidsWithAuthor _ => Bid
  | reviews .. | reviewsFor _ => Feedback

/-- The identifier of an entry. -/
def key : (listing : Listing) → listing.Entry → String
  | publishedTenders _ | tendersOf _ => Entity.id
  | bidsOn .. | bidsOf _ | bidsWithTender _ | bidsWithAuthor _ => Entity.id
  | reviews .. | reviewsFor _ => Feedback.id

/-- The answer that shows entries of a listing. -/
def form : (listing : Listing) → List listing.Entry → Answer
  | publishedTenders _ | tendersOf _ => .tenders
  | bidsOn .. | bidsOf _ | bidsWithTender _ | bidsWithAuthor _ => .bids
  | reviews .. | reviewsFor _ => .reviews

/-- The request for a page of a listing. -/
def request (page : Page) : Listing → Request
  | publishedTenders serviceTypes => .operation (.publishedTenders serviceTypes page)
  | tendersOf username => .operation (.tendersOf username page)
  | bidsOn actor tenderId => .operation (.bidsOn actor tenderId page)
  | bidsOf username => .operation (.bidsOf username page)
  | reviews requester tenderId author => .operation (.reviews requester tenderId author page)
  | bidsWithTender tenderId => .store (.bidsWithTender tenderId page)
  | bidsWithAuthor authorId => .store (.bidsWithAuthor authorId page)
  | reviewsFor userId => .feedback (.reviewsFor userId page)

/-- The entries of a listing that a page shows. -/
def entries (page : Page) : (listing : Listing) → MarketM (List listing.Entry)
  | publishedTenders serviceTypes => Market.publishedTenders serviceTypes page
  | tendersOf username => Market.tendersOf username page
  | bidsOn actor tenderId => Market.bidsOn actor tenderId page
  | bidsOf username => Market.bidsOf username page
  | reviews requester tenderId author => Market.reviews requester tenderId author page
  | bidsWithTender tenderId => Market.bidsWithTender tenderId page
  | bidsWithAuthor authorId => Market.bidsWithAuthor authorId page
  | reviewsFor userId => Market.reviewsFor userId page

open Market

/-- A request for a page shows the entries of the page. -/
theorem perform_request (page : Page) (listing : Listing) :
    (listing.request page).perform = listing.form <$> listing.entries page := by
  cases listing <;> rfl

/-- The entries of a page are found by reading. -/
theorem onlyReads_entries (page : Page) (listing : Listing) :
    OnlyReads (listing.entries page) := by
  cases listing with
  | publishedTenders serviceTypes => exact onlyReads_publishedTenders serviceTypes page
  | tendersOf username => exact onlyReads_tendersOf username page
  | bidsOn actor tenderId => exact onlyReads_bidsOn actor tenderId page
  | bidsOf username => exact onlyReads_bidsOf username page
  | reviews requester tenderId author => exact onlyReads_reviews requester tenderId author page
  | bidsWithTender tenderId => exact onlyReads_bidsWithTender tenderId page
  | bidsWithAuthor authorId => exact onlyReads_bidsWithAuthor authorId page
  | reviewsFor userId => exact onlyReads_reviewsFor userId page

/-- A request for a page only reads. -/
theorem onlyReads_request (page : Page) (listing : Listing) :
    OnlyReads (listing.request page).perform := by
  rw [perform_request]
  exact (listing.onlyReads_entries page).map listing.form

/-- All listings are cut into pages. -/
theorem cuts_entries {m : Market} (htenders : m.tables.tenders.Dense)
    (hbids : m.tables.bids.Dense) (hfeedback : m.tables.FeedbackKeyed) (listing : Listing) :
    m.Cuts listing.key fun page => listing.entries page := by
  have hreviewsFor (userId : String) : m.Cuts Feedback.id (Market.reviewsFor userId) :=
    cuts_stored (nodup_feedbackFor hfeedback userId)
  cases listing with
  | publishedTenders serviceTypes => exact cuts_stored (htenders.nodup_listing _)
  | tendersOf username =>
    exact (onlyReads_userId username).cuts_bind (fun _ => Catalogue.onlyReads_list _)
      fun _ => cuts_stored (htenders.nodup_listing _)
  | bidsOn actor tenderId =>
    exact (onlyReads_requireListingMember actor tenderId).cuts_bind
      (fun _ => onlyReads_bidsWithTender tenderId)
      fun _ => cuts_stored (hbids.nodup_listing _)
  | bidsOf username =>
    exact (onlyReads_userId username).cuts_bind (fun userId => onlyReads_bidsWithAuthor userId)
      fun _ => cuts_stored (hbids.nodup_listing _)
  | reviews requester tenderId author =>
    have hnamed (page : Page) : OnlyReads (do
        let userId ← userId author
        Market.reviewsFor userId page) :=
      (onlyReads_userId author).bind fun userId => onlyReads_reviewsFor userId page
    refine (onlyReads_requireListingMember requester tenderId).cuts_bind
      (fun _ page => (onlyReads_tenderAuthor tenderId).bind fun _ =>
        onlyReads_ite _ (hnamed page) (onlyReads_throw _)) fun _ => ?_
    refine (onlyReads_tenderAuthor tenderId).cuts_bind
      (fun _ page => onlyReads_ite _ (hnamed page) (onlyReads_throw _)) fun name => ?_
    by_cases hname : name = author
    · simp only [if_pos hname]
      exact (onlyReads_userId author).cuts_bind onlyReads_reviewsFor hreviewsFor
    · simp only [if_neg hname]
      exact Or.inl ⟨_, fun _ => rfl⟩
  | bidsWithTender tenderId => exact cuts_stored (hbids.nodup_listing _)
  | bidsWithAuthor authorId => exact cuts_stored (hbids.nodup_listing _)
  | reviewsFor userId => exact hreviewsFor userId

end Listing

namespace Session

/-- The steps that ask for pages of listings, each with what is offered along with it. -/
def stepsOf (asked : List (Option String × Listing × Page)) : List Step :=
  asked.map fun (offered, listing, page) => .request offered (listing.request page)

/-- Asking for pages leaves a market as it is, up to the counters and the identifiers left over. -/
theorem contents_after_asked (s : Session) (asked : List (Option String × Listing × Page))
    (offered : Option String) :
    ((s.after (stepsOf asked)).market.offer offered).contents =
      (s.market.offer offered).contents := by
  induction asked generalizing s with
  | nil => rfl
  | cons first rest ih =>
    obtain ⟨id, listing, page⟩ := first
    refine (ih (s.step (.request id (listing.request page))).2).trans ?_
    obtain ⟨stage, m⟩ := s
    cases stage with
    | bare | migrated => rfl
    | assembled =>
      have hread := (listing.onlyReads_request page).after_uncounted (m.offer id)
      exact (congrArg (Market.offer offered) (Market.contents_of_uncounted hread) :)

/-- In every run the pages of each listing are refused all alike, or else they are the whole listing
with what the offset says left out at the front, cut where the limit says. So pages join and tile
the listing, also when other pages have been asked for in between. -/
theorem pages_tile_listings (stage : Stage) (decisionLimit : Option UInt64) (steps : List Step)
    (offered : Option String) (listing : Listing) :
    let reply (asked : List (Option String × Listing × Page)) (offset limit : Int) : Reply :=
      (((fresh stage decisionLimit).after (steps ++ stepsOf asked)).market.step
        (.request offered (listing.request (Page.ofRequest offset limit)))).1
    (∃ refusal, ∀ asked offset limit, reply asked offset limit = .error refusal) ∨
      ∃ rows, ∀ asked, Paged listing.key listing.form (reply asked) rows := by
  intro reply
  have hfresh := sound_fresh stage decisionLimit
  generalize hs : (fresh stage decisionLimit).after steps = s
  have hsound : s.market.Sound := hs ▸ sound_after hfresh steps
  have hkeyed : s.market.tables.FeedbackKeyed :=
    hs ▸ feedbackKeyed_after hfresh List.nodup_nil steps
  have hreply (asked : List (Option String × Listing × Page)) (offset limit : Int) :
      reply asked offset limit =
        ((s.market.offer offered).answer
          (listing.entries (Page.ofRequest offset limit))).map listing.form := by
    have hreached : (fresh stage decisionLimit).after (steps ++ stepsOf asked) =
        s.after (stepsOf asked) := by rw [after_append, hs]
    have hread := (listing.onlyReads_request (Page.ofRequest offset limit)).answer_of_contents
      (contents_after_asked s asked offered)
    rw [← hreached] at hread
    refine Eq.trans hread ?_
    rw [listing.perform_request, Market.answer_map]
  rcases listing.cuts_entries (m := s.market.offer offered) hsound.tenders hsound.bids hkeyed with
    ⟨refusal, hrefused⟩ | ⟨rows, hrows, hshown⟩
  · left
    refine ⟨refusal, fun asked offset limit => ?_⟩
    rw [hreply, hrefused]
    rfl
  · right
    refine ⟨rows, fun asked => paged_of_select hrows fun offset limit => ?_⟩
    rw [hreply, hshown]
    rfl

end Session

end Procurement
