import Procurement.Proofs.Runs

/-!
# What stays

Nothing that is stored is ever taken out, and of a tender or a bid only the status
and the content change: its birth stays, which is its identifier, what it comes
from and when it was created. So the tables of a session only grow, each at its
end; whatever refers to a stored row refers to it forever.
-/

namespace Procurement

/-- What a tender or a bid is from the start and for good. -/
structure Birth (Origin : Type) where
  id : String
  origin : Origin
  createdAt : Instant

variable {Status Origin Content : Type}

/-- What of a row never changes. -/
def Row.birth (row : Row Status Origin) : Birth Origin := ⟨row.id, row.origin, row.createdAt⟩

/-- The birth of the entity that a change adds, if it adds one. -/
def Change.birth? : Change Status Origin Content → Option (Birth Origin)
  | .insert id origin createdAt _ => some ⟨id, origin, createdAt⟩
  | _ => none

namespace Register

variable {r r' : Register Status Origin Content}

/-- The births of all entities, in the order of their arrival. -/
def births (r : Register Status Origin Content) : List (Birth Origin) := r.rows.map Row.birth

/-- A change to rows that keeps what they are from the start keeps all births. -/
theorem births_mapRow (change : Row Status Origin → Row Status Origin)
    (hchange : ∀ row, (change row).birth = row.birth) (id : String) :
    (r.mapRow id change).births = r.births := by
  simp only [births, mapRow, List.map_map]
  refine List.map_congr_left fun row _ => ?_
  simp only [Function.comp_apply]
  split
  · exact hchange row
  · rfl

/-- A new version adds no birth. -/
theorem births_of_append? {id : String} {content : Content} (h : r.append? id content = some r') :
    r'.births = r.births := by
  obtain ⟨latest, _, rfl⟩ := Option.map_eq_some_iff.mp h
  exact births_mapRow (fun row => { row with version := latest + 1 }) (fun _ => rfl) id

/-- Changes add births behind all others, and do nothing else to them. -/
theorem births_of_change? {initial : Status} {change : Change Status Origin Content}
    (h : r.change? initial change = some r') : r'.births = r.births ++ change.birth?.toList := by
  cases change with
  | insert id origin createdAt content =>
    rw [eq_of_insert? h, births, births, List.map_append]
    rfl
  | setStatus id status =>
    rw [← Option.some.inj h]
    exact (births_mapRow (fun row => { row with status }) (fun _ => rfl) id).trans
      (List.append_nil _).symm
  | append id content => exact (births_of_append? h).trans (List.append_nil _).symm
  | restore id version =>
    obtain ⟨content, _, happend⟩ := Option.bind_eq_some_iff.mp h
    exact (births_of_append? happend).trans (List.append_nil _).symm

/-- A row has the birth that is found under its identifier. -/
theorem map_birth_row? (r : Register Status Origin Content) (id : String) :
    (r.row? id).map Row.birth = r.births.find? fun birth => birth.id == id := by
  unfold row? births
  rw [List.find?_map]
  rfl

/-- A row is found again in a register that begins with the same births. -/
theorem exists_row?_of_births_prefix (h : r.births <+: r'.births) {id : String}
    {row : Row Status Origin} (hrow : r.row? id = some row) :
    ∃ row', r'.row? id = some row' ∧ row'.birth = row.birth := by
  have hfound : r.births.find? (fun birth => birth.id == id) = some row.birth := by
    rw [← map_birth_row?, hrow, Option.map_some]
  refine Option.map_eq_some_iff.mp ?_
  rw [map_birth_row?]
  exact h.find?_eq_some hfound

/-- Every birth is that of a row. -/
theorem exists_of_mem_births {birth : Birth Origin} (h : birth ∈ r.births) :
    ∃ row ∈ r.rows, row.birth = birth :=
  List.mem_map.mp h

end Register

/-! ## Growing tables -/

/-- Every table of the first begins the same table of the second; of tenders and bids this is
said of their births. -/
structure Tables.Extends (t t' : Tables) : Prop where
  users : t.users <+: t'.users
  organizations : t.organizations <+: t'.organizations
  responsibilities : t.responsibilities <+: t'.responsibilities
  tenders : t.tenders.births <+: t'.tenders.births
  bids : t.bids.births <+: t'.bids.births
  feedback : t.feedback <+: t'.feedback

namespace Tables.Extends

variable {t t' t'' : Tables}

/-- Tables extend themselves. -/
theorem refl (t : Tables) : t.Extends t where
  users := List.prefix_rfl
  organizations := List.prefix_rfl
  responsibilities := List.prefix_rfl
  tenders := List.prefix_rfl
  bids := List.prefix_rfl
  feedback := List.prefix_rfl

/-- What extends an extension extends what came first. -/
theorem trans (h : t.Extends t') (h' : t'.Extends t'') : t.Extends t'' where
  users := h.users.trans h'.users
  organizations := h.organizations.trans h'.organizations
  responsibilities := h.responsibilities.trans h'.responsibilities
  tenders := h.tenders.trans h'.tenders
  bids := h.bids.trans h'.bids
  feedback := h.feedback.trans h'.feedback

/-- A write adds to one table. -/
theorem of_applyTo? {write : Write} (h : write.applyTo? t = some t') : t.Extends t' := by
  cases write with
  | user user =>
    obtain ⟨_, rfl⟩ := Tables.eq_of_addUser h
    exact { refl t with users := List.prefix_append _ _ }
  | organization organization =>
    obtain rfl := Tables.eq_of_addOrganization h
    exact { refl t with organizations := List.prefix_append _ _ }
  | responsibility link =>
    obtain rfl := Tables.eq_of_addResponsibility h
    exact { refl t with responsibilities := List.prefix_append _ _ }
  | tender change =>
    obtain ⟨register, hregister, rfl⟩ := Catalogue.exists_of_change? h
    exact { refl t with
      tenders := (Register.births_of_change? hregister).symm ▸ List.prefix_append _ _ }
  | bid change =>
    obtain ⟨register, hregister, rfl⟩ := Catalogue.exists_of_change? h
    exact { refl t with
      bids := (Register.births_of_change? hregister).symm ▸ List.prefix_append _ _ }
  | feedback feedback =>
    obtain rfl := Tables.eq_of_addFeedback h
    exact { refl t with feedback := List.prefix_append _ _ }
  | notice registration => exact Option.some.inj h ▸ refl t

/-! What was stored still is. -/

section Stored

variable (h : t.Extends t')

include h

/-- A user who was stored still is. -/
theorem hasUser {id : String} (hid : t.hasUser id = true) : t'.hasUser id = true := by
  obtain ⟨user, huser, heq⟩ := List.any_eq_true.mp hid
  exact List.any_eq_true.mpr ⟨user, h.users.subset huser, heq⟩

/-- An organization that was stored still is. -/
theorem hasOrganization {id : String} (hid : t.hasOrganization id = true) :
    t'.hasOrganization id = true := by
  obtain ⟨organization, horganization, heq⟩ := List.any_eq_true.mp hid
  exact List.any_eq_true.mpr ⟨organization, h.organizations.subset horganization, heq⟩

/-- Who was responsible for an organization still is. -/
theorem isResponsible {organizationId userId : String}
    (hlinked : t.isResponsible organizationId userId = true) :
    t'.isResponsible organizationId userId = true := by
  obtain ⟨link, hlink, heq⟩ := List.any_eq_true.mp hlinked
  exact List.any_eq_true.mpr ⟨link, h.responsibilities.subset hlink, heq⟩

/-- A tender that was stored still is, as what it is from the start. -/
theorem exists_tender {id : String} {tender : Row TenderStatus TenderOrigin}
    (hrow : t.tenders.row? id = some tender) :
    ∃ tender', t'.tenders.row? id = some tender' ∧ tender'.birth = tender.birth :=
  Register.exists_row?_of_births_prefix h.tenders hrow

/-- A bid that was stored still is, as what it is from the start. -/
theorem exists_bid {id : String} {bid : Row BidStatus BidOrigin}
    (hrow : t.bids.row? id = some bid) :
    ∃ bid', t'.bids.row? id = some bid' ∧ bid'.birth = bid.birth :=
  Register.exists_row?_of_births_prefix h.bids hrow

end Stored

end Tables.Extends

namespace Session

/-- Over a run the tables only grow. -/
theorem extends_after {s : Session} (hs : s.market.Sound) (steps : List Step) :
    s.market.tables.Extends (s.after steps).market.tables :=
  keeps_after hs (fun t => s.market.tables.Extends t)
    (fun happlied hgrown => hgrown.trans (.of_applyTo? happlied)) (.refl _) steps

end Session

end Procurement
