import Procurement.Proofs.Operations

/-!
# Writes that interchange

A new status and a new version are written to different fields of a row, and only the version to
the list of all versions as well. Tenders and bids have registers of their own. So what gives a
tender or a bid another status and what gives one another version may be written in either order.
-/

namespace Procurement

/-! ## Changes of status and new versions -/

/-- Whether a change gives an entity another status. -/
def Change.setsStatus {Status Origin Content : Type} : Change Status Origin Content → Bool
  | .setStatus _ _ => true
  | _ => false

/-- Whether a change gives an entity another version of its content. -/
def Change.addsVersion {Status Origin Content : Type} : Change Status Origin Content → Bool
  | .append _ _ | .restore _ _ => true
  | _ => false

/-- A change of status adds no entity. -/
theorem Change.inserted?_of_setsStatus {Status Origin Content : Type}
    {change : Change Status Origin Content} (h : change.setsStatus = true) :
    change.inserted? = none := by
  cases change with
  | insert => cases h
  | _ => rfl

/-- A new version adds no entity. -/
theorem Change.inserted?_of_addsVersion {Status Origin Content : Type}
    {change : Change Status Origin Content} (h : change.addsVersion = true) :
    change.inserted? = none := by
  cases change with
  | insert => cases h
  | _ => rfl

/-- Whether a write gives a tender or a bid another status. -/
def Write.setsStatus : Write → Bool
  | .tender change => change.setsStatus
  | .bid change => change.setsStatus
  | _ => false

/-- Whether a write gives a tender or a bid another version of its content. -/
def Write.addsVersion : Write → Bool
  | .tender change => change.addsVersion
  | .bid change => change.addsVersion
  | _ => false

/-- Whether an operation gives tenders or bids another status. -/
def Operation.setsStatus : Operation → Bool
  | setTenderStatus _ _ _ | setBidStatus _ _ _ | submitDecision _ _ _ => true
  | _ => false

/-- Whether an operation gives a tender or a bid another version of its content. -/
def Operation.addsVersion : Operation → Bool
  | editTender _ _ _ | rollbackTender _ _ _ | editBid _ _ _ | rollbackBid _ _ _ => true
  | _ => false

/-- What an operation writes to give another status are changes of status. -/
theorem Operation.setsStatus_of_mem_writes {m : Market} {op : Operation}
    (hop : op.setsStatus = true) {write : Write} (h : write ∈ op.writes m) :
    write.setsStatus = true := by
  cases op with
  | setTenderStatus | setBidStatus =>
    rw [List.mem_singleton.mp h]
    rfl
  | submitDecision actor bidId decision =>
    rcases List.mem_cons.mp h with rfl | hclosing
    · rfl
    · unfold Market.closingWrites at hclosing
      split at hclosing
      · obtain ⟨bid, _, rfl⟩ := List.mem_map.mp hclosing
        rfl
      · cases hclosing
  | _ => cases hop

/-- What an operation writes to give another version are new versions. -/
theorem Operation.addsVersion_of_mem_writes {m : Market} {op : Operation}
    (hop : op.addsVersion = true) {write : Write} (h : write ∈ op.writes m) :
    write.addsVersion = true := by
  cases op with
  | editTender | rollbackTender | editBid | rollbackBid =>
    rw [List.mem_singleton.mp h]
    rfl
  | _ => cases hop

/-! ## One register -/

namespace Register

variable {Status Origin Content : Type} {initial : Status}
  {change : Change Status Origin Content}

/-- Changes to the rows of two entities, or to different fields of one row, come to the same in
either order. -/
theorem mapRow_comm (r : Register Status Origin Content)
    {f g : Row Status Origin → Row Status Origin} (hf : ∀ row, (f row).id = row.id)
    (hg : ∀ row, (g row).id = row.id) (hcomm : ∀ row, g (f row) = f (g row)) (id other : String) :
    (r.mapRow id f).mapRow other g = (r.mapRow other g).mapRow id f := by
  unfold mapRow
  simp only [List.map_map]
  refine congrArg (fun rows => { r with rows }) (List.map_congr_left fun row _ => ?_)
  cases hid : row.id == id <;> cases hother : row.id == other <;>
    simp only [Function.comp_apply, hid, hother, hf, hg, hcomm, Bool.false_eq_true, if_true,
      if_false]

/-- A version is appended alike under every status. -/
theorem append?_setStatus (r : Register Status Origin Content) (id other : String)
    (status : Status) (content : Content) :
    (r.setStatus id status).append? other content =
      (r.append? other content).map fun r => r.setStatus id status := by
  have hlatest : (r.setStatus id status).latest? other = r.latest? other := rfl
  unfold append?
  rw [hlatest, Option.map_map]
  refine congrArg (fun f => (r.latest? other).map f) (funext fun latest => ?_)
  let extended : Register Status Origin Content :=
    { r with revisions := r.revisions ++ [⟨other, latest + 1, content⟩] }
  exact extended.mapRow_comm (f := fun row => { row with status })
    (g := fun row => { row with version := latest + 1 }) (fun _ => rfl) (fun _ => rfl)
    (fun _ => rfl) id other

/-- A new status and a new version are given in either order. -/
theorem change?_comm (r : Register Status Origin Content) {revision : Change Status Origin Content}
    (hchange : change.setsStatus = true) (hrevision : revision.addsVersion = true) :
    ((r.change? initial change).bind fun r => r.change? initial revision) =
      (r.change? initial revision).bind fun r => r.change? initial change := by
  cases change with
  | setStatus id status =>
    cases revision with
    | append other content =>
      exact (append?_setStatus r id other status content).trans Option.map_eq_bind
    | restore other version =>
      have hcontent : (r.setStatus id status).content? other version = r.content? other version :=
        rfl
      simp only [change?, Option.bind_some, hcontent]
      cases r.content? other version with
      | none => rfl
      | some content => exact (append?_setStatus r id other status content).trans Option.map_eq_bind
    | _ => cases hrevision
  | _ => cases hchange

end Register

/-! ## The tables -/

/-- Two updates of the tables that come to the same in either order. -/
def Tables.Interchange (f g : Tables → Option Tables) : Prop := ∀ t, (f t).bind g = (g t).bind f

namespace Tables.Interchange

variable {f g : Tables → Option Tables} {writes : List Write}

/-- Which of two updates is named first does not matter. -/
theorem symm (h : Interchange f g) : Interchange g f := fun t => (h t).symm

/-- What may pass each of some writes may pass all of them. -/
theorem foldlM (h : ∀ write ∈ writes, Interchange f fun t => write.applyTo? t) :
    Interchange f (writes.foldlM Write.applyTo?) := by
  induction writes with
  | nil => exact fun t => Option.bind_fun_some (f t)
  | cons write rest ih =>
    have hrest := ih fun write' hmem => h write' (List.mem_cons_of_mem _ hmem)
    intro t
    calc (f t).bind ((write :: rest).foldlM Write.applyTo?)
        = ((f t).bind fun t => write.applyTo? t).bind (rest.foldlM Write.applyTo?) :=
          (Option.bind_assoc ..).symm
      _ = ((write.applyTo? t).bind f).bind (rest.foldlM Write.applyTo?) := by
          rw [h write List.mem_cons_self t]
      _ = (write.applyTo? t).bind fun t => (f t).bind (rest.foldlM Write.applyTo?) :=
          Option.bind_assoc ..
      _ = (write.applyTo? t).bind fun t => (rest.foldlM Write.applyTo? t).bind f := by
          simp only [hrest _]
      _ = ((write :: rest).foldlM Write.applyTo? t).bind f := (Option.bind_assoc ..).symm

end Tables.Interchange

namespace Catalogue

variable {Status Origin Content : Type} {c : Catalogue Status Origin Content}

/-- A change that adds nothing refers to nothing, and needs no support. -/
theorem change?_of_quiet {change : Change Status Origin Content} (hquiet : change.inserted? = none)
    (t : Tables) :
    c.change? t change = ((c.register t).change? c.initial change).map (c.setRegister t) := by
  cases change with
  | insert => cases hquiet
  | _ => exact if_pos rfl

/-- Two changes of a catalogue are two changes of its register. -/
theorem Lawful.change?_bind_change? (hc : c.Lawful)
    (hset : ∀ t r r', c.setRegister (c.setRegister t r) r' = c.setRegister t r')
    {first second : Change Status Origin Content} (hfirst : first.inserted? = none)
    (hsecond : second.inserted? = none) (t : Tables) :
    ((c.change? t first).bind fun t => c.change? t second) =
      (((c.register t).change? c.initial first).bind fun r => r.change? c.initial second).map
        (c.setRegister t) := by
  rw [change?_of_quiet hfirst, Option.bind_map, Option.map_bind]
  refine congrArg _ (funext fun r => ?_)
  simp only [Function.comp_apply, change?_of_quiet hsecond, hc.register_setRegister]
  exact congrArg (fun f => (r.change? c.initial second).map f) (funext (hset t r))

/-- Within a catalogue a new status and a new version are given in either order. -/
theorem Lawful.interchange (hc : c.Lawful)
    (hset : ∀ t r r', c.setRegister (c.setRegister t r) r' = c.setRegister t r')
    {change revision : Change Status Origin Content} (hchange : change.setsStatus = true)
    (hrevision : revision.addsVersion = true) :
    Tables.Interchange (fun t => c.change? t change) fun t => c.change? t revision := by
  intro t
  have hquiet := Change.inserted?_of_setsStatus hchange
  have hquiet' := Change.inserted?_of_addsVersion hrevision
  dsimp only
  rw [hc.change?_bind_change? hset hquiet hquiet', hc.change?_bind_change? hset hquiet' hquiet,
    Register.change?_comm _ hchange hrevision]

/-- Tenders and bids are changed in either order. -/
theorem interchange_tenders_bids {change : Change TenderStatus TenderOrigin TenderContent}
    {change' : Change BidStatus BidOrigin BidContent} (hquiet : change.inserted? = none)
    (hquiet' : change'.inserted? = none) :
    Tables.Interchange (fun t => tenders.change? t change) fun t => bids.change? t change' := by
  intro t
  simp only [change?_of_quiet hquiet, change?_of_quiet hquiet']
  change ((t.tenders.change? .created change).map _).bind _ =
    ((t.bids.change? .created change').map _).bind _
  cases htender : t.tenders.change? .created change <;>
    cases hbid : t.bids.change? .created change' <;>
    simp [tenders, bids, htender, hbid]

end Catalogue

/-- A new status and a new version are written in either order, be it to the same row. -/
theorem Write.interchange {write revision : Write} (hwrite : write.setsStatus = true)
    (hrevision : revision.addsVersion = true) :
    Tables.Interchange (fun t => write.applyTo? t) fun t => revision.applyTo? t := by
  cases write with
  | tender change =>
    have hquiet := Change.inserted?_of_setsStatus hwrite
    cases revision with
    | tender revision => exact tenders_lawful.interchange (fun _ _ _ => rfl) hwrite hrevision
    | bid revision =>
      exact Catalogue.interchange_tenders_bids hquiet (Change.inserted?_of_addsVersion hrevision)
    | _ => cases hrevision
  | bid change =>
    have hquiet := Change.inserted?_of_setsStatus hwrite
    cases revision with
    | tender revision =>
      have hquiet' := Change.inserted?_of_addsVersion hrevision
      exact (Catalogue.interchange_tenders_bids hquiet' hquiet).symm
    | bid revision => exact bids_lawful.interchange (fun _ _ _ => rfl) hwrite hrevision
    | _ => cases hrevision
  | _ => cases hwrite

end Procurement
