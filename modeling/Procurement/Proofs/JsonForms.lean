import Procurement.Proofs.InstantText
import Procurement.Proofs.JsonText
import Procurement.Record.Form
import Procurement.Settings.Form

/-!
# Values survive their text

A value that is written as JSON is given back by what was written, and so is a value that some other
text gave, however that text was laid out: reading forgets the layout, and writing puts down
nothing that reading does not take. Each record is written as an object of its own fields, each
of them once, so each field is found; what is left to show is that the value of every field comes
back.
-/

namespace Procurement

open Record

namespace Json

/-- Whether a number fits into 64 bits with sign. -/
def FitsInt64 (n : Int) : Prop := -9223372036854775808 ≤ n ∧ n ≤ 9223372036854775807

/-- A number of 64 bits with sign is a whole number in their range. -/
theorem int64?_eq_some_iff {value : Json} {n : Int} :
    value.int64? = some n ↔ value.integer? = some n ∧ FitsInt64 n := by
  unfold int64? FitsInt64
  rw [Option.filter_eq_some_iff, decide_eq_true_eq]

/-- A number below a bound is read as it is. -/
theorem natBelow?_integer {bound n : Nat} (h : n < bound) :
    (integer n).natBelow? bound = some n :=
  if_pos ⟨Int.natCast_nonneg n, Int.ofNat_lt.mpr h⟩

/-- A number of 32 bits is read as it is. -/
theorem uint32?_integer (n : UInt32) : (integer n.toNat).uint32? = some n := by
  unfold uint32?
  rw [natBelow?_integer n.toNat_lt, Option.map_some]
  exact congrArg some (UInt32.ofNat_toNat)

/-- A number of 64 bits is read as it is. -/
theorem uint64?_integer (n : UInt64) : (integer n.toNat).uint64? = some n := by
  unfold uint64?
  rw [natBelow?_integer n.toNat_lt, Option.map_some]
  exact congrArg some (UInt64.ofNat_toNat)

/-- A number of 64 bits with sign fits into them. -/
theorem fitsInt64_toInt (n : Int64) : FitsInt64 n.toInt := by
  have hlow := n.le_toInt
  have hhigh := n.toInt_lt
  unfold FitsInt64
  omega

/-- A number that may be missing is read as it is, and so is its absence. -/
theorem optionalUInt64?_ofOptionalUInt64 (n : Option UInt64) :
    (ofOptionalUInt64 n).optionalUInt64? = some n := by
  cases n with
  | none => rfl
  | some n =>
    unfold ofOptionalUInt64 optionalUInt64?
    dsimp only
    rw [uint64?_integer]
    rfl

/-- The reader takes what fits into 64 bits with sign as it is. -/
theorem isExact_integer_of_fitsInt64 {n : Int} (h : FitsInt64 n) : (integer n).isExact = true := by
  unfold FitsInt64 at h
  simp only [isExact, Bool.and_eq_true, decide_eq_true_eq]
  omega

/-- The reader takes what fits into 32 bits as it is. -/
theorem isExact_integer_toNat32 (n : UInt32) : (integer n.toNat).isExact = true := by
  have h := n.toNat_lt
  simp only [isExact, Bool.and_eq_true, decide_eq_true_eq]
  omega

/-- The reader takes what fits into 64 bits as it is. -/
theorem isExact_integer_toNat64 (n : UInt64) : (integer n.toNat).isExact = true := by
  have h := n.toNat_lt
  simp only [isExact, Bool.and_eq_true, decide_eq_true_eq]
  omega

/-- An object is exact if all its members are. -/
theorem isExact_object {members : List (String × Json)}
    (h : ∀ member ∈ members, member.2.isExact = true) : (object members).isExact = true := by
  unfold isExact
  induction members with
  | nil => rfl
  | cons member members ih =>
    obtain ⟨hmember, hmembers⟩ := List.forall_mem_cons.mp h
    exact Bool.and_eq_true_iff.mpr ⟨hmember, ih hmembers⟩

end Json

namespace JsonForm

variable {α : Type} [JsonForm α]

/-- A value that is given by what it is written as, in numbers that the reader takes as they are. -/
structure ReadsBack (value : α) : Prop where
  exact : (toJson value).isExact = true
  ofJson? : ofJson? (toJson value) = some value

/-- What is read back is read back from its text. -/
theorem ReadsBack.decode?_encode {value : α} (h : ReadsBack value) :
    decode? α (encode value) = some value := by
  unfold decode? encode
  rw [Json.read?_write h.exact]
  exact h.ofJson?

/-- The values of a form, those that are admissible of its type, and their texts: what a text gives
is admissible and is given again by its own text, and so is every admissible value. -/
structure RoundTrips (α : Type) [JsonForm α] (admissible : α → Prop) : Prop where
  given_again : ∀ text,
    (decode? α text).bind (fun value => decode? α (encode value)) = decode? α text
  admissible_of_given : ∀ text, ∀ value ∈ decode? α text, admissible value
  survives : ∀ value, admissible value → decode? α (encode value) = some value

/-- A form is read back if what it gives is admissible and all that is admissible is given
again. -/
theorem roundTrips {admissible : α → Prop}
    (hread : ∀ json : Json, ∀ value ∈ (ofJson? json : Option α), admissible value)
    (hwrite : ∀ value : α, admissible value → ReadsBack value) : RoundTrips α admissible where
  given_again text := by
    cases h : decode? α text with
    | none => rfl
    | some value =>
      obtain ⟨json, _, hvalue⟩ := Option.bind_eq_some_iff.mp h
      exact (hwrite value (hread json value hvalue)).decode?_encode
  admissible_of_given text value h := by
    obtain ⟨json, _, hvalue⟩ := Option.bind_eq_some_iff.mp h
    exact hread json value hvalue
  survives value h := (hwrite value h).decode?_encode

/-- A form is read back if all its values are. -/
theorem roundTrips_of_all (h : ∀ value : α, ReadsBack value) : RoundTrips α fun _ => True :=
  roundTrips (fun _ _ _ => trivial) fun value _ => h value

end JsonForm

/-- A vocabulary whose values are told apart by their words. -/
class LawfulVocabulary (α : Type) [Vocabulary α] : Prop where
  ofWord?_word : ∀ value : α, Vocabulary.ofWord? (Vocabulary.word value) = some value

instance : LawfulVocabulary TenderStatus := ⟨fun value => by cases value <;> rfl⟩

instance : LawfulVocabulary BidStatus := ⟨fun value => by cases value <;> rfl⟩

instance : LawfulVocabulary ServiceType := ⟨fun value => by cases value <;> rfl⟩

instance : LawfulVocabulary AuthorType := ⟨fun value => by cases value <;> rfl⟩

instance : LawfulVocabulary OrganizationType := ⟨fun value => by cases value <;> rfl⟩

instance : LawfulVocabulary Decision := ⟨fun value => by cases value <;> rfl⟩

/-- A word is given back by its name. -/
theorem Json.ofWord?_toJson {α : Type} [Vocabulary α] [LawfulVocabulary α] (value : α) :
    Json.ofWord? (JsonForm.toJson value) = some value :=
  LawfulVocabulary.ofWord?_word value

namespace JsonForm

/-- A word is read back. -/
theorem readsBack_word {α : Type} [Vocabulary α] [LawfulVocabulary α] (value : α) :
    ReadsBack value :=
  ⟨rfl, Json.ofWord?_toJson value⟩

end JsonForm

namespace Record

/-- An instant is given back by its text. -/
theorem instant?_instantJson (t : Instant) : instant? (instantJson t) = some t := by
  unfold instant? instantJson Json.string?
  rw [Option.bind_eq_bind, Option.bind_some, Instant.ofText?_text]

/-- A service type is given back in the record that holds it. -/
theorem heldServiceType?_toJson (value : ServiceType) :
    heldServiceType? (JsonForm.toJson value) = some value :=
  Json.ofWord?_toJson value

end Record

namespace JsonForm

/-- The content of a tender is read back. -/
theorem readsBack_tenderContent (content : TenderContent) : ReadsBack content where
  exact := rfl
  ofJson? := by
    have hfields : (toJson content).fields? tenderContentFields =
        some [.string content.name, .string content.description, toJson content.serviceType] := rfl
    simp only [ofJson?, hfields, Option.bind_eq_bind, Option.bind_some, tenderContent?,
      Json.string?, Json.ofWord?_toJson]
    rfl

/-- The content of a bid is read back. -/
theorem readsBack_bidContent (content : BidContent) : ReadsBack content := ⟨rfl, rfl⟩

/-- Feedback is read back. -/
theorem readsBack_feedback (feedback : Feedback) : ReadsBack feedback where
  exact := rfl
  ofJson? := by
    have hfields : (toJson feedback).fields?
        ["id", "bid_id", "content", "author_id", "receiver_id", "created_at"] =
        some [.string feedback.id, .string feedback.bidId, .string feedback.content,
          .string feedback.authorId, .string feedback.receiverId,
          instantJson feedback.createdAt] := rfl
    simp only [ofJson?, hfields, Option.bind_eq_bind, Option.bind_some, Json.string?,
      instant?_instantJson]
    rfl

/-- A tender is read back if its version fits. -/
theorem readsBack_tender {tender : Tender} (h : Json.FitsInt64 tender.version) :
    ReadsBack tender where
  exact := (Bool.and_true _).trans (Json.isExact_integer_of_fitsInt64 h)
  ofJson? := by
    have hmembers : membersHolding? tenderFields (toJson tender) = some (tenderMembers tender) :=
      rfl
    have hown : Json.fieldsOfObject? tenderFields (tenderMembers tender) =
        some [.string tender.id, toJson tender.status, .string tender.origin.organizationId,
          .string tender.origin.creatorId, .integer tender.version,
          instantJson tender.createdAt] := rfl
    have hcontent : Json.fieldsOfObject? tenderContentFields (tenderMembers tender) =
        some [.string tender.content.name, .string tender.content.description,
          toJson tender.content.serviceType] := rfl
    have hversion : (Json.integer tender.version).int64? = some tender.version :=
      Json.int64?_eq_some_iff.mpr ⟨rfl, h⟩
    simp only [ofJson?, hmembers, hown, hcontent, hversion, Option.bind_eq_bind, Option.bind_some,
      tenderContent?, heldServiceType?_toJson, Json.string?, instant?_instantJson,
      Json.ofWord?_toJson]
    rfl

/-- A bid is read back if its version fits. -/
theorem readsBack_bid {bid : Bid} (h : Json.FitsInt64 bid.version) : ReadsBack bid where
  exact := (Bool.and_true _).trans (Json.isExact_integer_of_fitsInt64 h)
  ofJson? := by
    have hmembers : membersHolding? bidFields (toJson bid) = some (bidMembers bid) := rfl
    have hown : Json.fieldsOfObject? bidFields (bidMembers bid) =
        some [.string bid.id, toJson bid.status, .string bid.origin.tenderId,
          toJson bid.origin.author.type, .string bid.origin.author.id, .integer bid.version,
          instantJson bid.createdAt] := rfl
    have hcontent : Json.fieldsOfObject? bidContentFields (bidMembers bid) =
        some [.string bid.content.name, .string bid.content.description] := rfl
    have hversion : (Json.integer bid.version).int64? = some bid.version :=
      Json.int64?_eq_some_iff.mpr ⟨rfl, h⟩
    simp only [ofJson?, hmembers, hown, hcontent, hversion, Option.bind_eq_bind, Option.bind_some,
      bidContent?, Json.string?, instant?_instantJson, Json.ofWord?_toJson]
    rfl

/-- No tender is read whose version does not fit. -/
theorem fitsInt64_of_ofJson?_tender {json : Json} {tender : Tender}
    (h : ofJson? json = some tender) : Json.FitsInt64 tender.version := by
  simp only [ofJson?, Option.bind_eq_bind, Option.bind_eq_some_iff] at h
  obtain ⟨_, _, _, _, _, _, _, _, hown⟩ := h
  split at hown
  · simp only [Option.bind_eq_some_iff] at hown
    obtain ⟨_, _, _, _, _, _, _, _, version, hversion, _, _, hown⟩ := hown
    cases hown
    exact (Json.int64?_eq_some_iff.mp hversion).2
  · cases hown

/-- No bid is read whose version does not fit. -/
theorem fitsInt64_of_ofJson?_bid {json : Json} {bid : Bid}
    (h : ofJson? json = some bid) : Json.FitsInt64 bid.version := by
  simp only [ofJson?, Option.bind_eq_bind, Option.bind_eq_some_iff] at h
  obtain ⟨_, _, _, _, _, _, _, _, hown⟩ := h
  split at hown
  · simp only [Option.bind_eq_some_iff] at hown
    obtain ⟨_, _, _, _, _, _, _, _, _, _, version, hversion, _, _, hown⟩ := hown
    cases hown
    exact (Json.int64?_eq_some_iff.mp hversion).2
  · cases hown

/-- The settings of the database are made of what their fields say. -/
theorem ofJson?_databaseSettings {settings : DatabaseSettings} {value connections timeout : Json}
    (hfields : value.fields? ["url", "max_connections", "auto_migrate", "busy_timeout_ms"] =
      some [.string settings.url, connections, .bool settings.autoMigrate, timeout])
    (hconnections : connections.uint32? = some settings.maxConnections)
    (htimeout : timeout.uint64? = some settings.busyTimeout) : ofJson? value = some settings := by
  simp only [ofJson?, hfields, hconnections, htimeout, Option.bind_eq_bind, Option.bind_some,
    Json.string?, Json.bool?]
  rfl

/-- The settings of the database are read back. -/
theorem readsBack_databaseSettings (settings : DatabaseSettings) : ReadsBack settings where
  exact := by
    have hconnections := Json.isExact_integer_toNat32 settings.maxConnections
    have htimeout := Json.isExact_integer_toNat64 settings.busyTimeout
    refine Json.isExact_object ?_
    simp only [List.forall_mem_cons, hconnections, htimeout]
    exact ⟨rfl, trivial, rfl, trivial, List.forall_mem_nil _⟩
  ofJson? := ofJson?_databaseSettings rfl (Json.uint32?_integer settings.maxConnections)
    (Json.uint64?_integer settings.busyTimeout)

/-- The settings of the log are read back. -/
theorem readsBack_logSettings (settings : LogSettings) : ReadsBack settings := ⟨rfl, rfl⟩

/-- The settings of pages are read back. -/
theorem readsBack_pageSettings (settings : PageSettings) : ReadsBack settings where
  exact := (Bool.and_true _).trans
    (Json.isExact_integer_of_fitsInt64 (Json.fitsInt64_toInt settings.defaultLimit))
  ofJson? := by
    have hfields : (toJson settings).fields? ["default_limit"] =
        some [.integer settings.defaultLimit.toInt] := rfl
    have hlimit : (Json.integer settings.defaultLimit.toInt).int64? =
        some settings.defaultLimit.toInt :=
      Json.int64?_eq_some_iff.mpr ⟨rfl, Json.fitsInt64_toInt settings.defaultLimit⟩
    simp only [ofJson?, hfields, hlimit, Option.bind_eq_bind, Option.bind_some, Int64.ofInt_toInt]
    rfl

/-- The settings of decisions are read back. -/
theorem readsBack_decisionSettings (settings : DecisionSettings) : ReadsBack settings where
  exact := by
    refine Json.isExact_object (List.forall_mem_singleton.mpr ?_)
    obtain ⟨_ | timeout⟩ := settings
    · rfl
    · exact Json.isExact_integer_toNat64 timeout
  ofJson? := by
    have htimeout := Json.optionalUInt64?_ofOptionalUInt64 settings.timeout
    have hread : ofJson? (toJson settings) =
        (Json.ofOptionalUInt64 settings.timeout).optionalUInt64?.bind fun timeout =>
          some ({ timeout } : DecisionSettings) := rfl
    rw [hread, htimeout]
    rfl

/-- All settings together are read back. -/
theorem readsBack_settings (settings : Settings) : ReadsBack settings where
  exact := by
    have hdatabase := (readsBack_databaseSettings settings.database).exact
    have hlog := (readsBack_logSettings settings.log).exact
    have hpages := (readsBack_pageSettings settings.pages).exact
    have hdecisions := (readsBack_decisionSettings settings.decisions).exact
    refine Json.isExact_object ?_
    simp only [List.forall_mem_cons]
    exact ⟨hdatabase, hlog, hpages, hdecisions, List.forall_mem_nil _⟩
  ofJson? := by
    have hfields : (toJson settings).fields?
        ["database", "observability", "pagination", "workflow"] =
        some [toJson settings.database, toJson settings.log, toJson settings.pages,
          toJson settings.decisions] := rfl
    have hdatabase := (readsBack_databaseSettings settings.database).ofJson?
    have hlog := (readsBack_logSettings settings.log).ofJson?
    have hpages := (readsBack_pageSettings settings.pages).ofJson?
    have hdecisions := (readsBack_decisionSettings settings.decisions).ofJson?
    generalize toJson settings = value at hfields ⊢
    have hread : (ofJson? value : Option Settings) = (value.fields?
      ["database", "observability", "pagination", "workflow"]).bind _ := rfl
    rw [hread, hfields, Option.bind_some]
    dsimp only
    rw [hdatabase, hlog, hpages, hdecisions]
    rfl

/-- A value of any of the types that are exchanged as JSON is given by its own text. What a text
gives is such a value, so its own text gives it again; of the numbers, only the versions of tenders
and bids need the bound that the type of their field has. -/
theorem values_survive_their_text :
    (RoundTrips TenderStatus (fun _ => True) ∧ RoundTrips BidStatus (fun _ => True) ∧
      RoundTrips ServiceType (fun _ => True) ∧ RoundTrips AuthorType (fun _ => True) ∧
      RoundTrips OrganizationType (fun _ => True) ∧ RoundTrips Decision (fun _ => True)) ∧
    RoundTrips TenderContent (fun _ => True) ∧ RoundTrips BidContent (fun _ => True) ∧
    RoundTrips Tender (fun tender => Json.FitsInt64 tender.version) ∧
    RoundTrips Bid (fun bid => Json.FitsInt64 bid.version) ∧
    RoundTrips Feedback (fun _ => True) ∧ RoundTrips Settings (fun _ => True) := by
  refine ⟨⟨?_, ?_, ?_, ?_, ?_, ?_⟩, ?_, ?_, ?_, ?_, ?_, ?_⟩
  · exact roundTrips_of_all readsBack_word
  · exact roundTrips_of_all readsBack_word
  · exact roundTrips_of_all readsBack_word
  · exact roundTrips_of_all readsBack_word
  · exact roundTrips_of_all readsBack_word
  · exact roundTrips_of_all readsBack_word
  · exact roundTrips_of_all readsBack_tenderContent
  · exact roundTrips_of_all readsBack_bidContent
  · exact roundTrips (fun _ _ => fitsInt64_of_ofJson?_tender) fun _ => readsBack_tender
  · exact roundTrips (fun _ _ => fitsInt64_of_ofJson?_bid) fun _ => readsBack_bid
  · exact roundTrips_of_all readsBack_feedback
  · exact roundTrips_of_all readsBack_settings

/-- A review given as an array, created in a leap second that UTC has in the year before. -/
example :
    (decode? Feedback
      " [\"f\", \"b\", \"\\u0061\\n\", \"u\", \"v\", \"0000-01-01T00:59:60.50+01:00\"] ").map
        (fun feedback => (feedback.content, feedback.createdAt.text)) =
      some ("a\n", "-0001-12-31T23:59:60.500Z") := by
  decide +kernel

end JsonForm

end Procurement
