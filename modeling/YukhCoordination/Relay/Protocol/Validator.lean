import Mathlib.Data.List.Nodup
import YukhCoordination.Relay.Lifecycle.Text
import YukhCoordination.Relay.Protocol.Event

/-!
# Validating events

The schemas that `internal/relay/protocol/validator.go` compiles, as predicates on decoded events.
A `format` is not looked at, nor members that nothing here reads.
-/

namespace YukhCoordination.Relay.Protocol

open Lifecycle

/-! ## Values -/

/-- `uuidv7` of the envelope schema. -/
def uuidv7 (value : String) : Bool := validUUIDv7 value &&
    (value.toList.drop 19).head?.any fun c => c == '8' || c == '9' || c == 'a' || c == 'b'

/-- `^(0|[1-9][0-9]{0,15})$`. -/
def decimal (value : String) : Bool :=
  match value.toList with
  | [] => false
  | c :: cs => (c == '0' && cs == []) || (c != '0' && isDigit c && cs.length ≤ 15 && cs.all isDigit)

/-- A text with at least `least` and at most `most` characters. -/
def textOf (least most : Nat) (value : String) : Bool := least ≤ value.length && value.length ≤ most

/-- The schema of a member of a payload. -/
inductive Kind where
  | text (holds : String → Bool)
  | texts (least : Nat) (unique : Bool) (holds : String → Bool)
  | flag

/-- A value has the kind. Arrays have at most 32 items. -/
def Kind.accepts : Kind → Value → Bool
  | .text holds, .text value => holds value
  | .texts least unique holds, .texts values =>
    least ≤ values.length && values.length ≤ 32 && (!unique || decide values.Nodup) &&
      values.all holds
  | .flag, .flag _ => true
  | _, _ => false

/-- `enum`. -/
def Kind.enum (values : List String) : Kind := .text values.contains

/-- `textArray` of the envelope schema. -/
def Kind.textArray : Kind := .texts 0 false (textOf 0 4096)

/-- `timestamp` of the envelope schema. -/
def timestamp (value : String) : Bool := Option.isSome (do
    let (_, cs) ← takeDigits 4 value.toList
    let cs ← skip '-' cs
    let (month, cs) ← takeDigits 2 cs
    let cs ← skip '-' cs
    let (day, cs) ← takeDigits 2 cs
    let cs ← skip 'T' cs
    let (hour, cs) ← takeDigits 2 cs
    let cs ← skip ':' cs
    let (minute, cs) ← takeDigits 2 cs
    let cs ← skip ':' cs
    let (sec, cs) ← takeDigits 2 cs
    let cs ← skip '.' cs
    let (_, cs) ← takeDigits 3 cs
    let cs ← skip 'Z' cs
    guard (1 ≤ month && month ≤ 12 && day ≤ 31 && hour ≤ 23 && minute ≤ 59 && sec ≤ 59 &&
      cs == []) : Option Unit)

/-! ## Payloads -/

/-- A member of a payload schema. -/
structure Member where
  name : String
  kind : Kind
  required : Bool := true

/-- The member that names a claim generation. -/
def generationMember : Member := ⟨"generation", .text decimal, true⟩

/-- A required member that holds an identifier. -/
def identifier (name : String) : Member := ⟨name, .text uuidv7, true⟩

/-- A required member that holds a digest. -/
def digestMember (name : String) : Member := ⟨name, .text validDigest, true⟩

/-- The payload schemas. -/
def payloadMembers : EventType → List Member
  | .join =>
    [⟨"protocol_versions", .texts 1 true (· == "0.1"), true⟩,
      ⟨"capabilities", .texts 0 true ["publish", "replay", "verify_evidence"].contains, true⟩,
      ⟨"status", .enum ["available", "busy", "away", "unavailable"], true⟩,
      ⟨"session_label", .text (textOf 1 256), false⟩]
  | .presence =>
    [⟨"status", .enum ["available", "busy", "away", "unavailable"], true⟩,
      ⟨"status_detail", .text (textOf 0 4096), false⟩,
      ⟨"observed_at", .text timestamp, true⟩, ⟨"valid_until", .text timestamp, true⟩]
  | .leave => [⟨"reason", .text (textOf 0 4096), false⟩]
  | .claim =>
    [identifier "claim_id", generationMember,
      ⟨"scope", .enum ["design", "implementation", "review", "operation"], true⟩,
      ⟨"boundary", .text (textOf 1 4096), true⟩,
      ⟨"governance_ref", .text (textOf 0 2048), false⟩,
      ⟨"expected_active_claims", .texts 0 true uuidv7, true⟩,
      ⟨"predecessor_handoff_event", .text uuidv7, false⟩]
  | .progress =>
    [identifier "claim_id", generationMember, identifier "parent_claim_event_id",
      ⟨"status", .enum ["started", "in_progress", "blocked", "ready_for_review"], true⟩,
      ⟨"summary", .text (textOf 1 4096), true⟩, ⟨"completed", .textArray, true⟩,
      ⟨"remaining", .textArray, true⟩, ⟨"blocked_by", .textArray, true⟩]
  | .question =>
    [⟨"body", .text (textOf 1 4096), true⟩, ⟨"requested_from", .texts 0 true (textOf 1 256), true⟩,
      ⟨"response_required", .flag, true⟩]
  | .answer =>
    [identifier "question_event_id", ⟨"body", .text (textOf 1 4096), true⟩,
      ⟨"disposition", .enum ["answered", "partial", "declined", "unknown"], true⟩]
  | .reviewRequest =>
    [⟨"claim_id", .text uuidv7, false⟩, ⟨"subject", .text (textOf 1 4096), true⟩,
      ⟨"criteria", .texts 1 false (textOf 1 4096), true⟩, digestMember "evidence_set_digest",
      ⟨"independence_required", .flag, true⟩]
  | .verdict =>
    [identifier "review_event_id", digestMember "evidence_set_digest",
      ⟨"outcome", .enum ["pass", "fail", "inconclusive"], true⟩,
      ⟨"summary", .text (textOf 1 4096), true⟩, ⟨"findings", .textArray, true⟩,
      ⟨"reviewer_independent", .flag, true⟩]
  | .handoffOffer =>
    [identifier "handoff_id", identifier "claim_id", generationMember,
      identifier "parent_claim_event_id", identifier "to_participant_instance_id",
      ⟨"boundary", .text (textOf 1 4096), true⟩, digestMember "boundary_digest",
      digestMember "evidence_set_digest", ⟨"state", .text (textOf 0 4096), false⟩,
      ⟨"next_action", .text (textOf 1 4096), true⟩, ⟨"unresolved_risks", .textArray, true⟩]
  | .handoffAccept =>
    [identifier "handoff_id", identifier "offer_event_id", identifier "source_claim_event_id",
      identifier "claim_id", generationMember, digestMember "boundary_digest",
      digestMember "evidence_set_digest"]
  | .release =>
    [identifier "claim_id", generationMember, identifier "parent_claim_event_id",
      ⟨"outcome", .enum ["completed", "withdrawn", "superseded", "unable_to_continue"], true⟩,
      ⟨"reason", .text (textOf 0 4096), false⟩]
  | .evidenceVerification =>
    [identifier "referenced_event_id", digestMember "descriptor_digest",
      ⟨"uri", .text (textOf 0 2048), true⟩, ⟨"algorithm", .enum ["sha-256"], true⟩,
      digestMember "expected_digest", ⟨"observed_digest", .text validDigest, false⟩,
      ⟨"outcome",
        .enum ["verified", "mismatch", "unavailable", "unauthorized", "inconclusive"], true⟩,
      ⟨"method", .text (textOf 1 4096), true⟩, ⟨"verified_at", .text timestamp, true⟩,
      ⟨"verifier_policy_version", .text (textOf 1 256), true⟩,
      ⟨"verifier", .text (textOf 0 256), false⟩, ⟨"reason", .text (textOf 1 4096), false⟩]

/-- The conditional part of the payload schema of a verification: an outcome that looked at the
evidence has the digest it observed, and every other outcome has a reason. -/
def outcomeMembers (data : Object) : Bool :=
  if ["verified", "mismatch"].contains (text data "outcome") then
    (data.get? "observed_digest").isSome && (data.get? "reason").isNone
  else (data.get? "reason").isSome && (data.get? "observed_digest").isNone

/-- The payload schema of a type accepts a payload. -/
def validPayload (type : EventType) (data : Object) : Bool :=
  decide (data.map (·.1)).Nodup &&
  (data.all fun entry =>
    (payloadMembers type).any fun m => m.name == entry.1 && m.kind.accepts entry.2) &&
  ((payloadMembers type).all fun m => !m.required || (data.get? m.name).isSome) &&
  (type != .evidenceVerification || outcomeMembers data)

/-! ## The envelope -/

/-- The types whose events the envelope schema binds to no work. -/
def EventType.isMembership : EventType → Bool
  | .join | .presence | .leave => true
  | _ => false

/-- The conditional part of the envelope schema: which of `work`, `correlation_id` and
`causation_id` an event has. -/
def validReferences (event : Event) : Bool :=
  if event.type.isMembership then
    event.work.isNone && event.correlationID.isNone && event.causationID.isNone
  else
    event.work.isSome && event.correlationID.isSome && (event.causationID.isSome ==
        if event.type = .claim then (event.data.get? "predecessor_handoff_event").isSome
        else !event.type.isRoot)

/-- `evidence-0.1.schema.json`. -/
def validDescriptor (d : Descriptor) : Bool :=
  textOf 0 2048 d.uri && textOf 1 128 d.mediaType && d.digestAlgorithm == "sha-256" &&
    d.digestValue.length == 64 && d.digestValue.toList.all isHex && d.revision.all (textOf 1 256) &&
    decimal d.declaredSize && d.description.all (textOf 0 4096)

/-- `envelope-0.1.schema.json`. -/
def validEnvelope (event : Event) : Bool :=
  event.specversion == "0.1" && uuidv7 event.id && textOf 0 2048 event.channel &&
    textOf 1 256 event.participantID && event.work.all (textOf 0 2048) &&
    event.correlationID.all uuidv7 && event.causationID.all uuidv7 &&
    validReferences event && validPayload event.type event.data &&
    event.evidence.length ≤ 32 && event.evidence.all validDescriptor

/-! ## What a valid event has -/

/-- A member of a payload is a text. -/
def HasText (data : Object) (key : String) : Prop := data.get? key = some (.text (text data key))

theorem hasText_of_get? {data : Object} {key value : String}
    (h : data.get? key = some (.text value)) : HasText data key := by
  rw [HasText, text, h]

/-- The members of a payload schema have distinct names. -/
theorem payloadMembers_nodup (type : EventType) : ((payloadMembers type).map (·.name)).Nodup := by
  cases type <;> decide

section
variable {type : EventType} {data : Object}

/-- A member that the schema lists has the kind that it gives. -/
theorem validPayload_accepts (h : validPayload type data) {m : Member}
    (hm : m ∈ payloadMembers type) {value : Value} (hv : data.get? m.name = some value) :
    m.kind.accepts value := by
  simp only [validPayload, Bool.and_eq_true, List.all_eq_true, List.any_eq_true, beq_iff_eq] at h
  obtain ⟨⟨⟨-, hall⟩, -⟩, -⟩ := h
  obtain ⟨entry, hentry, rfl⟩ := Option.map_eq_some_iff.1 hv
  have hname : entry.1 = m.name := by simpa using List.find?_some hentry
  obtain ⟨m', hm', heq, haccepts⟩ := hall entry (List.mem_of_find?_eq_some hentry)
  have := List.inj_on_of_nodup_map (payloadMembers_nodup type) hm hm' (hname ▸ heq.symm)
  exact this ▸ haccepts

/-- A member that the schema requires is there. -/
theorem validPayload_isSome (h : validPayload type data) {m : Member} (hm : m ∈ payloadMembers type)
    (hreq : m.required) : ∃ value, data.get? m.name = some value := by
  simp only [validPayload, Bool.and_eq_true, List.all_eq_true, Bool.or_eq_true,
    Bool.not_eq_true'] at h
  obtain ⟨⟨-, hall⟩, -⟩ := h
  rcases hall m hm with hr | hr
  · rw [hreq] at hr
    cases hr
  · exact Option.isSome_iff_exists.1 hr

/-- A member that the schema makes a text is one, if it is there. -/
theorem validPayload_text_of_some (h : validPayload type data) {name : String}
    {holds : String → Bool} {req : Bool} (hm : ⟨name, .text holds, req⟩ ∈ payloadMembers type)
    {value : Value} (hv : data.get? name = some value) :
    HasText data name ∧ holds (text data name) := by
  have ha := validPayload_accepts h hm hv
  cases value with
  | text value =>
    refine ⟨hasText_of_get? hv, ?_⟩
    rw [text, hv]
    exact ha
  | texts values | flag value => cases ha

/-- A member that the schema requires to be a text is one. -/
theorem validPayload_hasText (h : validPayload type data) {name : String}
    {holds : String → Bool} (hm : ⟨name, .text holds, true⟩ ∈ payloadMembers type) :
    HasText data name ∧ holds (text data name) := by
  obtain ⟨value, hv⟩ := validPayload_isSome h hm rfl
  exact validPayload_text_of_some h hm hv

end

/-- What the envelope schema says of an event, apart from the sizes of texts. -/
structure Conforms (event : Event) : Prop where
  specversion : event.specversion = "0.1"
  id : uuidv7 event.id
  references : validReferences event
  payload : validPayload event.type event.data

theorem validEnvelope_conforms {event : Event} (h : validEnvelope event) : Conforms event := by
  simp only [validEnvelope, Bool.and_eq_true, beq_iff_eq] at h
  obtain ⟨⟨⟨⟨⟨⟨⟨⟨⟨⟨hspec, hid⟩, -⟩, -⟩, -⟩, -⟩, -⟩, href⟩, hpay⟩, -⟩, -⟩ := h
  exact ⟨hspec, hid, href, hpay⟩

/-! ## Identifiers -/

theorem uuidv7_length {value : String} (h : uuidv7 value) : value.toList.length = 36 := by
  simp only [uuidv7, validUUIDv7, Bool.and_eq_true, beq_iff_eq] at h
  obtain ⟨⟨⟨⟨⟨⟨⟨⟨⟨⟨⟨hlen, -⟩, -⟩, -⟩, -⟩, -⟩, -⟩, -⟩, -⟩, -⟩, -⟩, -⟩ := h
  exact hlen

theorem uuidv7_ne_empty {value : String} (h : uuidv7 value) : value ≠ "" := by
  rintro rfl
  revert h
  decide

end YukhCoordination.Relay.Protocol
