import YukhCoordination.Relay.Service.Application

/-!
# Transcript documents

The input of the conformance engine of `conformance/python`, and what it makes of it. The engine
does not check the envelope schema: the event of a record is any event document. A JSON value comes
with its canonical bytes (`Encoded`), by which the engine compares values and from which it computes
digests; `Format` is how they are read.

A replay answers with one projection for a work item, and with the reasons for which the transcript
is not complete.
-/

namespace YukhCoordination.Conformance

open Relay Relay.Protocol Relay.Service

/-! ## Documents -/

/-- What the engine reads of canonical bytes and computes from them. `content` is the text of the
bytes, and `uuid5` the name-based identifier in the namespace of transcripts. -/
structure Format extends Codec where
  decodeReceipt : Bytes → Option ReceiptDocument
  eventDigest : Bytes → String
  content : Bytes → String
  uuid5 : String → String

/-- A JSON value with its canonical bytes. -/
structure Encoded {α : Type} (decode : Bytes → Option α) where
  bytes : Bytes
  value : α
  decodes : decode bytes = some value

/-- Values with the same canonical bytes are the same. -/
theorem Encoded.eq_of_bytes {α : Type} {decode : Bytes → Option α} {a b : Encoded decode}
    (h : a.bytes = b.bytes) : a = b := by
  obtain ⟨bytes, value, hv⟩ := a
  obtain ⟨bytes', value', hv'⟩ := b
  obtain rfl : bytes = bytes' := h
  obtain rfl : value = value' := Option.some.inj (hv.symm.trans hv')
  rfl

/-- A record of a transcript. -/
structure Record (format : Format) where
  event : Encoded format.decodeEvent
  receipt : Encoded format.decodeReceipt
  receiptVerified : Bool

/-- Records with the same event, receipt and verification are the same. -/
theorem Record.ext {format : Format} {a b : Record format} (he : a.event.bytes = b.event.bytes)
    (hr : a.receipt.bytes = b.receipt.bytes) (hv : a.receiptVerified = b.receiptVerified) :
    a = b := by
  obtain ⟨event, receipt, verified⟩ := a
  obtain ⟨event', receipt', verified'⟩ := b
  obtain rfl : event = event' := Encoded.eq_of_bytes he
  obtain rfl : receipt = receipt' := Encoded.eq_of_bytes hr
  obtain rfl : verified = verified' := hv
  rfl

/-- The id of the event of a record. -/
def Record.id {format : Format} (record : Record format) : String := record.event.value.id

/-- The sequence of a record. -/
def Record.sequence {format : Format} (record : Record format) : Nat :=
  record.receipt.value.sequence

/-- `completeness`. -/
inductive Completeness where
  | complete
  | incomplete
  deriving DecidableEq, Repr

/-- A transcript document. -/
structure Document (format : Format) where
  tenantID : String
  channelID : String
  channelURI : String
  transcriptEpoch : Nat
  declaredCompleteness : Completeness
  lifecycle : Lifecycle
  originSequence : Nat
  highWaterSequence : Nat
  highWaterReceiptVerified : Bool
  records : List (Record format)

/-- `transcript_id`. -/
def Document.transcriptID {format : Format} (doc : Document format) : String :=
  format.uuid5 (doc.tenantID ++ "\x00" ++ doc.channelURI ++ "\x00" ++ toString doc.transcriptEpoch)

/-- The integers of a receipt are in the interoperable range. -/
def interoperable (receipt : ReceiptDocument) : Bool :=
  receipt.sessionEpoch ≤ Lifecycle.maxSafeInteger &&
    receipt.transcriptEpoch ≤ Lifecycle.maxSafeInteger &&
    receipt.sequence ≤ Lifecycle.maxSafeInteger

/-- `CHILD_TYPES`: the types of work events that do not start a correlation. -/
def isChild (type : EventType) : Bool := !type.isMembership && !type.isRoot

/-- A member of a payload, if it is a text. -/
def text? (data : Object) (key : String) : Option String :=
  match data.get? key with
  | some (.text value) => some value
  | _ => none

/-! ## Answers -/

/-- The codes of a `TranscriptError`; `crash` is an exception that is not one. -/
inductive ErrorCode where
  | invalidTranscript
  | invalidNumber
  | invalidReceipt
  | idCollision
  | invalidEnvelope
  | resourceLimit
  | unsupportedVersion
  | crossChannelReference
  | eventDigestMismatch
  | unresolvedCausation
  | invalidReference
  | invalidClaimTransition
  | invalidPayload
  | handoffPreconditionFailed
  | crash
  deriving DecidableEq, Repr

/-- The reasons for which a transcript is not complete: those that hold. -/
structure Reasons where
  unverifiedReceipt : Bool
  unverifiedHighWater : Bool
  sequenceGap : Bool
  recordAfterHighWater : Bool
  nonActiveLifecycle : Bool
  deriving DecidableEq, Repr

/-- There is a reason. -/
def Reasons.any (r : Reasons) : Bool :=
  r.unverifiedReceipt || r.unverifiedHighWater || r.sequenceGap || r.recordAfterHighWater ||
    r.nonActiveLifecycle

/-- The state of a work item. -/
inductive WorkState where
  | unclaimed
  | claimed
  | handoffOffered
  | conflicting
  | released
  deriving DecidableEq, Repr

/-- The codes of diagnostics. -/
inductive DiagnosticCode where
  | claimConflict
  | handoffAcceptedUnclaimed
  | incompleteTranscript
  | nonActiveTranscript
  deriving DecidableEq, Repr

/-- The text of a code. -/
def DiagnosticCode.text : DiagnosticCode → String
  | .claimConflict => "CLAIM_CONFLICT"
  | .handoffAcceptedUnclaimed => "HANDOFF_ACCEPTED_UNCLAIMED"
  | .incompleteTranscript => "INCOMPLETE_TRANSCRIPT"
  | .nonActiveTranscript => "NON_ACTIVE_TRANSCRIPT"

/-- The severity of a diagnostic. -/
inductive Severity where
  | warning
  | error
  deriving DecidableEq, Repr

/-- A diagnostic. -/
structure Diagnostic where
  sequence : Nat
  code : DiagnosticCode
  severity : Severity
  primaryID : String
  contenderIDs : Option (List String) := none
  contenderEventIDs : Option (List String) := none
  eventID : Option String := none
  claimID : Option String := none
  deriving DecidableEq, Repr

/-- A projection. -/
structure Projection where
  specversion : String
  channelID : String
  workURI : String
  state : WorkState
  contenders : List String
  handoffOfferIDs : List String
  diagnostics : List Diagnostic
  diagnosticsHighWaterSequence : Nat
  asOfSequence : Nat
  completeness : Completeness
  lifecycle : Lifecycle
  final : Bool
  deriving DecidableEq, Repr

end YukhCoordination.Conformance
