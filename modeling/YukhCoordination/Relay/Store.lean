import Mathlib.Algebra.Ring.Nat

/-!
# The persistence boundary of the relay

The types of `internal/relay/store.go` and the adapter-independent checks on them. Byte strings are
lists of bytes; the empty list is the `nil` slice and, in a stored record, the `NULL` signature. The
lifecycle of a channel is closed: `ValidateChannel` refuses every other text.
-/

namespace YukhCoordination.Relay

/-- A byte string. -/
abbrev Bytes := List UInt8

/-- The closed errors of the relay port; `other` is any error that wraps none of them. -/
inductive Error where
  | channelNotFound
  | channelConflict
  | eventIDCollision
  | invalidArgument
  | commitIndeterminate
  | receiptNotFound
  | signatureCollision
  | eventNotFound
  | signaturePending
  | resourceLimit
  | transitionConflict
  | other
  deriving DecidableEq, Repr

/-- The lifecycle of a transcript. -/
inductive Lifecycle where
  | active
  | redacted
  | deleted
  deriving DecidableEq, Repr

/-- `ChannelKey`: one immutable transcript epoch. -/
structure ChannelKey where
  tenantID : String
  channelID : String
  transcriptEpoch : String
  deriving DecidableEq, Repr

/-- `Channel`: the immutable relay metadata of one transcript epoch. -/
structure Channel where
  key : ChannelKey
  uri : String
  canonicalMetadata : Bytes
  metadataDigest : String
  lifecycle : Lifecycle
  deriving DecidableEq, Repr

/-- `AppendIntent`: the stable client material used for idempotency. -/
structure AppendIntent where
  channel : ChannelKey
  eventID : String
  canonicalEvent : Bytes
  deriving DecidableEq, Repr

/-- `AcceptedRecord`: the material committed atomically by an append. -/
structure AcceptedRecord where
  channel : ChannelKey
  sequence : Nat
  eventID : String
  canonicalEvent : Bytes
  eventDigest : String
  authenticatedBinding : Bytes
  authorizationBinding : Bytes
  receiptID : String
  signingKeyID : String
  signatureAlgorithm : String
  unsignedReceiptPreimage : Bytes
  signature : Bytes
  deriving DecidableEq, Repr

/-- `SignatureAttachment`: a signature for the exact persisted receipt preimage. -/
structure SignatureAttachment where
  channel : ChannelKey
  receiptID : String
  unsignedReceiptPreimage : Bytes
  signature : Bytes
  deriving DecidableEq, Repr

/-- `PrepareRecord`: finishes a record for an allocated sequence and an event digest. -/
abbrev PrepareRecord := Nat → String → Except Error AcceptedRecord

/-- `AdmissionView`: what an admission check can read of the candidate transcript. -/
structure AdmissionView where
  lookup : String → Except Error AcceptedRecord
  read : Nat → Nat → Except Error (List AcceptedRecord)

/-- `Admit`. -/
abbrev Admit := AdmissionView → Except Error Unit

/-- `AppendOutcome`. -/
inductive AppendOutcome where
  | appended
  | duplicate
  deriving DecidableEq, Repr

/-- `AppendResult`. -/
structure AppendResult where
  outcome : AppendOutcome
  record : AcceptedRecord
  deriving DecidableEq, Repr

/-- `Store`: the append and replay persistence port, for callers that compute in `M`. The limit of a
read is a count. -/
structure Store (M : Type → Type) where
  createChannel : Channel → M (Except Error Unit)
  lookupChannel : ChannelKey → M (Except Error Channel)
  lookup : ChannelKey → String → M (Except Error AcceptedRecord)
  appendChecked : AppendIntent → Admit → PrepareRecord → M (Except Error AppendResult)
  attachSignature : SignatureAttachment → M (Except Error AcceptedRecord)
  read : ChannelKey → Nat → Nat → M (Except Error (List AcceptedRecord))

/-- No part of the key is empty, as every check of the port asks. -/
def ChannelKey.complete (key : ChannelKey) : Bool :=
  key.tenantID != "" && key.channelID != "" && key.transcriptEpoch != ""

/-- `ValidateChannel`. -/
def validateChannel (channel : Channel) : Bool :=
  channel.key.complete && channel.uri != "" && channel.canonicalMetadata != [] &&
    channel.metadataDigest != "" && channel.lifecycle == .active

/-- `SameChannel`. -/
def sameChannel (left right : Channel) : Bool :=
  left == right

/-- `ValidateIntent`. -/
def validateIntent (intent : AppendIntent) : Bool :=
  intent.channel.complete && intent.eventID != "" && intent.canonicalEvent != []

/-- `ValidatePreparedRecord`: preparation can neither change the intent nor omit material. -/
def validatePreparedRecord (intent : AppendIntent) (sequence : Nat) (digest : String)
    (record : AcceptedRecord) : Bool :=
  record.channel == intent.channel && record.sequence == sequence &&
    record.eventID == intent.eventID && record.canonicalEvent == intent.canonicalEvent &&
    record.eventDigest == digest && record.receiptID != "" && record.signingKeyID != "" &&
    record.signatureAlgorithm != "" && record.authenticatedBinding != [] &&
    record.authorizationBinding != [] && record.unsignedReceiptPreimage != []

/-- `ValidateSignatureAttachment`. -/
def validateSignatureAttachment (attachment : SignatureAttachment) : Bool :=
  attachment.channel.complete && attachment.receiptID != "" &&
    attachment.unsignedReceiptPreimage != [] && attachment.signature != []

namespace AcceptedRecord

/-- The record as the insert of an append stores it: without a signature. -/
def unsigned (record : AcceptedRecord) : AcceptedRecord := { record with signature := [] }

@[simp] theorem unsigned_signature (r : AcceptedRecord) : r.unsigned.signature = [] := rfl

@[simp] theorem unsigned_channel (r : AcceptedRecord) : r.unsigned.channel = r.channel := rfl

@[simp] theorem unsigned_sequence (r : AcceptedRecord) : r.unsigned.sequence = r.sequence := rfl

@[simp] theorem unsigned_eventID (r : AcceptedRecord) : r.unsigned.eventID = r.eventID := rfl

@[simp] theorem unsigned_receiptID (r : AcceptedRecord) : r.unsigned.receiptID = r.receiptID := rfl

@[simp] theorem unsigned_unsigned (r : AcceptedRecord) : r.unsigned.unsigned = r.unsigned := rfl

end AcceptedRecord

/-- A prepared record carries the channel, sequence and event id of the append. -/
theorem validatePreparedRecord_spec {intent : AppendIntent} {sequence : Nat} {digest : String}
    {record : AcceptedRecord} (h : validatePreparedRecord intent sequence digest record) :
    record.channel = intent.channel ∧ record.sequence = sequence ∧
      record.eventID = intent.eventID ∧ record.canonicalEvent = intent.canonicalEvent ∧
      record.eventDigest = digest := by
  simp only [validatePreparedRecord, Bool.and_eq_true, beq_iff_eq] at h
  obtain ⟨⟨⟨⟨⟨⟨⟨⟨⟨⟨h1, h2⟩, h3⟩, h4⟩, h5⟩, -⟩, -⟩, -⟩, -⟩, -⟩, -⟩ := h
  exact ⟨h1, h2, h3, h4, h5⟩

end YukhCoordination.Relay
