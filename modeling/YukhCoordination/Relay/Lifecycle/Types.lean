import YukhCoordination.Relay.Store

/-!
# The transcript lifecycle contract

The types of `internal/relay/lifecycle/types.go` and `backup.go`. Every enumeration is closed: the
validators refuse each text that is not one of its values, so a document with such a text is not a
value of these types.

`Codec` collects what encoding/json, JCS and SHA-256 compute. The documents that the code itself
encodes are identified with their typed values, whose canonical size `Codec` gives; the marker and
the receipt preimage reach the store as bytes of the caller and are decoded.
-/

namespace YukhCoordination.Relay.Lifecycle

/-- The closed errors of the lifecycle port; `other` is the error of a cancelled context. -/
inductive Error where
  | invalidContract
  | conflict
  | unavailable
  | other
  deriving DecidableEq, Repr

/-- `MaxSafeInteger`. -/
def maxSafeInteger : Nat := 9007199254740991

/-- `SagaState`. -/
inductive SagaState where
  | reserved
  | exportSatisfied
  | markerPersisted
  | receiptSigned
  | payloadRemoved
  | backupsPending
  | completed
  deriving DecidableEq, Repr

/-- `Action`. -/
inductive Action where
  | redactTranscript
  | deleteTranscript
  deriving DecidableEq, Repr

/-- `Reason`. -/
inductive Reason where
  | retentionExpired
  | authorizedRequest
  deriving DecidableEq, Repr

/-- `ExportMode`. -/
inductive ExportMode where
  | forbidden
  | permitted
  | required
  deriving DecidableEq, Repr

/-- `TargetKind`. -/
inductive TargetKind where
  | sequences
  | transcript
  deriving DecidableEq, Repr

/-- `BackupDomain`: one of the three constants, or another string. -/
inductive BackupDomain where
  | event
  | identity
  | audit
  | unknown (text : String) (h : text ∉ ["event", "identity", "security_audit"])
  deriving DecidableEq, Repr

/-- `BackupBindingKind`. -/
inductive BackupBindingKind where
  | generation
  | absenceManifest
  deriving DecidableEq, Repr

/-- `BackupMethod`. -/
inductive BackupMethod where
  | generationRetired
  | absenceProved
  deriving DecidableEq, Repr

/-- `BackupOutcome`. -/
inductive BackupOutcome where
  | succeeded
  | failed
  deriving DecidableEq, Repr

/-- `TranscriptKey`. -/
structure TranscriptKey where
  tenantID : String
  channelID : String
  transcriptEpoch : Nat
  deriving DecidableEq, Repr

/-- The key of the transcript's rows: `strconv.FormatUint` writes the epoch. -/
def TranscriptKey.channelKey (transcript : TranscriptKey) : ChannelKey :=
  ⟨transcript.tenantID, transcript.channelID, toString transcript.transcriptEpoch⟩

/-- `Policy`. -/
structure Policy where
  profile : String
  policyID : String
  policyEpoch : Nat
  policyDigest : String
  activeRetentionMillis : Nat
  eventBackupDeletionMillis : Nat
  identityBackupDeletionMillis : Nat
  securityAuditDeletionMillis : Nat
  exportMode : ExportMode
  redactionAuthorityRoleID : String
  deletionAuthorityRoleID : String
  integrityProfile : String
  issuedAt : String
  activatedAt : String
  accountablePolicyApprover : String
  deriving DecidableEq, Repr

/-- `Target`. -/
structure Target where
  kind : TargetKind
  sequences : List Nat
  deriving DecidableEq, Repr

/-- `BackupDeadline`. -/
structure BackupDeadline where
  domain : BackupDomain
  deadline : String
  deriving DecidableEq, Repr

/-- `Intent`. -/
structure Intent where
  profile : String
  operationID : String
  transcript : TranscriptKey
  action : Action
  reason : Reason
  policyID : String
  policyEpoch : Nat
  policyDigest : String
  target : Target
  highWaterReceiptReference : String
  requestedAt : String
  requesterRoleID : String
  authorizingAuditReceipt : String
  exportMode : ExportMode
  expectedBackupDeletionWindows : List BackupDeadline
  deriving DecidableEq, Repr

/-- `Marker`. -/
structure Marker where
  profile : String
  operationID : String
  intentDigest : String
  transcript : TranscriptKey
  previousLifecycle : Relay.Lifecycle
  resultingLifecycle : Relay.Lifecycle
  target : Target
  policyDigest : String
  highWaterReceiptReference : String
  markerTime : String
  authorizingAuditReceipt : String
  deriving DecidableEq, Repr

/-- `ReceiptPreimage`. -/
structure ReceiptPreimage where
  profile : String
  receiptID : String
  markerDigest : String
  operationID : String
  intentDigest : String
  transcript : TranscriptKey
  resultingLifecycle : Relay.Lifecycle
  policyDigest : String
  issuedAt : String
  signingKeyID : String
  signatureAlgorithm : String
  deriving DecidableEq, Repr

/-- `Operation`. -/
structure Operation where
  intent : Intent
  intentDigest : String
  state : SagaState
  marker : Bytes
  receipt : Bytes
  signature : Bytes
  deriving DecidableEq, Repr

/-- `OperationReference`. -/
structure OperationReference where
  operationID : String
  intentDigest : String
  deriving DecidableEq, Repr

/-- `ExportEvidence`. -/
structure ExportEvidence where
  operationID : String
  intentDigest : String
  manifestDigest : String
  custodyReceiptDigest : String
  deriving DecidableEq, Repr

/-- `MarkerPersistence`. -/
structure MarkerPersistence where
  operationID : String
  intentDigest : String
  canonicalMarker : Bytes
  canonicalPreimage : Bytes
  deriving DecidableEq, Repr

/-- `SignatureAttachment`. -/
structure SignatureAttachment where
  operationID : String
  intentDigest : String
  receiptPreimage : Bytes
  signature : Bytes
  deriving DecidableEq, Repr

/-- `BackupObligation`. -/
structure BackupObligation where
  profile : String
  operationID : String
  intentDigest : String
  policyDigest : String
  domain : BackupDomain
  deadline : String
  bindingKind : BackupBindingKind
  bindingDigest : String
  deriving DecidableEq, Repr

/-- `BackupObligationSet`. -/
structure BackupObligationSet where
  profile : String
  operationID : String
  intentDigest : String
  policyDigest : String
  obligations : List BackupObligation
  deriving DecidableEq, Repr

/-- `CustodianReceipt`. -/
structure CustodianReceipt where
  profile : String
  receiptID : String
  obligationDigest : String
  operationID : String
  intentDigest : String
  policyDigest : String
  domain : BackupDomain
  backupIdentityDigest : String
  evidenceTime : String
  method : BackupMethod
  outcome : BackupOutcome
  custodianReference : String
  verificationKeyID : String
  signatureAlgorithm : String
  detachedSignature : String
  deriving DecidableEq, Repr

/-- `ReceiptEvidence`. -/
structure ReceiptEvidence where
  domain : BackupDomain
  receiptID : String
  receiptDigest : String
  deriving DecidableEq, Repr

/-- `CompletionEvidence`. -/
structure CompletionEvidence where
  profile : String
  operationID : String
  intentDigest : String
  policyDigest : String
  receipts : List ReceiptEvidence
  securityAuditReceipt : String
  securityAuditCheckpoint : String
  completedAt : String
  deriving DecidableEq, Repr

/-- What the store reads of a channel's canonical metadata. -/
structure ChannelMetadata where
  tenantID : String
  channelID : String
  retentionPolicyDigest : String
  retentionEpoch : Nat
  createdAt : String
  deriving DecidableEq, Repr

/-- The identifiers that are tombstoned. -/
inductive IdentifierKind where
  | event
  | receipt
  deriving DecidableEq, Repr

/-- `removalRecord`. -/
structure RemovalRecord where
  sequence : Nat
  eventID : String
  eventDigest : String
  receiptID : String
  deriving DecidableEq, Repr

/-- The JSON codec and the digests of the lifecycle documents: the digest of a canonical document,
the size of its canonical form, the bytes a signature is over, and the decoders of what callers
submit as bytes. -/
structure Codec where
  eventDigest : Bytes → String
  identifierDigest : IdentifierKind → String → String
  removalDigest : List RemovalRecord → String
  policyDigest : Policy → String
  intentDigest : Intent → String
  intentSize : Intent → Nat
  markerDigest : Marker → String
  decodeMarker : Bytes → Option Marker
  decodePreimage : Bytes → Option ReceiptPreimage
  receiptSigning : ReceiptPreimage → Bytes
  obligationDigest : BackupObligation → String
  obligationSize : BackupObligation → Nat
  obligationSetDigest : BackupObligationSet → String
  obligationSetSize : BackupObligationSet → Nat
  custodianReceiptDigest : CustodianReceipt → String
  custodianReceiptSize : CustodianReceipt → Nat
  custodianReceiptSigning : CustodianReceipt → Bytes
  completionDigest : CompletionEvidence → String
  completionSize : CompletionEvidence → Nat
  channelMetadata : Bytes → Option ChannelMetadata

/-- `ValidateCanonical` of a canonical document of the given size. -/
def canonicalSize (size : Nat) : Bool := 0 < size && size ≤ 16384

end YukhCoordination.Relay.Lifecycle
