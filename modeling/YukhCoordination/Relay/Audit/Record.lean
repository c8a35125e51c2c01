import YukhCoordination.Coordination.Store
import YukhCoordination.Lib.Base64
import YukhCoordination.Lib.Texts
import YukhCoordination.Lib.Transaction
import YukhCoordination.Relay.Audit.Merkle
import YukhCoordination.Relay.Lifecycle.Time

/-!
# Canonical audit records

The model of `internal/relay/audit/record.go`. JSON and its canonical form are a parameter, `Jcs`;
what canonicalization is specified to do is `Jcs.Lawful`.
-/

namespace YukhCoordination.Relay.Audit

open Lifecycle Coordination Transaction

/-! ## Records -/

/-- `AuditOperation`. -/
inductive AuditOperation where
  | bootstrap
  | authentication
  | revocation
  | jwksRefresh
  | restoreFence
  | checkpoint
  | keyLifecycle
  | stagingAuthentication
  | stagingAuthorization
  | stagingLifecycle
  deriving DecidableEq, Repr

/-- The text of an operation. -/
def AuditOperation.text : AuditOperation → String
  | .bootstrap => "bootstrap"
  | .authentication => "session_authentication"
  | .revocation => "revocation"
  | .jwksRefresh => "jwks_refresh"
  | .restoreFence => "restore_fence"
  | .checkpoint => "audit_checkpoint"
  | .keyLifecycle => "audit_key_lifecycle"
  | .stagingAuthentication => "staging_authentication"
  | .stagingAuthorization => "staging_authorization"
  | .stagingLifecycle => "staging_lifecycle"

/-- `AuditOutcome`. -/
inductive AuditOutcome where
  | allow
  | deny
  | unavailable
  deriving DecidableEq, Repr

/-- The text of an outcome. -/
def AuditOutcome.text : AuditOutcome → String
  | .allow => "allow"
  | .deny => "deny"
  | .unavailable => "unavailable"

/-- `AuditReason`. -/
inductive AuditReason where
  | allowed
  | invalidCredential
  | proofReplay
  | inactiveSession
  | verificationUnavailable
  | registryUnavailable
  | materialCollision
  | revoked
  | refreshed
  | restoreVerified
  | checkpointCommitted
  | keyLifecycleCommitted
  | operationUnavailable
  | accessDenied
  | dependencyUnavailable
  | credentialExpired
  | registrationLoaded
  | tlsReady
  | started
  | stopped
  | capabilityKeyLoaded
  | capabilityKeyZeroed
  | storageEpochValidated
  deriving DecidableEq, Repr

/-- The text of a reason. -/
def AuditReason.text : AuditReason → String
  | .allowed => "allowed"
  | .invalidCredential => "invalid_credential"
  | .proofReplay => "proof_replay"
  | .inactiveSession => "inactive_session"
  | .verificationUnavailable => "verification_unavailable"
  | .registryUnavailable => "registry_unavailable"
  | .materialCollision => "material_collision"
  | .revoked => "revoked"
  | .refreshed => "refreshed"
  | .restoreVerified => "restore_verified"
  | .checkpointCommitted => "checkpoint_committed"
  | .keyLifecycleCommitted => "key_lifecycle_committed"
  | .operationUnavailable => "operation_unavailable"
  | .accessDenied => "access_denied"
  | .dependencyUnavailable => "dependency_unavailable"
  | .credentialExpired => "credential_expired"
  | .registrationLoaded => "registration_loaded"
  | .tlsReady => "tls_ready"
  | .started => "started"
  | .stopped => "stopped"
  | .capabilityKeyLoaded => "capability_key_loaded"
  | .capabilityKeyZeroed => "capability_key_zeroed"
  | .storageEpochValidated => "storage_epoch_validated"

/-- All operations, outcomes and reasons, to look their texts up. -/
def AuditOperation.all : List AuditOperation :=
  [.bootstrap, .authentication, .revocation, .jwksRefresh, .restoreFence, .checkpoint,
    .keyLifecycle, .stagingAuthentication, .stagingAuthorization, .stagingLifecycle]

@[inherit_doc AuditOperation.all]
def AuditOutcome.all : List AuditOutcome := [.allow, .deny, .unavailable]

@[inherit_doc AuditOperation.all]
def AuditReason.all : List AuditReason :=
  [.allowed, .invalidCredential, .proofReplay, .inactiveSession, .verificationUnavailable,
    .registryUnavailable, .materialCollision, .revoked, .refreshed, .restoreVerified,
    .checkpointCommitted, .keyLifecycleCommitted, .operationUnavailable, .accessDenied,
    .dependencyUnavailable, .credentialExpired, .registrationLoaded, .tlsReady, .started,
    .stopped, .capabilityKeyLoaded, .capabilityKeyZeroed, .storageEpochValidated]

/-- The value with a text. -/
def ofText {α : Type} (text : α → String) (all : List α) (value : String) : Option α :=
  all.find? fun a => text a == value

theorem AuditOperation.ofText_text (operation : AuditOperation) :
    ofText AuditOperation.text AuditOperation.all operation.text = some operation := by
  cases operation <;> rfl

theorem AuditOutcome.ofText_text (outcome : AuditOutcome) :
    ofText AuditOutcome.text AuditOutcome.all outcome.text = some outcome := by
  cases outcome <;> rfl

theorem AuditReason.ofText_text (reason : AuditReason) :
    ofText AuditReason.text AuditReason.all reason.text = some reason := by
  cases reason <;> rfl

/-- `[sha256.Size]byte`. -/
abbrev Digest := { bytes : Bytes // bytes.length = 32 }

/-- The zero value of a digest. -/
def Digest.zero : Digest := ⟨List.replicate 32 0, List.length_replicate⟩

/-- `encodeDigest`. -/
def encodeDigest (digest : Digest) : String := String.ofList (Base64.encode digest.1)

/-- `base64.RawURLEncoding.Strict().DecodeString`: line ends are skipped. -/
def decodeString (value : String) : Option Bytes := Base64.decodeLines value.toList

/-- `decodeHash`: a text that decodes to 32 bytes. -/
def decodeDigest (value : String) : Option Digest :=
  match decodeString value with
  | some decoded => if h : decoded.length = 32 then some ⟨decoded, h⟩ else none
  | none => none

/-- `AuditRecord`. -/
structure AuditRecord where
  profileVersion : Int
  operationID : String
  operation : AuditOperation
  outcome : AuditOutcome
  reason : AuditReason
  decisionTime : Time
  tenantID : String
  principalID : String
  participantInstanceID : String
  sessionEpoch : Nat
  dpopThumbprint : Digest
  hasDPoPThumbprint : Bool
  authorityReference : String
  jwksSetDigest : Digest
  hasJWKSSetDigest : Bool
  checkpointReference : String
  signingKeyReference : String
  recoveryReference : String
  serviceProfile : String
  action : String
  identityReference : String
  deriving DecidableEq, Repr

/-- `canonicalRecord`: the members of the document. An empty text and the epoch zero are left
out. -/
structure CanonicalRecord where
  profile : String
  operationID : String
  operationKind : String
  outcome : String
  reason : String
  decisionTime : String
  tenantID : String
  principalID : String
  participantInstanceID : String
  sessionEpoch : Nat
  dpopThumbprintDigest : String
  authorityReference : String
  jwksSetDigest : String
  checkpointReference : String
  signingKeyReference : String
  recoveryReference : String
  serviceProfile : String
  action : String
  identityReference : String
  deriving DecidableEq, Repr

/-! ## Validity -/

/-- `Profile`. -/
def profile : String := "yukh-security-audit/v1"

/-- `MaxCanonicalBytes`. -/
def maxCanonicalBytes : Nat := 4096

/-- `canonicalV7`. -/
def canonicalV7 (value : String) : Bool := validUUIDv7 value

/-- `tenantPattern`. -/
def tenantPattern (value : String) : Bool := validIdentifier value

/-- `validReference`: `referencePattern`, a letter or a digit and then these or points,
underscores, colons, slashes and hyphens, for a text of at most 256 characters. -/
def validReference (value : String) : Bool :=
  matchesName (fun c => isUpper c || isLower c || isDigit c)
    (fun c => isUpper c || isLower c || isDigit c || c == '.' || c == '_' || c == ':' || c == '/' ||
      c == '-') 255 value

/-- `validDigestText`. -/
def validDigestText (value : String) : Bool :=
  value.toList.length == 43 && (decodeDigest value).isSome

/-- A fixed start and the text of a digest. -/
def validDigestReference (start : String) (value : String) : Bool :=
  value.toList.take start.toList.length == start.toList &&
    validDigestText (String.ofList (value.toList.drop start.toList.length))

/-- `validCheckpointReference`. -/
def validCheckpointReference (value : String) : Bool :=
  validDigestReference "audit-checkpoint:" value

/-- `validRecoveryReference`. -/
def validRecoveryReference (value : String) : Bool :=
  value.toList.length == 58 && validDigestReference "audit-recovery:" value

/-- `validMillis`. -/
def validMillis (value : Time) : Bool := value.utc && value.equal value.truncateMillisecond

/-- `formatMillis`. -/
def formatMillis (value : Time) : String := formatTime (value.unixNano / 1000000)

/-- `parseMillis`. -/
def parseMillis (value : String) : Option Time :=
  match parseTime value with
  | some t =>
    let parsed : Time := ⟨t * 1000000, true⟩
    if formatMillis parsed = value then some parsed else none
  | none => none

/-- `validIdentity`. -/
def validIdentity (record : AuditRecord) (required : Bool) : Bool :=
  let hasTenant := record.tenantID != "" || record.principalID != ""
  let hasSession := record.participantInstanceID != "" || record.sessionEpoch != 0
  (!hasTenant || (tenantPattern record.tenantID && validDigestText record.principalID)) &&
  (!hasSession || (canonicalV7 record.participantInstanceID && record.sessionEpoch != 0 &&
    record.sessionEpoch ≤ maxJSONSafeSequence && hasTenant)) &&
  (!required || (hasTenant && hasSession))

/-- `validRevocationIdentity`. -/
def validRevocationIdentity (record : AuditRecord) : Bool :=
  tenantPattern record.tenantID && record.principalID == "" && record.sessionEpoch != 0 &&
    record.sessionEpoch ≤ maxJSONSafeSequence && canonicalV7 record.participantInstanceID

/-- The identity members of a record are in use. -/
def identityFields (record : AuditRecord) : Bool :=
  record.tenantID != "" || record.principalID != "" || record.participantInstanceID != "" ||
    record.sessionEpoch != 0 || record.hasDPoPThumbprint

/-- The staging members of a record are in use. -/
def stagingFields (record : AuditRecord) : Bool :=
  record.serviceProfile != "" || record.action != "" || record.identityReference != ""

/-- `validStagingShape`. -/
def validStagingShape (record : AuditRecord) (fields : Bool) : Bool :=
  fields && !identityFields record &&
    record.serviceProfile == "yukh-coordination/private-primitives-staging-v1" &&
    (record.identityReference == "" || validReference record.identityReference) &&
    (record.action == "" || validReference record.action) && record.authorityReference == "" &&
    !record.hasJWKSSetDigest && record.checkpointReference == "" &&
    record.signingKeyReference == "" && record.recoveryReference == ""

/-- `validOperationShape`. -/
def validOperationShape (record : AuditRecord) : Bool :=
  match record.operation with
  | .bootstrap | .authentication =>
    !stagingFields record && record.authorityReference == "" && !record.hasJWKSSetDigest &&
      record.checkpointReference == "" && record.signingKeyReference == "" &&
      record.recoveryReference == ""
  | .revocation =>
    !stagingFields record && validRevocationIdentity record && !record.hasDPoPThumbprint &&
      record.authorityReference != "" && validReference record.authorityReference &&
      !record.hasJWKSSetDigest && record.checkpointReference == "" &&
      record.signingKeyReference == "" && record.recoveryReference == ""
  | .jwksRefresh =>
    let digestShape := (record.outcome == .allow && record.hasJWKSSetDigest) ||
      (record.outcome == .unavailable && !record.hasJWKSSetDigest)
    !stagingFields record && !identityFields record && record.authorityReference != "" &&
      validReference record.authorityReference && digestShape &&
      record.checkpointReference == "" && record.signingKeyReference == "" &&
      record.recoveryReference == ""
  | .restoreFence =>
    !stagingFields record && !identityFields record && record.authorityReference == "" &&
      !record.hasJWKSSetDigest && validCheckpointReference record.checkpointReference &&
      record.signingKeyReference == "" && validRecoveryReference record.recoveryReference
  | .checkpoint =>
    !stagingFields record && !identityFields record && record.authorityReference == "" &&
      !record.hasJWKSSetDigest && record.checkpointReference == "" &&
      validReference record.signingKeyReference && record.recoveryReference == ""
  | .keyLifecycle =>
    !stagingFields record && !identityFields record &&
      validReference record.authorityReference && !record.hasJWKSSetDigest &&
      record.checkpointReference == "" && validReference record.signingKeyReference &&
      record.recoveryReference == ""
  | .stagingAuthentication =>
    let identityShape := (record.outcome == .allow && record.identityReference != "") ||
      (record.outcome != .allow && record.identityReference == "")
    validStagingShape record (record.action == "" && identityShape)
  | .stagingAuthorization =>
    validStagingShape record (record.action != "" && record.identityReference != "")
  | .stagingLifecycle =>
    validStagingShape record (record.action == "" && record.identityReference == "")

/-- `validAllowReason`. -/
def validAllowReason (record : AuditRecord) : Bool :=
  match record.operation with
  | .bootstrap | .authentication =>
    record.reason == .allowed && validIdentity record true && record.hasDPoPThumbprint
  | .revocation => record.reason == .revoked
  | .jwksRefresh => record.reason == .refreshed
  | .restoreFence => record.reason == .restoreVerified
  | .checkpoint => record.reason == .checkpointCommitted
  | .keyLifecycle => record.reason == .keyLifecycleCommitted
  | .stagingAuthentication | .stagingAuthorization => record.reason == .allowed
  | .stagingLifecycle =>
    record.reason == .registrationLoaded || record.reason == .tlsReady ||
      record.reason == .started || record.reason == .stopped ||
      record.reason == .capabilityKeyLoaded || record.reason == .capabilityKeyZeroed ||
      record.reason == .storageEpochValidated

/-- The switch of `validRecord` over the outcome. -/
def validOutcome (record : AuditRecord) : Bool :=
  match record.outcome with
  | .allow => validAllowReason record
  | .deny =>
    let legacy := (record.operation == .bootstrap || record.operation == .authentication) &&
      (record.reason == .invalidCredential || record.reason == .proofReplay ||
        record.reason == .inactiveSession)
    let staging := (record.operation == .stagingAuthentication &&
      (record.reason == .invalidCredential || record.reason == .credentialExpired)) ||
      (record.operation == .stagingAuthorization && record.reason == .accessDenied)
    (legacy || staging) && validIdentity record false
  | .unavailable =>
    let legacy := record.reason == .verificationUnavailable ||
      record.reason == .registryUnavailable || record.reason == .materialCollision ||
      record.reason == .operationUnavailable
    let staging := record.reason == .dependencyUnavailable &&
      (record.operation == .stagingAuthentication || record.operation == .stagingAuthorization ||
        record.operation == .stagingLifecycle)
    (legacy || staging) && validIdentity record false

/-- `validRecord`. -/
def validRecord (record : AuditRecord) : Bool :=
  record.profileVersion == 1 && validMillis record.decisionTime &&
    canonicalV7 record.operationID && validOperationShape record && validOutcome record &&
    (record.hasDPoPThumbprint || record.dpopThumbprint == Digest.zero) &&
    (record.hasJWKSSetDigest || record.jwksSetDigest == Digest.zero)

/-! ## The encoder and the decoder -/

/-- `json.Marshal`, `jsoncanonicalizer.Transform` and a strict `json.Decoder`, for documents of one
type. -/
structure Jcs (Doc : Type) where
  marshal : Doc → Bytes
  transform : Bytes → Option Bytes
  decode : Bytes → Option Doc

/-- What the canonicalization is specified to do: every document whose numbers are exact has a
canonical form, which is its own canonical form and is decoded to the document. -/
structure Jcs.Lawful {Doc : Type} (jcs : Jcs Doc) (Exact : Doc → Prop) : Prop where
  canonical : ∀ doc, Exact doc → ∃ canonical, jcs.transform (jcs.marshal doc) = some canonical ∧
    canonical ≠ [] ∧ jcs.transform canonical = some canonical ∧ jcs.decode canonical = some doc

/-- The number of a record's document is exact. -/
def CanonicalRecord.Exact (value : CanonicalRecord) : Prop :=
  value.sessionEpoch ≤ maxJSONSafeSequence

/-- The document of a record. -/
def canonicalValue (record : AuditRecord) : CanonicalRecord where
  profile := profile
  operationID := record.operationID
  operationKind := record.operation.text
  outcome := record.outcome.text
  reason := record.reason.text
  decisionTime := formatMillis record.decisionTime
  tenantID := record.tenantID
  principalID := record.principalID
  participantInstanceID := record.participantInstanceID
  sessionEpoch := record.sessionEpoch
  dpopThumbprintDigest :=
    if record.hasDPoPThumbprint then encodeDigest record.dpopThumbprint else ""
  authorityReference := record.authorityReference
  jwksSetDigest := if record.hasJWKSSetDigest then encodeDigest record.jwksSetDigest else ""
  checkpointReference := record.checkpointReference
  signingKeyReference := record.signingKeyReference
  recoveryReference := record.recoveryReference
  serviceProfile := record.serviceProfile
  action := record.action
  identityReference := record.identityReference

/-- `CanonicalRecord`. -/
def canonicalRecord (jcs : Jcs CanonicalRecord) (record : AuditRecord) : Except Error Bytes := do
  ensure (validRecord record) .invalidRecord
  let canonical ← required (jcs.transform (jcs.marshal (canonicalValue record))) .invalidRecord
  ensure (canonical.length ≤ maxCanonicalBytes) .invalidRecord
  return canonical

/-- An optional digest of the document: its value and whether it is there. -/
def decodeOptional (value : String) : Except Error (Digest × Bool) :=
  if value ≠ "" then do
    let digest ← required (decodeDigest value) .invalidRecord
    return (digest, true)
  else return (Digest.zero, false)

/-- The record that `ValidateCanonicalRecord` decodes. -/
def decodeCanonicalRecord (jcs : Jcs CanonicalRecord) (canonical : Bytes) :
    Except Error AuditRecord := do
  ensure (canonical.length != 0 && canonical.length ≤ maxCanonicalBytes) .invalidRecord
  let normalized ← required (jcs.transform canonical) .invalidRecord
  ensure (normalized == canonical) .invalidRecord
  let value ← required (jcs.decode canonical) .invalidRecord
  ensure (value.profile == profile) .invalidRecord
  let decisionTime ← required (parseMillis value.decisionTime) .invalidRecord
  let operation ← required (ofText AuditOperation.text AuditOperation.all value.operationKind)
    .invalidRecord
  let outcome ← required (ofText AuditOutcome.text AuditOutcome.all value.outcome) .invalidRecord
  let reason ← required (ofText AuditReason.text AuditReason.all value.reason) .invalidRecord
  let (dpopThumbprint, hasDPoPThumbprint) ← decodeOptional value.dpopThumbprintDigest
  let (jwksSetDigest, hasJWKSSetDigest) ← decodeOptional value.jwksSetDigest
  let record : AuditRecord := {
    profileVersion := 1, operationID := value.operationID, operation, outcome, reason,
    decisionTime, tenantID := value.tenantID, principalID := value.principalID,
    participantInstanceID := value.participantInstanceID, sessionEpoch := value.sessionEpoch,
    dpopThumbprint, hasDPoPThumbprint, authorityReference := value.authorityReference,
    jwksSetDigest, hasJWKSSetDigest, checkpointReference := value.checkpointReference,
    signingKeyReference := value.signingKeyReference,
    recoveryReference := value.recoveryReference, serviceProfile := value.serviceProfile,
    action := value.action, identityReference := value.identityReference }
  ensure (validRecord record) .invalidRecord
  let reencoded ← canonicalRecord jcs record
  ensure (reencoded == canonical) .invalidRecord
  return record

/-- `ValidateCanonicalRecord`. -/
def validateCanonicalRecord (jcs : Jcs CanonicalRecord) (canonical : Bytes) :
    Except Error Unit := do
  let _ ← decodeCanonicalRecord jcs canonical

/-! ## The chain and its receipts -/

/-- `ReceiptProfile`. -/
def receiptProfile : String := "yukh-security-audit-receipt/v1"

/-- `Receipt`. The digests are kept as digests; the source has their texts. -/
structure Receipt (Hash : Type) where
  profile : String
  ledgerID : String
  sequence : Nat
  operationID : String
  recordDigest : Hash
  previousChainDigest : Hash
  chainDigest : Hash
  deriving DecidableEq, Repr

section
variable {Hash : Type} (sha256 : Preimage Hash → Hash)

/-- `RecordDigest`. -/
def recordDigest (canonical : Bytes) : Hash := sha256 (.record canonical)

/-- `GenesisDigest`. -/
def genesisDigest (ledgerID : String) : Except Error Hash := do
  ensure (canonicalV7 ledgerID) .unavailable
  return sha256 (.genesis ledgerID)

/-- `ChainDigest`. -/
def chainDigest (sequence : Nat) (previous record : Hash) : Except Error Hash := do
  ensure (sequence != 0 && sequence ≤ maxJSONSafeSequence) .unavailable
  return sha256 (.chain sequence previous record)

end

/-- `NewReceipt`. -/
def newReceipt {Hash : Type} (ledgerID : String) (sequence : Nat) (operationID : String)
    (record previous chain : Hash) : Except Error (Receipt Hash) := do
  ensure (canonicalV7 ledgerID) .unavailable
  ensure (canonicalV7 operationID && sequence != 0 && sequence ≤ maxJSONSafeSequence) .unavailable
  return ⟨receiptProfile, ledgerID, sequence, operationID, record, previous, chain⟩

/-- `validReceipt`. The texts of the digests are those of digests. -/
def validReceipt {Hash : Type} (receipt : Receipt Hash) : Bool :=
  receipt.profile == receiptProfile && receipt.sequence != 0 &&
    receipt.sequence ≤ maxJSONSafeSequence && canonicalV7 receipt.ledgerID &&
    canonicalV7 receipt.operationID

/-- `CanonicalReceipt`. -/
def canonicalReceipt {Hash : Type} (jcs : Jcs (Receipt Hash)) (receipt : Receipt Hash) :
    Except Error Bytes := do
  ensure (validReceipt receipt) .unavailable
  required (jcs.transform (jcs.marshal receipt)) .unavailable

/-! ## The texts of a document -/

/-- A text of bytes is decoded to them. -/
theorem decodeString_encode (bytes : Bytes) :
    decodeString (String.ofList (Base64.encode bytes)) = some bytes := by
  rw [decodeString, String.toList_ofList, Base64.decodeLines_encode]

/-- The text of a digest is decoded to it. -/
theorem decodeDigest_encodeDigest (digest : Digest) :
    decodeDigest (encodeDigest digest) = some digest := by
  rw [decodeDigest, encodeDigest, decodeString_encode]
  exact dif_pos digest.2

theorem encodeDigest_ne_empty (digest : Digest) : encodeDigest digest ≠ "" := by
  intro h
  have hnil : Base64.encode digest.1 = [] := by
    simpa [encodeDigest] using congrArg String.toList h
  refine Base64.encode_ne_nil ?_ hnil
  intro h
  have hsize := digest.2
  rw [h] at hsize
  cases hsize

/-- A digest that is left out is zero. -/
theorem decodeOptional_encode {digest : Digest} {has : Bool} (h : has ∨ digest = .zero) :
    decodeOptional (if has then encodeDigest digest else "") = .ok (digest, has) := by
  cases has with
  | true =>
    rw [if_pos rfl, decodeOptional, if_pos (encodeDigest_ne_empty digest),
      decodeDigest_encodeDigest]
    rfl
  | false =>
    obtain rfl : digest = .zero := h.resolve_left Bool.false_ne_true
    rfl

/-- The year of a time. -/
def year (value : Time) : Int := yearOf (value.unixNano / 1000000)

/-- The time has one of the years 0 to 9999. -/
def Dated (value : Time) : Prop := 0 ≤ year value ∧ year value ≤ 9999

instance (value : Time) : Decidable (Dated value) := inferInstanceAs (Decidable (_ ∧ _))

/-- The text of a valid time of these years is read as the time. -/
theorem Dated.parseMillis {value : Time} (h : Dated value) (hvalid : validMillis value) :
    Audit.parseMillis (formatMillis value) = some value := by
  obtain ⟨unixNano, utc⟩ := value
  obtain ⟨rfl, hmillis⟩ : utc = true ∧ unixNano % 1000000 = 0 := by
    simp only [validMillis, Time.truncateMillisecond, Bool.and_eq_true, Time.equal_iff,
      millisecond] at hvalid
    exact ⟨hvalid.1, by omega⟩
  have heq : unixNano / 1000000 * 1000000 = unixNano := by omega
  have hparse : parseTime (formatMillis ⟨unixNano, true⟩) = some (unixNano / 1000000) :=
    parseTime_formatTime h.1 h.2
  simp only [Audit.parseMillis, hparse, heq, if_true]

/-- Only the texts of these years are read. -/
theorem dated_of_parseMillis {value parsed : Time}
    (h : parseMillis (formatMillis value) = some parsed) : Dated value := by
  unfold parseMillis at h
  split at h
  · next t hparse => exact yearOf_of_parseTime (Option.isSome_of_eq_some hparse)
  · cases h

/-! ## The round trip -/

variable {record : AuditRecord}

theorem sessionEpoch_of_validIdentity {required : Bool}
    (h : validIdentity record required) : record.sessionEpoch ≤ maxJSONSafeSequence := by
  simp only [validIdentity, Bool.and_eq_true, Bool.or_eq_true, Bool.not_eq_true',
    Bool.or_eq_false_iff, bne_eq_false_iff_eq, decide_eq_true_eq] at h
  rcases h.1.2 with hnone | hsome
  · rw [hnone.2]
    exact Nat.zero_le _
  · exact hsome.1.2

theorem sessionEpoch_of_identityFields
    (h : identityFields record = false) : record.sessionEpoch ≤ maxJSONSafeSequence := by
  simp only [identityFields, Bool.or_eq_false_iff, bne_eq_false_iff_eq] at h
  rw [h.1.2]
  exact Nat.zero_le _

theorem sessionEpoch_of_validStagingShape {fields : Bool}
    (h : validStagingShape record fields) : record.sessionEpoch ≤ maxJSONSafeSequence := by
  simp only [validStagingShape, Bool.and_eq_true, Bool.not_eq_true'] at h
  exact sessionEpoch_of_identityFields h.1.1.1.1.1.1.1.1.2

theorem sessionEpoch_of_validOutcome
    (hop : record.operation = .bootstrap ∨ record.operation = .authentication)
    (h : validOutcome record) : record.sessionEpoch ≤ maxJSONSafeSequence := by
  unfold validOutcome at h
  split at h
  · have hidentity : validIdentity record true = true := by
      unfold validAllowReason at h
      rcases hop with hop | hop <;> simp only [hop, Bool.and_eq_true] at h <;> exact h.1.2
    exact sessionEpoch_of_validIdentity hidentity
  · simp only [Bool.and_eq_true] at h
    exact sessionEpoch_of_validIdentity h.2
  · simp only [Bool.and_eq_true] at h
    exact sessionEpoch_of_validIdentity h.2

theorem sessionEpoch_of_validRevocationIdentity
    (h : validRevocationIdentity record) : record.sessionEpoch ≤ maxJSONSafeSequence := by
  simp only [validRevocationIdentity, Bool.and_eq_true, decide_eq_true_eq] at h
  exact h.1.2

/-- The epoch of a valid record is exact in JSON. -/
theorem sessionEpoch_of_validRecord (h : validRecord record) :
    record.sessionEpoch ≤ maxJSONSafeSequence := by
  simp only [validRecord, Bool.and_eq_true] at h
  obtain ⟨⟨⟨⟨-, hshape⟩, houtcome⟩, -⟩, -⟩ := h
  unfold validOperationShape at hshape
  split at hshape
  case h_1 hop => exact sessionEpoch_of_validOutcome (.inl hop) houtcome
  case h_2 hop => exact sessionEpoch_of_validOutcome (.inr hop) houtcome
  case h_3 =>
    simp only [Bool.and_eq_true] at hshape
    exact sessionEpoch_of_validRevocationIdentity hshape.1.1.1.1.1.1.1.2
  case h_4 =>
    simp only [Bool.and_eq_true, Bool.not_eq_true'] at hshape
    exact sessionEpoch_of_identityFields hshape.1.1.1.1.1.1.2
  case h_5 =>
    simp only [Bool.and_eq_true, Bool.not_eq_true'] at hshape
    exact sessionEpoch_of_identityFields hshape.1.1.1.1.1.2
  case h_6 =>
    simp only [Bool.and_eq_true, Bool.not_eq_true'] at hshape
    exact sessionEpoch_of_identityFields hshape.1.1.1.1.1.2
  case h_7 =>
    simp only [Bool.and_eq_true, Bool.not_eq_true'] at hshape
    exact sessionEpoch_of_identityFields hshape.1.1.1.1.1.2
  case h_8 => exact sessionEpoch_of_validStagingShape hshape
  case h_9 => exact sessionEpoch_of_validStagingShape hshape
  case h_10 => exact sessionEpoch_of_validStagingShape hshape

variable {jcs : Jcs CanonicalRecord} {canonical : Bytes}

/-- What an accepted record went through. -/
theorem canonicalRecord_ok (h : canonicalRecord jcs record = .ok canonical) : validRecord record ∧
      jcs.transform (jcs.marshal (canonicalValue record)) = some canonical ∧
      canonical.length ≤ maxCanonicalBytes := by
  obtain ⟨hvalid, h⟩ := ensure_bind.1 h
  obtain ⟨canonical', htransform, h⟩ := required_bind.1 h
  obtain ⟨hlen, h⟩ := ensure_bind.1 h
  cases h
  exact ⟨hvalid, htransform, of_decide_eq_true hlen⟩

/-- The bytes of an accepted record are decoded to the record. -/
theorem decodeCanonicalRecord_canonicalRecord (hjcs : jcs.Lawful CanonicalRecord.Exact)
    (h : canonicalRecord jcs record = .ok canonical) (hdated : Dated record.decisionTime) :
    decodeCanonicalRecord jcs canonical = .ok record := by
  obtain ⟨hvalid, htransform, hlen⟩ := canonicalRecord_ok h
  obtain ⟨canonical', htransform', hne, hidem, hdecode⟩ :=
    hjcs.canonical (canonicalValue record) (sessionEpoch_of_validRecord hvalid)
  obtain rfl : canonical' = canonical := Option.some.inj (htransform'.symm.trans htransform)
  have hparts := hvalid
  simp only [validRecord, Bool.and_eq_true, Bool.or_eq_true, beq_iff_eq] at hparts
  obtain ⟨⟨⟨⟨⟨⟨hversion, hmillis⟩, -⟩, -⟩, -⟩, hdpop⟩, hjwks⟩ := hparts
  have hnonempty : (canonical'.length != 0 && decide (canonical'.length ≤ maxCanonicalBytes)) =
      true := by
    simp [hne, hlen]
  refine ensure_bind.2 ⟨hnonempty, ?_⟩
  refine required_bind.2 ⟨canonical', hidem, ?_⟩
  refine ensure_bind.2 ⟨beq_self_eq_true _, ?_⟩
  refine required_bind.2 ⟨_, hdecode, ?_⟩
  refine ensure_bind.2 ⟨beq_self_eq_true _, ?_⟩
  refine required_bind.2 ⟨_, hdated.parseMillis hmillis, ?_⟩
  refine required_bind.2 ⟨_, record.operation.ofText_text, ?_⟩
  refine required_bind.2 ⟨_, record.outcome.ofText_text, ?_⟩
  refine required_bind.2 ⟨_, record.reason.ofText_text, ?_⟩
  refine bind_ok.2 ⟨_, decodeOptional_encode hdpop, ?_⟩
  refine bind_ok.2 ⟨_, decodeOptional_encode hjwks, ?_⟩
  -- What was decoded is the record.
  have hrecord : { record with profileVersion := 1 } = record := by
    cases record
    simp only at hversion
    rw [hversion]
  refine ensure_bind.2 ⟨hrecord.symm ▸ hvalid, ?_⟩
  refine bind_ok.2 ⟨_, hrecord.symm ▸ h, ?_⟩
  refine ensure_bind.2 ⟨beq_self_eq_true _, ?_⟩
  exact congrArg Except.ok hrecord

/-- The bytes of a record are decoded to its document. -/
theorem decode_of_canonicalRecord (hjcs : jcs.Lawful CanonicalRecord.Exact)
    (h : canonicalRecord jcs record = .ok canonical) :
    jcs.decode canonical = some (canonicalValue record) := by
  obtain ⟨hvalid, htransform, -⟩ := canonicalRecord_ok h
  obtain ⟨canonical', htransform', -, -, hdecode⟩ :=
    hjcs.canonical (canonicalValue record) (sessionEpoch_of_validRecord hvalid)
  obtain rfl : canonical' = canonical := Option.some.inj (htransform'.symm.trans htransform)
  exact hdecode

/-- The bytes of an accepted record are only decoded if its time has one of the years 0 to 9999. -/
theorem dated_of_decodeCanonicalRecord (hjcs : jcs.Lawful CanonicalRecord.Exact)
    {decoded : AuditRecord} (h : canonicalRecord jcs record = .ok canonical)
    (hdecoded : decodeCanonicalRecord jcs canonical = .ok decoded) : Dated record.decisionTime := by
  have hdecode := decode_of_canonicalRecord hjcs h
  obtain ⟨-, hdecoded⟩ := ensure_bind.1 hdecoded
  obtain ⟨normalized, -, hdecoded⟩ := required_bind.1 hdecoded
  obtain ⟨-, hdecoded⟩ := ensure_bind.1 hdecoded
  obtain ⟨value, hvalue, hdecoded⟩ := required_bind.1 hdecoded
  obtain rfl : canonicalValue record = value := Option.some.inj (hdecode.symm.trans hvalue)
  obtain ⟨-, hdecoded⟩ := ensure_bind.1 hdecoded
  obtain ⟨decisionTime, hparse, -⟩ := required_bind.1 hdecoded
  exact dated_of_parseMillis hparse

/-- **An accepted record round-trips exactly if its time has one of the years 0 to 9999**: its bytes
are accepted and decoded to the same record, and no other accepted record has them. -/
theorem canonicalRecord_round_trip {jcs : Jcs CanonicalRecord}
    (hjcs : jcs.Lawful CanonicalRecord.Exact) {record : AuditRecord} {canonical : Bytes}
    (h : canonicalRecord jcs record = .ok canonical) :
    (validateCanonicalRecord jcs canonical = .ok () ∧
      decodeCanonicalRecord jcs canonical = .ok record ∧
      ∀ record', canonicalRecord jcs record' = .ok canonical → record' = record) ↔
    Dated record.decisionTime := by
  constructor
  · rintro ⟨-, hdecode, -⟩
    exact dated_of_decodeCanonicalRecord hjcs h hdecode
  · intro hdated
    have hdecode := decodeCanonicalRecord_canonicalRecord hjcs h hdated
    refine ⟨bind_ok.2 ⟨record, hdecode, rfl⟩, hdecode, fun record' h' => ?_⟩
    -- The bytes are decoded, so the time of the other record is in these years as well.
    have hdecode' := decodeCanonicalRecord_canonicalRecord hjcs h'
      (dated_of_decodeCanonicalRecord hjcs h' hdecode)
    exact Except.ok.inj (hdecode'.symm.trans hdecode)

/-! ## Samples -/

/-- The members of a record's document as texts. -/
def CanonicalRecord.texts (value : CanonicalRecord) : List String :=
  [value.profile, value.operationID, value.operationKind, value.outcome, value.reason,
    value.decisionTime, value.tenantID, value.principalID, value.participantInstanceID,
    toString value.sessionEpoch, value.dpopThumbprintDigest, value.authorityReference,
    value.jwksSetDigest, value.checkpointReference, value.signingKeyReference,
    value.recoveryReference, value.serviceProfile, value.action, value.identityReference]

/-- The document with the given members. -/
def CanonicalRecord.ofTexts : List String → Option CanonicalRecord
  | [profile, operationID, operationKind, outcome, reason, decisionTime, tenantID, principalID,
      participantInstanceID, sessionEpoch, dpopThumbprintDigest, authorityReference,
      jwksSetDigest, checkpointReference, signingKeyReference, recoveryReference,
      serviceProfile, action, identityReference] =>
    (digits sessionEpoch.toList).map fun sessionEpoch =>
      { profile, operationID, operationKind, outcome, reason, decisionTime, tenantID, principalID,
        participantInstanceID, sessionEpoch, dpopThumbprintDigest, authorityReference,
        jwksSetDigest, checkpointReference, signingKeyReference, recoveryReference,
        serviceProfile, action, identityReference }
  | _ => none

theorem CanonicalRecord.ofTexts_texts (value : CanonicalRecord) :
    ofTexts value.texts = some value := by
  simp only [ofTexts, texts, digits_toString, Option.map_some]

/-- Documents as lists of their members. -/
def sampleJcs : Jcs CanonicalRecord where
  marshal value := Texts.encode value.texts
  transform := some
  decode bytes := (Texts.decode bytes).bind CanonicalRecord.ofTexts

theorem sampleJcs_lawful : sampleJcs.Lawful CanonicalRecord.Exact where
  canonical value _ := by
    refine ⟨Texts.encode value.texts, rfl, ?_, rfl, ?_⟩
    · simp [CanonicalRecord.texts, Texts.encode, Texts.encodeText]
    · simp [sampleJcs, Texts.decode_encode, CanonicalRecord.ofTexts_texts]

/-- The record of an installed key at a time. -/
def sampleRecord (unixMilli : Int) : AuditRecord where
  profileVersion := 1
  operationID := "0198f56b-0c00-7000-8000-000000000001"
  operation := .keyLifecycle
  outcome := .allow
  reason := .keyLifecycleCommitted
  decisionTime := ⟨unixMilli * 1000000, true⟩
  tenantID := ""
  principalID := ""
  participantInstanceID := ""
  sessionEpoch := 0
  dpopThumbprint := .zero
  hasDPoPThumbprint := false
  authorityReference := "authority:keys:1"
  jwksSetDigest := .zero
  hasJWKSSetDigest := false
  checkpointReference := ""
  signingKeyReference := "signing-key:key-1:1"
  recoveryReference := ""
  serviceProfile := ""
  action := ""
  identityReference := ""

/-- The canonical bytes of the sample at a time. -/
def sampleBytes (unixMilli : Int) : Bytes :=
  Texts.encode (canonicalValue (sampleRecord unixMilli)).texts

/-- The record of a day in 2026 is decoded from its bytes. -/
theorem canonicalRecord_round_trip_2026 :
    canonicalRecord sampleJcs (sampleRecord 1785747600000) = .ok (sampleBytes 1785747600000) ∧
      decodeCanonicalRecord sampleJcs (sampleBytes 1785747600000) =
        .ok (sampleRecord 1785747600000) := by
  have h : canonicalRecord sampleJcs (sampleRecord 1785747600000) =
      .ok (sampleBytes 1785747600000) := by decide +kernel
  exact ⟨h, ((canonicalRecord_round_trip sampleJcs_lawful h).2 (by decide)).2.1⟩

/-- A record of the first day of the year 10000 is accepted, and its bytes are not. -/
theorem canonicalRecord_year_10000 : canonicalRecord sampleJcs (sampleRecord 253402300800000) =
        .ok (sampleBytes 253402300800000) ∧
      validateCanonicalRecord sampleJcs (sampleBytes 253402300800000) = .error .invalidRecord := by
  decide +kernel

end YukhCoordination.Relay.Audit
