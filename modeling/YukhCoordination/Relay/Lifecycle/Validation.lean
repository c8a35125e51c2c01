import YukhCoordination.Lib.Transaction
import YukhCoordination.Relay.Lifecycle.Text
import YukhCoordination.Relay.Lifecycle.Types

/-!
# Validation of the lifecycle documents

The model of `internal/relay/lifecycle/validation.go`, with the digests of `canonical.go` taken from
the `Codec`. A validator whose only error is `ErrInvalidContract` is a Boolean; the others return
the error.
-/

namespace YukhCoordination.Relay.Lifecycle

open Transaction

/-- `positive`. -/
def positive (value : Nat) : Bool := 0 < value && value ≤ maxSafeInteger

/-- The three backup domains, in the order that every document lists them. -/
def backupDomains : List BackupDomain := [.event, .identity, .audit]

/-- `validBackupDomain`. -/
def validBackupDomain (value : BackupDomain) : Bool :=
  value == .event || value == .identity || value == .audit

theorem mem_backupDomains {domain : BackupDomain} :
    domain ∈ backupDomains ↔ validBackupDomain domain := by
  simp [backupDomains, validBackupDomain, or_assoc]

/-- `validTranscript`. -/
def validTranscript (value : TranscriptKey) : Bool :=
  validIdentifier value.tenantID && validIdentifier value.channelID &&
    value.transcriptEpoch ≤ maxSafeInteger

/-- Each sequence is smaller than the next one. -/
def increasing : List Nat → Bool
  | [] => true
  | [_] => true
  | a :: b :: rest => a < b && increasing (b :: rest)

/-- `validTarget`. -/
def validTarget (action : Action) (target : Target) : Bool :=
  match action with
  | .deleteTranscript => target.kind == .transcript && target.sequences == []
  | .redactTranscript =>
    target.kind == .sequences && target.sequences != [] && target.sequences.length ≤ 1000 &&
      increasing target.sequences && target.sequences.all positive

/-- `validTransition`. -/
def validTransition : Relay.Lifecycle → Relay.Lifecycle → Bool
  | .active, .redacted | .active, .deleted | .redacted, .deleted => true
  | _, _ => false

/-- `actionForLifecycle`. -/
def actionForLifecycle : Relay.Lifecycle → Action
  | .deleted => .deleteTranscript
  | _ => .redactTranscript

/-- `validDeadlines`. A request time that does not parse is the zero time of the year 1. -/
def validDeadlines (values : List BackupDeadline) (requested : String) : Bool :=
  let requestedAt := (parseTime requested).getD (daysFromCivil 1 1 1 * 86400000)
  values.map (·.domain) == backupDomains && values.all fun value =>
      match parseTime value.deadline with
      | some deadline => requestedAt < deadline
      | none => false

/-- `validPolicyFields`. -/
def validPolicyFields (policy : Policy) : Bool :=
  policy.profile == "yukh-transcript-lifecycle-policy/v0.1" && validIdentifier policy.policyID &&
    positive policy.policyEpoch && positive policy.activeRetentionMillis &&
    positive policy.eventBackupDeletionMillis && positive policy.identityBackupDeletionMillis &&
    positive policy.securityAuditDeletionMillis &&
    validIdentifier policy.redactionAuthorityRoleID &&
    validIdentifier policy.deletionAuthorityRoleID &&
    policy.redactionAuthorityRoleID != policy.deletionAuthorityRoleID &&
    policy.integrityProfile == "sequence-event-receipt-operation/v0.1" &&
    validTime policy.issuedAt && validTime policy.activatedAt &&
    policy.issuedAt ≤ policy.activatedAt && validIdentifier policy.accountablePolicyApprover

/-- `ValidateIntent`. -/
def validateIntent (intent : Intent) : Bool :=
  intent.profile == "yukh-transcript-lifecycle-intent/v0.1" && validUUIDv7 intent.operationID &&
    validTranscript intent.transcript && validIdentifier intent.policyID &&
    positive intent.policyEpoch && validDigest intent.policyDigest &&
    validTarget intent.action intent.target && validReference intent.highWaterReceiptReference &&
    validTime intent.requestedAt && validIdentifier intent.requesterRoleID &&
    validReference intent.authorizingAuditReceipt &&
    validDeadlines intent.expectedBackupDeletionWindows intent.requestedAt

/-- `ValidateMarker`. -/
def validateMarker (marker : Marker) : Bool :=
  marker.profile == "yukh-transcript-lifecycle-marker/v0.1" && validUUIDv7 marker.operationID &&
    validDigest marker.intentDigest && validTranscript marker.transcript &&
    validTransition marker.previousLifecycle marker.resultingLifecycle &&
    validTarget (actionForLifecycle marker.resultingLifecycle) marker.target &&
    validDigest marker.policyDigest && validReference marker.highWaterReceiptReference &&
    validTime marker.markerTime && validReference marker.authorizingAuditReceipt

/-- `ValidateReceiptPreimage`. -/
def validateReceiptPreimage (receipt : ReceiptPreimage) : Bool :=
  receipt.profile == "yukh-transcript-lifecycle-receipt-preimage/v0.1" &&
    validUUIDv7 receipt.receiptID && validDigest receipt.markerDigest &&
    validUUIDv7 receipt.operationID && validDigest receipt.intentDigest &&
    validTranscript receipt.transcript && receipt.resultingLifecycle != .active &&
    validDigest receipt.policyDigest && validTime receipt.issuedAt &&
    validIdentifier receipt.signingKeyID && receipt.signatureAlgorithm == "ed25519"

/-- `ValidateOperationReference`. -/
def validateOperationReference (value : OperationReference) : Bool :=
  validUUIDv7 value.operationID && validDigest value.intentDigest

/-- `ValidateExportEvidence`. -/
def validateExportEvidence (value : ExportEvidence) : Bool :=
  validateOperationReference ⟨value.operationID, value.intentDigest⟩ &&
    validDigest value.manifestDigest && validDigest value.custodyReceiptDigest

/-- `ValidateBackupObligation`. -/
def validateBackupObligation (value : BackupObligation) : Bool :=
  value.profile == "yukh-transcript-backup-obligation/v0.1" &&
    validateOperationReference ⟨value.operationID, value.intentDigest⟩ &&
    validDigest value.policyDigest && validBackupDomain value.domain &&
    validTime value.deadline && validDigest value.bindingDigest

/-- `ValidateBackupObligationSet`. -/
def validateBackupObligationSet (value : BackupObligationSet) : Bool :=
  value.profile == "yukh-transcript-backup-obligation-set/v0.1" &&
    validateOperationReference ⟨value.operationID, value.intentDigest⟩ &&
    validDigest value.policyDigest && value.obligations.map (·.domain) == backupDomains &&
    value.obligations.all fun obligation =>
      validateBackupObligation obligation && obligation.operationID == value.operationID &&
        obligation.intentDigest == value.intentDigest &&
        obligation.policyDigest == value.policyDigest

/-- `ValidateCustodianReceipt`. -/
def validateCustodianReceipt (value : CustodianReceipt) : Bool :=
  value.profile == "yukh-transcript-backup-custodian-receipt/v0.1" &&
    validUUIDv7 value.receiptID && validDigest value.obligationDigest &&
    validateOperationReference ⟨value.operationID, value.intentDigest⟩ &&
    validDigest value.policyDigest && validBackupDomain value.domain &&
    validDigest value.backupIdentityDigest && validTime value.evidenceTime &&
    validReference value.custodianReference && validIdentifier value.verificationKeyID &&
    value.signatureAlgorithm == "ed25519" && validSignatureText value.detachedSignature

/-- `ValidateCompletionEvidence`. -/
def validateCompletionEvidence (value : CompletionEvidence) : Bool :=
  value.profile == "yukh-transcript-lifecycle-completion-evidence/v0.1" &&
    validateOperationReference ⟨value.operationID, value.intentDigest⟩ &&
    validDigest value.policyDigest && validReference value.securityAuditReceipt &&
    validReference value.securityAuditCheckpoint && validTime value.completedAt &&
    value.receipts.map (·.domain) == backupDomains &&
    value.receipts.all fun receipt =>
      validUUIDv7 receipt.receiptID && validDigest receipt.receiptDigest

/-- `ValidateObligationIntent`. -/
def validateObligationIntent (value : BackupObligation) (intent : Intent) (intentDigest : String) :
    Except Error Unit := do
  ensure (validateBackupObligation value && validateIntent intent) .invalidContract
  ensure (value.operationID == intent.operationID && value.intentDigest == intentDigest &&
    value.policyDigest == intent.policyDigest) .conflict
  ensure (intent.expectedBackupDeletionWindows.any fun deadline =>
    deadline.domain == value.domain && deadline.deadline == value.deadline) .conflict

/-- `ValidateObligationSetIntent`. -/
def validateObligationSetIntent (value : BackupObligationSet) (intent : Intent)
    (intentDigest : String) : Except Error Unit := do
  ensure (validateBackupObligationSet value && validateIntent intent) .invalidContract
  ensure (value.operationID == intent.operationID && value.intentDigest == intentDigest &&
    value.policyDigest == intent.policyDigest) .conflict
  ensure (value.obligations.all fun obligation =>
    (validateObligationIntent obligation intent intentDigest).isOk) .conflict

/-- `ValidateReceiptObligation`. -/
def validateReceiptObligation (value : CustodianReceipt) (obligation : BackupObligation)
    (obligationDigest : String) : Except Error Unit := do
  ensure (validateCustodianReceipt value && validateBackupObligation obligation) .invalidContract
  ensure (value.obligationDigest == obligationDigest &&
    value.operationID == obligation.operationID &&
    value.intentDigest == obligation.intentDigest &&
    value.policyDigest == obligation.policyDigest && value.domain == obligation.domain &&
    value.backupIdentityDigest == obligation.bindingDigest) .conflict
  ensure (match obligation.bindingKind with
    | .generation => value.method == .generationRetired
    | .absenceManifest => value.method == .absenceProved) .conflict

section
variable (codec : Codec)

/-- `ValidatePolicy`: the digest is over the policy without its digest field. -/
def validatePolicy (policy : Policy) : Bool :=
  validPolicyFields policy && validDigest policy.policyDigest &&
    policy.policyDigest == codec.policyDigest { policy with policyDigest := "" }

/-- `CanonicalIntent`: the digest of a valid intent. -/
def canonicalIntent (intent : Intent) : Except Error String := do
  ensure (validateIntent intent) .invalidContract
  return codec.intentDigest intent

/-- `CanonicalBackupObligationSet`. -/
def canonicalBackupObligationSet (value : BackupObligationSet) : Except Error String := do
  ensure (validateBackupObligationSet value) .invalidContract
  return codec.obligationSetDigest value

/-- `CanonicalCustodianReceipt`: the digest and the bytes the custodian signs. -/
def canonicalCustodianReceipt (value : CustodianReceipt) : Except Error (String × Bytes) := do
  ensure (validateCustodianReceipt value) .invalidContract
  return (codec.custodianReceiptDigest value, codec.custodianReceiptSigning value)

/-- `CanonicalCompletionEvidence`. -/
def canonicalCompletionEvidence (value : CompletionEvidence) : Except Error String := do
  ensure (validateCompletionEvidence value) .invalidContract
  return codec.completionDigest value

/-- `ValidateMarkerPersistence`, with the marker and the receipt preimage that it decodes. -/
def validateMarkerPersistence (value : MarkerPersistence) :
    Except Error (Marker × ReceiptPreimage) := do
  ensure (validateOperationReference ⟨value.operationID, value.intentDigest⟩) .invalidContract
  let marker ← required (codec.decodeMarker value.canonicalMarker) .invalidContract
  let receipt ← required (codec.decodePreimage value.canonicalPreimage) .invalidContract
  ensure (validateMarker marker && validateReceiptPreimage receipt) .invalidContract
  ensure (marker.operationID == value.operationID && marker.intentDigest == value.intentDigest &&
    receipt.operationID == value.operationID && receipt.intentDigest == value.intentDigest &&
    receipt.markerDigest == codec.markerDigest marker && receipt.transcript == marker.transcript &&
    receipt.resultingLifecycle == marker.resultingLifecycle &&
    receipt.policyDigest == marker.policyDigest) .conflict
  return (marker, receipt)

/-- `ValidateSignatureAttachment`. -/
def validateSignatureAttachment (value : SignatureAttachment) : Except Error Unit := do
  ensure (validateOperationReference ⟨value.operationID, value.intentDigest⟩ &&
    value.signature.length == 64) .invalidContract
  let receipt ← required (codec.decodePreimage value.receiptPreimage) .invalidContract
  ensure (validateReceiptPreimage receipt) .invalidContract
  ensure (receipt.operationID == value.operationID && receipt.intentDigest == value.intentDigest)
    .conflict

end

/-! ## What a valid document fixes -/

/-- A valid intent has a valid target for its action. -/
theorem validTarget_of_validateIntent {intent : Intent} (h : validateIntent intent) :
    validTarget intent.action intent.target := by
  simp only [validateIntent, Bool.and_eq_true] at h
  exact h.1.1.1.1.1.2

/-- A valid marker leads from a lifecycle to a later one, with a target for the later one. -/
theorem validateMarker_spec {marker : Marker} (h : validateMarker marker) :
    validTransition marker.previousLifecycle marker.resultingLifecycle ∧
      validTarget (actionForLifecycle marker.resultingLifecycle) marker.target := by
  simp only [validateMarker, Bool.and_eq_true] at h
  exact ⟨h.1.1.1.1.1.2, h.1.1.1.1.2⟩

/-- The marker of a persistence that is accepted is valid. -/
theorem validateMarkerPersistence_ok {codec : Codec} {value : MarkerPersistence} {marker : Marker}
    {receipt : ReceiptPreimage} (h : validateMarkerPersistence codec value =
      .ok (marker, receipt)) :
    validateMarker marker := by
  unfold validateMarkerPersistence at h
  obtain ⟨-, h⟩ := ensure_bind.1 h
  obtain ⟨_, -, h⟩ := required_bind.1 h
  obtain ⟨_, -, h⟩ := required_bind.1 h
  obtain ⟨hv, h⟩ := ensure_bind.1 h
  obtain ⟨-, h⟩ := ensure_bind.1 h
  cases h
  exact (Bool.and_eq_true _ _ ▸ hv).1

/-- The kind of a valid target is the one of its action. -/
theorem validTarget_kind {action : Action} {target : Target} (h : validTarget action target) :
    target.kind = .transcript ↔ action = .deleteTranscript := by
  cases action <;> cases hk : target.kind <;> simp [validTarget, hk] at h ⊢

/-- No transition of a transcript leads back to `active`. -/
theorem ne_active_of_validTransition {previous next : Relay.Lifecycle}
    (h : validTransition previous next) : next ≠ .active := by
  cases previous <;> cases next <;> simp [validTransition] at h ⊢

end YukhCoordination.Relay.Lifecycle
