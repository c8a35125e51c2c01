import Mathlib.Data.String.Basic
import Mathlib.Logic.Function.Basic
import YukhCoordination.Relay.Lifecycle.Validation

/-!
# Backup recovery and completion evidence

The model of `internal/relay/lifecycle/backup.go`. The classification asks the custodian verifier
once for each receipt it reaches, so it runs in the monad of the verifier: a program of the store,
or a pure verifier. A Go map is a function into `Option`, and a `nil` slice of findings is `none`.
-/

namespace YukhCoordination.Relay.Lifecycle

open Transaction

/-- `RecoveryStatus`. -/
inductive RecoveryStatus where
  | pending
  | incident
  | corrupt
  | completable
  deriving DecidableEq, Repr

/-- `RecoveryReason`. -/
inductive RecoveryReason where
  | evidenceMissing
  | receiptFailed
  | deadlineMissed
  | contradictoryEvidence
  | invalidEvidence
  | verificationUnavailable
  deriving DecidableEq, Repr

/-- `RecoveryFinding`. -/
structure RecoveryFinding where
  domain : BackupDomain
  reason : RecoveryReason
  deriving DecidableEq, Repr

/-- `BackupRecovery`. -/
structure BackupRecovery where
  profile : String
  operationID : String
  intentDigest : String
  status : RecoveryStatus
  findings : Option (List RecoveryFinding)
  deriving DecidableEq, Repr

/-- `indexDomain`. -/
def indexDomain : BackupDomain → Nat
  | .event => 0
  | .identity => 1
  | .audit => 2
  | .unknown _ _ => 0

/-- `BackupRecoveryProfile`. -/
def backupRecoveryProfile : String := "yukh-transcript-lifecycle-backup-recovery/v0.1"

/-- The reasons that a recovery of the given status may find. -/
def validReason : RecoveryStatus → RecoveryReason → Bool
  | .pending, reason => reason == .evidenceMissing || reason == .verificationUnavailable
  | .incident, reason => reason != .invalidEvidence
  | .corrupt, reason => reason == .invalidEvidence || reason == .contradictoryEvidence
  | .completable, _ => true

/-- The loop of `ValidateBackupRecovery`: each domain comes after the one of index `last`. -/
def validFindings (status : RecoveryStatus) : Int → List RecoveryFinding → Bool
  | _, [] => true
  | last, finding :: findings =>
    validBackupDomain finding.domain && last < indexDomain finding.domain &&
      validReason status finding.reason && validFindings status (indexDomain finding.domain)
        findings

/-- The reasons of an incident. -/
def RecoveryReason.isIncident (reason : RecoveryReason) : Bool :=
  reason == .receiptFailed || reason == .deadlineMissed || reason == .contradictoryEvidence

/-- `ValidateBackupRecovery`. -/
def validateBackupRecovery (value : BackupRecovery) : Bool :=
  let findings := value.findings.getD []
  value.profile == backupRecoveryProfile &&
    validateOperationReference ⟨value.operationID, value.intentDigest⟩ && findings.length ≤ 3 &&
    validFindings value.status (-1) findings &&
    match value.status with
    | .completable => findings == []
    | .pending => findings != []
    | .incident => findings != [] && findings.any (·.reason.isIncident)
    | .corrupt => true

/-- `CloneBackupRecovery`: appending nothing to a nil slice leaves it nil. -/
def cloneBackupRecovery (value : BackupRecovery) : BackupRecovery :=
  { value with findings := if value.findings.getD [] = [] then none else value.findings }

/-- The value of a `BackupDomain`. -/
def BackupDomain.text : BackupDomain → String
  | .event => "event"
  | .identity => "identity"
  | .audit => "security_audit"
  | .unknown text _ => text

/-- The value of a `RecoveryStatus`. -/
def RecoveryStatus.text : RecoveryStatus → String
  | .pending => "pending"
  | .incident => "incident"
  | .corrupt => "corrupt"
  | .completable => "completable"

/-- The value of a `RecoveryReason`. -/
def RecoveryReason.text : RecoveryReason → String
  | .evidenceMissing => "evidence_missing"
  | .receiptFailed => "receipt_failed"
  | .deadlineMissed => "deadline_missed"
  | .contradictoryEvidence => "contradictory_evidence"
  | .invalidEvidence => "invalid_evidence"
  | .verificationUnavailable => "verification_unavailable"

/-- The JSON of the findings. A nil slice is `null`. -/
def findingsText : Option (List RecoveryFinding) → String
  | none => "null"
  | some findings => "[" ++ String.intercalate "," (findings.map fun finding =>
      "\x7b\"domain\":\"" ++ finding.domain.text ++ "\",\"reason\":\"" ++ finding.reason.text ++
        "\"\x7d") ++ "]"

/-- `canonical` of a recovery, with the members in the order of their names. The strings of a valid
recovery have no character that JSON escapes. -/
def canonicalText (value : BackupRecovery) : String :=
  "\x7b\"findings\":" ++ (findingsText value.findings ++ (",\"intent_digest\":\"" ++
    value.intentDigest ++ "\",\"operation_id\":\"" ++ value.operationID ++ "\",\"profile\":\"" ++
    value.profile ++ "\",\"status\":\"" ++ value.status.text ++ "\"\x7d"))

/-- `CanonicalBackupRecovery`, with the digest of a preimage. -/
def canonicalBackupRecovery (digest : String → String) (value : BackupRecovery) :
    Except Error (String × String) := do
  ensure (validateBackupRecovery value) .invalidContract
  let body := canonicalText value
  return (body, digest ("yukh.transcript-lifecycle-backup-recovery.v0.1\x00" ++ body))

/-- In the canonical form of a recovery, `findings` is an array. -/
def FindingsArray (body : String) : Prop := ∃ rest, body = "\x7b\"findings\":[" ++ rest

/-- The public verification authority over custodian receipts: the key id, the algorithm, the signed
bytes and the signature of a receipt. -/
abbrev CustodianVerifier (m : Type → Type) :=
  String → String → Bytes → String → m (Except Error Unit)

section
variable (codec : Codec) {m : Type → Type} [Monad m] (verify : CustodianVerifier m)

/-- `ValidateCustodianReceiptSignature`. -/
def validateCustodianReceiptSignature (value : CustodianReceipt) : m (Except Error Unit) :=
  match canonicalCustodianReceipt codec value with
  | .error err => return .error err
  | .ok (_, signing) => do
    match ← verify value.verificationKeyID value.signatureAlgorithm signing
        value.detachedSignature with
    | .ok () => return .ok ()
    | .error .unavailable => return .error .unavailable
    | .error _ => return .error .invalidContract

/-- `ValidateCustodianReceiptRetry`. -/
def validateCustodianReceiptRetry (original retry : CustodianReceipt) : Except Error Unit :=
  match canonicalCustodianReceipt codec original, canonicalCustodianReceipt codec retry with
  | .ok (originalDigest, _), .ok (retryDigest, _) =>
    ensure (original.receiptID == retry.receiptID && originalDigest == retryDigest) .conflict
  | _, _ => .error .invalidContract

/-- The maps of `ClassifyBackupRecovery`. -/
structure Tally where
  seen : BackupDomain → Option CustodianReceipt := fun _ => none
  incidents : BackupDomain → Option RecoveryReason := fun _ => none
  pending : BackupDomain → Option RecoveryReason := fun _ => none
  receiptIDs : String → Option BackupDomain := fun _ => none

/-- The checks of a receipt before its signature. An error is the findings of a corrupt result. -/
def Tally.enter (tally : Tally) (obligation : BackupObligation) (receipt : CustodianReceipt) :
    Except (Option (List RecoveryFinding)) Tally :=
  if (tally.receiptIDs receipt.receiptID).any (· != receipt.domain) then .error none
  else if (validateReceiptObligation receipt obligation (codec.obligationDigest obligation)).isOk
  then .ok { tally with
    receiptIDs := Function.update tally.receiptIDs receipt.receiptID (some receipt.domain) }
  else .error (some [⟨receipt.domain, .invalidEvidence⟩])

/-- What a receipt whose signature was checked adds to the tally. -/
def Tally.count (tally : Tally) (deadline : String) (receipt : CustodianReceipt) :
    Except Error Unit → Except (Option (List RecoveryFinding)) Tally
  | .error .unavailable => .ok { tally with
      pending := Function.update tally.pending receipt.domain (some .verificationUnavailable) }
  | .error _ => .error (some [⟨receipt.domain, .invalidEvidence⟩])
  | .ok () =>
    match tally.seen receipt.domain with
    | some previous =>
      if (validateCustodianReceiptRetry codec previous receipt).isOk then .ok tally
      else .ok { tally with
        incidents := Function.update tally.incidents receipt.domain (some .contradictoryEvidence) }
    | none =>
      let tally := { tally with
        seen := Function.update tally.seen receipt.domain (some receipt) }
      match receipt.outcome with
      | .failed => .ok { tally with
          incidents := Function.update tally.incidents receipt.domain (some .receiptFailed) }
      | .succeeded =>
        if deadline < receipt.evidenceTime then .ok { tally with
          incidents := Function.update tally.incidents receipt.domain (some .deadlineMissed) }
        else .ok tally

/-- The loop of `ClassifyBackupRecovery` over the receipts. -/
def Tally.countAll (obligations : List BackupObligation) :
    List CustodianReceipt → Tally → m (Except (Option (List RecoveryFinding)) Tally)
  | [], tally => return .ok tally
  | receipt :: receipts, tally =>
    if !validBackupDomain receipt.domain then return .error none
    else match obligations[indexDomain receipt.domain]? with
    | none => return .error none
    | some obligation =>
      match tally.enter codec obligation receipt with
      | .error findings => return .error findings
      | .ok tally => do
        let signature ← validateCustodianReceiptSignature codec verify receipt
        match tally.count codec obligation.deadline receipt signature with
        | .error findings => return .error findings
        | .ok tally => Tally.countAll obligations receipts tally

/-- The finding of one domain. -/
def Tally.finding (tally : Tally) (domain : BackupDomain) : Option RecoveryFinding :=
  match tally.incidents domain, tally.pending domain, tally.seen domain with
  | some reason, _, _ => some ⟨domain, reason⟩
  | none, some reason, _ => some ⟨domain, reason⟩
  | none, none, none => some ⟨domain, .evidenceMissing⟩
  | none, none, some _ => none

/-- The checks of `ClassifyBackupRecovery` on its obligations. -/
def obligationsOf (reference : OperationReference) (obligations : List BackupObligation) : Bool :=
  validateOperationReference reference && obligations.map (·.domain) == backupDomains &&
    obligations.all fun obligation =>
      validateBackupObligation obligation && obligation.operationID == reference.operationID &&
        obligation.intentDigest == reference.intentDigest &&
        some obligation.policyDigest == obligations.head?.map (·.policyDigest)

/-- `ClassifyBackupRecovery`. -/
def classifyBackupRecovery (reference : OperationReference) (obligations : List BackupObligation)
    (receipts : List CustodianReceipt) : m BackupRecovery :=
  let result (status : RecoveryStatus) (findings : Option (List RecoveryFinding)) :
      BackupRecovery :=
    ⟨backupRecoveryProfile, reference.operationID, reference.intentDigest, status, findings⟩
  if !obligationsOf reference obligations then return result .corrupt none
  else do
    match ← Tally.countAll codec verify obligations receipts {} with
    | .error findings => return result .corrupt findings
    | .ok tally =>
      let findings := backupDomains.filterMap tally.finding
      if backupDomains.any fun domain => (tally.incidents domain).isSome then
        return result .incident (some findings)
      else if findings != [] then return result .pending (some findings)
      else return result .completable (some [])

/-- The receipt of a domain in the map that a loop over the receipts fills: the last one. -/
def lastOfDomain (receipts : List CustodianReceipt) (domain : BackupDomain) :
    Option CustodianReceipt :=
  receipts.reverse.find? (·.domain == domain)

/-- `ValidateCompletionAgainst`. -/
def validateCompletionAgainst (evidence : CompletionEvidence) (obligations : List BackupObligation)
    (receipts : List CustodianReceipt) : m (Except Error Unit) :=
  if !validateCompletionEvidence evidence then return .error .invalidContract
  else do
    let recovery ← classifyBackupRecovery codec verify
      ⟨evidence.operationID, evidence.intentDigest⟩ obligations receipts
    if recovery.status != .completable then return .error .conflict
    return ensure (evidence.receipts.all fun reference =>
      match lastOfDomain receipts reference.domain with
      | none => false
      | some receipt => validateCustodianReceipt receipt &&
          receipt.receiptID == reference.receiptID &&
          codec.custodianReceiptDigest receipt == reference.receiptDigest &&
          receipt.operationID == evidence.operationID &&
          receipt.intentDigest == evidence.intentDigest &&
          receipt.policyDigest == evidence.policyDigest &&
          receipt.evidenceTime ≤ evidence.completedAt) .conflict

end

end YukhCoordination.Relay.Lifecycle
