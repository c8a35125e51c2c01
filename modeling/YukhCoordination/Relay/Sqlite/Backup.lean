import YukhCoordination.Relay.Lifecycle.Backup
import YukhCoordination.Relay.Sqlite.Removal

/-!
# Backup evidence and completion

The model of `internal/relay/sqlite/backup_completion.go`: the loads with their integrity checks,
`InspectBackupRecovery`, and the transactions of `BindBackupObligations`, `RecordBackupReceipt` and
`Complete`. Each transaction repeats the reads that its call made before it and compares them; the
values read before are its arguments.
-/

namespace YukhCoordination.Relay.Sqlite

open Lifecycle Transaction

/-! ## Loads -/

/-- `loadObligationSet`. -/
def loadObligationSet (codec : Codec) (operationID : String) (db : Db) :
    Except Lifecycle.Error (Option ObligationSetRow) :=
  match db.obligationSets.find? (·.operationID == operationID) with
  | none => .ok none
  | some row =>
    if canonicalSize (codec.obligationSetSize row.canonicalSet) &&
        validateBackupObligationSet row.canonicalSet &&
        codec.obligationSetDigest row.canonicalSet == row.setDigest then .ok (some row)
    else .error .unavailable

/-- The integrity of an obligation row: its canonical form, its digest and its columns agree. -/
def intactObligation (codec : Codec) (row : ObligationRow) : Bool :=
  canonicalSize (codec.obligationSize row.canonicalObligation) &&
    validateBackupObligation row.canonicalObligation &&
    codec.obligationDigest row.canonicalObligation == row.obligationDigest &&
    row.canonicalObligation.domain == row.domain &&
    row.canonicalObligation.deadline == row.deadline &&
    row.canonicalObligation.bindingKind == row.bindingKind &&
    row.canonicalObligation.bindingDigest == row.bindingDigest

/-- `loadObligation`. -/
def loadObligation (codec : Codec) (operationID : String) (domain : BackupDomain) (db : Db) :
    Except Lifecycle.Error ObligationRow := do
  let row ← required
    (db.obligations.find? fun r => r.operationID == operationID && r.domain == domain) .other
  ensure (intactObligation codec row && row.canonicalObligation.operationID == operationID)
    .unavailable
  return row

/-- The integrity of a receipt row. -/
def intactReceipt (codec : Codec) (row : ReceiptRow) : Bool :=
  canonicalSize (codec.custodianReceiptSize row.canonicalReceipt) &&
    validateCustodianReceipt row.canonicalReceipt &&
    codec.custodianReceiptDigest row.canonicalReceipt == row.receiptDigest &&
    row.canonicalReceipt.receiptID == row.receiptID &&
    row.canonicalReceipt.operationID == row.operationID &&
    row.canonicalReceipt.domain == row.domain &&
    row.canonicalReceipt.evidenceTime == row.evidenceTime &&
    row.canonicalReceipt.outcome == row.outcome

/-- `loadReceiptByID`. -/
def loadReceiptByID (codec : Codec) (receiptID : String) (db : Db) :
    Except Lifecycle.Error (Option ReceiptRow) :=
  match db.receipts.find? (·.receiptID == receiptID) with
  | none => .ok none
  | some row => if intactReceipt codec row then .ok (some row) else .error .unavailable

/-- `loadCompletion`. -/
def loadCompletion (codec : Codec) (operationID : String) (db : Db) :
    Except Lifecycle.Error (Option CompletionRow) :=
  match db.completions.find? (·.operationID == operationID) with
  | none => .ok none
  | some row =>
    if canonicalSize (codec.completionSize row.canonicalCompletion) &&
        validateCompletionEvidence row.canonicalCompletion &&
        codec.completionDigest row.canonicalCompletion == row.completionDigest &&
        row.canonicalCompletion.operationID == operationID &&
        row.canonicalCompletion.completedAt == row.completedAt then .ok (some row)
    else .error .unavailable

/-- The obligations and receipts of an operation. -/
structure BackupEvidence where
  obligations : List BackupObligation
  receipts : List CustodianReceipt
  deriving DecidableEq, Repr

/-- `loadBackupEvidence`: the obligations by domain, the receipts in the order of their
insertion. -/
def loadBackupEvidence (codec : Codec) (operationID : String) (db : Db) :
    Except Lifecycle.Error BackupEvidence := do
  let obligations := (db.obligations.filter (·.operationID == operationID)).insertionSort
    fun r r' => indexDomain r.domain ≤ indexDomain r'.domain
  ensure (obligations.all (intactObligation codec)) .unavailable
  let receipts := db.receipts.filter (·.operationID == operationID)
  ensure (receipts.all (intactReceipt codec)) .unavailable
  return ⟨obligations.map (·.canonicalObligation), receipts.map (·.canonicalReceipt)⟩

/-- `obligationsMatchSet`. -/
def obligationsMatchSet (set : BackupObligationSet) (obligations : List BackupObligation) : Bool :=
  set.obligations == obligations && obligations.all validateBackupObligation

/-- `sameOperationSnapshot`. -/
def sameOperationSnapshot (a b : OperationRow) : Bool :=
  a.intentDigest == b.intentDigest && a.state == b.state && a.canonicalIntent ==
    b.canonicalIntent && a.canonicalMarker == b.canonicalMarker &&
    a.canonicalReceiptPreimage == b.canonicalReceiptPreimage &&
    a.receiptSignature == b.receiptSignature && a.payloadRemovalDigest == b.payloadRemovalDigest

/-- `completionReferencesStored`. -/
def completionReferencesStored (codec : Codec) (evidence : CompletionEvidence)
    (stored : BackupEvidence) : Bool :=
  stored.obligations.length == 3 && stored.receipts.length == 3 && evidence.receipts.length == 3 &&
    evidence.receipts.all fun reference =>
      match lastOfDomain stored.receipts reference.domain,
        stored.obligations[indexDomain reference.domain]? with
      | some receipt, some obligation =>
        validateCustodianReceipt receipt && reference.receiptID == receipt.receiptID &&
          reference.receiptDigest == codec.custodianReceiptDigest receipt &&
          receipt.outcome == .succeeded && receipt.evidenceTime ≤ obligation.deadline &&
          receipt.evidenceTime ≤ evidence.completedAt
      | _, _ => false

/-! ## Recovery -/

/-- The read-only transaction of `InspectBackupRecovery`: the evidence to classify, or nothing where
the recovery is corrupt. -/
def recoveryEvidence (codec : Codec) (reference : OperationReference) (db : Db) :
    Except Lifecycle.Error (Option BackupEvidence) := do
  let operation ← loadFound codec reference.operationID db
  ensure (operation.intentDigest == reference.intentDigest) .conflict
  match loadObligationSet codec reference.operationID db,
    loadCompletion codec reference.operationID db,
    loadBackupEvidence codec reference.operationID db with
  | .ok (some set), .ok completion, .ok evidence =>
    let inState := match completion with
      | none => operation.state == .backupsPending
      | some row => operation.state == .completed &&
          completionReferencesStored codec row.canonicalCompletion evidence
    return if inState && obligationsMatchSet set.canonicalSet evidence.obligations then some
      evidence else none
  | _, _, _ => return none

/-- `corruptRecovery`. -/
def corruptRecovery (reference : OperationReference) : BackupRecovery :=
  ⟨backupRecoveryProfile, reference.operationID, reference.intentDigest, .corrupt,
    some [⟨.event, .invalidEvidence⟩]⟩

/-- `LifecycleBackupCompletion.InspectBackupRecovery`, in a transaction that can be committed or
not. -/
def inspectBackupRecovery {m : Type → Type} [Monad m] (codec : Codec) (verify : CustodianVerifier m)
    (reference : OperationReference) (commits : Bool) (db : Db) :
    m (Except Lifecycle.Error BackupRecovery) :=
  if !validateOperationReference reference then return .error .invalidContract
  else match recoveryEvidence codec reference db with
    | .error error => return .error error
    | .ok none => return .ok (corruptRecovery reference)
    | .ok (some evidence) =>
      if !commits then return .error .unavailable
      else do
        let recovery ← classifyBackupRecovery codec verify reference evidence.obligations
          evidence.receipts
        return .ok (cloneBackupRecovery recovery)

/-! ## Transactions -/

/-- The inserts of `BindBackupObligations` into `lifecycle_backup_obligations`. -/
def insertObligations (codec : Codec) : List BackupObligation → Db → Except Lifecycle.Error Db
  | [], db => .ok db
  | obligation :: obligations, db => do
    ensure (validateBackupObligation obligation) .invalidContract
    let db ← required (db.insertObligation ⟨obligation.operationID, obligation.domain,
      codec.obligationDigest obligation, obligation, obligation.deadline, obligation.bindingKind,
      obligation.bindingDigest⟩) .unavailable
    insertObligations codec obligations db

/-- The transaction of `LifecycleBackupCompletion.BindBackupObligations`. -/
def bindBackupObligations (codec : Codec) (set : BackupObligationSet) (preflight : OperationRow)
    (db : Db) : Except Lifecycle.Error (Operation × Db) := do
  let stored ← loadFound codec set.operationID db
  if stored.state = .backupsPending ∨ stored.state = .completed then
    ensure (match loadObligationSet codec set.operationID db,
        loadBackupEvidence codec set.operationID db with
      | .ok (some concurrent), .ok evidence =>
        concurrent.setDigest == codec.obligationSetDigest set && concurrent.canonicalSet == set &&
          obligationsMatchSet set evidence.obligations
      | _, _ => false) .conflict
    return (stored.operation, db)
  else
    ensure (sameOperationSnapshot preflight stored && stored.state == .payloadRemoved) .conflict
    let db ← required (db.insertObligationSet
      ⟨set.operationID, codec.obligationSetDigest set, set⟩) .conflict
    let db ← insertObligations codec set.obligations db
    let db ← updateOperation set.operationID set.intentDigest .payloadRemoved
      (fun r => { r with state := .backupsPending }) db
    return ({ stored.operation with state := .backupsPending }, db)

/-- The transaction of `LifecycleBackupCompletion.RecordBackupReceipt`. -/
def recordBackupReceipt (codec : Codec) (receipt : CustodianReceipt) (preflight : OperationRow)
    (obligation : ObligationRow) (db : Db) : Except Lifecycle.Error (Operation × Db) := do
  let stored ← loadFound codec receipt.operationID db
  match ← loadReceiptByID codec receipt.receiptID db with
  | some concurrent =>
    ensure (concurrent.receiptDigest == codec.custodianReceiptDigest receipt &&
      concurrent.canonicalReceipt == receipt) .conflict
    return (stored.operation, db)
  | none =>
    ensure (match loadObligation codec receipt.operationID receipt.domain db with
      | .ok current => sameOperationSnapshot preflight stored && stored.state == .backupsPending &&
          current.obligationDigest == obligation.obligationDigest &&
          current.canonicalObligation == obligation.canonicalObligation
      | .error _ => false) .conflict
    let db ← required (db.insertReceipt ⟨receipt.receiptID, codec.custodianReceiptDigest receipt,
      receipt.operationID, receipt.domain, receipt, receipt.evidenceTime, receipt.outcome⟩)
      .conflict
    return (stored.operation, db)

/-- The transaction of `LifecycleBackupCompletion.Complete`. -/
def complete (codec : Codec) (evidence : CompletionEvidence) (preflight : OperationRow)
    (set : ObligationSetRow) (backups : BackupEvidence) (db : Db) :
    Except Lifecycle.Error (Operation × Db) := do
  let stored ← loadFound codec evidence.operationID db
  if stored.state = .completed then
    ensure (match loadCompletion codec evidence.operationID db with
      | .ok (some concurrent) =>
        concurrent.completionDigest == codec.completionDigest evidence &&
          concurrent.canonicalCompletion == evidence
      | _ => false) .conflict
    return (stored.operation, db)
  else
    ensure (match loadObligationSet codec evidence.operationID db with
      | .ok (some current) => sameOperationSnapshot preflight stored &&
          stored.state == .backupsPending && current.setDigest == set.setDigest &&
          current.canonicalSet == set.canonicalSet
      | _ => false) .conflict
    ensure (match loadBackupEvidence codec evidence.operationID db with
      | .ok current => current == backups && completionReferencesStored codec evidence current
      | .error _ => false) .conflict
    let db ← required (db.insertCompletion ⟨evidence.operationID, codec.completionDigest evidence,
      evidence, evidence.completedAt⟩) .conflict
    let db ← updateOperation evidence.operationID evidence.intentDigest .backupsPending
      (fun r => { r with state := .completed }) db
    return ({ stored.operation with state := .completed }, db)

end YukhCoordination.Relay.Sqlite
