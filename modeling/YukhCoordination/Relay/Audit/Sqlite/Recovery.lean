import YukhCoordination.Relay.Audit.Sqlite.Checkpoint

/-!
# Fences, restores and the operational clock

The model of the transactions of `internal/relay/audit/sqlite/recovery.go` and of `RebuildMerkle` of
`internal/relay/audit/sqlite/merkle.go`. Every update of the row of `audit_operational_state` goes
through its `CHECK` constraints and its trigger (`updateOperational`).
-/

namespace YukhCoordination.Relay.Audit.Sqlite

open Lifecycle Coordination Transaction

/-! ## The operational state -/

/-- `GLOB 'audit-recovery:*'` with 58 characters, all of them letters, digits, underscores, colons
and hyphens. -/
def recoveryReferenceGlob (value : String) : Bool :=
  value.toList.length == 58 && value.toList.take 15 == "audit-recovery:".toList &&
    value.toList.all fun c => isUpper c || isLower c || isDigit c || c == '_' || c == ':' ||
      c == '-'

/-- The `CHECK` of a completion receipt. -/
def completionReceiptGlob (value : String) : Bool :=
  1 ≤ value.toList.length && value.toList.length ≤ 256 && value.toList.all fun c =>
    isUpper c || isLower c || isDigit c || c == '.' || c == '_' || c == ':' || c == '/' || c == '-'

section
variable {Hash : Type}

/-- The `CHECK` constraints of `audit_operational_state`. -/
def operationalRow (row : OperationalState Hash) : Bool :=
  row.wallHighWaterMillis ≤ maxJSONSafeSequence &&
    row.acceptedManifestReference.all recoveryReferenceGlob &&
    row.externalCheckpointReference.all checkpointReferenceGlob &&
    row.completionReceipt.all completionReceiptGlob &&
    (row.fenceState != .restoreFenced || (row.restoreBackupDigest.isSome &&
      row.acceptedManifestReference.isNone && row.externalCheckpointReference.isNone &&
      row.completionReceipt.isNone))

variable [DecidableEq Hash]

/-- The rows agree on what a restore has left. -/
def sameRestore (old new : OperationalState Hash) : Bool :=
  new.restoreBackupDigest == old.restoreBackupDigest &&
    new.acceptedManifestReference == old.acceptedManifestReference &&
    new.externalCheckpointReference == old.externalCheckpointReference &&
    new.completionReceipt == old.completionReceipt

/-- What the trigger `audit_operational_state_transition` lets through. -/
def operationalTransition (old new : OperationalState Hash) : Bool :=
  old.wallHighWaterMillis ≤ new.wallHighWaterMillis &&
    match old.fenceState, new.fenceState with
    | .admitted, .admitted => sameRestore old new
    | .admitted, .restoreFenced =>
      new.restoreBackupDigest.isSome && new.acceptedManifestReference.isNone &&
        new.externalCheckpointReference.isNone && new.completionReceipt.isNone
    | .admitted, .clockFenced => sameRestore old new
    | .restoreFenced, .admitted =>
      new.restoreBackupDigest.isSome && new.restoreBackupDigest == old.restoreBackupDigest &&
        new.acceptedManifestReference.isSome && new.externalCheckpointReference.isSome &&
        new.completionReceipt.isSome
    | _, _ => false

/-- `UPDATE audit_operational_state`. -/
def updateOperational (new : OperationalState Hash) (db : Db Hash) : Option (Db Hash) :=
  if operationalTransition db.operational new && operationalRow new then
    some { db with operational := new }
  else none

/-! ## The fence of a restored ledger -/

/-- `fenceRestored`. -/
def fenceRestored (digest : Hash) (db : Db Hash) : Except Error (Unit × Db Hash) :=
  match db.operational.fenceState with
  | .restoreFenced => do
    ensure (db.operational.restoreBackupDigest == some digest) .unavailable
    return ((), db)
  | .clockFenced => .error .unavailable
  | .admitted => do
    let db ← required (updateOperational { db.operational with
      fenceState := .restoreFenced, restoreBackupDigest := some digest
      acceptedManifestReference := none, externalCheckpointReference := none
      completionReceipt := none } db) .unavailable
    return ((), db)

/-! ## The clock -/

/-- `observeOperationalClock`. A clock that is too far back fences the ledger, and the call fails
after it has committed the fence. -/
def observeOperationalClock (now : Time) (tolerance : Duration) (db : Db Hash) :
    Except Error (Option Time × Db Hash) := do
  let nowMillis := now.unixNano / 1000000
  ensure (0 ≤ nowMillis && nowMillis ≤ maxJSONSafeSequence) .unavailable
  ensure (db.operational.fenceState == .admitted) .unavailable
  let high : Int := db.operational.wallHighWaterMillis
  if nowMillis < high - tolerance.tdiv 1000000 then
    -- The errors of the update and of the commit are dropped.
    let fenced := updateOperational { db.operational with fenceState := .clockFenced } db
    return (none, fenced.getD db)
  else
    let nowMillis := max nowMillis high
    let db ← required (updateOperational
      { db.operational with wallHighWaterMillis := nowMillis.toNat } db) .unavailable
    return (some ⟨nowMillis * 1000000, true⟩, db)

variable (codec : Codec Hash)

/-! ## Restores -/

/-- `RestorePlan`, without what is read off its manifest. -/
structure RestorePlan (Hash : Type) where
  manifest : SignedRecoveryManifest Hash
  backupDigest : Hash

/-- The last checks of `ValidateRestore`, on the row that its last query joins. -/
def checkRestore (signed : SignedRecoveryManifest Hash) (metadata : Metadata Hash)
    (state : OperationalState Hash) : Except Error (RestorePlan Hash) := do
  let manifest := signed.manifest
  ensure ((state.fenceState == .restoreFenced || (state.fenceState == .admitted &&
      state.acceptedManifestReference == some signed.reference)) &&
    metadata.ledgerID == manifest.auditBackup.databaseID &&
    manifest.auditBackupTreeHead.size ≤ metadata.merkleSize &&
    state.restoreBackupDigest == some manifest.auditBackup.digest) .unavailable
  ensure (state.fenceState != .restoreFenced ||
    (metadata.merkleSize == manifest.auditBackupTreeHead.size &&
      metadata.merkleRoot == manifest.auditBackupTreeHead.root)) .unavailable
  return ⟨signed, manifest.auditBackup.digest⟩

/-- The record of a restore. -/
def restoreRecord (plan : RestorePlan Hash) (operationID : String) (at_ : Time) : AuditRecord :=
  { ledgerRecord .restoreFence .restoreVerified operationID at_ with
    checkpointReference := plan.manifest.manifest.checkpointReference
    recoveryReference := plan.manifest.reference }

/-- `INSERT INTO audit_recovery_manifests`. -/
def insertManifestRow (row : ManifestRow) (rows : List ManifestRow) : Option (List ManifestRow) :=
  if recoveryReferenceGlob row.manifestReference && uuidGlob row.manifestID &&
      1 ≤ row.canonicalManifest.length && row.canonicalManifest.length ≤ 1048576 &&
      row.signature.length == signatureSize && row.checkpointReference.toList.length == 60 &&
      completionReceiptGlob row.completionReceipt &&
      rows.all fun r => r.manifestReference != row.manifestReference &&
        r.manifestID != row.manifestID && r.canonicalManifest != row.canonicalManifest
  then some (rows ++ [row]) else none

/-- The part of `CommitRestore` for a ledger that is fenced. -/
def admitRestored (plan : RestorePlan Hash) (operationID : String) (canonical : Bytes)
    (db : Db Hash) : Except Error (String × Db Hash) := do
  let (committed, db) ← appendRecord codec operationID canonical db
  let reference := receiptReference codec committed
  let signed := plan.manifest
  let manifests ← required (insertManifestRow ⟨signed.reference, signed.manifest.manifestID,
    signed.canonical, signed.signature, signed.manifest.checkpointReference, reference⟩
    db.manifests) .unavailable
  let db ← required (updateOperational { db.operational with
    fenceState := .admitted, acceptedManifestReference := some signed.reference
    externalCheckpointReference := some signed.manifest.checkpointReference
    completionReceipt := some reference } { db with manifests }) .unavailable
  return (reference, db)

/-- `Ledger.CommitRestore`. -/
def commitRestore (plan : RestorePlan Hash) (operationID : String) (at_ : Time) (db : Db Hash) :
    Except Error (String × Db Hash) := do
  let canonical ← canonicalRecord codec.record (restoreRecord plan operationID at_)
  let state := db.operational
  ensure (state.restoreBackupDigest == some plan.backupDigest) .unavailable
  if state.fenceState = .admitted ∧
      state.acceptedManifestReference = some plan.manifest.reference then
    let receipt ← required state.completionReceipt .unavailable
    return (receipt, db)
  else
    ensure (state.fenceState == .restoreFenced) .unavailable
    admitRestored codec plan operationID canonical db

/-! ## Rebuilding the tree -/

/-- The transaction of `Ledger.RebuildMerkle`: the cache and the root are those of the entries. -/
def rebuildMerkle [Inhabited Hash] (db : Db Hash) : Except Error (Unit × Db Hash) := do
  let state ← orUnavailable (verifiedChainState codec db)
  let coordinates := state.expectedNodes.entries.insertionSort fun e e' =>
    e.1.1 < e'.1.1 ∨ e.1.1 = e'.1.1 ∧ e.1.2 ≤ e'.1.2
  let nodes ← coordinates.foldlM (fun nodes e => insertNode nodes e.1.1 e.1.2 e.2) Dict.empty
  return ((), { db with
    nodes
    metadata := { db.metadata with
      merkleSize := state.count
      merkleRoot := rootFromExpected codec state.expectedNodes state.count } })

end

end YukhCoordination.Relay.Audit.Sqlite
