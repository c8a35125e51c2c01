import YukhCoordination.Relay.Audit.Sqlite.Ledger

/-!
# Verification of the signed evidence of the ledger

The model of the verification in `internal/relay/audit/sqlite/checkpoint.go` and
`internal/relay/audit/sqlite/recovery.go`, of `Ledger.Verify` as a whole, and of
`Ledger.InstallVerificationKey`.

`json_extract` reads a member of a stored record; every stored record is JSON, so its error is left
out. `Ledger.Verify` is a function of one state of the database.
-/

namespace YukhCoordination.Relay.Audit.Sqlite

open Lifecycle Coordination Transaction

/-- The reference of a version of a key: `fmt.Sprintf("signing-key:%s:%d", keyID, version)`. -/
def signingKeyReference (keyID : String) (version : Nat) : String :=
  "signing-key:" ++ keyID ++ ":" ++ toString version

/-- `recoveryReceiptPattern`: `audit:` and then 1 to 250 letters, digits, points, underscores,
colons, slashes and hyphens. -/
def recoveryReceiptPattern (value : String) : Bool :=
  let rest := value.toList.drop 6
  value.toList.take 6 == "audit:".toList && 1 ≤ rest.length && rest.length ≤ 250 &&
    rest.all fun c => isUpper c || isLower c || isDigit c || c == '.' || c == '_' || c == ':' ||
      c == '/' || c == '-'

/-- A statement may come after another one of its key. -/
def follows (previous statement : VerificationKeyStatement) : Bool :=
  previous.version < statement.version && statement.publicKey == previous.publicKey &&
    statement.activeFrom == previous.activeFrom && !statement.issuedAt.before previous.issuedAt

/-- The order of `ORDER BY key_id, version`. -/
def KeyRow.le (row row' : KeyRow) : Prop :=
  row.keyID < row'.keyID ∨ row.keyID = row'.keyID ∧ row.version ≤ row'.version

instance : DecidableRel KeyRow.le := fun _ _ => inferInstanceAs (Decidable (_ ∨ _))

section
variable {Hash : Type} (codec : Codec Hash)

/-! ## Reading -/

/-- The stored record is one of a key's lifecycle, with the given reference. -/
def Entry.covers (entry : Entry Hash) (reference : String) : Bool :=
  (codec.record.decode entry.canonicalRecord).any fun value =>
    value.operationKind == AuditOperation.keyLifecycle.text &&
      value.signingKeyReference == reference

/-- The stored statement of a key with the highest version. -/
def Db.latestRow (db : Db Hash) (keyID : String) : Option KeyRow :=
  ((db.keyStatements.filter (·.keyID == keyID)).insertionSort
    fun row row' => row'.version ≤ row.version).head?

/-- `latestKeyFromDB`. -/
def latestKeyFromDB (db : Db Hash) (keyID : String) (authority : Bytes) :
    Except Error VerificationKeyStatement := do
  let row ← required (db.latestRow keyID) .unavailable
  verifyKeyStatement codec authority row.canonicalStatement row.authoritySignature

/-- `scanCheckpoint`. -/
def scanCheckpoint (row : CheckpointRow) : Except Error (SignedCheckpoint Hash × Nat) := do
  let checkpoint ← parseCanonicalCheckpoint codec row.canonicalCheckpoint
  let expected ← checkpointReference codec row.canonicalCheckpoint row.signature
  ensure (expected == row.checkpointReference) .unavailable
  return (⟨checkpoint, row.canonicalCheckpoint, row.signature, row.checkpointReference⟩,
    row.keyVersion)

/-- `readCheckpoint`. -/
def readCheckpoint (db : Db Hash) (reference : String) :
    Except Error (SignedCheckpoint Hash × Nat) := do
  let row ← required (db.checkpoints.find? (·.checkpointReference == reference)) .unavailable
  scanCheckpoint codec row

/-! ## Key statements -/

/-- What the loop of `verifyCheckpointState` over the statements carries. -/
structure KeyState where
  keys : Dict (String × Nat) VerificationKeyStatement
  latest : Dict String VerificationKeyStatement
  keyReferences : List String

/-- One row of the loop over the statements. -/
def verifyKeyRow (authority : Bytes) (state : KeyState) (row : KeyRow) : Except Error KeyState := do
  let statement ← verifyKeyStatement codec authority row.canonicalStatement row.authoritySignature
  ensure (statement.keyID == row.keyID && statement.version == row.version) .unavailable
  ensure ((state.latest.get? row.keyID).all fun previous => follows previous statement) .unavailable
  return ⟨state.keys.set (row.keyID, row.version) statement, state.latest.set row.keyID statement,
    state.keyReferences ++ [signingKeyReference row.keyID row.version]⟩

/-- The statements in the order in which they are verified. -/
def Db.orderedKeys (db : Db Hash) : List KeyRow := db.keyStatements.insertionSort KeyRow.le

/-- The loop over the statements. -/
def verifyKeys (authority : Bytes) (db : Db Hash) : Except Error KeyState :=
  db.orderedKeys.foldlM (verifyKeyRow codec authority) ⟨Dict.empty, Dict.empty, []⟩

/-- Every statement is covered by exactly one record. -/
def verifyCoverage (db : Db Hash) (keyReferences : List String) : Except Error Unit :=
  ensure (keyReferences.all fun reference =>
    db.entries.countP (Entry.covers codec · reference) == 1) .unavailable

/-! ## Checkpoints -/

/-- The checkpoints in the order of their tree sizes. -/
def Db.orderedCheckpoints (db : Db Hash) : List CheckpointRow :=
  db.checkpoints.insertionSort fun row row' => row.treeSize ≤ row'.treeSize

variable [DecidableEq Hash]

/-- The checks of a stored checkpoint against the entry that it covers. -/
def verifyCovered (db : Db Hash) (row : CheckpointRow) (checkpoint : Checkpoint Hash) :
    Except Error Unit := do
  let root ← subtreeHash codec db.nodes 0 row.treeSize
  ensure (root == checkpoint.rootHash) .unavailable
  let entry ← required (db.entries.find? (·.sequence == row.treeSize)) .unavailable
  ensure (entry.chainDigest == checkpoint.chainHead) .unavailable
  validateCanonicalRecord codec.record entry.canonicalRecord
  let coverage ← required (codec.record.decode entry.canonicalRecord) .unavailable
  ensure (coverage.operationKind == AuditOperation.checkpoint.text &&
    coverage.decisionTime == formatMillis checkpoint.issuedAt &&
    coverage.signingKeyReference == signingKeyReference checkpoint.keyID row.keyVersion)
      .unavailable

/-- One row of the loop over the checkpoints, with the reference and the size of the one before. -/
def verifyCheckpointRow (db : Db Hash) (keys : KeyState) (previous : String × Nat)
    (row : CheckpointRow) : Except Error (String × Nat) := do
  ensure (previous.2 < row.treeSize) .unavailable
  let checkpoint ← parseCanonicalCheckpoint codec row.canonicalCheckpoint
  ensure (checkpoint.treeSize == row.treeSize && checkpoint.keyID == row.keyID &&
    checkpoint.predecessorReference == previous.1) .unavailable
  let expectedReference ← checkpointReference codec row.canonicalCheckpoint row.signature
  ensure (expectedReference == row.checkpointReference) .unavailable
  verifyCovered codec db row checkpoint
  let statement ← required (keys.keys.get? (row.keyID, row.keyVersion)) .unavailable
  let signed : SignedCheckpoint Hash :=
    ⟨checkpoint, row.canonicalCheckpoint, row.signature, row.checkpointReference⟩
  let _ ← verifySignedCheckpoint codec signed statement
  let current ← required (keys.latest.get? row.keyID) .unavailable
  let _ ← verifySignedCheckpoint codec signed current
  return (row.checkpointReference, row.treeSize)

/-- One row of the loop over the acknowledgements. -/
def verifyWitnessRow (row : WitnessRow Hash) : Except Error Unit := do
  validateWitnessAcknowledgement codec row.witnessID row.checkpointReference
    row.canonicalAcknowledgement
  ensure (row.acknowledgementDigest == codec.sha256 (.witness row.canonicalAcknowledgement))
    .unavailable

/-- `verifyCheckpointState`. -/
def verifyCheckpointState (db : Db Hash) : Except Error Unit :=
  match db.authority with
  | none =>
    ensure (db.keyStatements.length + db.checkpoints.length + db.witnesses.length == 0) .unavailable
  | some authority => do
    ensure (authority.length == publicKeySize) .unavailable
    let keys ← orUnavailable (verifyKeys codec authority db)
    verifyCoverage codec db keys.keyReferences
    let _ ← orUnavailable (db.orderedCheckpoints.foldlM (verifyCheckpointRow codec db keys) ("", 0))
    orUnavailable (db.witnesses.forM (verifyWitnessRow codec))

/-! ## Recovery -/

/-- One row of the loop of `verifyRecoveryState` over the manifests. -/
def verifyManifestRow (db : Db Hash) (authority : Bytes) (row : ManifestRow) :
    Except Error Unit := do
  ensure (recoveryReceiptPattern row.completionReceipt) .unavailable
  let manifest ← parseCanonicalRecoveryManifest codec row.canonicalManifest
  ensure (manifest.manifestID == row.manifestID &&
    manifest.checkpointReference == row.checkpointReference) .unavailable
  let reference ← recoveryManifestReference codec row.canonicalManifest row.signature
  ensure (reference == row.manifestReference) .unavailable
  let manifestKey ← latestKeyFromDB codec db manifest.keyID authority
  let (checkpoint, checkpointVersion) ← readCheckpoint codec db manifest.checkpointReference
  let checkpointKey ← latestKeyFromDB codec db checkpoint.checkpoint.keyID authority
  ensure (checkpointVersion ≤ checkpointKey.version) .unavailable
  verifySignedRecoveryManifest codec
    ⟨manifest, row.canonicalManifest, row.signature, row.manifestReference⟩ manifestKey checkpoint
    checkpointKey

omit [DecidableEq Hash] in
/-- The checks of `verifyRecoveryState` on the row of the operational state. -/
def verifyOperational (state : OperationalState Hash) (manifests : List ManifestRow) : Bool :=
  match state.acceptedManifestReference with
  | some accepted =>
    state.restoreBackupDigest.isSome && manifests.getLast?.any fun latest =>
      latest.manifestReference == accepted &&
        latest.checkpointReference == state.externalCheckpointReference.getD "" &&
        latest.completionReceipt == state.completionReceipt.getD ""
  | none =>
    state.externalCheckpointReference.isNone && state.completionReceipt.isNone &&
      (state.fenceState == .restoreFenced ||
        (state.restoreBackupDigest.isNone && manifests.length == 0))

/-- `verifyRecoveryState`. -/
def verifyRecoveryState (db : Db Hash) : Except Error Unit := do
  let state := db.operational
  ensure (state.wallHighWaterMillis ≤ maxJSONSafeSequence) .unavailable
  ensure (state.fenceState != .restoreFenced || (state.restoreBackupDigest.isSome &&
    state.acceptedManifestReference.isNone && state.externalCheckpointReference.isNone &&
    state.completionReceipt.isNone)) .unavailable
  if db.manifests.length > 0 then
    let authority ← required db.authority .unavailable
    ensure (authority.length == publicKeySize) .unavailable
    orUnavailable (db.manifests.forM (verifyManifestRow codec db authority))
  ensure (verifyOperational state db.manifests) .unavailable

/-- `Ledger.Verify`. -/
def verify [Inhabited Hash] (db : Db Hash) : Except Error Unit := do
  verifyChain codec db
  verifyCheckpointState codec db
  verifyRecoveryState codec db

/-! ## Installing a key statement -/

omit [DecidableEq Hash] in
/-- `pinAuthority`. -/
def pinAuthority (authority : Bytes) (db : Db Hash) : Except Error (Db Hash) := do
  ensure (authority.length == publicKeySize) .unavailable
  match db.authority with
  | some existing =>
    ensure (existing == authority) .conflict
    return db
  | none => return { db with authority := some authority }

/-- `INSERT INTO audit_verification_key_statements`. -/
def insertKeyRow (row : KeyRow) (rows : List KeyRow) : Option (List KeyRow) :=
  if 1 ≤ row.keyID.length && row.keyID.length ≤ 128 &&
      (row.keyID.toList.all fun c => isUpper c || isLower c || isDigit c || c == '.' || c == '_' ||
        c == ':' || c == '-') && 0 < row.version && row.version ≤ maxJSONSafeSequence &&
      1 ≤ row.canonicalStatement.length && row.canonicalStatement.length ≤ 4096 &&
      row.authoritySignature.length == signatureSize &&
      rows.all fun r => !(r.keyID == row.keyID && r.version == row.version) &&
        r.canonicalStatement != row.canonicalStatement
  then some (rows ++ [row]) else none

/-- A record that the ledger makes itself, without the members that only some of them have. -/
def ledgerRecord (operation : AuditOperation) (reason : AuditReason) (operationID : String)
    (decisionTime : Time) : AuditRecord where
  profileVersion := 1
  operationID := operationID
  operation := operation
  outcome := .allow
  reason := reason
  decisionTime := decisionTime
  tenantID := ""
  principalID := ""
  participantInstanceID := ""
  sessionEpoch := 0
  dpopThumbprint := .zero
  hasDPoPThumbprint := false
  authorityReference := ""
  jwksSetDigest := .zero
  hasJWKSSetDigest := false
  checkpointReference := ""
  signingKeyReference := ""
  recoveryReference := ""
  serviceProfile := ""
  action := ""
  identityReference := ""

/-- The record of an installed statement. -/
def keyLifecycleRecord (statement : VerificationKeyStatement) (operationID : String)
    (recordedAt : Time) (authorityReference : String) : AuditRecord :=
  { ledgerRecord .keyLifecycle .keyLifecycleCommitted operationID recordedAt with
    authorityReference
    signingKeyReference := signingKeyReference statement.keyID statement.version }

/-- The branch of `InstallVerificationKey` for the version that is stored: the same statement with
the same record is a retry. -/
def reinstall (signed : SignedVerificationKeyStatement) (statement : VerificationKeyStatement)
    (previous : KeyRow) (operationID : String) (canonical : Bytes) (db : Db Hash) :
    Except Error (Unit × Db Hash) := do
  let stored ← required (db.keyStatements.find? fun row =>
    row.keyID == statement.keyID && row.version == statement.version) .conflict
  ensure (previous.canonicalStatement == signed.canonical &&
    stored.authoritySignature == signed.signature) .conflict
  let covering ← required (db.entries.find?
    (Entry.covers codec · (signingKeyReference statement.keyID statement.version))) .conflict
  ensure (covering.canonicalRecord == canonical) .conflict
  let (_, db) ← appendRecord codec operationID canonical db
  return ((), db)

/-- The checks of `InstallVerificationKey` of a new version against the one before. -/
def checkSuccessor (previous : KeyRow) (statement : VerificationKeyStatement) :
    Except Error Unit := do
  ensure (previous.version ≤ statement.version) .conflict
  let parsed ← orUnavailable
    (parseCanonicalVerificationKeyStatement codec previous.canonicalStatement)
  ensure (parsed.publicKey == statement.publicKey && statement.activeFrom == parsed.activeFrom &&
    !statement.issuedAt.before parsed.issuedAt) .unavailable

/-- The end of `InstallVerificationKey` for a version that is not stored. -/
def installNew (signed : SignedVerificationKeyStatement) (statement : VerificationKeyStatement)
    (operationID : String) (canonical : Bytes) (db : Db Hash) : Except Error (Unit × Db Hash) := do
  let keyStatements ← required (insertKeyRow
    ⟨statement.keyID, statement.version, signed.canonical, signed.signature⟩ db.keyStatements)
    .unavailable
  let (_, db) ← appendRecord codec operationID canonical { db with keyStatements }
  return ((), db)

/-- `Ledger.InstallVerificationKey`. -/
def installVerificationKey (signed : SignedVerificationKeyStatement) (authority : Bytes)
    (operationID : String) (recordedAt : Time) (authorityReference : String) (db : Db Hash) :
    Except Error (Unit × Db Hash) := do
  let statement ← orUnavailable
    (verifyKeyStatement codec authority signed.canonical signed.signature)
  requireAdmitted db
  let db ← pinAuthority authority db
  let canonical ← canonicalRecord codec.record
    (keyLifecycleRecord statement operationID recordedAt authorityReference)
  match db.latestRow statement.keyID with
  | some previous =>
    if statement.version = previous.version then
      reinstall codec signed statement previous operationID canonical db
    else
      checkSuccessor codec previous statement
      installNew codec signed statement operationID canonical db
  | none => installNew codec signed statement operationID canonical db

end

end YukhCoordination.Relay.Audit.Sqlite
