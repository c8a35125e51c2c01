import YukhCoordination.Relay.Audit.Sqlite.Verify

/-!
# Checkpoints and witnesses of the ledger

The model of `CreateCheckpoint` and `WitnessCheckpoint` of
`internal/relay/audit/sqlite/checkpoint.go` and of the proofs of
`internal/relay/audit/sqlite/merkle.go`, as far as they are functions of what one statement or one
transaction sees. The parts of `checkpointCandidate` take the rows that its queries return;
`commitCheckpoint` is the transaction.
-/

namespace YukhCoordination.Relay.Audit.Sqlite

open Lifecycle Coordination Transaction

/-! ## Signers and witnesses -/

/-- `CheckpointSigningSelection`. -/
structure CheckpointSigningSelection where
  keyID : String
  algorithm : String
  deriving DecidableEq, Repr

/-- `CheckpointSigner`: what it selects and signs, if it does not fail. -/
structure CheckpointSigner where
  select : Option CheckpointSigningSelection
  sign : CheckpointSigningSelection → Message → Option Bytes

/-- `WitnessAcknowledgement`. -/
structure WitnessAcknowledgement where
  checkpointReference : String
  witnessID : String
  canonical : Bytes
  deriving DecidableEq, Repr

/-- The record of a checkpoint. -/
def checkpointRecord (keyID : String) (keyVersion : Nat) (operationID : String) (issuedAt : Time) :
    AuditRecord :=
  { ledgerRecord .checkpoint .checkpointCommitted operationID issuedAt with
    signingKeyReference := signingKeyReference keyID keyVersion }

section
variable {Hash : Type} (codec : Codec Hash)

/-! ## Candidates -/

/-- `checkpointCandidate` for an operation that is recorded, with the row of `readCheckpointAtSize`:
the stored checkpoint. -/
def retryCandidate (issuedAt : Time) (selection : CheckpointSigningSelection)
    (row : Option CheckpointRow) : Except Error (Checkpoint Hash) := do
  let row ← required row .unavailable
  let (signed, _) ← orUnavailable (scanCheckpoint codec row)
  ensure (signed.checkpoint.issuedAt == issuedAt && signed.checkpoint.keyID == selection.keyID &&
    signed.checkpoint.algorithm == selection.algorithm) .unavailable
  return signed.checkpoint

/-- The predecessor of a new checkpoint: the reference of the last one, which is not issued later.
`json_extract` reads the time. -/
def predecessorReference (issuedAt : Time) (row : Option CheckpointRow) : Except Error String :=
  match row with
  | none => .ok ""
  | some row => do
    let document ← required (codec.checkpoint.decode row.canonicalCheckpoint) .unavailable
    let parsed ← required (parseTime document.issuedAt) .unavailable
    ensure (!issuedAt.before ⟨parsed * millisecond, true⟩) .unavailable
    return row.checkpointReference

/-- The loop of `checkpointCandidate` over the entries. -/
def candidateLeaves (entries : List (Entry Hash)) : Except Error (List Hash) :=
  entries.foldlM (fun leaves entry => do
    ensure (entry.sequence == leaves.length + 1) .unavailable
    let leaf ← orUnavailable (merkleLeafHash codec.sha256 entry.sequence entry.chainDigest)
    return leaves ++ [leaf]) []

/-- The end of `checkpointCandidate`: the checkpoint over the entries and the record that its commit
appends. -/
def nextCandidate (issuedAt : Time) (selection : CheckpointSigningSelection)
    (canonicalRecord : Bytes) (metadata : Metadata Hash) (predecessor : String)
    (entries : List (Entry Hash)) : Except Error (Checkpoint Hash) := do
  let leaves ← candidateLeaves codec entries
  ensure (leaves.length == metadata.merkleSize) .unavailable
  let chainHead ← chainDigest codec.sha256 (metadata.merkleSize + 1) metadata.chainHead
    (recordDigest codec.sha256 canonicalRecord)
  let leaf ← merkleLeafHash codec.sha256 (metadata.merkleSize + 1) chainHead
  return ⟨metadata.ledgerID, metadata.merkleSize + 1, merkleRoot codec.sha256 (leaves ++ [leaf]),
    chainHead, issuedAt, selection.algorithm, selection.keyID, predecessor⟩

/-- The part of `CreateCheckpoint` that signs a candidate. -/
def signCandidate [DecidableEq Hash] (signer : CheckpointSigner)
    (selection : CheckpointSigningSelection) (statement : VerificationKeyStatement)
    (checkpoint : Checkpoint Hash) : Except Error (SignedCheckpoint Hash) := do
  let canonical ← canonicalCheckpoint codec checkpoint
  let signature ← required (signer.sign selection (.checkpoint canonical)) .unavailable
  ensure (signature.length == signatureSize) .unavailable
  let reference ← checkpointReference codec canonical signature
  let signed : SignedCheckpoint Hash := ⟨checkpoint, canonical, signature, reference⟩
  let trust ← orUnavailable (verifySignedCheckpoint codec signed statement)
  ensure (trust == .trusted) .unavailable
  return signed

/-! ## The commit -/

/-- The last checkpoint with a smaller tree. -/
def Db.checkpointBelow (db : Db Hash) (treeSize : Nat) : Option CheckpointRow :=
  (db.orderedCheckpoints.filter (·.treeSize < treeSize)).getLast?

/-- `GLOB 'audit-checkpoint:*'` with 60 characters, all of them letters, digits, underscores, colons
and hyphens. -/
def checkpointReferenceGlob (value : String) : Bool :=
  value.toList.length == 60 && value.toList.take 17 == "audit-checkpoint:".toList &&
    value.toList.all fun c => isUpper c || isLower c || isDigit c || c == '_' || c == ':' ||
      c == '-'

/-- `INSERT INTO audit_checkpoints`. The predecessor is the one in the document of the row, and two
of them are equal only if they are `NULL`. -/
def insertCheckpointRow (row : CheckpointRow) (predecessor : String) (db : Db Hash) :
    Option (List CheckpointRow) :=
  if checkpointReferenceGlob row.checkpointReference && 0 < row.treeSize &&
      row.treeSize ≤ maxJSONSafeSequence && 1 ≤ row.keyID.length && row.keyID.length ≤ 128 &&
      (row.keyID.toList.all fun c => isUpper c || isLower c || isDigit c || c == '.' || c == '_' ||
        c == ':' || c == '-') && 0 < row.keyVersion && row.keyVersion ≤ maxJSONSafeSequence &&
      1 ≤ row.canonicalCheckpoint.length && row.canonicalCheckpoint.length ≤ 4096 &&
      row.signature.length == signatureSize &&
      (db.keyStatements.any fun key => key.keyID == row.keyID && key.version == row.keyVersion) &&
      db.checkpoints.all fun r => r.checkpointReference != row.checkpointReference &&
        r.treeSize != row.treeSize && r.canonicalCheckpoint != row.canonicalCheckpoint &&
        (predecessor == "" || (codec.checkpoint.decode r.canonicalCheckpoint).all
          fun document => document.predecessorReference != predecessor)
  then some (db.checkpoints ++ [row]) else none

/-- `commitCheckpoint`. Where the checkpoint is stored already, the transaction is rolled back. -/
def commitCheckpoint [DecidableEq Hash] (signed : SignedCheckpoint Hash) (keyVersion : Nat)
    (operationID : String) (canonicalRecord : Bytes) (db : Db Hash) :
    Except Error (SignedCheckpoint Hash × Db Hash) := do
  requireAdmitted db
  let (_, appended) ← appendRecord codec operationID canonicalRecord db
  let checkpoint := signed.checkpoint
  let metadata := appended.metadata
  ensure (metadata.ledgerID == checkpoint.ledgerID && metadata.merkleSize == checkpoint.treeSize &&
    metadata.merkleRoot == checkpoint.rootHash && metadata.chainHead == checkpoint.chainHead)
    .unavailable
  let latest := (appended.checkpointBelow checkpoint.treeSize).elim "" (·.checkpointReference)
  ensure (latest == checkpoint.predecessorReference) .unavailable
  match appended.checkpoints.find? (·.treeSize == metadata.merkleSize) with
  | some row =>
    ensure (row.checkpointReference == signed.reference &&
      row.canonicalCheckpoint == signed.canonical && row.signature == signed.signature) .conflict
    return (signed, db)
  | none =>
    let checkpoints ← required (insertCheckpointRow codec ⟨signed.reference, metadata.merkleSize,
      checkpoint.keyID, keyVersion, signed.canonical, signed.signature⟩
      checkpoint.predecessorReference appended) .unavailable
    return (signed, { appended with checkpoints })

/-! ## Acknowledgements -/

/-- The checks of `WitnessCheckpoint` on an acknowledgement. -/
def checkAcknowledgement (verifyWitness : WitnessAcknowledgement → Bool) (reference : String)
    (ack : WitnessAcknowledgement) : Except Error Unit := do
  ensure (ack.checkpointReference == reference) .unavailable
  orUnavailable (validateWitnessAcknowledgement codec ack.witnessID ack.checkpointReference
    ack.canonical)
  ensure (verifyWitness ack) .unavailable

/-- `INSERT INTO audit_witness_acknowledgements`. -/
def insertWitnessRow [DecidableEq Hash] (row : WitnessRow Hash) (db : Db Hash) :
    Option (List (WitnessRow Hash)) :=
  if 1 ≤ row.witnessID.length && row.witnessID.length ≤ 128 &&
      (row.witnessID.toList.all fun c => isUpper c || isLower c || isDigit c || c == '.' ||
        c == '_' || c == ':' || c == '-') &&
      1 ≤ row.canonicalAcknowledgement.length && row.canonicalAcknowledgement.length ≤ 16384 &&
      (db.checkpoints.any fun r => r.checkpointReference == row.checkpointReference) &&
      db.witnesses.all fun r => !(r.witnessID == row.witnessID &&
        r.checkpointReference == row.checkpointReference) &&
        r.acknowledgementDigest != row.acknowledgementDigest
  then some (db.witnesses ++ [row]) else none

/-- The transaction of `WitnessCheckpoint`. -/
def storeWitness [DecidableEq Hash] (ack : WitnessAcknowledgement) (db : Db Hash) :
    Except Error (WitnessAcknowledgement × Db Hash) := do
  requireAdmitted db
  let digest := codec.sha256 (.witness ack.canonical)
  match db.witnesses.find? fun row => row.witnessID == ack.witnessID &&
      row.checkpointReference == ack.checkpointReference with
  | some row =>
    ensure (row.canonicalAcknowledgement == ack.canonical &&
      row.acknowledgementDigest == digest) .conflict
    return (ack, db)
  | none =>
    let witnesses ← required (insertWitnessRow
      ⟨ack.witnessID, ack.checkpointReference, ack.canonical, digest⟩ db) .unavailable
    return (ack, { db with witnesses })

/-! ## Proofs from the nodes -/

/-- `inclusionPath`. -/
def inclusionPath (nodes : Dict NodeCoordinate Hash) (start size index : Nat) :
    Except Error (List Hash) :=
  if size = 1 then .ok []
  -- There is a leaf at the index, so two at least.
  else if _h : 2 ≤ size then
    let k := largestPowerLessThan size
    if index < k then do
      let path ← inclusionPath nodes start k index
      let sibling ← subtreeHash codec nodes (start + k) (size - k)
      return path ++ [sibling]
    else do
      let path ← inclusionPath nodes (start + k) (size - k) (index - k)
      let sibling ← subtreeHash codec nodes start k
      return path ++ [sibling]
  else .error .unavailable
termination_by size
decreasing_by
  · exact largestPowerLessThan_lt _h
  · exact Nat.sub_lt (by omega) (largestPowerLessThan_pos _)

/-- `Ledger.MerkleInclusionProof`. -/
def merkleInclusionProof (leafIndex treeSize : Nat) (db : Db Hash) :
    Except Error (InclusionProof Hash) := do
  ensure (treeSize != 0 && treeSize ≤ maxJSONSafeSequence && leafIndex < treeSize) .unavailable
  ensure (treeSize ≤ db.metadata.merkleSize) .unavailable
  let path ← orUnavailable (inclusionPath codec db.nodes 0 treeSize leafIndex)
  ensure (path.length ≤ maxProofNodes) .unavailable
  return ⟨leafIndex, treeSize, path⟩

/-- `consistencyPath`. -/
def consistencyPath (nodes : Dict NodeCoordinate Hash) (start size firstSize : Nat)
    (complete : Bool) : Except Error (List Hash) :=
  if firstSize = size then
    if complete then .ok [] else (subtreeHash codec nodes start size).map ([·])
  -- There are more leaves than the first ones, so two at least.
  else if _h : 2 ≤ size then
    let k := largestPowerLessThan size
    if firstSize ≤ k then do
      let path ← consistencyPath nodes start k firstSize complete
      let hash ← subtreeHash codec nodes (start + k) (size - k)
      return path ++ [hash]
    else do
      let path ← consistencyPath nodes (start + k) (size - k) (firstSize - k) false
      let hash ← subtreeHash codec nodes start k
      return path ++ [hash]
  else .error .unavailable
termination_by size
decreasing_by
  · exact largestPowerLessThan_lt _h
  · exact Nat.sub_lt (by omega) (largestPowerLessThan_pos _)

/-- `Ledger.MerkleConsistencyProof`. -/
def merkleConsistencyProof (firstSize secondSize : Nat) (db : Db Hash) :
    Except Error (ConsistencyProof Hash) := do
  ensure (firstSize ≤ secondSize && secondSize ≤ maxJSONSafeSequence) .unavailable
  ensure (secondSize ≤ db.metadata.merkleSize) .unavailable
  if firstSize = 0 ∨ firstSize = secondSize then return ⟨firstSize, secondSize, []⟩
  else
    let path ← orUnavailable (consistencyPath codec db.nodes 0 secondSize firstSize true)
    ensure (path.length ≤ maxProofNodes) .unavailable
    return ⟨firstSize, secondSize, path⟩

end

end YukhCoordination.Relay.Audit.Sqlite
