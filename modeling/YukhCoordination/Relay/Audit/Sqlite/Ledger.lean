import YukhCoordination.Lib.Dict
import YukhCoordination.Relay.Audit.Checkpoint
import Mathlib.Data.List.Sort

/-!
# The SQLite audit ledger

The model of `ledger.go` and of the node cache of `merkle.go`. A table is the list of its rows, and
an insert checks its constraints. `Append` is one transaction.
-/

namespace YukhCoordination.Relay.Audit.Sqlite

open Lifecycle Coordination Transaction

/-! ## Tables -/

/-- The row of `audit_metadata`. -/
structure Metadata (Hash : Type) where
  ledgerID : String
  lastSequence : Nat
  chainHead : Hash
  merkleSize : Nat
  merkleRoot : Hash
  deriving DecidableEq, Repr

/-- A row of `audit_entries`. -/
structure Entry (Hash : Type) where
  sequence : Nat
  operationID : String
  canonicalRecord : Bytes
  recordDigest : Hash
  previousChainDigest : Hash
  chainDigest : Hash
  canonicalReceipt : Bytes
  deriving DecidableEq, Repr

/-- A row of `audit_verification_key_statements`. -/
structure KeyRow where
  keyID : String
  version : Nat
  canonicalStatement : Bytes
  authoritySignature : Bytes
  deriving DecidableEq, Repr

/-- A row of `audit_checkpoints`. No query reads the predecessor back. -/
structure CheckpointRow where
  checkpointReference : String
  treeSize : Nat
  keyID : String
  keyVersion : Nat
  canonicalCheckpoint : Bytes
  signature : Bytes
  deriving DecidableEq, Repr

/-- A row of `audit_witness_acknowledgements`. -/
structure WitnessRow (Hash : Type) where
  witnessID : String
  checkpointReference : String
  canonicalAcknowledgement : Bytes
  acknowledgementDigest : Hash
  deriving DecidableEq, Repr

/-- The `fence_state` of the ledger. -/
inductive FenceState where
  | admitted
  | restoreFenced
  | clockFenced
  deriving DecidableEq, Repr

/-- The row of `audit_operational_state`. -/
structure OperationalState (Hash : Type) where
  fenceState : FenceState
  wallHighWaterMillis : Nat
  restoreBackupDigest : Option Hash
  acceptedManifestReference : Option String
  externalCheckpointReference : Option String
  completionReceipt : Option String
  deriving DecidableEq, Repr

/-- A row of `audit_recovery_manifests`. -/
structure ManifestRow where
  manifestReference : String
  manifestID : String
  canonicalManifest : Bytes
  signature : Bytes
  checkpointReference : String
  completionReceipt : String
  deriving DecidableEq, Repr

/-- `nodeCoordinate`: a level and an index. -/
abbrev NodeCoordinate := Nat × Nat

/-- The database. The authority is the row of `audit_checkpoint_authority`, if it is there. -/
structure Db (Hash : Type) where
  metadata : Metadata Hash
  entries : List (Entry Hash)
  nodes : Dict NodeCoordinate Hash
  keyStatements : List KeyRow
  authority : Option Bytes
  checkpoints : List CheckpointRow
  witnesses : List (WitnessRow Hash)
  operational : OperationalState Hash
  manifests : List ManifestRow

/-- `GLOB '????????-????-7???-[89ab]???-????????????'` without characters other than hexadecimal
digits and hyphens. -/
def uuidGlob (value : String) : Bool :=
  let at_ (index : Nat) : Option Char := (value.toList.drop index).head?
  value.toList.length == 36 && at_ 8 == some '-' && at_ 13 == some '-' && at_ 14 == some '7' &&
    at_ 18 == some '-' && ((at_ 19).any fun c => c == '8' || c == '9' || c == 'a' || c == 'b') &&
    at_ 23 == some '-' && value.toList.all fun c => isHex c || c == '-'

/-- Any error is reported as `ErrUnavailable`. -/
def orUnavailable {α : Type} (result : Except Error α) : Except Error α :=
  match result with
  | .ok a => .ok a
  | .error _ => .error .unavailable

section
variable {Hash : Type} (codec : Codec Hash)

/-- The database after the first migration: `uuid.NewV7` has made the ledger ID. -/
def opened (ledgerID : String) : Db Hash where
  metadata := ⟨ledgerID, 0, codec.sha256 (.genesis ledgerID), 0, emptyMerkleRoot codec.sha256⟩
  entries := []
  nodes := Dict.empty
  keyStatements := []
  authority := none
  checkpoints := []
  witnesses := []
  operational := ⟨.admitted, 0, none, none, none, none⟩
  manifests := []

/-! ## Reading -/

/-- `requireAdmitted`. -/
def requireAdmitted (db : Db Hash) : Except Error Unit :=
  ensure (db.operational.fenceState == .admitted) .unavailable

/-- `lookupOperation`: the stored record and its receipt. -/
def lookupOperation (db : Db Hash) (operationID : String) :
    Except Error (Option (Bytes × Receipt Hash)) :=
  match db.entries.find? (·.operationID == operationID) with
  | none => .ok none
  | some entry => do
    let receipt ← newReceipt db.metadata.ledgerID entry.sequence operationID entry.recordDigest
      entry.previousChainDigest entry.chainDigest
    return some (entry.canonicalRecord, receipt)

/-- The entries in the order of their sequence. -/
def Db.ordered (db : Db Hash) : List (Entry Hash) :=
  db.entries.insertionSort fun e e' => e.sequence ≤ e'.sequence

/-- `bits.TrailingZeros64`. -/
def trailingZeros64 (x : Nat) : Nat :=
  if h : x = 0 then 64 else if x % 2 = 1 then 0 else trailingZeros64 (x / 2) + 1
termination_by x
decreasing_by omega

/-- `readNode`. -/
def readNode (nodes : Dict NodeCoordinate Hash) (level index : Nat) : Except Error Hash :=
  required (nodes.get? (level, index)) .unavailable

/-- `subtreeHash`. -/
def subtreeHash (nodes : Dict NodeCoordinate Hash) (start size : Nat) : Except Error Hash :=
  if size = 0 then .ok (emptyMerkleRoot codec.sha256)
  else if start > maxJSONSafeSequence ∨ size > maxJSONSafeSequence ∨
      start > maxJSONSafeSequence - size then .error .unavailable
  else if size &&& (size - 1) = 0 ∧ start % size = 0 then
    readNode nodes (trailingZeros64 size) (start / size)
  -- One leaf is a node, so two remain here.
  else if _h : 2 ≤ size then do
    let k := largestPowerLessThan size
    let left ← subtreeHash nodes start k
    let right ← subtreeHash nodes (start + k) (size - k)
    return merkleNodeHash codec.sha256 left right
  else .error .unavailable
termination_by size
decreasing_by
  · exact largestPowerLessThan_lt _h
  · exact Nat.sub_lt (by omega) (largestPowerLessThan_pos _)

/-! ## Writing -/

variable [DecidableEq Hash]

/-- `INSERT INTO audit_entries`. -/
def insertEntry (entry : Entry Hash) (entries : List (Entry Hash)) : Option (List (Entry Hash)) :=
  if 0 < entry.sequence && entry.sequence ≤ maxJSONSafeSequence && uuidGlob entry.operationID &&
      1 ≤ entry.canonicalRecord.length && entry.canonicalRecord.length ≤ 4096 &&
      1 ≤ entry.canonicalReceipt.length && entry.canonicalReceipt.length ≤ 2048 &&
      entries.all fun e => e.sequence != entry.sequence && e.operationID != entry.operationID &&
        e.recordDigest != entry.recordDigest && e.chainDigest != entry.chainDigest
  then some (entries ++ [entry]) else none

/-- `UPDATE audit_metadata` of `appendRecord`, with the trigger `audit_metadata_append_only`. The
row is the one that was read. -/
def updateMetadata (metadata : Metadata Hash) (sequence : Nat) (chainHead merkleRoot : Hash) :
    Option (Metadata Hash) :=
  if sequence ≤ maxJSONSafeSequence && sequence == metadata.lastSequence + 1 &&
      chainHead != metadata.chainHead && sequence == metadata.merkleSize + 1 &&
      merkleRoot != metadata.merkleRoot
  then some ⟨metadata.ledgerID, sequence, chainHead, sequence, merkleRoot⟩ else none

/-- `insertNode`. -/
def insertNode (nodes : Dict NodeCoordinate Hash) (level index : Nat) (hash : Hash) :
    Except Error (Dict NodeCoordinate Hash) := do
  ensure (level ≤ 52 && index ≤ maxJSONSafeSequence) .unavailable
  ensure ((nodes.get? (level, index)).isNone && nodes.entries.all fun e => e.2 != hash) .unavailable
  return nodes.set (level, index) hash

/-- `insertMerkleLeaf`, from a level on: a node that is a right child is inserted and completes the
node above. -/
def insertMerkleLevel (nodes : Dict NodeCoordinate Hash) (level index : Nat) (current : Hash) :
    Except Error (Dict NodeCoordinate Hash) := do
  let nodes ← insertNode nodes level index current
  if _h : index % 2 = 1 then
    let left ← readNode nodes level (index - 1)
    insertMerkleLevel nodes (level + 1) (index / 2) (merkleNodeHash codec.sha256 left current)
  else return nodes
termination_by index
decreasing_by omega

/-- `insertMerkleLeaf`. -/
def insertMerkleLeaf (nodes : Dict NodeCoordinate Hash) (leafIndex : Nat) (leaf : Hash) :
    Except Error (Dict NodeCoordinate Hash) :=
  insertMerkleLevel codec nodes 0 leafIndex leaf

/-! ## Append -/

/-- `verifyHead`. -/
def verifyHead (db : Db Hash) : Except Error Unit :=
  if db.metadata.lastSequence = 0 then do
    let genesis ← genesisDigest codec.sha256 db.metadata.ledgerID
    ensure (db.metadata.chainHead == genesis) .unavailable
  else do
    let last ← required db.ordered.getLast? .unavailable
    ensure (last.sequence == db.metadata.lastSequence &&
      last.chainDigest == db.metadata.chainHead) .unavailable

/-- The part of `appendRecord` that writes a new entry. -/
def writeRecord (operationID : String) (canonical : Bytes) (db : Db Hash) :
    Except Error (Receipt Hash × Db Hash) := do
  let metadata := db.metadata
  ensure (metadata.lastSequence < maxJSONSafeSequence &&
    metadata.merkleSize == metadata.lastSequence) .unavailable
  verifyHead codec db
  let root ← subtreeHash codec db.nodes 0 metadata.merkleSize
  ensure (root == metadata.merkleRoot) .unavailable
  let sequence := metadata.lastSequence + 1
  let record := recordDigest codec.sha256 canonical
  let chain ← chainDigest codec.sha256 sequence metadata.chainHead record
  let receipt ← newReceipt metadata.ledgerID sequence operationID record metadata.chainHead chain
  let receiptBytes ← canonicalReceipt codec.receipt receipt
  let entries ← required (insertEntry
    ⟨sequence, operationID, canonical, record, metadata.chainHead, chain, receiptBytes⟩
    db.entries) .unavailable
  let leaf ← merkleLeafHash codec.sha256 sequence chain
  let nodes ← insertMerkleLeaf codec db.nodes (sequence - 1) leaf
  let merkleRoot ← subtreeHash codec nodes 0 sequence
  let metadata ← required (updateMetadata metadata sequence chain merkleRoot) .unavailable
  return (receipt, { db with metadata, entries, nodes })

/-- `appendRecord`. -/
def appendRecord (operationID : String) (canonical : Bytes) (db : Db Hash) :
    Except Error (Receipt Hash × Db Hash) := do
  let existing ← orUnavailable (lookupOperation db operationID)
  match existing with
  | some (record, receipt) =>
    ensure (record == canonical) .conflict
    return (receipt, db)
  | none => writeRecord codec operationID canonical db

/-- `Ledger.Append`. -/
def append (record : AuditRecord) (db : Db Hash) : Except Error (Receipt Hash × Db Hash) := do
  let canonical ← canonicalRecord codec.record record
  requireAdmitted db
  appendRecord codec record.operationID canonical db

omit [DecidableEq Hash] in
/-- `Receipt.Reference`. -/
def receiptReference (receipt : Receipt Hash) : String :=
  "audit:" ++ receipt.ledgerID ++ ":" ++ toString receipt.sequence ++ ":" ++
    codec.encodeDigest receipt.chainDigest

/-- `Ledger.Record`. -/
def record (record : AuditRecord) (db : Db Hash) : Except Error (String × Db Hash) := do
  let (receipt, db) ← append codec record db
  return (receiptReference codec receipt, db)

/-! ## Verification of the chain and the tree -/

variable [Inhabited Hash]

/-- `addExpectedLeaf`, from a level on. A node that is not there reads as the zero digest. -/
def addExpectedLevel (nodes : Dict NodeCoordinate Hash) (level index : Nat) (current : Hash) :
    Dict NodeCoordinate Hash :=
  let nodes := nodes.set (level, index) current
  if _h : index % 2 = 1 then
    let left := (nodes.get? (level, index - 1)).getD default
    addExpectedLevel nodes (level + 1) (index / 2) (merkleNodeHash codec.sha256 left current)
  else nodes
termination_by index
decreasing_by omega

/-- `addExpectedLeaf`. -/
def addExpectedLeaf (nodes : Dict NodeCoordinate Hash) (leafIndex : Nat) (leaf : Hash) :
    Dict NodeCoordinate Hash :=
  addExpectedLevel codec nodes 0 leafIndex leaf

/-- `expectedSubtree`. -/
def expectedSubtree (nodes : Dict NodeCoordinate Hash) (start size : Nat) : Hash :=
  if size &&& (size - 1) = 0 ∧ start % size = 0 then
    (nodes.get? (trailingZeros64 size, start / size)).getD default
  else if _h : 2 ≤ size then
    let k := largestPowerLessThan size
    merkleNodeHash codec.sha256 (expectedSubtree nodes start k)
      (expectedSubtree nodes (start + k) (size - k))
  else default
termination_by size
decreasing_by
  · exact largestPowerLessThan_lt _h
  · exact Nat.sub_lt (by omega) (largestPowerLessThan_pos _)

/-- `rootFromExpected`. -/
def rootFromExpected (nodes : Dict NodeCoordinate Hash) (size : Nat) : Hash :=
  if size = 0 then emptyMerkleRoot codec.sha256 else expectedSubtree codec nodes 0 size

/-- What the loop of `verifiedChainState` carries. -/
structure ChainState (Hash : Type) where
  count : Nat
  previous : Hash
  expectedNodes : Dict NodeCoordinate Hash

/-- One row of the loop of `verifiedChainState`. -/
def verifyEntry (ledgerID : String) (state : ChainState Hash) (entry : Entry Hash) :
    Except Error (ChainState Hash) := do
  ensure (entry.sequence == state.count + 1) .unavailable
  validateCanonicalRecord codec.record entry.canonicalRecord
  let record := recordDigest codec.sha256 entry.canonicalRecord
  ensure (entry.recordDigest == record && entry.previousChainDigest == state.previous) .unavailable
  let chain ← chainDigest codec.sha256 entry.sequence state.previous record
  ensure (entry.chainDigest == chain) .unavailable
  let receipt ← newReceipt ledgerID entry.sequence entry.operationID record state.previous chain
  let expectedReceipt ← canonicalReceipt codec.receipt receipt
  ensure (entry.canonicalReceipt == expectedReceipt) .unavailable
  let leaf ← merkleLeafHash codec.sha256 entry.sequence chain
  return ⟨state.count + 1, chain, addExpectedLeaf codec state.expectedNodes (entry.sequence - 1)
    leaf⟩

/-- `verifiedChainState`. -/
def verifiedChainState (db : Db Hash) : Except Error (ChainState Hash) := do
  let genesis ← genesisDigest codec.sha256 db.metadata.ledgerID
  let state ← db.ordered.foldlM (verifyEntry codec db.metadata.ledgerID) ⟨0, genesis, Dict.empty⟩
  ensure (state.count == db.metadata.lastSequence && db.metadata.chainHead == state.previous)
    .unavailable
  return state

omit [Inhabited Hash] in
/-- `verifyStoredNodes`. -/
def verifyStoredNodes (nodes expected : Dict NodeCoordinate Hash) : Except Error Unit := do
  ensure (nodes.entries.all fun e => expected.get? e.1 == some e.2) .unavailable
  ensure (nodes.entries.length == expected.entries.length) .unavailable

/-- The part of `Ledger.Verify` about the chain and the tree. -/
def verifyChain (db : Db Hash) : Except Error Unit := do
  let state ← orUnavailable (verifiedChainState codec db)
  ensure (db.metadata.merkleSize == state.count) .unavailable
  ensure (db.metadata.merkleRoot == rootFromExpected codec state.expectedNodes state.count)
    .unavailable
  verifyStoredNodes db.nodes state.expectedNodes

end

end YukhCoordination.Relay.Audit.Sqlite
