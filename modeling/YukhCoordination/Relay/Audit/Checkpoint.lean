import YukhCoordination.Relay.Audit.Record

/-!
# Checkpoints, verification keys and recovery manifests

The model of `internal/relay/audit/checkpoint.go` and `internal/relay/audit/recovery.go`: the
canonical documents, their strict parsers, their references and the verification of their
signatures against key statements.

`Codec` holds what the package takes from libraries: JSON with its canonical form for each type of
document, the text of a digest, SHA-256 and Ed25519. A key or a signature is a byte string. Left out
are the export for witnesses, the digest of a backup file and the ports of signers.
-/

namespace YukhCoordination.Relay.Audit

open Lifecycle Coordination Transaction

/-! ## Documents -/

/-- `CheckpointProfile`. -/
def checkpointProfile : String := "yukh-security-audit-checkpoint/v1"

/-- `KeyStatementProfile`. -/
def keyStatementProfile : String := "yukh-security-audit-verification-key/v1"

/-- `WitnessProfile`. -/
def witnessProfile : String := "yukh-security-audit-witness/v1"

/-- `RecoveryManifestProfile`. -/
def recoveryManifestProfile : String := "yukh-security-audit-recovery-manifest/v1"

/-- `CheckpointAlgorithm`. -/
def checkpointAlgorithm : String := "Ed25519"

/-- `MaxCheckpointBytes`. -/
def maxCheckpointBytes : Nat := 4096

/-- `MaxKeyStatementBytes`. -/
def maxKeyStatementBytes : Nat := 4096

/-- `MaxWitnessBytes`. -/
def maxWitnessBytes : Nat := 16384

/-- `MaxRecoveryManifestBytes`. -/
def maxRecoveryManifestBytes : Nat := 1048576

/-- `MaxRecoveryEpochFloors`. -/
def maxRecoveryEpochFloors : Nat := 100000

/-- `ed25519.PublicKeySize`. -/
def publicKeySize : Nat := 32

/-- `ed25519.SignatureSize`. -/
def signatureSize : Nat := 64

/-- `canonicalCheckpoint`. -/
structure CanonicalCheckpoint where
  profile : String
  ledgerID : String
  treeSize : Nat
  rootHash : String
  chainHead : String
  issuedAt : String
  algorithm : String
  keyID : String
  predecessorReference : String
  deriving DecidableEq, Repr

/-- `canonicalKeyStatement`. -/
structure CanonicalKeyStatement where
  profile : String
  version : Nat
  keyID : String
  algorithm : String
  publicKey : String
  activeFrom : String
  retiredAt : String
  compromisedFrom : String
  compromisedUntil : String
  issuedAt : String
  deriving DecidableEq, Repr

/-- `canonicalWitnessAcknowledgement`. -/
structure CanonicalWitnessAcknowledgement where
  profile : String
  witnessID : String
  checkpointReference : String
  observedAt : String
  algorithm : String
  keyID : String
  signature : String
  deriving DecidableEq, Repr

/-- `canonicalBackupEvidence`. -/
structure CanonicalBackupEvidence where
  backupID : String
  databaseID : String
  digest : String
  capturedAt : String
  deriving DecidableEq, Repr

/-- `EpochFloor`, and `canonicalEpochFloor`, which has the same members. -/
structure EpochFloor where
  tenantID : String
  principalID : String
  epoch : Nat
  deriving DecidableEq, Repr

/-- `canonicalRecoveryManifest`. -/
structure CanonicalRecoveryManifest where
  profile : String
  manifestID : String
  identityBackup : CanonicalBackupEvidence
  auditBackup : CanonicalBackupEvidence
  auditBackupTreeSize : Nat
  auditBackupRootHash : String
  checkpointReference : String
  checkpointTreeSize : Nat
  checkpointRootHash : String
  consistencyProof : List String
  identityEpochFloors : List EpochFloor
  identityWallHighWater : String
  createdAt : String
  algorithm : String
  keyID : String
  deriving DecidableEq, Repr

/-- What is signed: a canonical document after a line that names its domain. -/
inductive Message where
  | keyStatement (canonical : Bytes)
  | checkpoint (canonical : Bytes)
  | recoveryManifest (canonical : Bytes)
  deriving DecidableEq, Repr

/-- What the package takes from libraries. -/
structure Codec (Hash : Type) where
  record : Jcs CanonicalRecord
  receipt : Jcs (Receipt Hash)
  checkpoint : Jcs CanonicalCheckpoint
  keyStatement : Jcs CanonicalKeyStatement
  witness : Jcs CanonicalWitnessAcknowledgement
  manifest : Jcs CanonicalRecoveryManifest
  sha256 : Preimage Hash → Hash
  encodeDigest : Hash → String
  decodeHash : String → Option Hash
  verify : (publicKey : Bytes) → Message → (signature : Bytes) → Bool

/-- `canonicalJSON`. -/
def canonicalJSON {Doc : Type} (jcs : Jcs Doc) (value : Doc) (limit : Nat) :
    Except Error Bytes := do
  let canonical ← required (jcs.transform (jcs.marshal value)) .unavailable
  ensure (canonical.length != 0 && canonical.length ≤ limit) .unavailable
  return canonical

/-- `decodeCanonical`. -/
def decodeCanonical {Doc : Type} (jcs : Jcs Doc) (raw : Bytes) (limit : Nat) :
    Except Error Doc := do
  ensure (raw.length != 0 && raw.length ≤ limit) .unavailable
  let normalized ← required (jcs.transform raw) .unavailable
  ensure (normalized == raw) .unavailable
  required (jcs.decode raw) .unavailable

/-- `keyIDPattern`: a letter or a digit and then these or points, underscores, colons and hyphens,
for a text of at most 128 characters. -/
def keyIDPattern (value : String) : Bool :=
  matchesName (fun c => isUpper c || isLower c || isDigit c)
    (fun c => isUpper c || isLower c || isDigit c || c == '.' || c == '_' || c == ':' ||
      c == '-') 127 value

section
variable {Hash : Type} (codec : Codec Hash)

/-! ## Checkpoints -/

/-- `Checkpoint`. -/
structure Checkpoint (Hash : Type) where
  ledgerID : String
  treeSize : Nat
  rootHash : Hash
  chainHead : Hash
  issuedAt : Time
  algorithm : String
  keyID : String
  predecessorReference : String
  deriving DecidableEq, Repr

/-- `SignedCheckpoint`. -/
structure SignedCheckpoint (Hash : Type) where
  checkpoint : Checkpoint Hash
  canonical : Bytes
  signature : Bytes
  reference : String
  deriving DecidableEq, Repr

/-- `validCheckpoint`. -/
def validCheckpoint (value : Checkpoint Hash) : Bool :=
  canonicalV7 value.ledgerID && value.treeSize != 0 && value.treeSize ≤ maxJSONSafeSequence &&
    validMillis value.issuedAt && value.algorithm == checkpointAlgorithm &&
    keyIDPattern value.keyID &&
    (value.predecessorReference == "" || validCheckpointReference value.predecessorReference)

/-- `CanonicalCheckpoint`. -/
def canonicalCheckpoint (value : Checkpoint Hash) : Except Error Bytes := do
  ensure (validCheckpoint value) .unavailable
  canonicalJSON codec.checkpoint ⟨checkpointProfile, value.ledgerID, value.treeSize,
    codec.encodeDigest value.rootHash, codec.encodeDigest value.chainHead,
    formatMillis value.issuedAt, value.algorithm, value.keyID, value.predecessorReference⟩
    maxCheckpointBytes

/-- `ParseCanonicalCheckpoint`. -/
def parseCanonicalCheckpoint (raw : Bytes) : Except Error (Checkpoint Hash) := do
  let value ← decodeCanonical codec.checkpoint raw maxCheckpointBytes
  ensure (value.profile == checkpointProfile) .unavailable
  let rootHash ← required (codec.decodeHash value.rootHash) .unavailable
  let chainHead ← required (codec.decodeHash value.chainHead) .unavailable
  let issuedAt ← required (parseMillis value.issuedAt) .unavailable
  let result : Checkpoint Hash := ⟨value.ledgerID, value.treeSize, rootHash, chainHead, issuedAt,
    value.algorithm, value.keyID, value.predecessorReference⟩
  ensure (validCheckpoint result) .unavailable
  let reencoded ← canonicalCheckpoint codec result
  ensure (reencoded == raw) .unavailable
  return result

/-- `CheckpointReference`. -/
def checkpointReference (canonical signature : Bytes) : Except Error String := do
  let _ ← parseCanonicalCheckpoint codec canonical
  ensure (signature.length == signatureSize) .unavailable
  return "audit-checkpoint:" ++
    codec.encodeDigest (codec.sha256 (.checkpointReference canonical signature))

/-! ## Verification keys -/

/-- `VerificationKeyStatement`. -/
structure VerificationKeyStatement where
  version : Nat
  keyID : String
  algorithm : String
  publicKey : Bytes
  activeFrom : Time
  retiredAt : Option Time
  compromisedFrom : Option Time
  compromisedUntil : Option Time
  issuedAt : Time
  deriving DecidableEq, Repr

/-- `SignedVerificationKeyStatement`. -/
structure SignedVerificationKeyStatement where
  statement : VerificationKeyStatement
  canonical : Bytes
  signature : Bytes
  deriving DecidableEq, Repr

/-- `validKeyStatement`. -/
def validKeyStatement (value : VerificationKeyStatement) : Bool :=
  value.version != 0 && value.version ≤ maxJSONSafeSequence && keyIDPattern value.keyID &&
    value.algorithm == checkpointAlgorithm && value.publicKey.length == publicKeySize &&
    validMillis value.activeFrom && validMillis value.issuedAt &&
    !value.issuedAt.before value.activeFrom &&
    (value.retiredAt.all fun retiredAt =>
      validMillis retiredAt && retiredAt.after value.activeFrom) &&
    value.compromisedFrom.all validMillis &&
    (value.compromisedUntil.all fun compromisedUntil => match value.compromisedFrom with
      | some compromisedFrom =>
        validMillis compromisedUntil && compromisedUntil.after compromisedFrom
      | none => false)

/-- The text of a time that may be absent. -/
def formatOptional (value : Option Time) : String :=
  match value with
  | some t => formatMillis t
  | none => ""

/-- The time of a text that may be absent. -/
def parseOptional (value : String) : Except Error (Option Time) :=
  if value ≠ "" then do
    let parsed ← required (parseMillis value) .unavailable
    return some parsed
  else return none

/-- `CanonicalVerificationKeyStatement`. -/
def canonicalVerificationKeyStatement (value : VerificationKeyStatement) : Except Error Bytes := do
  ensure (validKeyStatement value) .unavailable
  canonicalJSON codec.keyStatement ⟨keyStatementProfile, value.version, value.keyID,
    value.algorithm, String.ofList (Base64.encode value.publicKey), formatMillis value.activeFrom,
    formatOptional value.retiredAt, formatOptional value.compromisedFrom,
    formatOptional value.compromisedUntil, formatMillis value.issuedAt⟩ maxKeyStatementBytes

/-- `ParseCanonicalVerificationKeyStatement`. -/
def parseCanonicalVerificationKeyStatement (raw : Bytes) :
    Except Error VerificationKeyStatement := do
  let value ← decodeCanonical codec.keyStatement raw maxKeyStatementBytes
  ensure (value.profile == keyStatementProfile) .unavailable
  let publicKey ← required (decodeString value.publicKey) .unavailable
  ensure (publicKey.length == publicKeySize) .unavailable
  let activeFrom ← required (parseMillis value.activeFrom) .unavailable
  let issuedAt ← required (parseMillis value.issuedAt) .unavailable
  let retiredAt ← parseOptional value.retiredAt
  let compromisedFrom ← parseOptional value.compromisedFrom
  let compromisedUntil ← parseOptional value.compromisedUntil
  let result : VerificationKeyStatement := ⟨value.version, value.keyID, value.algorithm, publicKey,
    activeFrom, retiredAt, compromisedFrom, compromisedUntil, issuedAt⟩
  ensure (validKeyStatement result) .unavailable
  let reencoded ← canonicalVerificationKeyStatement codec result
  ensure (reencoded == raw) .unavailable
  return result

/-- `VerifyKeyStatement`. -/
def verifyKeyStatement (authority canonical signature : Bytes) :
    Except Error VerificationKeyStatement := do
  ensure (authority.length == publicKeySize && signature.length == signatureSize) .unavailable
  let statement ← parseCanonicalVerificationKeyStatement codec canonical
  ensure (codec.verify authority (.keyStatement canonical) signature) .unavailable
  return statement

/-- `CheckpointTrust`. -/
inductive CheckpointTrust where
  | trusted
  | indeterminate
  deriving DecidableEq, Repr

/-- The statement retires its key, and not after the time. -/
def retiredBy (statement : VerificationKeyStatement) (at_ : Time) : Bool :=
  statement.retiredAt.any fun retiredAt => !at_.before retiredAt

/-- The time is in the interval in which the statement calls its key compromised. -/
def compromisedAt (statement : VerificationKeyStatement) (at_ : Time) : Bool :=
  statement.compromisedFrom.any fun compromisedFrom => !at_.before compromisedFrom &&
      statement.compromisedUntil.all fun compromisedUntil => at_.before compromisedUntil

/-- `VerifySignedCheckpoint`. -/
def verifySignedCheckpoint [DecidableEq Hash] (signed : SignedCheckpoint Hash)
    (statement : VerificationKeyStatement) : Except Error CheckpointTrust := do
  let parsed ← parseCanonicalCheckpoint codec signed.canonical
  ensure (parsed == signed.checkpoint && parsed.keyID == statement.keyID &&
    parsed.algorithm == checkpointAlgorithm && statement.algorithm == checkpointAlgorithm &&
    signed.signature.length == signatureSize) .unavailable
  ensure (codec.verify statement.publicKey (.checkpoint signed.canonical) signed.signature)
    .unavailable
  let reference ← checkpointReference codec signed.canonical signed.signature
  ensure (signed.reference == "" || signed.reference == reference) .unavailable
  ensure (!parsed.issuedAt.before statement.activeFrom && !retiredBy statement parsed.issuedAt)
    .unavailable
  return if compromisedAt statement parsed.issuedAt then .indeterminate else .trusted

/-! ## Witnesses -/

/-- `ValidateWitnessAcknowledgement`. -/
def validateWitnessAcknowledgement (witnessID checkpointReference : String) (canonical : Bytes) :
    Except Error Unit := do
  ensure (keyIDPattern witnessID && validCheckpointReference checkpointReference &&
    canonical.length != 0 && canonical.length ≤ maxWitnessBytes) .unavailable
  let value ← decodeCanonical codec.witness canonical maxWitnessBytes
  ensure (value.profile == witnessProfile && value.witnessID == witnessID &&
    value.checkpointReference == checkpointReference && keyIDPattern value.keyID &&
    value.algorithm == checkpointAlgorithm) .unavailable
  ensure (parseMillis value.observedAt).isSome .unavailable
  let signature ← required (decodeString value.signature) .unavailable
  ensure (signature.length == signatureSize) .unavailable

/-! ## Recovery manifests -/

/-- `BackupEvidence`. -/
structure BackupEvidence (Hash : Type) where
  backupID : String
  databaseID : String
  digest : Hash
  capturedAt : Time
  deriving DecidableEq, Repr

/-- `TreeHead`. -/
structure TreeHead (Hash : Type) where
  size : Nat
  root : Hash
  deriving DecidableEq, Repr

/-- `RecoveryManifest`. -/
structure RecoveryManifest (Hash : Type) where
  manifestID : String
  identityBackup : BackupEvidence Hash
  auditBackup : BackupEvidence Hash
  auditBackupTreeHead : TreeHead Hash
  checkpointReference : String
  checkpointTreeHead : TreeHead Hash
  checkpointConsistency : ConsistencyProof Hash
  identityEpochFloors : List EpochFloor
  identityWallHighWater : Time
  createdAt : Time
  algorithm : String
  keyID : String

/-- `SignedRecoveryManifest`. -/
structure SignedRecoveryManifest (Hash : Type) where
  manifest : RecoveryManifest Hash
  canonical : Bytes
  signature : Bytes
  reference : String

/-- `encodeBackup`. -/
def encodeBackup (value : BackupEvidence Hash) : CanonicalBackupEvidence :=
  ⟨value.backupID, value.databaseID, codec.encodeDigest value.digest, formatMillis value.capturedAt⟩

/-- `decodeBackup`. -/
def decodeBackup (value : CanonicalBackupEvidence) : Option (BackupEvidence Hash) := do
  let digest ← codec.decodeHash value.digest
  let capturedAt ← parseMillis value.capturedAt
  return ⟨value.backupID, value.databaseID, digest, capturedAt⟩

/-- `validBackup`. -/
def validBackup (value : BackupEvidence Hash) : Bool :=
  canonicalV7 value.backupID && canonicalV7 value.databaseID && validMillis value.capturedAt

/-- The loop of `validRecoveryManifest` over the floors, with the key of the floor before. -/
def validFloors (previous : String) : List EpochFloor → Bool
  | [] => true
  | floor :: floors =>
    let key := floor.tenantID ++ "\x00" ++ floor.principalID
    tenantPattern floor.tenantID && validDigestText floor.principalID && floor.epoch != 0 &&
      floor.epoch ≤ maxJSONSafeSequence && previous < key && validFloors key floors

/-- `validRecoveryManifest`. -/
def validRecoveryManifest (value : RecoveryManifest Hash) : Bool :=
  canonicalV7 value.manifestID && validBackup value.identityBackup &&
    validBackup value.auditBackup && !value.identityBackup.capturedAt.after value.createdAt &&
    !value.auditBackup.capturedAt.after value.createdAt &&
    validMillis value.identityWallHighWater &&
    !value.identityWallHighWater.after value.identityBackup.capturedAt &&
    validMillis value.createdAt && value.algorithm == checkpointAlgorithm &&
    keyIDPattern value.keyID && validCheckpointReference value.checkpointReference &&
    value.auditBackupTreeHead.size != 0 &&
    value.auditBackupTreeHead.size ≤ value.checkpointTreeHead.size &&
    value.checkpointTreeHead.size ≤ maxJSONSafeSequence &&
    value.checkpointConsistency.firstSize == value.auditBackupTreeHead.size &&
    value.checkpointConsistency.secondSize == value.checkpointTreeHead.size &&
    value.checkpointConsistency.path.length ≤ maxProofNodes &&
    value.identityEpochFloors.length ≤ maxRecoveryEpochFloors &&
    validFloors "" value.identityEpochFloors

/-- `CanonicalRecoveryManifest`. -/
def canonicalRecoveryManifest (value : RecoveryManifest Hash) : Except Error Bytes := do
  ensure (validRecoveryManifest value) .unavailable
  canonicalJSON codec.manifest ⟨recoveryManifestProfile, value.manifestID,
    encodeBackup codec value.identityBackup, encodeBackup codec value.auditBackup,
    value.auditBackupTreeHead.size, codec.encodeDigest value.auditBackupTreeHead.root,
    value.checkpointReference, value.checkpointTreeHead.size,
    codec.encodeDigest value.checkpointTreeHead.root,
    value.checkpointConsistency.path.map codec.encodeDigest, value.identityEpochFloors,
    formatMillis value.identityWallHighWater, formatMillis value.createdAt, value.algorithm,
    value.keyID⟩ maxRecoveryManifestBytes

/-- `ParseCanonicalRecoveryManifest`. -/
def parseCanonicalRecoveryManifest (raw : Bytes) : Except Error (RecoveryManifest Hash) := do
  let value ← decodeCanonical codec.manifest raw maxRecoveryManifestBytes
  ensure (value.profile == recoveryManifestProfile) .unavailable
  let identityBackup ← required (decodeBackup codec value.identityBackup) .unavailable
  let auditBackup ← required (decodeBackup codec value.auditBackup) .unavailable
  let auditRoot ← required (codec.decodeHash value.auditBackupRootHash) .unavailable
  let checkpointRoot ← required (codec.decodeHash value.checkpointRootHash) .unavailable
  let createdAt ← required (parseMillis value.createdAt) .unavailable
  let identityHighWater ← required (parseMillis value.identityWallHighWater) .unavailable
  let proof ← required (value.consistencyProof.mapM codec.decodeHash) .unavailable
  let result : RecoveryManifest Hash := ⟨value.manifestID, identityBackup, auditBackup,
    ⟨value.auditBackupTreeSize, auditRoot⟩, value.checkpointReference,
    ⟨value.checkpointTreeSize, checkpointRoot⟩,
    ⟨value.auditBackupTreeSize, value.checkpointTreeSize, proof⟩, value.identityEpochFloors,
    identityHighWater, createdAt, value.algorithm, value.keyID⟩
  ensure (validRecoveryManifest result) .unavailable
  let reencoded ← canonicalRecoveryManifest codec result
  ensure (reencoded == raw) .unavailable
  return result

/-- `RecoveryManifestReference`. -/
def recoveryManifestReference (canonical signature : Bytes) : Except Error String := do
  let _ ← parseCanonicalRecoveryManifest codec canonical
  ensure (signature.length == signatureSize) .unavailable
  return "audit-recovery:" ++
    codec.encodeDigest (codec.sha256 (.recoveryReference canonical signature))

/-- `keyTrustedAt`. -/
def keyTrustedAt (statement : VerificationKeyStatement) (at_ : Time) : Bool :=
  !at_.before statement.activeFrom && !retiredBy statement at_ && !compromisedAt statement at_

/-- `sameRecoveryManifest`. -/
def sameRecoveryManifest (left right : RecoveryManifest Hash) : Bool :=
  match canonicalRecoveryManifest codec left, canonicalRecoveryManifest codec right with
  | .ok a, .ok b => a == b
  | _, _ => false

/-- `VerifySignedRecoveryManifest`. -/
def verifySignedRecoveryManifest [DecidableEq Hash] (signed : SignedRecoveryManifest Hash)
    (statement : VerificationKeyStatement) (checkpoint : SignedCheckpoint Hash)
    (checkpointStatement : VerificationKeyStatement) : Except Error Unit := do
  let manifest ← parseCanonicalRecoveryManifest codec signed.canonical
  ensure (sameRecoveryManifest codec manifest signed.manifest &&
    manifest.keyID == statement.keyID && manifest.algorithm == checkpointAlgorithm) .unavailable
  ensure (codec.verify statement.publicKey (.recoveryManifest signed.canonical) signed.signature)
    .unavailable
  let reference ← recoveryManifestReference codec signed.canonical signed.signature
  ensure (signed.reference == "" || signed.reference == reference) .unavailable
  ensure (keyTrustedAt statement manifest.createdAt) .unavailable
  let trust ← verifySignedCheckpoint codec checkpoint checkpointStatement
  ensure (trust == .trusted && checkpoint.reference == manifest.checkpointReference &&
    checkpoint.checkpoint.treeSize == manifest.checkpointTreeHead.size &&
    checkpoint.checkpoint.rootHash == manifest.checkpointTreeHead.root) .unavailable
  ensure (verifyConsistency codec.sha256 manifest.auditBackupTreeHead.root
    manifest.checkpointTreeHead.root manifest.checkpointConsistency) .unavailable

end

/-! ## Samples -/

/-- Documents as lists of their members. -/
def textsJcs {Doc : Type} (texts : Doc → List String) (ofTexts : List String → Option Doc) :
    Jcs Doc where
  marshal value := Texts.encode (texts value)
  transform := some
  decode bytes := (Texts.decode bytes).bind ofTexts

/-- The documents of a table as their places, which evaluates faster, and the others as before. -/
def tableJcs {Doc : Type} [DecidableEq Doc] (table : List Doc) (jcs : Jcs Doc) : Jcs Doc where
  marshal value :=
    if value ∈ table then List.replicate (table.idxOf value + 1) 0 else 1 :: jcs.marshal value
  transform
    | 1 :: bytes => (jcs.transform bytes).map (1 :: ·)
    | bytes => some bytes
  decode
    | 1 :: bytes => jcs.decode bytes
    | bytes => table[bytes.length - 1]?

theorem tableJcs_lawful {Doc : Type} [DecidableEq Doc] (table : List Doc) {jcs : Jcs Doc}
    {Exact : Doc → Prop} (h : jcs.Lawful Exact) : (tableJcs table jcs).Lawful Exact where
  canonical value hexact := by
    by_cases hmem : value ∈ table
    · refine ⟨List.replicate (table.idxOf value + 1) 0, ?_, by simp, rfl, ?_⟩
      · simp only [tableJcs, if_pos hmem, List.replicate_succ]
        rfl
      · simp [tableJcs, List.replicate_succ, hmem]
    · obtain ⟨canonical, htransform, hne, hidem, hdecode⟩ := h.canonical value hexact
      refine ⟨1 :: canonical, ?_, by simp, ?_, hdecode⟩
      · simp [tableJcs, hmem, htransform]
      · simp [tableJcs, hidem]

/-- The members of a checkpoint's document as texts. -/
def CanonicalCheckpoint.texts (value : CanonicalCheckpoint) : List String :=
  [value.profile, value.ledgerID, toString value.treeSize, value.rootHash, value.chainHead,
    value.issuedAt, value.algorithm, value.keyID, value.predecessorReference]

/-- The checkpoint's document with the given members. -/
def CanonicalCheckpoint.ofTexts : List String → Option CanonicalCheckpoint
  | [profile, ledgerID, treeSize, rootHash, chainHead, issuedAt, algorithm, keyID,
      predecessorReference] =>
    (digits treeSize.toList).map fun treeSize =>
      { profile, ledgerID, treeSize, rootHash, chainHead, issuedAt, algorithm, keyID,
        predecessorReference }
  | _ => none

/-- The members of a key statement's document as texts. -/
def CanonicalKeyStatement.texts (value : CanonicalKeyStatement) : List String :=
  [value.profile, toString value.version, value.keyID, value.algorithm, value.publicKey,
    value.activeFrom, value.retiredAt, value.compromisedFrom, value.compromisedUntil,
    value.issuedAt]

/-- The key statement's document with the given members. -/
def CanonicalKeyStatement.ofTexts : List String → Option CanonicalKeyStatement
  | [profile, version, keyID, algorithm, publicKey, activeFrom, retiredAt, compromisedFrom,
      compromisedUntil, issuedAt] =>
    (digits version.toList).map fun version =>
      { profile, version, keyID, algorithm, publicKey, activeFrom, retiredAt, compromisedFrom,
        compromisedUntil, issuedAt }
  | _ => none

instance : Inhabited Symbolic := ⟨.empty⟩

/-- A codec with symbolic digests, whose texts are their places in a list. A signature repeats the
key. No sample has a witness or a recovery manifest. -/
def sampleCodec (known : List Symbolic) : Codec Symbolic where
  record := sampleJcs
  receipt := textsJcs (fun receipt => [receipt.profile, receipt.ledgerID, toString receipt.sequence,
    receipt.operationID, toString (known.idxOf receipt.recordDigest),
    toString (known.idxOf receipt.previousChainDigest),
    toString (known.idxOf receipt.chainDigest)]) fun _ => none
  checkpoint := textsJcs CanonicalCheckpoint.texts CanonicalCheckpoint.ofTexts
  keyStatement := textsJcs CanonicalKeyStatement.texts CanonicalKeyStatement.ofTexts
  witness := textsJcs (fun value => [value.profile]) fun _ => none
  manifest := textsJcs (fun value => [value.profile]) fun _ => none
  sha256 := Symbolic.hash
  encodeDigest digest := toString (known.idxOf digest)
  decodeHash text := (digits text.toList).bind fun index => known[index]?
  verify publicKey _ signature := signature == publicKey ++ publicKey

end YukhCoordination.Relay.Audit
