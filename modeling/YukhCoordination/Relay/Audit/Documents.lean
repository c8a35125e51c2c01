import YukhCoordination.Relay.Audit.Checkpoint

/-!
# The round trips of signed audit objects

The encoders and the strict parsers of `checkpoint.go` and `recovery.go` are inverse to each other
exactly for times with the years 0 to 9999 (`signed_objects_round_trip`).
-/

namespace YukhCoordination.Relay.Audit

open Lifecycle Coordination Transaction

/-! ## Exact documents -/

/-- The number of a checkpoint's document is exact. -/
def CanonicalCheckpoint.Exact (value : CanonicalCheckpoint) : Prop :=
  value.treeSize ≤ maxJSONSafeSequence

/-- The number of a key statement's document is exact. -/
def CanonicalKeyStatement.Exact (value : CanonicalKeyStatement) : Prop :=
  value.version ≤ maxJSONSafeSequence

/-- The numbers of a recovery manifest's document are exact. -/
def CanonicalRecoveryManifest.Exact (value : CanonicalRecoveryManifest) : Prop :=
  value.auditBackupTreeSize ≤ maxJSONSafeSequence ∧ value.checkpointTreeSize ≤ maxJSONSafeSequence ∧
    ∀ floor ∈ value.identityEpochFloors, floor.epoch ≤ maxJSONSafeSequence

/-- What the libraries are specified to do for the signed objects: canonical JSON. -/
structure Codec.Lawful {Hash : Type} (codec : Codec Hash) : Prop where
  checkpoint : codec.checkpoint.Lawful CanonicalCheckpoint.Exact
  keyStatement : codec.keyStatement.Lawful CanonicalKeyStatement.Exact
  manifest : codec.manifest.Lawful CanonicalRecoveryManifest.Exact

/-- The codec with the digests of the source: `encodeDigest` and `decodeHash`. -/
def Codec.digests (codec : Codec Digest) : Codec Digest :=
  { codec with encodeDigest := Audit.encodeDigest, decodeHash := decodeDigest }

/-- A document is decoded from its canonical form. -/
theorem decodeCanonical_canonicalJSON {Doc : Type} {jcs : Jcs Doc} {Exact : Doc → Prop}
    (hjcs : jcs.Lawful Exact) {value : Doc} {limit : Nat} {canonical : Bytes}
    (h : canonicalJSON jcs value limit = .ok canonical) (hexact : Exact value) :
    decodeCanonical jcs canonical limit = .ok value := by
  obtain ⟨canonical', htransform, -, hidem, hdecode⟩ := hjcs.canonical value hexact
  obtain ⟨canonical'', htransform', h⟩ := required_bind.1 h
  obtain ⟨hlen, h⟩ := ensure_bind.1 h
  cases h
  obtain rfl : canonical' = canonical := Option.some.inj (htransform.symm.trans htransform')
  refine ensure_bind.2 ⟨hlen, required_bind.2 ⟨canonical', hidem, ?_⟩⟩
  exact ensure_bind.2 ⟨beq_self_eq_true _, required_ok.2 hdecode⟩

/-! ## Times -/

/-- The text of a time that may be absent is read as it exactly if it is of the years 0 to 9999. -/
theorem parseOptional_formatOptional {value : Option Time} (hvalid : ∀ t ∈ value, validMillis t) :
    parseOptional (formatOptional value) = .ok value ↔ ∀ t ∈ value, Dated t := by
  cases value with
  | none => exact ⟨fun _ _ ht => (nomatch ht), fun _ => rfl⟩
  | some t =>
    simp only [Option.mem_some_iff, forall_eq'] at hvalid ⊢
    rw [formatOptional, parseOptional]
    constructor
    · intro h
      split at h
      · obtain ⟨parsed, hparse, -⟩ := required_bind.1 h
        exact dated_of_parseMillis hparse
      · cases h
    · intro hdated
      have hparse := hdated.parseMillis hvalid
      have hne : formatMillis t ≠ "" := by
        intro heq
        rw [heq] at hparse
        exact absurd hparse (by rw [show Audit.parseMillis "" = none by decide]; exact nofun)
      rw [if_pos hne]
      exact required_bind.2 ⟨t, hparse, rfl⟩

section
variable {codec : Codec Digest} {canonical raw : Bytes}

/-! ## Checkpoints -/

/-- What the parser of checkpoints has read, and that it has compared. -/
theorem parseCanonicalCheckpoint_ok {value : Checkpoint Digest}
    (h : parseCanonicalCheckpoint codec raw = .ok value) :
    ∃ document, decodeCanonical codec.checkpoint raw maxCheckpointBytes = .ok document ∧
      parseMillis document.issuedAt = some value.issuedAt ∧
      canonicalCheckpoint codec value = .ok raw := by
  obtain ⟨document, hdocument, h⟩ := bind_ok.1 h
  obtain ⟨-, h⟩ := ensure_bind.1 h
  obtain ⟨rootHash, -, h⟩ := required_bind.1 h
  obtain ⟨chainHead, -, h⟩ := required_bind.1 h
  obtain ⟨issuedAt, hissued, h⟩ := required_bind.1 h
  obtain ⟨-, h⟩ := ensure_bind.1 h
  obtain ⟨reencoded, hencoded, h⟩ := bind_ok.1 h
  obtain ⟨hsame, h⟩ := ensure_bind.1 h
  cases h
  exact ⟨document, hdocument, hissued, by rw [hencoded, beq_iff_eq.1 hsame]⟩

/-- A checkpoint that was encoded is read again exactly if its time is of the years 0 to 9999. -/
theorem parseCanonicalCheckpoint_canonical (hcodec : codec.Lawful) {value : Checkpoint Digest}
    (h : canonicalCheckpoint codec.digests value = .ok canonical) :
    parseCanonicalCheckpoint codec.digests canonical = .ok value ↔ Dated value.issuedAt := by
  obtain ⟨hvalid, hjson⟩ := ensure_bind.1 h
  have hparts := hvalid
  simp only [validCheckpoint, Bool.and_eq_true, decide_eq_true_eq] at hparts
  obtain ⟨⟨⟨⟨⟨-, hsize⟩, hmillis⟩, -⟩, -⟩, -⟩ := hparts
  have hdecode := decodeCanonical_canonicalJSON hcodec.checkpoint hjson hsize
  constructor
  · intro hparse
    obtain ⟨document, hdocument, hissued, -⟩ := parseCanonicalCheckpoint_ok hparse
    obtain rfl := Except.ok.inj (hdecode.symm.trans hdocument)
    exact dated_of_parseMillis hissued
  · intro hdated
    refine bind_ok.2 ⟨_, hdecode, ?_⟩
    refine ensure_bind.2 ⟨beq_self_eq_true _, ?_⟩
    refine required_bind.2 ⟨_, decodeDigest_encodeDigest _, ?_⟩
    refine required_bind.2 ⟨_, decodeDigest_encodeDigest _, ?_⟩
    refine required_bind.2 ⟨_, hdated.parseMillis hmillis, ?_⟩
    refine ensure_bind.2 ⟨hvalid, bind_ok.2 ⟨canonical, h, ?_⟩⟩
    exact ensure_bind.2 ⟨beq_self_eq_true _, rfl⟩

/-! ## Verification keys -/

/-- The times of a key statement. -/
def VerificationKeyStatement.times (value : VerificationKeyStatement) : List Time :=
  [value.activeFrom, value.issuedAt] ++ value.retiredAt.toList ++ value.compromisedFrom.toList ++
    value.compromisedUntil.toList

variable {value : VerificationKeyStatement}

/-- All times of a key statement are of the years 0 to 9999. -/
theorem VerificationKeyStatement.dated_times :
    (∀ t ∈ value.times, Dated t) ↔ Dated value.activeFrom ∧ Dated value.issuedAt ∧
      (∀ t ∈ value.retiredAt, Dated t) ∧ (∀ t ∈ value.compromisedFrom, Dated t) ∧
      ∀ t ∈ value.compromisedUntil, Dated t := by
  simp [times, or_imp, forall_and]

/-- What the parser of key statements has read, and that it has compared. -/
theorem parseCanonicalVerificationKeyStatement_ok
    (h : parseCanonicalVerificationKeyStatement codec raw = .ok value) :
    ∃ document, decodeCanonical codec.keyStatement raw maxKeyStatementBytes = .ok document ∧
      parseMillis document.activeFrom = some value.activeFrom ∧
      parseMillis document.issuedAt = some value.issuedAt ∧
      parseOptional document.retiredAt = .ok value.retiredAt ∧
      parseOptional document.compromisedFrom = .ok value.compromisedFrom ∧
      parseOptional document.compromisedUntil = .ok value.compromisedUntil ∧
      canonicalVerificationKeyStatement codec value = .ok raw := by
  obtain ⟨document, hdocument, h⟩ := bind_ok.1 h
  obtain ⟨-, h⟩ := ensure_bind.1 h
  obtain ⟨publicKey, -, h⟩ := required_bind.1 h
  obtain ⟨-, h⟩ := ensure_bind.1 h
  obtain ⟨activeFrom, hactive, h⟩ := required_bind.1 h
  obtain ⟨issuedAt, hissued, h⟩ := required_bind.1 h
  obtain ⟨retiredAt, hretired, h⟩ := bind_ok.1 h
  obtain ⟨compromisedFrom, hfrom, h⟩ := bind_ok.1 h
  obtain ⟨compromisedUntil, huntil, h⟩ := bind_ok.1 h
  obtain ⟨-, h⟩ := ensure_bind.1 h
  obtain ⟨reencoded, hencoded, h⟩ := bind_ok.1 h
  obtain ⟨hsame, h⟩ := ensure_bind.1 h
  cases h
  exact ⟨document, hdocument, hactive, hissued, hretired, hfrom, huntil,
    by rw [hencoded, beq_iff_eq.1 hsame]⟩

/-- A key statement that was encoded is read again exactly if its times are of the years 0 to
9999. -/
theorem parseCanonicalVerificationKeyStatement_canonical (hcodec : codec.Lawful)
    (h : canonicalVerificationKeyStatement codec.digests value = .ok canonical) :
    parseCanonicalVerificationKeyStatement codec.digests canonical = .ok value ↔
      ∀ t ∈ value.times, Dated t := by
  obtain ⟨hvalid, hjson⟩ := ensure_bind.1 h
  have hparts := hvalid
  simp only [validKeyStatement, Bool.and_eq_true, decide_eq_true_eq] at hparts
  obtain ⟨⟨⟨⟨⟨⟨⟨⟨⟨⟨-, hversion⟩, -⟩, -⟩, hkey⟩, hactive⟩, hissued⟩, -⟩, hretired⟩, hfrom⟩,
    huntil⟩ :=
    hparts
  have hretired' (t : Time) (ht : t ∈ value.retiredAt) : validMillis t = true := by
    rw [Option.mem_def.1 ht, Option.all_some, Bool.and_eq_true] at hretired
    exact hretired.1
  have hfrom' (t : Time) (ht : t ∈ value.compromisedFrom) : validMillis t = true := by
    rwa [Option.mem_def.1 ht, Option.all_some] at hfrom
  have huntil' (t : Time) (ht : t ∈ value.compromisedUntil) : validMillis t = true := by
    rw [Option.mem_def.1 ht, Option.all_some] at huntil
    split at huntil
    · rw [Bool.and_eq_true] at huntil
      exact huntil.1
    · cases huntil
  have hdecode := decodeCanonical_canonicalJSON hcodec.keyStatement hjson hversion
  rw [VerificationKeyStatement.dated_times]
  constructor
  · intro hparse
    obtain ⟨document, hdocument, hactive, hissued, hretired, hfrom, huntil, -⟩ :=
      parseCanonicalVerificationKeyStatement_ok hparse
    obtain rfl := Except.ok.inj (hdecode.symm.trans hdocument)
    exact ⟨dated_of_parseMillis hactive, dated_of_parseMillis hissued,
      (parseOptional_formatOptional hretired').1 hretired,
      (parseOptional_formatOptional hfrom').1 hfrom,
      (parseOptional_formatOptional huntil').1 huntil⟩
  · rintro ⟨hactiveAt, hissuedAt, hretiredAt, hfromAt, huntilAt⟩
    refine bind_ok.2 ⟨_, hdecode, ?_⟩
    refine ensure_bind.2 ⟨beq_self_eq_true _, ?_⟩
    refine required_bind.2 ⟨_, decodeString_encode _, ?_⟩
    refine ensure_bind.2 ⟨hkey, ?_⟩
    refine required_bind.2 ⟨_, hactiveAt.parseMillis hactive, ?_⟩
    refine required_bind.2 ⟨_, hissuedAt.parseMillis hissued, ?_⟩
    refine bind_ok.2 ⟨_, (parseOptional_formatOptional hretired').2 hretiredAt, ?_⟩
    refine bind_ok.2 ⟨_, (parseOptional_formatOptional hfrom').2 hfromAt, ?_⟩
    refine bind_ok.2 ⟨_, (parseOptional_formatOptional huntil').2 huntilAt, ?_⟩
    refine ensure_bind.2 ⟨hvalid, bind_ok.2 ⟨canonical, h, ?_⟩⟩
    exact ensure_bind.2 ⟨beq_self_eq_true _, rfl⟩

/-! ## Recovery manifests -/

/-- The times of a recovery manifest. -/
def RecoveryManifest.times (value : RecoveryManifest Digest) : List Time :=
  [value.identityBackup.capturedAt, value.auditBackup.capturedAt, value.identityWallHighWater,
    value.createdAt]

/-- The evidence of a backup is read again exactly if its time is of the years 0 to 9999. -/
theorem decodeBackup_encodeBackup {value : BackupEvidence Digest} (hvalid : validBackup value) :
    decodeBackup codec.digests (encodeBackup codec.digests value) = some value ↔
      Dated value.capturedAt := by
  simp only [validBackup, Bool.and_eq_true] at hvalid
  simp only [decodeBackup, encodeBackup, Codec.digests, decodeDigest_encodeDigest,
    Option.bind_eq_bind, Option.bind_some, Option.bind_eq_some_iff]
  constructor
  · rintro ⟨capturedAt, hparse, -⟩
    exact dated_of_parseMillis hparse
  · exact fun hdated => ⟨_, hdated.parseMillis hvalid.2, rfl⟩

/-- The epochs of valid floors are exact. -/
theorem validFloors_epoch {previous : String} {floors : List EpochFloor}
    (h : validFloors previous floors) : ∀ floor ∈ floors, floor.epoch ≤ maxJSONSafeSequence := by
  induction floors generalizing previous with
  | nil => exact fun floor hfloor => absurd hfloor List.not_mem_nil
  | cons floor floors ih =>
    simp only [validFloors, Bool.and_eq_true, decide_eq_true_eq] at h
    obtain ⟨⟨⟨-, hepoch⟩, -⟩, hrest⟩ := h
    exact List.forall_mem_cons.2 ⟨hepoch, ih hrest⟩

/-- The nodes of a proof are read again. -/
theorem mapM_decodeDigest (path : List Digest) :
    (path.map encodeDigest).mapM decodeDigest = some path := by
  induction path with
  | nil => rfl
  | cons hash path ih => simp [List.mapM_cons, decodeDigest_encodeDigest, ih]

/-- What the parser of manifests has read, and that it has compared. -/
theorem parseCanonicalRecoveryManifest_ok {value : RecoveryManifest Digest}
    (h : parseCanonicalRecoveryManifest codec raw = .ok value) :
    ∃ document, decodeCanonical codec.manifest raw maxRecoveryManifestBytes = .ok document ∧
      decodeBackup codec document.identityBackup = some value.identityBackup ∧
      decodeBackup codec document.auditBackup = some value.auditBackup ∧
      parseMillis document.identityWallHighWater = some value.identityWallHighWater ∧
      parseMillis document.createdAt = some value.createdAt ∧
      canonicalRecoveryManifest codec value = .ok raw := by
  obtain ⟨document, hdocument, h⟩ := bind_ok.1 h
  obtain ⟨-, h⟩ := ensure_bind.1 h
  obtain ⟨identityBackup, hidentity, h⟩ := required_bind.1 h
  obtain ⟨auditBackup, haudit, h⟩ := required_bind.1 h
  obtain ⟨auditRoot, -, h⟩ := required_bind.1 h
  obtain ⟨checkpointRoot, -, h⟩ := required_bind.1 h
  obtain ⟨createdAt, hcreated, h⟩ := required_bind.1 h
  obtain ⟨identityHighWater, hwall, h⟩ := required_bind.1 h
  obtain ⟨proof, -, h⟩ := required_bind.1 h
  obtain ⟨-, h⟩ := ensure_bind.1 h
  obtain ⟨reencoded, hencoded, h⟩ := bind_ok.1 h
  obtain ⟨hsame, h⟩ := ensure_bind.1 h
  cases h
  exact ⟨document, hdocument, hidentity, haudit, hwall, hcreated,
    by rw [hencoded, beq_iff_eq.1 hsame]⟩

/-- A manifest that was encoded is read again exactly if its times are of the years 0 to 9999. -/
theorem parseCanonicalRecoveryManifest_canonical (hcodec : codec.Lawful)
    {value : RecoveryManifest Digest}
    (h : canonicalRecoveryManifest codec.digests value = .ok canonical) :
    parseCanonicalRecoveryManifest codec.digests canonical = .ok value ↔
      ∀ t ∈ value.times, Dated t := by
  obtain ⟨hvalid, hjson⟩ := ensure_bind.1 h
  have hparts := hvalid
  simp only [validRecoveryManifest, Bool.and_eq_true, decide_eq_true_eq, beq_iff_eq] at hparts
  obtain ⟨⟨⟨⟨⟨⟨⟨⟨⟨⟨⟨⟨⟨⟨⟨⟨⟨⟨-, hidentity⟩, haudit⟩, -⟩, -⟩, hwall⟩, -⟩, hcreated⟩, -⟩, -⟩, -⟩, -⟩,
    hle⟩, hmax⟩, hfirst⟩, hsecond⟩, -⟩, -⟩, hfloors⟩ := hparts
  have hdecode := decodeCanonical_canonicalJSON hcodec.manifest hjson
    ⟨hle.trans hmax, hmax, validFloors_epoch hfloors⟩
  simp only [RecoveryManifest.times, List.forall_mem_cons, List.not_mem_nil, false_imp_iff,
    implies_true, and_true]
  constructor
  · intro hparse
    obtain ⟨document, hdocument, hidentityAt, hauditAt, hwallAt, hcreatedAt, -⟩ :=
      parseCanonicalRecoveryManifest_ok hparse
    obtain rfl := Except.ok.inj (hdecode.symm.trans hdocument)
    exact ⟨(decodeBackup_encodeBackup hidentity).1 hidentityAt,
      (decodeBackup_encodeBackup haudit).1 hauditAt, dated_of_parseMillis hwallAt,
      dated_of_parseMillis hcreatedAt⟩
  · rintro ⟨hidentityAt, hauditAt, hwallAt, hcreatedAt⟩
    -- The sizes of the proof are those of the heads, so they are not in the document.
    have hproof : (⟨value.auditBackupTreeHead.size, value.checkpointTreeHead.size,
        value.checkpointConsistency.path⟩ : ConsistencyProof Digest) =
          value.checkpointConsistency := by
      rw [← hfirst, ← hsecond]
    have hresult : { value with checkpointConsistency := ⟨value.auditBackupTreeHead.size,
        value.checkpointTreeHead.size, value.checkpointConsistency.path⟩ } = value := by rw [hproof]
    refine bind_ok.2 ⟨_, hdecode, ?_⟩
    refine ensure_bind.2 ⟨beq_self_eq_true _, ?_⟩
    refine required_bind.2 ⟨_, (decodeBackup_encodeBackup hidentity).2 hidentityAt, ?_⟩
    refine required_bind.2 ⟨_, (decodeBackup_encodeBackup haudit).2 hauditAt, ?_⟩
    refine required_bind.2 ⟨_, decodeDigest_encodeDigest _, ?_⟩
    refine required_bind.2 ⟨_, decodeDigest_encodeDigest _, ?_⟩
    refine required_bind.2 ⟨_, hcreatedAt.parseMillis hcreated, ?_⟩
    refine required_bind.2 ⟨_, hwallAt.parseMillis hwall, ?_⟩
    refine required_bind.2 ⟨_, mapM_decodeDigest _, ?_⟩
    refine ensure_bind.2 ⟨hresult.symm ▸ hvalid, bind_ok.2 ⟨canonical, hresult.symm ▸ h, ?_⟩⟩
    exact ensure_bind.2 ⟨beq_self_eq_true _, congrArg Except.ok hresult⟩

/-- **Signed audit objects round-trip exactly if their times have the years 0 to 9999**: what the
encoder of a checkpoint, a key statement or a recovery manifest gives is accepted by its parser and
read as the same value. What a parser accepts, whatever the times, is the encoding of the value it
returns. -/
theorem signed_objects_round_trip (hcodec : codec.Lawful) :
    (∀ value canonical, canonicalCheckpoint codec.digests value = .ok canonical →
      (parseCanonicalCheckpoint codec.digests canonical = .ok value ↔ Dated value.issuedAt)) ∧
    (∀ value canonical, canonicalVerificationKeyStatement codec.digests value = .ok canonical →
      (parseCanonicalVerificationKeyStatement codec.digests canonical = .ok value ↔
        ∀ t ∈ value.times, Dated t)) ∧
    (∀ value canonical, canonicalRecoveryManifest codec.digests value = .ok canonical →
      (parseCanonicalRecoveryManifest codec.digests canonical = .ok value ↔
        ∀ t ∈ value.times, Dated t)) ∧
    (∀ raw value, parseCanonicalCheckpoint codec.digests raw = .ok value →
      canonicalCheckpoint codec.digests value = .ok raw) ∧
    (∀ raw value, parseCanonicalVerificationKeyStatement codec.digests raw = .ok value →
      canonicalVerificationKeyStatement codec.digests value = .ok raw) ∧
    ∀ raw value, parseCanonicalRecoveryManifest codec.digests raw = .ok value →
      canonicalRecoveryManifest codec.digests value = .ok raw := by
  refine ⟨fun _ _ => parseCanonicalCheckpoint_canonical hcodec,
    fun _ _ => parseCanonicalVerificationKeyStatement_canonical hcodec,
    fun _ _ => parseCanonicalRecoveryManifest_canonical hcodec,
    fun raw value h => ?_, fun raw value h => ?_, fun raw value h => ?_⟩
  · obtain ⟨document, -, -, hencoded⟩ := parseCanonicalCheckpoint_ok h
    exact hencoded
  · obtain ⟨document, -, -, -, -, -, -, hencoded⟩ := parseCanonicalVerificationKeyStatement_ok h
    exact hencoded
  · obtain ⟨document, -, -, -, -, -, hencoded⟩ := parseCanonicalRecoveryManifest_ok h
    exact hencoded

end

/-! ## Samples -/

theorem textsJcs_lawful {Doc : Type} {texts : Doc → List String}
    {ofTexts : List String → Option Doc} (h : ∀ value, ofTexts (texts value) = some value)
    (hne : ∀ value, texts value ≠ []) (Exact : Doc → Prop) :
    (textsJcs texts ofTexts).Lawful Exact where
  canonical value _ := by
    refine ⟨Texts.encode (texts value), rfl, ?_, rfl, ?_⟩
    · obtain ⟨text, rest, htexts⟩ := List.exists_cons_of_ne_nil (hne value)
      simp [htexts, Texts.encode, Texts.encodeText]
    · simp [textsJcs, Texts.decode_encode, h]

theorem CanonicalCheckpoint.ofTexts_texts (value : CanonicalCheckpoint) :
    ofTexts value.texts = some value := by
  simp only [ofTexts, texts, digits_toString, Option.map_some]

theorem CanonicalKeyStatement.ofTexts_texts (value : CanonicalKeyStatement) :
    ofTexts value.texts = some value := by
  simp only [ofTexts, texts, digits_toString, Option.map_some]

/-- The floors with the given members. -/
def EpochFloor.ofTexts : List String → Option (List EpochFloor)
  | [] => some []
  | tenantID :: principalID :: epoch :: rest => do
    let epoch ← digits epoch.toList
    let floors ← ofTexts rest
    return ⟨tenantID, principalID, epoch⟩ :: floors
  | _ => none

/-- The members of a recovery manifest's document as texts, with the number of the proof's nodes. -/
def CanonicalRecoveryManifest.texts (value : CanonicalRecoveryManifest) : List String :=
  [value.profile, value.manifestID, value.identityBackup.backupID, value.identityBackup.databaseID,
    value.identityBackup.digest, value.identityBackup.capturedAt, value.auditBackup.backupID,
    value.auditBackup.databaseID, value.auditBackup.digest, value.auditBackup.capturedAt,
    toString value.auditBackupTreeSize, value.auditBackupRootHash, value.checkpointReference,
    toString value.checkpointTreeSize, value.checkpointRootHash, value.identityWallHighWater,
    value.createdAt, value.algorithm, value.keyID, toString value.consistencyProof.length] ++
  (value.consistencyProof ++ value.identityEpochFloors.flatMap fun floor =>
      [floor.tenantID, floor.principalID, toString floor.epoch])

/-- The recovery manifest's document with the given members. -/
def CanonicalRecoveryManifest.ofTexts : List String → Option CanonicalRecoveryManifest
  | profile :: manifestID :: identityID :: identityDatabase :: identityDigest :: identityAt ::
      auditID :: auditDatabase :: auditDigest :: auditAt :: auditSize :: auditBackupRootHash ::
      checkpointReference :: checkpointSize :: checkpointRootHash :: identityWallHighWater ::
      createdAt :: algorithm :: keyID :: nodes :: rest => do
    let auditBackupTreeSize ← digits auditSize.toList
    let checkpointTreeSize ← digits checkpointSize.toList
    let nodes ← digits nodes.toList
    let identityEpochFloors ← EpochFloor.ofTexts (rest.drop nodes)
    return {
      profile, manifestID
      identityBackup := ⟨identityID, identityDatabase, identityDigest, identityAt⟩
      auditBackup := ⟨auditID, auditDatabase, auditDigest, auditAt⟩
      auditBackupTreeSize, auditBackupRootHash, checkpointReference, checkpointTreeSize
      checkpointRootHash, identityEpochFloors, identityWallHighWater, createdAt, algorithm, keyID
      consistencyProof := rest.take nodes }
  | _ => none

theorem EpochFloor.ofTexts_flatMap (floors : List EpochFloor) : ofTexts (floors.flatMap fun floor =>
      [floor.tenantID, floor.principalID, toString floor.epoch]) = some floors := by
  induction floors with
  | nil => rfl
  | cons floor floors ih =>
    simp only [List.flatMap_cons, List.cons_append, List.nil_append, ofTexts, digits_toString, ih,
      Option.bind_eq_bind, Option.bind_some, Option.pure_def]

theorem CanonicalRecoveryManifest.ofTexts_texts (value : CanonicalRecoveryManifest) :
    ofTexts value.texts = some value := by
  simp only [texts, List.cons_append, List.nil_append, ofTexts, digits_toString, List.drop_left,
    List.take_left, EpochFloor.ofTexts_flatMap, Option.bind_eq_bind, Option.bind_some,
    Option.pure_def]

/-- A codec whose documents are lists of texts. -/
def documentCodec : Codec Digest where
  record := sampleJcs
  receipt := textsJcs (fun receipt => [receipt.profile]) fun _ => none
  checkpoint := textsJcs CanonicalCheckpoint.texts CanonicalCheckpoint.ofTexts
  keyStatement := textsJcs CanonicalKeyStatement.texts CanonicalKeyStatement.ofTexts
  witness := textsJcs (fun value => [value.profile]) fun _ => none
  manifest := textsJcs CanonicalRecoveryManifest.texts CanonicalRecoveryManifest.ofTexts
  sha256 _ := .zero
  encodeDigest := encodeDigest
  decodeHash := decodeDigest
  verify _ _ _ := true

/-- The sample codec reads what it writes. -/
theorem documentCodec_lawful : documentCodec.Lawful where
  checkpoint :=
    textsJcs_lawful CanonicalCheckpoint.ofTexts_texts (by simp [CanonicalCheckpoint.texts]) _
  keyStatement :=
    textsJcs_lawful CanonicalKeyStatement.ofTexts_texts (by simp [CanonicalKeyStatement.texts]) _
  manifest := textsJcs_lawful CanonicalRecoveryManifest.ofTexts_texts
    (by simp [CanonicalRecoveryManifest.texts]) _

/-- A checkpoint that is issued at a time. -/
def datedCheckpoint (unixMilli : Int) : Checkpoint Digest :=
  ⟨"0198f56b-0c00-7000-8000-0000000000aa", 1, .zero, .zero, ⟨unixMilli * 1000000, true⟩, "Ed25519",
    "key-1", ""⟩

/-- A key statement of a time. -/
def datedStatement (unixMilli : Int) : VerificationKeyStatement :=
  ⟨1, "key-1", "Ed25519", List.replicate 32 0, ⟨unixMilli * 1000000, true⟩, none, none, none,
    ⟨unixMilli * 1000000, true⟩⟩

/-- A recovery manifest of a time. -/
def datedManifest (unixMilli : Int) : RecoveryManifest Digest where
  manifestID := "0198f56b-0c00-7000-8000-000000000001"
  identityBackup := ⟨"0198f56b-0c00-7000-8000-000000000002", "0198f56b-0c00-7000-8000-0000000000bb",
    .zero, ⟨unixMilli * 1000000, true⟩⟩
  auditBackup := ⟨"0198f56b-0c00-7000-8000-000000000003", "0198f56b-0c00-7000-8000-0000000000aa",
    .zero, ⟨unixMilli * 1000000, true⟩⟩
  auditBackupTreeHead := ⟨1, .zero⟩
  checkpointReference := "audit-checkpoint:" ++ encodeDigest .zero
  checkpointTreeHead := ⟨1, .zero⟩
  checkpointConsistency := ⟨1, 1, []⟩
  identityEpochFloors := [⟨"tenant-a", encodeDigest .zero, 12⟩]
  identityWallHighWater := ⟨unixMilli * 1000000, true⟩
  createdAt := ⟨unixMilli * 1000000, true⟩
  algorithm := "Ed25519"
  keyID := "key-1"

/-- Objects of the year 2026 are read again, and a checkpoint of the year 10000 is not. -/
theorem signed_objects_round_trip_2026 :
    (∃ canonical, canonicalCheckpoint documentCodec.digests (datedCheckpoint 1785747600000) =
        .ok canonical ∧ parseCanonicalCheckpoint documentCodec.digests canonical =
          .ok (datedCheckpoint 1785747600000)) ∧
    (∃ canonical, canonicalVerificationKeyStatement documentCodec.digests
        (datedStatement 1785747600000) = .ok canonical ∧
      parseCanonicalVerificationKeyStatement documentCodec.digests canonical =
        .ok (datedStatement 1785747600000)) ∧
    (∃ canonical, canonicalRecoveryManifest documentCodec.digests (datedManifest 1785747600000) =
        .ok canonical ∧ parseCanonicalRecoveryManifest documentCodec.digests canonical =
          .ok (datedManifest 1785747600000)) ∧
    ∃ canonical, canonicalCheckpoint documentCodec.digests (datedCheckpoint 253402300800000) =
        .ok canonical ∧ parseCanonicalCheckpoint documentCodec.digests canonical ≠
          .ok (datedCheckpoint 253402300800000) := by
  obtain ⟨hcheckpoint, hstatement, hmanifest, -⟩ := signed_objects_round_trip documentCodec_lawful
  obtain ⟨canonical, h⟩ := exists_ok (show (canonicalCheckpoint documentCodec.digests
    (datedCheckpoint 1785747600000)).isOk = true by decide +kernel)
  obtain ⟨canonical', h'⟩ := exists_ok (show (canonicalVerificationKeyStatement
    documentCodec.digests (datedStatement 1785747600000)).isOk = true by decide +kernel)
  obtain ⟨canonical'', h''⟩ := exists_ok (show (canonicalRecoveryManifest documentCodec.digests
    (datedManifest 1785747600000)).isOk = true by decide +kernel)
  obtain ⟨late, hlate⟩ := exists_ok (show (canonicalCheckpoint documentCodec.digests
    (datedCheckpoint 253402300800000)).isOk = true by decide +kernel)
  exact ⟨⟨canonical, h, (hcheckpoint _ _ h).2 (by decide)⟩,
    ⟨canonical', h', (hstatement _ _ h').2 (by decide)⟩,
    ⟨canonical'', h'', (hmanifest _ _ h'').2 (by decide)⟩,
    late, hlate, fun hparse => absurd ((hcheckpoint _ _ hlate).1 hparse) (by decide)⟩

/-- A checkpoint of the first day of the year 10000 is encoded, and its bytes are not accepted. -/
theorem checkpoint_year_10000 : ¬ ∀ codec : Codec Digest, codec.Lawful →
    ∀ (value : Checkpoint Digest) canonical,
      canonicalCheckpoint codec.digests value = .ok canonical →
        parseCanonicalCheckpoint codec.digests canonical = .ok value := by
  intro h
  obtain ⟨canonical, hencoded⟩ := exists_ok (show (canonicalCheckpoint documentCodec.digests
    (datedCheckpoint 253402300800000)).isOk = true by decide +kernel)
  have hparsed := h documentCodec documentCodec_lawful _ _ hencoded
  have hdated := (parseCanonicalCheckpoint_canonical documentCodec_lawful hencoded).1 hparsed
  exact absurd hdated (by decide)

end YukhCoordination.Relay.Audit
