import YukhCoordination.Relay.Audit.Sqlite.Append
import YukhCoordination.Relay.Audit.Sqlite.Keys

/-!
# Installing a key statement

What `Ledger.InstallVerificationKey` keeps of `Ledger.Verify`. `Installed` is what it adds to the
database: a row with the next version of its key and at most an entry that covers it. The
stored checkpoints and manifests keep their verification exactly if the new statement fits them
(`Fits`), the chain and the coverage if its record can be stored (`Recordable`).

The source checks neither. A version that retires its key at or before the time of a stored
checkpoint is installed, and the ledger no longer verifies.
-/

namespace YukhCoordination.Relay.Audit.Sqlite

open Lifecycle Coordination Transaction

section
variable {Hash : Type} {codec : Codec Hash} {authority : Bytes} {db db' : Db Hash} {row : KeyRow}

/-! ## Statements that follow -/

/-- What a later version of a key keeps of a checkpoint, if it does not retire the key before. -/
theorem verifySignedCheckpoint_of_follows [DecidableEq Hash] {signed : SignedCheckpoint Hash}
    {previous statement : VerificationKeyStatement} {trust : CheckpointTrust}
    (h : verifySignedCheckpoint codec signed previous = .ok trust)
    (hkey : statement.keyID = previous.keyID)
    (halgorithm : statement.algorithm = checkpointAlgorithm) (hfollows : follows previous statement)
    (hretired : retiredBy statement signed.checkpoint.issuedAt = false) :
    verifySignedCheckpoint codec signed statement =
      .ok (if compromisedAt statement signed.checkpoint.issuedAt then .indeterminate
        else .trusted) := by
  obtain ⟨-, hpublic, hactive, -⟩ := follows_iff.1 hfollows
  refine bind_ok_imp h fun parsed _ h => ?_
  obtain ⟨hfields, h⟩ := ensure_bind.1 h
  obtain ⟨hsignature, h⟩ := ensure_bind.1 h
  simp only [Bool.and_eq_true, beq_iff_eq] at hfields
  obtain ⟨⟨⟨⟨rfl, hparsedKey⟩, hparsedAlgorithm⟩, -⟩, hlength⟩ := hfields
  refine ensure_bind.2 ⟨?_, ensure_bind.2 ⟨by rwa [hpublic], ?_⟩⟩
  · simp only [Bool.and_eq_true, beq_iff_eq]
    exact ⟨⟨⟨⟨trivial, hparsedKey.trans hkey.symm⟩, hparsedAlgorithm⟩, halgorithm⟩, hlength⟩
  · refine bind_ok_imp h fun reference _ h => bind_ok_imp h fun _ _ h => ?_
    obtain ⟨hwindow, -⟩ := ensure_bind.1 h
    rw [Bool.and_eq_true] at hwindow
    refine ensure_bind.2 ⟨?_, rfl⟩
    rw [Bool.and_eq_true, hactive, hretired]
    exact ⟨hwindow.1, rfl⟩

/-- A checkpoint is verified against statements that do not retire the key before, and trusted by
those that do not call it compromised. -/
theorem window_of_verifySignedCheckpoint [DecidableEq Hash] {signed : SignedCheckpoint Hash}
    {statement : VerificationKeyStatement} {trust : CheckpointTrust}
    (h : verifySignedCheckpoint codec signed statement = .ok trust) :
    retiredBy statement signed.checkpoint.issuedAt = false ∧
      (trust = .trusted → compromisedAt statement signed.checkpoint.issuedAt = false) := by
  obtain ⟨parsed, -, h⟩ := bind_ok.1 h
  obtain ⟨hfields, h⟩ := ensure_bind.1 h
  obtain ⟨-, h⟩ := ensure_bind.1 h
  obtain ⟨_, -, h⟩ := bind_ok.1 h
  obtain ⟨-, h⟩ := ensure_bind.1 h
  obtain ⟨hwindow, h⟩ := ensure_bind.1 h
  simp only [Bool.and_eq_true, beq_iff_eq] at hfields
  obtain ⟨⟨⟨⟨rfl, -⟩, -⟩, -⟩, -⟩ := hfields
  simp only [Bool.and_eq_true, Bool.not_eq_true'] at hwindow
  refine ⟨hwindow.2, ?_⟩
  rintro rfl
  by_contra hcompromised
  rw [if_pos (by simpa using hcompromised)] at h
  cases h

variable {checkpoint : SignedCheckpoint Hash} {version : Nat}

/-- What a manifest is checked against: a statement of its key that trusts its time, and a
statement of the key of its checkpoint that trusts the checkpoint. -/
theorem verifySignedRecoveryManifest_of_statements [DecidableEq Hash]
    {signed : SignedRecoveryManifest Hash} {manifest : RecoveryManifest Hash}
    (hmanifest : parseCanonicalRecoveryManifest codec signed.canonical = .ok manifest)
    {previous statement checkpointPrevious checkpointStatement : VerificationKeyStatement}
    (h : verifySignedRecoveryManifest codec signed previous checkpoint checkpointPrevious = .ok ())
    (hkey : statement.keyID = previous.keyID) (hpublic : statement.publicKey = previous.publicKey)
    (htrusted : keyTrustedAt previous manifest.createdAt →
      keyTrustedAt statement manifest.createdAt)
    (hcheckpoint : verifySignedCheckpoint codec checkpoint checkpointPrevious = .ok .trusted →
      verifySignedCheckpoint codec checkpoint checkpointStatement = .ok .trusted) :
    verifySignedRecoveryManifest codec signed statement checkpoint checkpointStatement =
      .ok () := by
  refine bind_ok_imp h fun parsed hparsed h => ?_
  obtain rfl : parsed = manifest := Except.ok.inj (hparsed.symm.trans hmanifest)
  obtain ⟨hfields, h⟩ := ensure_bind.1 h
  obtain ⟨hsignature, h⟩ := ensure_bind.1 h
  refine ensure_bind.2 ⟨hkey ▸ hfields, ensure_bind.2 ⟨hpublic ▸ hsignature, ?_⟩⟩
  refine bind_ok_imp h fun reference _ h => bind_ok_imp h fun _ _ h => ?_
  obtain ⟨htrust, h⟩ := ensure_bind.1 h
  obtain ⟨trust, hverified, h⟩ := bind_ok.1 h
  obtain ⟨hhead, -⟩ := ensure_bind.1 h
  obtain rfl : trust = .trusted := by
    simp only [Bool.and_eq_true, beq_iff_eq] at hhead
    exact hhead.1.1.1
  exact ensure_bind.2 ⟨htrusted htrust, bind_ok.2 ⟨.trusted, hcheckpoint hverified, h⟩⟩

/-! ## A statement that fits -/

/-- What a new version of a key has to leave alone: it does not retire the key at or before the time
of a stored checkpoint of the key, and it trusts the key at the times of the stored manifests that
it signed and of the checkpoints that they rest on. -/
structure Fits (codec : Codec Hash) (db : Db Hash) (statement : VerificationKeyStatement) :
    Prop where
  checkpoints : ∀ row ∈ db.checkpoints, ∀ checkpoint,
    parseCanonicalCheckpoint codec row.canonicalCheckpoint = .ok checkpoint →
    checkpoint.keyID = statement.keyID → retiredBy statement checkpoint.issuedAt = false
  manifests : ∀ row ∈ db.manifests, ∀ manifest,
    parseCanonicalRecoveryManifest codec row.canonicalManifest = .ok manifest →
    manifest.keyID = statement.keyID →
    retiredBy statement manifest.createdAt = false ∧
      compromisedAt statement manifest.createdAt = false
  evidence : ∀ row ∈ db.manifests, ∀ checkpoint version,
    readCheckpoint codec db row.checkpointReference = .ok (checkpoint, version) →
    checkpoint.checkpoint.keyID = statement.keyID →
    compromisedAt statement checkpoint.checkpoint.issuedAt = false

/-- The number of entries that cover a statement. -/
def Db.covering (codec : Codec Hash) (db : Db Hash) (statement : VerificationKeyStatement) : Nat :=
  db.entries.countP (Entry.covers codec · (signingKeyReference statement.keyID statement.version))

/-- The record of an installation can be stored: its operation is, and one entry covers the
statement, or none does and the time of the record has one of the years 0 to 9999. -/
def Recordable (codec : Codec Hash) (db : Db Hash) (statement : VerificationKeyStatement)
    (operationID : String) (recordedAt : Time) : Prop :=
  if db.entries.any (·.operationID == operationID) then db.covering codec statement = 1
  else db.covering codec statement = 0 ∧ Dated recordedAt

/-- What `InstallVerificationKey` adds to a database whose authority is pinned: a row with the next
version of its key, and entries that cover it. -/
structure Installed (codec : Codec Hash) (authority : Bytes) (db : Db Hash)
    (statement : VerificationKeyStatement) (row : KeyRow) (added : List (Entry Hash))
    (db' : Db Hash) : Prop where
  pinned : db.authority = some authority
  carries : Carries codec authority row statement
  next : ∀ row' ∈ db.keyStatements, row'.keyID = row.keyID → ∀ statement',
    Carries codec authority row' statement' →
      row'.version < row.version ∧ follows statement' statement
  covers : ∀ entry ∈ added, ∀ reference, entry.covers codec reference =
    (signingKeyReference statement.keyID statement.version == reference)
  authority : db'.authority = db.authority
  rows : db'.keyStatements = db.keyStatements ++ [row]
  entries : db'.entries = db.entries ++ added
  nodes : ∀ k hash, db.nodes.get? k = some hash → db'.nodes.get? k = some hash
  checkpoints : db'.checkpoints = db.checkpoints
  witnesses : db'.witnesses = db.witnesses
  operational : db'.operational = db.operational
  manifests : db'.manifests = db.manifests

/-- What a verified statement was checked for. -/
theorem verifyKeyStatement_ok {canonical signature : Bytes} {statement : VerificationKeyStatement}
    (h : verifyKeyStatement codec authority canonical signature = .ok statement) :
    parseCanonicalVerificationKeyStatement codec canonical = .ok statement ∧
      authority.length = publicKeySize ∧ statement.algorithm = checkpointAlgorithm := by
  obtain ⟨hlength, h⟩ := ensure_bind.1 h
  obtain ⟨parsed, hparsed, h⟩ := bind_ok.1 h
  obtain ⟨-, h⟩ := ensure_bind.1 h
  cases h
  rw [Bool.and_eq_true, beq_iff_eq] at hlength
  refine ⟨hparsed, hlength.1, ?_⟩
  obtain ⟨value, -, h⟩ := bind_ok.1 hparsed
  obtain ⟨-, h⟩ := ensure_bind.1 h
  obtain ⟨publicKey, -, h⟩ := required_bind.1 h
  obtain ⟨-, h⟩ := ensure_bind.1 h
  obtain ⟨activeFrom, -, h⟩ := required_bind.1 h
  obtain ⟨issuedAt, -, h⟩ := required_bind.1 h
  obtain ⟨retiredAt, -, h⟩ := bind_ok.1 h
  obtain ⟨compromisedFrom, -, h⟩ := bind_ok.1 h
  obtain ⟨compromisedUntil, -, h⟩ := bind_ok.1 h
  obtain ⟨hvalid, h⟩ := ensure_bind.1 h
  obtain ⟨reencoded, -, h⟩ := bind_ok.1 h
  obtain ⟨-, h⟩ := ensure_bind.1 h
  cases h
  simp only [validKeyStatement, Bool.and_eq_true, beq_iff_eq] at hvalid
  exact hvalid.1.1.1.1.1.1.1.2

/-- A checkpoint that is read is stored. -/
theorem readCheckpoint_ok {reference : String}
    (h : readCheckpoint codec db reference = .ok (checkpoint, version)) : ∃ row ∈ db.checkpoints,
      parseCanonicalCheckpoint codec row.canonicalCheckpoint = .ok checkpoint.checkpoint := by
  obtain ⟨row, hfind, h⟩ := required_bind.1 h
  obtain ⟨parsed, hparsed, h⟩ := bind_ok.1 h
  obtain ⟨expected, -, h⟩ := bind_ok.1 h
  obtain ⟨-, h⟩ := ensure_bind.1 h
  cases h
  exact ⟨row, List.mem_of_find?_eq_some hfind, hparsed⟩

section
variable {statement : VerificationKeyStatement} {added : List (Entry Hash)} {keyID : String}
  {manifestRow : ManifestRow} (h : Installed codec authority db statement row added db')
include h

theorem Installed.mem_orderedKeys_self : row ∈ db'.orderedKeys := by
  rw [Db.orderedKeys, List.mem_insertionSort, h.rows]
  exact List.mem_append_right _ (List.mem_singleton_self _)

theorem Installed.mem_orderedKeys {row' : KeyRow} (hr : row' ∈ db.orderedKeys) :
    row' ∈ db'.orderedKeys := by
  rw [Db.orderedKeys, List.mem_insertionSort, h.rows]
  exact List.mem_append_left _ ((List.mem_insertionSort _).1 hr)

/-- The statements of the database with the new row. -/
theorem Installed.keysVerified (hverified : KeysVerified codec authority db.keyStatements) :
    KeysVerified codec authority db'.keyStatements := by
  rw [h.rows]
  exact hverified.concat h.carries h.next

theorem Installed.algorithm : statement.algorithm = checkpointAlgorithm :=
  (verifyKeyStatement_ok h.carries.verified).2.2

section
variable {keys keys' : KeyState} (hkeys : verifyKeys codec authority db = .ok keys)
  (hkeys' : verifyKeys codec authority db' = .ok keys')
include hkeys hkeys'

/-- Each stored statement is still covered once, and the new one is if one entry covers it. -/
theorem Installed.verifyCoverage_iff
    (hcoverage : verifyCoverage codec db keys.keyReferences = .ok ()) :
    Sqlite.verifyCoverage codec db' keys'.keyReferences = .ok () ↔
      db.covering codec statement + added.length = 1 := by
  obtain ⟨hverified, hread⟩ := keysRead_of_verifyKeys hkeys
  have hread' := (keysRead_of_verifyKeys hkeys').2
  have hall := List.all_eq_true.1 (ensure_ok.1 hcoverage)
  have hcarries := h.carries
  have hself : added.countP (Entry.covers codec ·
      (signingKeyReference statement.keyID statement.version)) = added.length :=
    List.countP_eq_length.2 fun entry he => by rw [h.covers entry he, beq_self_eq_true]
  rw [Sqlite.verifyCoverage, ensure_ok, List.all_eq_true]
  constructor
  · intro hall'
    have hone := hall' (signingKeyReference statement.keyID statement.version) (by
      rw [hread'.references, hcarries.keyID, hcarries.version]
      exact List.mem_map_of_mem (h.mem_orderedKeys_self))
    rwa [beq_iff_eq, h.entries, List.countP_append, hself] at hone
  intro hone reference hr
  rw [hread'.references, List.mem_map] at hr
  obtain ⟨row', hr, rfl⟩ := hr
  have hmem : row' ∈ db'.keyStatements := (List.mem_insertionSort _).1 hr
  rw [beq_iff_eq, h.entries, List.countP_append]
  rw [h.rows] at hmem
  rcases List.mem_append.1 hmem with hmem | hmem
  · -- The record of the new row covers no other row.
    have hne : signingKeyReference statement.keyID statement.version ≠
        signingKeyReference row'.keyID row'.version := by
      intro heq
      obtain ⟨hkey, hversion⟩ := signingKeyReference_inj heq
      obtain ⟨statement', hcarries'⟩ := hverified.carries row' hmem
      have hlt := (h.next row' hmem (by rw [← hkey, hcarries.keyID]) statement' hcarries').1
      rw [← hversion, hcarries.version] at hlt
      exact absurd hlt (Nat.lt_irrefl _)
    have hone := hall (signingKeyReference row'.keyID row'.version) (by
      rw [hread.references]
      exact List.mem_map_of_mem ((List.mem_insertionSort _).2 hmem))
    have hzero : added.countP (Entry.covers codec ·
        (signingKeyReference row'.keyID row'.version)) = 0 := by
      refine List.countP_eq_zero.2 fun entry he hcovers => hne ?_
      rwa [h.covers entry he, beq_iff_eq] at hcovers
    rw [beq_iff_eq] at hone
    rw [hone, hzero]
  · obtain rfl := List.mem_singleton.1 hmem
    rwa [← hcarries.keyID, ← hcarries.version, hself]

/-- The statements that the loop read before are read again. -/
theorem Installed.found {version : Nat} {found : VerificationKeyStatement}
    (hfound : keys.keys.get? (keyID, version) = some found) :
    keys'.keys.get? (keyID, version) = some found := by
  obtain ⟨hverified', hread'⟩ := keysRead_of_verifyKeys hkeys'
  obtain ⟨row', hr, rfl, rfl, hcarries⟩ :=
    (keysRead_of_verifyKeys hkeys).2.keys_carries keyID version found hfound
  have hmem := h.mem_orderedKeys hr
  obtain ⟨found', hfound'⟩ := Option.isSome_iff_exists.1
    ((hread'.keys row'.keyID row'.version).2 ⟨row', hmem, rfl, rfl⟩)
  obtain ⟨row'', hr', hkey, hversion, hcarries'⟩ := hread'.keys_carries _ _ found' hfound'
  obtain rfl := hverified'.distinct ((List.mem_insertionSort _).1 hr')
    ((List.mem_insertionSort _).1 hmem) hkey hversion
  rw [hfound', hcarries.unique hcarries']

omit keys hkeys in
/-- The last version of its key is the new statement. -/
theorem Installed.latest_self : keys'.latest.get? statement.keyID = some statement := by
  have hread' := (keysRead_of_verifyKeys hkeys').2
  rw [h.carries.keyID]
  obtain ⟨current, hcurrent⟩ := Option.isSome_iff_exists.1
    ((hread'.latest row.keyID).2 ⟨row, h.mem_orderedKeys_self, rfl⟩)
  obtain ⟨last, hl, hkey, hcarries, hmax⟩ := hread'.latest_carries _ current hcurrent
  rw [Db.orderedKeys, List.mem_insertionSort, h.rows] at hl
  rcases List.mem_append.1 hl with hl | hl
  · have hlt := (h.next last hl hkey current hcarries).1
    exact absurd hlt (hmax row h.mem_orderedKeys_self rfl).not_gt
  · obtain rfl := List.mem_singleton.1 hl
    rw [hcurrent, h.carries.unique hcarries]

/-- The last version of a key is the one that it was, or the new statement, which follows it. -/
theorem Installed.latest {current : VerificationKeyStatement}
    (hcurrent : keys.latest.get? keyID = some current) :
    current.keyID = keyID ∧ (keys'.latest.get? keyID = some current ∨ keyID = statement.keyID ∧
      keys'.latest.get? keyID = some statement ∧ follows current statement) := by
  obtain ⟨hverified, hread⟩ := keysRead_of_verifyKeys hkeys
  have hread' := (keysRead_of_verifyKeys hkeys').2
  obtain ⟨row', hr, rfl, hcarries, hmax⟩ := hread.latest_carries keyID current hcurrent
  have hmem := h.mem_orderedKeys hr
  replace hr := (List.mem_insertionSort _).1 hr
  refine ⟨hcarries.keyID, ?_⟩
  by_cases hsame : row'.keyID = row.keyID
  · have hkey : row'.keyID = statement.keyID := hsame.trans h.carries.keyID.symm
    refine .inr ⟨hkey, ?_, (h.next row' hr hsame current hcarries).2⟩
    rw [hkey]
    exact h.latest_self hkeys'
  · obtain ⟨current', hcurrent'⟩ := Option.isSome_iff_exists.1
      ((hread'.latest row'.keyID).2 ⟨row', hmem, rfl⟩)
    obtain ⟨last, hl, hkey, hcarries', hmax'⟩ := hread'.latest_carries _ current' hcurrent'
    rw [Db.orderedKeys, List.mem_insertionSort, h.rows] at hl
    rcases List.mem_append.1 hl with hl | hl
    · have hle := hmax last ((List.mem_insertionSort _).2 hl) hkey
      have hge := hmax' row' hmem rfl
      obtain rfl := hverified.distinct hl hr hkey (by omega)
      rw [hcurrent', hcarries.unique hcarries']
      exact .inl rfl
    · rw [List.mem_singleton.1 hl] at hkey
      exact absurd hkey.symm hsame

end

variable (hverified : KeysVerified codec authority db.keyStatements)

section
include hverified

/-- The last version of its key for the manifests is the new statement. -/
theorem Installed.latestKey_self :
    latestKeyFromDB codec db' statement.keyID authority = .ok statement := by
  have hnew (row' : KeyRow) (hr : row' ∈ db.keyStatements) (hkey' : row'.keyID = row.keyID) :
      row'.version < row.version := by
    obtain ⟨statement', hcarries'⟩ := hverified.carries row' hr
    exact (h.next row' hr hkey' statement' hcarries').1
  rw [h.carries.keyID]
  exact required_bind.2 ⟨row, latestRow_concat_self h.rows hnew, h.carries.verified⟩

/-- The last version of a key for the manifests, likewise. -/
theorem Installed.latestKey {current : VerificationKeyStatement}
    (hcurrent : latestKeyFromDB codec db keyID authority = .ok current) :
    current.keyID = keyID ∧ (latestKeyFromDB codec db' keyID authority = .ok current ∨
      keyID = statement.keyID ∧ latestKeyFromDB codec db' keyID authority = .ok statement ∧
        follows current statement) := by
  obtain ⟨last, hlast, hstatement⟩ := required_bind.1 hcurrent
  obtain ⟨hl, hkey, hmax⟩ := latestRow_some hlast
  obtain ⟨found, hcarries⟩ := hverified.carries last hl
  obtain rfl : current = found := Except.ok.inj (hstatement.symm.trans hcarries.verified)
  refine ⟨hcarries.keyID.trans hkey, ?_⟩
  by_cases hsame : keyID = row.keyID
  · have hself : keyID = statement.keyID := hsame.trans h.carries.keyID.symm
    refine .inr ⟨hself, ?_, (h.next last hl (hkey.trans hsame) current hcarries).2⟩
    rw [hself]
    exact h.latestKey_self hverified
  · refine .inl (required_bind.2 ⟨last, ?_, hstatement⟩)
    rw [latestRow_concat_of_ne h.rows hsame, hlast]

/-- The key of a stored manifest still trusts it. -/
theorem Installed.manifestKey (hfits : Fits codec db statement)
    (hr : manifestRow ∈ db.manifests) {manifest : RecoveryManifest Hash}
    (hmanifest : parseCanonicalRecoveryManifest codec manifestRow.canonicalManifest = .ok manifest)
    {key : VerificationKeyStatement}
    (hkey : latestKeyFromDB codec db manifest.keyID authority = .ok key) : ∃ key',
      latestKeyFromDB codec db' manifest.keyID authority = .ok key' ∧
        key'.keyID = key.keyID ∧ key'.publicKey = key.publicKey ∧
        (keyTrustedAt key manifest.createdAt → keyTrustedAt key' manifest.createdAt) := by
  obtain ⟨hkeyID, hsame | ⟨hkey', hlatest, hfollows⟩⟩ := h.latestKey hverified hkey
  · exact ⟨key, hsame, rfl, rfl, id⟩
  · obtain ⟨-, hpublic, hactive, -⟩ := follows_iff.1 hfollows
    obtain ⟨hretired, hcompromised⟩ := hfits.manifests manifestRow hr manifest hmanifest hkey'
    refine ⟨statement, hlatest, by rw [hkeyID, hkey'], hpublic, fun htrusted => ?_⟩
    simp only [keyTrustedAt, Bool.and_eq_true] at htrusted ⊢
    rw [hactive, hretired, hcompromised]
    exact ⟨⟨htrusted.1.1, rfl⟩, rfl⟩

end

variable [DecidableEq Hash]

/-- A covered checkpoint stays covered. -/
theorem Installed.verifyCovered {checkpointRow : CheckpointRow} {checkpoint : Checkpoint Hash}
    (hcovered : verifyCovered codec db checkpointRow checkpoint = .ok ()) :
    Sqlite.verifyCovered codec db' checkpointRow checkpoint = .ok () := by
  obtain ⟨root, hroot, hrest⟩ := bind_ok.1 hcovered
  refine bind_ok.2 ⟨root, subtreeHash_grows h.nodes hroot, bind_ok_imp hrest fun _ _ hrest => ?_⟩
  obtain ⟨covered, hfind, hrest⟩ := required_bind.1 hrest
  refine required_bind.2 ⟨covered, ?_, hrest⟩
  rw [h.entries, List.find?_append, hfind]
  rfl

/-- A stored checkpoint verifies with the new statements. -/
theorem Installed.verifyCheckpointRow {keys keys' : KeyState} (hfits : Fits codec db statement)
    (hkeys : verifyKeys codec authority db = .ok keys)
    (hkeys' : verifyKeys codec authority db' = .ok keys') {checkpointRow : CheckpointRow}
    (hr : checkpointRow ∈ db.checkpoints) {previous next : String × Nat}
    (hrow : verifyCheckpointRow codec db keys previous checkpointRow = .ok next) :
    Sqlite.verifyCheckpointRow codec db' keys' previous checkpointRow = .ok next := by
  refine bind_ok_imp hrow fun _ _ hrow => bind_ok_imp hrow fun checkpoint hcheckpoint hrow => ?_
  refine bind_ok_imp hrow fun _ hfields hrow => bind_ok_imp hrow fun reference _ hrow => ?_
  refine bind_ok_imp hrow fun _ _ hrow => ?_
  obtain ⟨⟨⟩, hcovered, hrow⟩ := bind_ok.1 hrow
  obtain ⟨found, hfound, hrow⟩ := required_bind.1 hrow
  refine bind_ok.2 ⟨(), h.verifyCovered hcovered, required_bind.2 ⟨found,
    h.found hkeys hkeys' hfound, bind_ok_imp hrow fun trust _ hrow => ?_⟩⟩
  obtain ⟨current, hcurrent, hrow⟩ := required_bind.1 hrow
  obtain ⟨hkeyID, hlatest | ⟨hkey, hlatest, hfollows⟩⟩ := h.latest hkeys hkeys' hcurrent
  · exact required_bind.2 ⟨current, hlatest, hrow⟩
  · obtain ⟨trust', htrust', hrow⟩ := bind_ok.1 hrow
    have hcheckpointKey : checkpoint.keyID = checkpointRow.keyID := by
      have hfields := ensure_ok.1 hfields
      simp only [Bool.and_eq_true, beq_iff_eq] at hfields
      exact hfields.1.2
    have hretired := hfits.checkpoints checkpointRow hr checkpoint hcheckpoint
      (hcheckpointKey.trans hkey)
    exact required_bind.2 ⟨statement, hlatest, bind_ok.2 ⟨_,
      verifySignedCheckpoint_of_follows htrust' (by rw [hkeyID, hkey]) h.algorithm hfollows
        hretired,
      hrow⟩⟩

include hverified

/-- The key of the checkpoint of a stored manifest still trusts it. -/
theorem Installed.checkpointKey (hfits : Fits codec db statement) (hr : manifestRow ∈ db.manifests)
    (hcheckpoint : readCheckpoint codec db manifestRow.checkpointReference =
      .ok (checkpoint, version)) {key : VerificationKeyStatement}
    (hkey : latestKeyFromDB codec db checkpoint.checkpoint.keyID authority = .ok key) : ∃ key',
      latestKeyFromDB codec db' checkpoint.checkpoint.keyID authority = .ok key' ∧
        key.version ≤ key'.version ∧
        (verifySignedCheckpoint codec checkpoint key = .ok .trusted →
          verifySignedCheckpoint codec checkpoint key' = .ok .trusted) := by
  obtain ⟨hkeyID, hsame | ⟨hkey', hlatest, hfollows⟩⟩ := h.latestKey hverified hkey
  · exact ⟨key, hsame, le_rfl, id⟩
  · obtain ⟨checkpointRow, hc, hparsed⟩ := readCheckpoint_ok hcheckpoint
    have hretired := hfits.checkpoints checkpointRow hc _ hparsed hkey'
    have hcompromised := hfits.evidence manifestRow hr checkpoint version hcheckpoint hkey'
    refine ⟨statement, hlatest, (follows_iff.1 hfollows).1.le, fun htrusted => ?_⟩
    rw [verifySignedCheckpoint_of_follows htrusted (by rw [hkeyID, hkey']) h.algorithm hfollows
      hretired, hcompromised]
    rfl

/-- A stored manifest verifies with the new statements. -/
theorem Installed.verifyManifestRow (hfits : Fits codec db statement)
    (hr : manifestRow ∈ db.manifests)
    (hrow : verifyManifestRow codec db authority manifestRow = .ok ()) :
    Sqlite.verifyManifestRow codec db' authority manifestRow = .ok () := by
  refine bind_ok_imp hrow fun _ _ hrow => bind_ok_imp hrow fun manifest hmanifest hrow => ?_
  refine bind_ok_imp hrow fun _ hfields hrow => bind_ok_imp hrow fun reference _ hrow => ?_
  refine bind_ok_imp hrow fun _ _ hrow => ?_
  obtain ⟨manifestKey, hmanifestKey, hrow⟩ := bind_ok.1 hrow
  obtain ⟨⟨checkpoint, version⟩, hcheckpoint, hrow⟩ := bind_ok.1 hrow
  obtain ⟨checkpointKey, hcheckpointKey, hrow⟩ := bind_ok.1 hrow
  obtain ⟨hversion, hsigned⟩ := ensure_bind.1 hrow
  have hcheckpointReference : manifest.checkpointReference = manifestRow.checkpointReference := by
    have hfields := ensure_ok.1 hfields
    simp only [Bool.and_eq_true, beq_iff_eq] at hfields
    exact hfields.2
  have hcheckpoint' : readCheckpoint codec db' manifest.checkpointReference =
      .ok (checkpoint, version) := by
    rw [← hcheckpoint, readCheckpoint, readCheckpoint, h.checkpoints]
  rw [hcheckpointReference] at hcheckpoint
  obtain ⟨manifestKey', hmanifestKey', hkeyID, hpublic, htrusted⟩ :=
    h.manifestKey hverified hfits hr hmanifest hmanifestKey
  obtain ⟨checkpointKey', hcheckpointKey', hle, hcheckpointTrusted⟩ :=
    h.checkpointKey hverified hfits hr hcheckpoint hcheckpointKey
  refine bind_ok.2 ⟨manifestKey', hmanifestKey',
    bind_ok.2 ⟨(checkpoint, version), hcheckpoint', ?_⟩⟩
  refine bind_ok.2 ⟨checkpointKey', hcheckpointKey', ensure_bind.2
    ⟨decide_eq_true ((of_decide_eq_true hversion).trans hle), ?_⟩⟩
  refine verifySignedRecoveryManifest_of_statements ?_ hsigned hkeyID hpublic htrusted
    hcheckpointTrusted
  exact hmanifest

omit hverified

/-- The signed evidence verifies with the new statement. -/
theorem Installed.verifyCheckpointState (hfits : Fits codec db statement)
    (hone : db.covering codec statement + added.length = 1)
    (hstate : verifyCheckpointState codec db = .ok ()) :
    Sqlite.verifyCheckpointState codec db' = .ok () := by
  rw [Sqlite.verifyCheckpointState, h.pinned] at hstate
  rw [Sqlite.verifyCheckpointState, h.authority, h.pinned]
  refine bind_ok_imp hstate fun _ _ hstate => ?_
  obtain ⟨keys, hkeys, hstate⟩ := bind_ok.1 hstate
  obtain ⟨⟨⟩, hcoverage, hstate⟩ := bind_ok.1 hstate
  obtain ⟨last, hcheckpoints, hwitnesses⟩ := bind_ok.1 hstate
  replace hkeys := orUnavailable_ok.1 hkeys
  obtain ⟨keys', hkeys'⟩ : ∃ keys', verifyKeys codec authority db' = .ok keys' :=
    foldlM_of_keysVerified (List.pairwise_insertionSort KeyRow.le _)
      ((h.keysVerified (keysRead_of_verifyKeys hkeys).1).perm (List.perm_insertionSort _ _))
  refine bind_ok.2 ⟨keys', orUnavailable_ok.2 hkeys', ?_⟩
  refine bind_ok.2 ⟨(), (h.verifyCoverage_iff hkeys hkeys' hcoverage).2 hone, ?_⟩
  refine bind_ok.2 ⟨last, orUnavailable_ok.2 ?_, h.witnesses ▸ hwitnesses⟩
  rw [Db.orderedCheckpoints, h.checkpoints]
  refine foldlM_ok_of_forall (fun checkpointRow hr previous next hrow => ?_)
    (orUnavailable_ok.1 hcheckpoints)
  exact h.verifyCheckpointRow hfits hkeys hkeys' ((List.mem_insertionSort _).1 hr) hrow

include hverified in
/-- The recovery evidence verifies with the new statement. -/
theorem Installed.verifyRecoveryState (hfits : Fits codec db statement)
    (hstate : verifyRecoveryState codec db = .ok ()) :
    Sqlite.verifyRecoveryState codec db' = .ok () := by
  unfold Sqlite.verifyRecoveryState at hstate ⊢
  simp only [h.operational, h.manifests, h.authority, h.pinned] at hstate ⊢
  refine bind_ok_imp hstate fun _ _ hstate => bind_ok_imp hstate fun _ _ hstate => ?_
  split at hstate
  · next hsome =>
    rw [if_pos hsome]
    refine bind_ok_imp hstate fun found hfound hstate => bind_ok_imp hstate fun _ _ hstate => ?_
    cases hfound
    obtain ⟨⟨⟩, hmanifests, hstate⟩ := bind_ok.1 hstate
    refine bind_ok.2 ⟨(), orUnavailable_ok.2 (forM_ok.2 fun manifestRow hr => ?_), hstate⟩
    exact h.verifyManifestRow hverified hfits hr (forM_ok.1 (orUnavailable_ok.1 hmanifests) _ hr)
  · next hnone =>
    rw [if_neg hnone]
    exact hstate

/-- A stored checkpoint that verifies with the new statements was not issued when its key had
retired. -/
theorem Installed.retired_of_verifyCheckpointRow {keys' : KeyState}
    (hkeys' : verifyKeys codec authority db' = .ok keys') {checkpointRow : CheckpointRow}
    {previous next : String × Nat}
    (hrow : Sqlite.verifyCheckpointRow codec db' keys' previous checkpointRow = .ok next)
    {checkpoint : Checkpoint Hash}
    (hparsed : parseCanonicalCheckpoint codec checkpointRow.canonicalCheckpoint = .ok checkpoint)
    (hkey : checkpoint.keyID = statement.keyID) : retiredBy statement checkpoint.issuedAt =
      false := by
  obtain ⟨-, hrow⟩ := ensure_bind.1 hrow
  obtain ⟨parsed, hparsed', hrow⟩ := bind_ok.1 hrow
  obtain rfl := Except.ok.inj (hparsed.symm.trans hparsed')
  obtain ⟨hfields, hrow⟩ := ensure_bind.1 hrow
  obtain ⟨_, -, hrow⟩ := bind_ok.1 hrow
  obtain ⟨-, hrow⟩ := ensure_bind.1 hrow
  obtain ⟨_, -, hrow⟩ := bind_ok.1 hrow
  obtain ⟨_, -, hrow⟩ := required_bind.1 hrow
  obtain ⟨_, -, hrow⟩ := bind_ok.1 hrow
  obtain ⟨current, hcurrent, hrow⟩ := required_bind.1 hrow
  obtain ⟨trust, htrust, -⟩ := bind_ok.1 hrow
  simp only [Bool.and_eq_true, beq_iff_eq] at hfields
  rw [← hfields.1.2, hkey, h.latest_self hkeys'] at hcurrent
  cases hcurrent
  exact (window_of_verifySignedCheckpoint htrust).1

include hverified in
/-- What a stored manifest that verifies with the new statement says of its times. -/
theorem Installed.trusted_of_verifyManifestRow
    (hrow : Sqlite.verifyManifestRow codec db' authority manifestRow = .ok ()) :
    (∀ manifest, parseCanonicalRecoveryManifest codec manifestRow.canonicalManifest = .ok manifest →
      manifest.keyID = statement.keyID → keyTrustedAt statement manifest.createdAt) ∧
    ∀ checkpoint version,
      readCheckpoint codec db manifestRow.checkpointReference = .ok (checkpoint, version) →
      checkpoint.checkpoint.keyID = statement.keyID →
        compromisedAt statement checkpoint.checkpoint.issuedAt = false := by
  obtain ⟨-, hrow⟩ := ensure_bind.1 hrow
  obtain ⟨manifest, hmanifest, hrow⟩ := bind_ok.1 hrow
  obtain ⟨hfields, hrow⟩ := ensure_bind.1 hrow
  obtain ⟨_, -, hrow⟩ := bind_ok.1 hrow
  obtain ⟨-, hrow⟩ := ensure_bind.1 hrow
  obtain ⟨manifestKey, hmanifestKey, hrow⟩ := bind_ok.1 hrow
  obtain ⟨⟨checkpoint, version⟩, hcheckpoint, hrow⟩ := bind_ok.1 hrow
  obtain ⟨checkpointKey, hcheckpointKey, hrow⟩ := bind_ok.1 hrow
  obtain ⟨-, hrow⟩ := ensure_bind.1 hrow
  obtain ⟨signed, hsigned, hrow⟩ := bind_ok.1 hrow
  obtain rfl := Except.ok.inj (hmanifest.symm.trans hsigned)
  obtain ⟨-, hrow⟩ := ensure_bind.1 hrow
  obtain ⟨-, hrow⟩ := ensure_bind.1 hrow
  obtain ⟨_, -, hrow⟩ := bind_ok.1 hrow
  obtain ⟨-, hrow⟩ := ensure_bind.1 hrow
  obtain ⟨htrusted, hrow⟩ := ensure_bind.1 hrow
  obtain ⟨trust, htrust, hrow⟩ := bind_ok.1 hrow
  obtain ⟨hhead, -⟩ := ensure_bind.1 hrow
  simp only [Bool.and_eq_true, beq_iff_eq] at hfields hhead
  constructor
  · intro manifest' hmanifest' hkey
    obtain rfl := Except.ok.inj (hmanifest.symm.trans hmanifest')
    rw [hkey, h.latestKey_self hverified] at hmanifestKey
    cases hmanifestKey
    exact htrusted
  · intro checkpoint' version' hcheckpoint' hkey
    have hsame : readCheckpoint codec db' manifest.checkpointReference =
        .ok (checkpoint', version') := by
      rw [← hcheckpoint', hfields.2, readCheckpoint, readCheckpoint, h.checkpoints]
    rw [hsame] at hcheckpoint
    cases hcheckpoint
    rw [hkey, h.latestKey_self hverified] at hcheckpointKey
    cases hcheckpointKey
    exact (window_of_verifySignedCheckpoint htrust).2 hhead.1.1.1

include hverified in
/-- A statement after which the evidence verifies fits, and one entry covers it. -/
theorem Installed.fits (hstate : Sqlite.verifyCheckpointState codec db = .ok ())
    (hstate' : Sqlite.verifyCheckpointState codec db' = .ok ())
    (hrecovery' : Sqlite.verifyRecoveryState codec db' = .ok ()) :
    Fits codec db statement ∧ db.covering codec statement + added.length = 1 := by
  rw [Sqlite.verifyCheckpointState, h.pinned] at hstate
  rw [Sqlite.verifyCheckpointState, h.authority, h.pinned] at hstate'
  obtain ⟨-, hstate⟩ := ensure_bind.1 hstate
  obtain ⟨keys, hkeys, hstate⟩ := bind_ok.1 hstate
  obtain ⟨⟨⟩, hcoverage, -⟩ := bind_ok.1 hstate
  obtain ⟨-, hstate'⟩ := ensure_bind.1 hstate'
  obtain ⟨keys', hkeys', hstate'⟩ := bind_ok.1 hstate'
  obtain ⟨⟨⟩, hcoverage', hstate'⟩ := bind_ok.1 hstate'
  obtain ⟨last, hcheckpoints, -⟩ := bind_ok.1 hstate'
  replace hkeys := orUnavailable_ok.1 hkeys
  replace hkeys' := orUnavailable_ok.1 hkeys'
  have hrows : ∀ row ∈ [] ++ db'.orderedCheckpoints, ∃ previous next,
      Sqlite.verifyCheckpointRow codec db' keys' previous row = .ok next :=
    foldlM_ok_rows (I := fun seen _ => ∀ row ∈ seen, ∃ previous next,
      Sqlite.verifyCheckpointRow codec db' keys' previous row = .ok next)
      (fun seen s row t hseen hrow row' hr => by
        rcases List.mem_append.1 hr with hr | hr
        · exact hseen row' hr
        · rw [List.mem_singleton.1 hr]
          exact ⟨s, t, hrow⟩) (fun _ hr => absurd hr List.not_mem_nil)
      (orUnavailable_ok.1 hcheckpoints)
  have hmanifests : ∀ row ∈ db.manifests,
      Sqlite.verifyManifestRow codec db' authority row = .ok () := by
    intro row hr
    unfold Sqlite.verifyRecoveryState at hrecovery'
    simp only [h.manifests, h.authority, h.pinned] at hrecovery'
    obtain ⟨-, hrest⟩ := ensure_bind.1 hrecovery'
    obtain ⟨-, hrest⟩ := ensure_bind.1 hrest
    rw [if_pos (List.length_pos_of_mem hr)] at hrest
    obtain ⟨found, hfound, hrest⟩ := required_bind.1 hrest
    cases hfound
    obtain ⟨-, hrest⟩ := ensure_bind.1 hrest
    obtain ⟨⟨⟩, hall, -⟩ := bind_ok.1 hrest
    exact forM_ok.1 (orUnavailable_ok.1 hall) row hr
  refine ⟨⟨fun row hr checkpoint hparsed hkey => ?_, fun row hr manifest hmanifest hkey => ?_,
    fun row hr => (h.trusted_of_verifyManifestRow hverified (hmanifests row hr)).2⟩,
    (h.verifyCoverage_iff hkeys hkeys' hcoverage).1 hcoverage'⟩
  · have hmem : row ∈ [] ++ db'.orderedCheckpoints := by
      rw [List.nil_append, Db.orderedCheckpoints, h.checkpoints, List.mem_insertionSort]
      exact hr
    obtain ⟨previous, next, hrow⟩ := hrows row hmem
    exact h.retired_of_verifyCheckpointRow hkeys' hrow hparsed hkey
  · have htrusted := (h.trusted_of_verifyManifestRow hverified (hmanifests row hr)).1 manifest
      hmanifest hkey
    simp only [keyTrustedAt, Bool.and_eq_true, Bool.not_eq_true'] at htrusted
    exact ⟨htrusted.1.2, htrusted.2⟩

end

/-! ## The installation -/

section
variable {signed : SignedVerificationKeyStatement} {statement : VerificationKeyStatement}
  {operationID authorityReference : String} {recordedAt : Time} {canonical : Bytes}

/-- The record of an installation covers its statement only. -/
theorem covers_of_canonicalRecord (hjcs : codec.record.Lawful CanonicalRecord.Exact)
    (hcanonical : canonicalRecord codec.record
      (keyLifecycleRecord statement operationID recordedAt authorityReference) = .ok canonical)
    {entry : Entry Hash} (hentry : entry.canonicalRecord = canonical) (reference : String) :
    entry.covers codec reference =
      (signingKeyReference statement.keyID statement.version == reference) := by
  have hdecode := decode_of_canonicalRecord hjcs hcanonical
  rw [Entry.covers, hentry, hdecode, Option.any_some]
  simp only [canonicalValue, keyLifecycleRecord, ledgerRecord, beq_self_eq_true, Bool.true_and]

/-- A version that is not stored and that the installation accepts comes next. -/
theorem next_of_checkSuccessor (hverified : KeysVerified codec authority db.keyStatements)
    {previous : KeyRow} (hlatest : db.latestRow statement.keyID = some previous)
    (hne : statement.version ≠ previous.version)
    (h : checkSuccessor codec previous statement = .ok ()) {row' : KeyRow}
    (hr : row' ∈ db.keyStatements) (hkey : row'.keyID = statement.keyID)
    {statement' : VerificationKeyStatement} (hcarries : Carries codec authority row' statement') :
    row'.version < statement.version ∧ follows statement' statement := by
  obtain ⟨hle, h⟩ := ensure_bind.1 h
  obtain ⟨parsed, hparsed, h⟩ := bind_ok.1 h
  have hfields := ensure_ok.1 h
  obtain ⟨hp, hpreviousKey, hmax⟩ := latestRow_some hlatest
  obtain ⟨found, hfound⟩ := hverified.carries previous hp
  obtain rfl : parsed = found := Except.ok.inj
    ((orUnavailable_ok.1 hparsed).symm.trans (verifyKeyStatement_ok hfound.verified).1)
  have hlt : previous.version < statement.version := by
    have := of_decide_eq_true hle
    omega
  have hfollows : follows parsed statement = true := by
    simp only [Bool.and_eq_true, beq_iff_eq, Bool.not_eq_true', Time.before_eq_false_iff] at hfields
    rw [← hfound.version] at hlt
    exact follows_iff.2 ⟨hlt, hfields.1.1.symm, hfields.1.2, hfields.2⟩
  have hle' := hmax row' hr hkey
  refine ⟨by omega, ?_⟩
  rcases Nat.lt_or_eq_of_le hle' with hbefore | hsame
  · exact follows_trans (hverified.follows row' hr previous hp (hkey.trans hpreviousKey.symm)
      hbefore statement' parsed hcarries hfound) hfollows
  · obtain rfl := hverified.distinct hr hp (hkey.trans hpreviousKey.symm) hsame
    rwa [hfound.unique hcarries]

variable [DecidableEq Hash]

/-- The verified statements of a database whose authority is pinned. -/
theorem keysVerified_of_verifyCheckpointState (hpinned : db.authority = some authority)
    (h : verifyCheckpointState codec db = .ok ()) :
    KeysVerified codec authority db.keyStatements := by
  rw [verifyCheckpointState, hpinned] at h
  obtain ⟨-, h⟩ := ensure_bind.1 h
  obtain ⟨keys, hkeys, -⟩ := bind_ok.1 h
  exact (keysRead_of_verifyKeys (orUnavailable_ok.1 hkeys)).1

/-- A version that is not stored is installed as the next one of its key, with the entry of its
record or with a new one. -/
theorem installed_of_installNew (hjcs : codec.record.Lawful CanonicalRecord.Exact)
    (hstatement : verifyKeyStatement codec authority signed.canonical signed.signature =
      .ok statement) (hpinned : db.authority = some authority)
    (hnext : ∀ row' ∈ db.keyStatements, row'.keyID = statement.keyID → ∀ statement',
      Carries codec authority row' statement' →
        row'.version < statement.version ∧ follows statement' statement)
    (hcanonical : canonicalRecord codec.record
      (keyLifecycleRecord statement operationID recordedAt authorityReference) = .ok canonical)
    (h : installNew codec signed statement operationID canonical db = .ok ((), db')) :
    let row : KeyRow := ⟨statement.keyID, statement.version, signed.canonical, signed.signature⟩
    let before := { db with keyStatements := db.keyStatements ++ [row] }
    (db.entries.any (·.operationID == operationID) = true ∧ db' = before ∧
      Installed codec authority db statement row [] db') ∨
    (db.entries.any (·.operationID == operationID) = false ∧ ∃ receipt receiptBytes,
      Written codec operationID canonical before receipt receiptBytes db' ∧
      Installed codec authority db statement row
        [nextEntry codec db operationID canonical receiptBytes] db') := by
  obtain ⟨rows, hinsert, h⟩ := required_bind.1 h
  obtain ⟨⟨receipt, after⟩, happend, h⟩ := bind_ok.1 h
  cases h
  unfold insertKeyRow at hinsert
  split at hinsert
  case isFalse => cases hinsert
  case isTrue =>
  cases hinsert
  rcases appendRecord_ok happend with ⟨rfl, entry, he, hoperation, -⟩ | ⟨receiptBytes, hw⟩
  · refine .inl ⟨List.any_eq_true.2 ⟨entry, he, beq_iff_eq.2 hoperation⟩, rfl, hpinned,
      ⟨hstatement, rfl, rfl⟩, hnext, fun _ h => absurd h List.not_mem_nil, rfl, rfl,
      (List.append_nil _).symm, fun _ _ => id, rfl, rfl, rfl, rfl⟩
  · refine .inr ⟨?_, receipt, receiptBytes, hw, hpinned, ⟨hstatement, rfl, rfl⟩, hnext,
      fun entry he => ?_, ?_, ?_, hw.entries, fun k hash => insertMerkleLevel_grows hw.nodes,
      ?_, ?_, ?_, ?_⟩
    · exact List.any_eq_false.2 fun e he hsame => (hw.fresh e he).1 (beq_iff_eq.1 hsame)
    · rw [List.mem_singleton.1 he]
      exact covers_of_canonicalRecord hjcs hcanonical rfl
    all_goals rw [hw.frame]

variable [Inhabited Hash]

/-- Pinning the authority keeps the verification. -/
theorem pinAuthority_verify (hlength : authority.length = publicKeySize)
    (hverify : verify codec db = .ok ()) (h : pinAuthority authority db = .ok db') :
    db' = { db with authority := some authority } ∧ verify codec db' = .ok () := by
  obtain ⟨-, h⟩ := ensure_bind.1 h
  cases hpinned : db.authority with
  | some existing =>
    rw [hpinned] at h
    obtain ⟨hsame, h⟩ := ensure_bind.1 h
    cases h
    rw [← beq_iff_eq.1 hsame, ← hpinned]
    exact ⟨rfl, hverify⟩
  | none =>
    rw [hpinned] at h
    cases h
    refine ⟨rfl, ?_⟩
    obtain ⟨⟨⟩, hchain, hverify⟩ := bind_ok.1 hverify
    obtain ⟨⟨⟩, hcheckpoints, hrecovery⟩ := bind_ok.1 hverify
    rw [verifyCheckpointState, hpinned] at hcheckpoints
    have hempty := beq_iff_eq.1 (ensure_ok.1 hcheckpoints)
    have hkeys : db.keyStatements = [] := List.length_eq_zero_iff.1 (by omega)
    have hrows : db.checkpoints = [] := List.length_eq_zero_iff.1 (by omega)
    have hwitnesses : db.witnesses = [] := List.length_eq_zero_iff.1 (by omega)
    refine bind_ok.2 ⟨(), hchain, bind_ok.2 ⟨(), ?_, ?_⟩⟩
    · simp only [verifyCheckpointState, verifyKeys, Db.orderedKeys, Db.orderedCheckpoints, hkeys,
        hrows, hwitnesses]
      exact ensure_bind.2 ⟨beq_iff_eq.2 hlength, rfl⟩
    · unfold verifyRecoveryState at hrecovery ⊢
      simp only [hpinned] at hrecovery
      refine bind_ok_imp hrecovery fun _ _ h => bind_ok_imp h fun _ _ h => ?_
      split at h
      · obtain ⟨found, hfound, -⟩ := required_bind.1 h
        cases hfound
      · next hnone =>
        rw [if_neg hnone]
        exact h

/-- A retry changes nothing: its record is stored. -/
theorem reinstall_eq {previous : KeyRow} (hchain : verifyChain codec db = .ok ())
    (h : reinstall codec signed statement previous operationID canonical db = .ok ((), db')) :
    db' = db := by
  obtain ⟨stored, -, h⟩ := required_bind.1 h
  obtain ⟨-, h⟩ := ensure_bind.1 h
  obtain ⟨covering, hcovering, h⟩ := required_bind.1 h
  obtain ⟨hsame, h⟩ := ensure_bind.1 h
  obtain ⟨⟨receipt, after⟩, happend, h⟩ := bind_ok.1 h
  cases h
  rcases appendRecord_ok happend with ⟨hdb, -⟩ | ⟨receiptBytes, hw⟩
  · exact hdb
  · obtain ⟨state, hv⟩ := verifyChain_ok.1 hchain
    have he := List.mem_of_find?_eq_some hcovering
    refine absurd ?_ (hw.fresh covering he).2
    rw [hv.recordDigest he, beq_iff_eq.1 hsame]

/-- The record of a new entry with which the chain verifies is valid. -/
theorem valid_of_verifyChain {before : Db Hash} {receipt : Receipt Hash} {receiptBytes : Bytes}
    (hw : Written codec operationID canonical before receipt receiptBytes db')
    (h : verifyChain codec before = .ok ()) (h' : verifyChain codec db' = .ok ()) :
    validateCanonicalRecord codec.record canonical = .ok () := by
  obtain ⟨state, hv⟩ := verifyChain_ok.1 h
  obtain ⟨state', hv'⟩ := verifyChain_ok.1 h'
  have hentries := hv'.entries
  rw [hw.ordered fun e he => hv.sequence_le he, List.foldlM_append] at hentries
  obtain ⟨middle, -, hentries⟩ := bind_ok.1 hentries
  rw [List.foldlM_cons] at hentries
  obtain ⟨_, hentry, -⟩ := bind_ok.1 hentries
  obtain ⟨-, hentry⟩ := ensure_bind.1 hentry
  obtain ⟨⟨⟩, hvalid, -⟩ := bind_ok.1 hentry
  exact hvalid

/-- The next version of a key keeps the verification exactly if it fits and its record can be
stored. -/
theorem installNew_verify
    (h : installNew codec signed statement operationID canonical db = .ok ((), db'))
    (hverify : verify codec db = .ok ()) (hjcs : codec.record.Lawful CanonicalRecord.Exact)
    (hstatement : verifyKeyStatement codec authority signed.canonical signed.signature =
      .ok statement) (hpinned : db.authority = some authority)
    (hnext : ∀ row' ∈ db.keyStatements, row'.keyID = statement.keyID → ∀ statement',
      Carries codec authority row' statement' →
        row'.version < statement.version ∧ follows statement' statement)
    (hcanonical : canonicalRecord codec.record
      (keyLifecycleRecord statement operationID recordedAt authorityReference) = .ok canonical) :
    verify codec db' = .ok () ↔
      Fits codec db statement ∧ Recordable codec db statement operationID recordedAt := by
  obtain ⟨⟨⟩, hchain, hverify⟩ := bind_ok.1 hverify
  obtain ⟨⟨⟩, hcheckpoints, hrecovery⟩ := bind_ok.1 hverify
  have hverified := keysVerified_of_verifyCheckpointState hpinned hcheckpoints
  have hverify_iff {row : KeyRow} {added : List (Entry Hash)}
      (hi : Installed codec authority db statement row added db') : verify codec db' = .ok () ↔
        verifyChain codec db' = .ok () ∧ Fits codec db statement ∧
          db.covering codec statement + added.length = 1 := by
    constructor
    · intro h'
      obtain ⟨⟨⟩, hchain', h'⟩ := bind_ok.1 h'
      obtain ⟨⟨⟩, hcheckpoints', hrecovery'⟩ := bind_ok.1 h'
      exact ⟨hchain', hi.fits hverified hcheckpoints hcheckpoints' hrecovery'⟩
    · rintro ⟨hchain', hfits, hone⟩
      exact bind_ok.2 ⟨(), hchain', bind_ok.2 ⟨(), hi.verifyCheckpointState hfits hone hcheckpoints,
        hi.verifyRecoveryState hverified hfits hrecovery⟩⟩
  rcases installed_of_installNew hjcs hstatement hpinned hnext hcanonical h with
    ⟨hstored, rfl, hi⟩ | ⟨hnew, receipt, receiptBytes, hw, hi⟩
  · rw [hverify_iff hi, Recordable, if_pos hstored]
    exact and_iff_right hchain
  · rw [hverify_iff hi, Recordable, if_neg (by rw [hnew]; exact Bool.false_ne_true)]
    constructor
    · rintro ⟨hchain', hfits, hone⟩
      have hvalid := valid_of_verifyChain hw hchain hchain'
      obtain ⟨decoded, hdecoded, -⟩ := bind_ok.1 hvalid
      have hdated := dated_of_decodeCanonicalRecord hjcs hcanonical hdecoded
      exact ⟨hfits, Nat.succ.inj hone, hdated⟩
    · rintro ⟨hfits, hzero, hdated⟩
      have hdecode := decodeCanonicalRecord_canonicalRecord hjcs hcanonical hdated
      exact ⟨hw.verifyChain (bind_ok.2 ⟨_, hdecode, rfl⟩) hchain, hfits, congrArg Nat.succ hzero⟩

/-- **Installing a statement keeps the ledger verifiable exactly if it fits**: on a database that
verifies, a statement that is installed leaves a database that verifies if and only if its version
was stored already, or it fits the stored evidence and its record can be stored. -/
theorem installVerificationKey_verify (hjcs : codec.record.Lawful CanonicalRecord.Exact)
    (hverify : verify codec db = .ok ())
    (hparsed : parseCanonicalVerificationKeyStatement codec signed.canonical = .ok statement)
    (h : installVerificationKey codec signed authority operationID recordedAt authorityReference
      db = .ok ((), db')) :
    verify codec db' = .ok () ↔
      (∃ row ∈ db.keyStatements, row.key = (statement.keyID, statement.version)) ∨
        Fits codec db statement ∧ Recordable codec db statement operationID recordedAt := by
  obtain ⟨parsed, hstatement, h⟩ := bind_ok.1 h
  obtain ⟨-, -, h⟩ := bind_ok.1 h
  obtain ⟨pinned, hpin, h⟩ := bind_ok.1 h
  obtain ⟨canonical, hcanonical, h⟩ := bind_ok.1 h
  have hstatement := orUnavailable_ok.1 hstatement
  obtain ⟨hparsed', hlength, -⟩ := verifyKeyStatement_ok hstatement
  obtain rfl := Except.ok.inj (hparsed.symm.trans hparsed')
  obtain ⟨rfl, hverify'⟩ := pinAuthority_verify hlength hverify hpin
  obtain ⟨⟨⟩, hchain, hrest⟩ := bind_ok.1 hverify'
  obtain ⟨⟨⟩, hcheckpoints, -⟩ := bind_ok.1 hrest
  have hverified := keysVerified_of_verifyCheckpointState rfl hcheckpoints
  -- A version that comes next is not stored.
  have hnew (hnext : ∀ row' ∈ db.keyStatements, row'.keyID = statement.keyID → ∀ statement',
        Carries codec authority row' statement' →
          row'.version < statement.version ∧ follows statement' statement = true)
      (h : installNew codec signed statement operationID canonical
        { db with authority := some authority } = .ok ((), db')) :
      verify codec db' = .ok () ↔
        (∃ row ∈ db.keyStatements, row.key = (statement.keyID, statement.version)) ∨
          Fits codec db statement ∧ Recordable codec db statement operationID recordedAt := by
    rw [installNew_verify h hverify' hjcs hstatement rfl hnext hcanonical, or_iff_right]
    · exact and_congr_left' ⟨fun hf => ⟨hf.1, hf.2, hf.3⟩, fun hf => ⟨hf.1, hf.2, hf.3⟩⟩
    · rintro ⟨row, hr, hkey⟩
      obtain ⟨hkey, hversion⟩ := Prod.mk.inj hkey
      obtain ⟨statement', hcarries⟩ := hverified.carries row hr
      exact (hnext row hr hkey statement' hcarries).1.ne hversion
  split at h
  · next previous hlatest =>
    split at h
    · next hsame =>
      obtain ⟨hp, hkey, -⟩ := latestRow_some hlatest
      rw [reinstall_eq hchain h]
      exact iff_of_true hverify' (.inl ⟨previous, hp, Prod.ext hkey hsame.symm⟩)
    · next hne =>
      obtain ⟨⟨⟩, hsuccessor, h⟩ := bind_ok.1 h
      exact hnew (fun row' hr hkey statement' hcarries =>
        next_of_checkSuccessor hverified hlatest hne hsuccessor hr hkey hcarries) h
  · next hlatest =>
    exact hnew (fun row' hr hkey => absurd hkey (latestRow_none hlatest row' hr)) h

end

end

/-! ## Samples -/

/-- A time of August 2026, some hours after nine. -/
def sampleTime (hours : Int) : Time := ⟨(1785747600000 + hours * 3600000) * 1000000, true⟩

/-- The public key of the authority. -/
def sampleAuthority : Bytes := List.replicate 32 9

/-- The public key of the checkpoints. -/
def samplePublicKey : Bytes := List.replicate 32 0

/-- A version of the key of the checkpoints. -/
def sampleStatement (version : Nat) (retiredAt : Option Time) : VerificationKeyStatement where
  version := version
  keyID := "key-1"
  algorithm := checkpointAlgorithm
  publicKey := samplePublicKey
  activeFrom := sampleTime 0
  retiredAt := retiredAt
  compromisedFrom := none
  compromisedUntil := none
  issuedAt := sampleTime version

/-- The document of a version of the key. -/
def sampleKeyDocument (version : Nat) (retiredAt : Option Time) : CanonicalKeyStatement :=
  ⟨keyStatementProfile, version, "key-1", checkpointAlgorithm,
    String.ofList (Base64.encode samplePublicKey), formatMillis (sampleTime 0),
    formatOptional retiredAt, "", "", formatMillis (sampleTime version)⟩

/-- The record of a version of the key, in its hour. -/
def sampleKeyRecord (version : Nat) (operationID : String) : AuditRecord :=
  keyLifecycleRecord (sampleStatement version none) operationID (sampleTime version)
    "authority:keys:1"

/-- The record of the checkpoint, in the second hour. -/
def sampleCheckpointRecord : AuditRecord :=
  { sampleKeyRecord 1 "0198f56b-0c00-7000-8000-000000000002" with
    operation := .checkpoint
    reason := .checkpointCommitted
    decisionTime := sampleTime 2
    authorityReference := "" }

/-- The operation of the first version. -/
def sampleFirstID : String := "0198f56b-0c00-7000-8000-000000000001"

/-- The operation of the second version. -/
def sampleSecondID : String := "0198f56b-0c00-7000-8000-000000000003"

/-- The chain of the first version and the checkpoint. -/
def sampleChain (first second : Bytes) : Symbolic × Symbolic :=
  let chain : Symbolic := .chain 1 (.genesis sampleLedgerID) (.record first)
  (chain, .chain 2 chain (.record second))

/-- The digests that the checkpoint names, of records that are one and two zeros. -/
def sampleKnown : List Symbolic :=
  let chain := sampleChain [0] [0, 0]
  [.merkleNode (.merkleLeaf 1 chain.1) (.merkleLeaf 2 chain.2), chain.2]

/-- The document of the checkpoint. -/
def sampleCheckpointDocument : CanonicalCheckpoint :=
  ⟨checkpointProfile, sampleLedgerID, 2, "0", "1", formatMillis (sampleTime 2),
    checkpointAlgorithm, "key-1", ""⟩

/-- A codec with the documents of the sample. -/
def sampleTableCodec : Codec Symbolic := { sampleCodec sampleKnown with
    checkpoint := tableJcs [sampleCheckpointDocument] (sampleCodec sampleKnown).checkpoint
    record := tableJcs [canonicalValue (sampleKeyRecord 1 sampleFirstID),
      canonicalValue sampleCheckpointRecord, canonicalValue (sampleKeyRecord 2 sampleSecondID)]
      sampleJcs
    keyStatement := tableJcs [sampleKeyDocument 1 none, sampleKeyDocument 2 (some (sampleTime 1)),
      sampleKeyDocument 2 (some (sampleTime 3))] (sampleCodec sampleKnown).keyStatement }

/-- The signed version of the key that is at a place of the table. -/
def sampleSigned (version : Nat) (retiredAt : Option Time) (place : Nat) :
    SignedVerificationKeyStatement :=
  ⟨sampleStatement version retiredAt, List.replicate (place + 1) 0,
    sampleAuthority ++ sampleAuthority⟩

/-- The ledger with the first version of the key and a checkpoint. -/
def sampleLedger : Except Error (Db Symbolic) := do
  let codec := sampleTableCodec
  let (_, db) ← installVerificationKey codec (sampleSigned 1 none 0) sampleAuthority sampleFirstID
    (sampleTime 1) "authority:keys:1" (opened codec sampleLedgerID)
  let (_, db) ← appendRecord codec sampleCheckpointRecord.operationID [0, 0] db
  let signature := samplePublicKey ++ samplePublicKey
  let reference ← checkpointReference codec [0] signature
  return { db with checkpoints := [⟨reference, 2, "key-1", 1, [0], signature⟩] }

/-- The installation of the second version with a time of retirement, in its hour. -/
def sampleInstall (retiredAt : Time) (place : Nat) (db : Db Symbolic) :
    Except Error (Unit × Db Symbolic) :=
  installVerificationKey sampleTableCodec (sampleSigned 2 (some retiredAt) place) sampleAuthority
    sampleSecondID (sampleTime 2) "authority:keys:1" db

/-- The second version leaves the sample's evidence alone if it retires the key after an hour. -/
def sampleFits (retiredAt : Time) (db : Db Symbolic) : Bool :=
  (!db.entries.any (·.operationID == sampleSecondID)) &&
    db.covering sampleTableCodec (sampleStatement 2 (some retiredAt)) == 0 &&
    (db.checkpoints.all fun row =>
      match parseCanonicalCheckpoint sampleTableCodec row.canonicalCheckpoint with
      | .ok checkpoint => !retiredBy (sampleStatement 2 (some retiredAt)) checkpoint.issuedAt
      | .error _ => true) && db.manifests.isEmpty

/-- The sample ledger verifies. The second version is installed with a retirement in the first
hour, after which the ledger does not verify, and with one in the third hour, which fits. -/
theorem sampleLedger_map : (sampleLedger.map fun db => (verify sampleTableCodec db,
      (sampleInstall (sampleTime 1) 1 db).map fun result => verify sampleTableCodec result.2,
      sampleFits (sampleTime 3) db, (sampleInstall (sampleTime 3) 2 db).isOk)) =
    .ok (.ok (), .ok (.error .unavailable), true, true) := by decide +kernel

theorem fits_of_sampleFits {retiredAt : Time} {db : Db Symbolic} (h : sampleFits retiredAt db) :
    Fits sampleTableCodec db (sampleStatement 2 (some retiredAt)) ∧
      Recordable sampleTableCodec db (sampleStatement 2 (some retiredAt)) sampleSecondID
        (sampleTime 2) := by
  simp only [sampleFits, Bool.and_eq_true, List.all_eq_true, List.isEmpty_iff, beq_iff_eq,
    Bool.not_eq_true'] at h
  obtain ⟨⟨⟨hnew, hzero⟩, hcheckpoints⟩, hmanifests⟩ := h
  have hrecordable : Recordable sampleTableCodec db (sampleStatement 2 (some retiredAt))
      sampleSecondID (sampleTime 2) := by
    rw [Recordable, if_neg (by rw [hnew]; exact Bool.false_ne_true)]
    exact ⟨hzero, by decide⟩
  refine ⟨⟨fun row hr checkpoint hparsed _ => ?_, ?_, ?_⟩, hrecordable⟩
  · have hrow := hcheckpoints row hr
    rw [hparsed] at hrow
    simpa using hrow
  · simp [hmanifests]
  · simp [hmanifests]

/-- A retirement in the third hour fits. -/
theorem installVerificationKey_verify_sample : ∃ db db', verify sampleTableCodec db = .ok () ∧
      sampleInstall (sampleTime 3) 2 db = .ok ((), db') ∧
      verify sampleTableCodec db' = .ok () := by
  obtain ⟨db, -, h⟩ := map_ok.1 sampleLedger_map
  obtain ⟨hverify, h⟩ := Prod.mk.inj h
  obtain ⟨hfits, hok⟩ := Prod.mk.inj (Prod.mk.inj h).2
  have hparse : parseCanonicalVerificationKeyStatement sampleTableCodec
      (sampleSigned 2 (some (sampleTime 3)) 2).canonical =
        .ok (sampleStatement 2 (some (sampleTime 3))) := rfl
  cases hinstall : sampleInstall (sampleTime 3) 2 db with
  | error e => rw [hinstall] at hok; cases hok
  | ok result =>
    refine ⟨db, result.2, hverify, hinstall, ?_⟩
    exact (installVerificationKey_verify (tableJcs_lawful _ sampleJcs_lawful) hverify hparse
      hinstall).2 (.inr (fits_of_sampleFits hfits))

/-- The key is retired an hour before the checkpoint was issued: the version is installed, and the
ledger no longer verifies. -/
theorem installVerificationKey_retired : Function.Injective sampleTableCodec.sha256 ∧
    sampleTableCodec.record.Lawful CanonicalRecord.Exact ∧
    ∃ db db', verify sampleTableCodec db = .ok () ∧
      sampleInstall (sampleTime 1) 1 db = .ok ((), db') ∧
      verify sampleTableCodec db' = .error .unavailable := by
  refine ⟨Symbolic.hash_injective, tableJcs_lawful _ sampleJcs_lawful, ?_⟩
  obtain ⟨db, -, h⟩ := map_ok.1 sampleLedger_map
  obtain ⟨hverify, h⟩ := Prod.mk.inj h
  obtain ⟨⟨⟨⟩, db'⟩, hinstall, hfails⟩ := map_ok.1 (Prod.mk.inj h).1
  exact ⟨db, db', hverify, hinstall, hfails⟩

end YukhCoordination.Relay.Audit.Sqlite
