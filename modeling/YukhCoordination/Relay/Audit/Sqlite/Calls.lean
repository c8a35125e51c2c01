import YukhCoordination.Lib.Program
import YukhCoordination.Relay.Audit.Sqlite.Recovery

/-!
# The calls of the ledger

Calls as programs over single statements and transactions. In WAL mode the main file changes only
when the log is checkpointed, at any time and to any bytes.
-/

namespace YukhCoordination.Relay.Audit.Sqlite

open Lifecycle Coordination Transaction Interleave

/-! ## Requests -/

/-- The transactions of the ledger. -/
inductive Write (Hash : Type) where
  | append (record : AuditRecord)
  | installVerificationKey (signed : SignedVerificationKeyStatement) (authority : Bytes)
      (operationID : String) (recordedAt : Time) (authorityReference : String)
  | commitCheckpoint (signed : SignedCheckpoint Hash) (keyVersion : Nat) (operationID : String)
      (canonicalRecord : Bytes)
  | storeWitness (ack : WitnessAcknowledgement)
  | fenceRestored (digest : Hash)
  | commitRestore (plan : RestorePlan Hash) (operationID : String) (at_ : Time)
  | observeOperationalClock (now : Time) (tolerance : Duration)
  | rebuildMerkle

/-- What a transaction returns. -/
abbrev Write.Result {Hash : Type} : Write Hash → Type
  | .append _ => Receipt Hash
  | .installVerificationKey .. => Unit
  | .commitCheckpoint .. => SignedCheckpoint Hash
  | .storeWitness _ => WitnessAcknowledgement
  | .fenceRestored _ => Unit
  | .commitRestore .. => String
  | .observeOperationalClock .. => Option Time
  | .rebuildMerkle => Unit

/-- The transaction as a function of the database. -/
def Write.run {Hash : Type} [DecidableEq Hash] [Inhabited Hash] (codec : Codec Hash) :
    (w : Write Hash) → Db Hash → Except Error (w.Result × Db Hash)
  | .append record => Sqlite.append codec record
  | .installVerificationKey signed authority operationID recordedAt authorityReference =>
    Sqlite.installVerificationKey codec signed authority operationID recordedAt authorityReference
  | .commitCheckpoint signed keyVersion operationID canonicalRecord =>
    Sqlite.commitCheckpoint codec signed keyVersion operationID canonicalRecord
  | .storeWitness ack => Sqlite.storeWitness codec ack
  | .fenceRestored digest => Sqlite.fenceRestored digest
  | .commitRestore plan operationID at_ => Sqlite.commitRestore codec plan operationID at_
  | .observeOperationalClock now tolerance => Sqlite.observeOperationalClock now tolerance
  | .rebuildMerkle => Sqlite.rebuildMerkle codec

/-- The requests of a call: its statements outside a transaction, its transactions, and the digest
of the main file. -/
inductive Request (Hash : Type) where
  | authority
  | latestKey (keyID : String)
  | operation (operationID : String)
  | checkpointAtSize (treeSize : Nat)
  | checkpoint (reference : String)
  | metadata
  | lastCheckpoint
  | entries
  | operational
  | verify
  | fileDigest
  | transact (w : Write Hash)

/-- The answers. Where the code treats a failed query as one without a row, there is no row. -/
abbrev Request.Answer {Hash : Type} : Request Hash → Type
  | .authority => Option Bytes
  | .latestKey _ => Option KeyRow
  | .operation _ => Except Error (Option (Bytes × Receipt Hash))
  | .checkpointAtSize _ => Option CheckpointRow
  | .checkpoint _ => Option CheckpointRow
  | .metadata => Option (Metadata Hash)
  | .lastCheckpoint => Except Error (Option CheckpointRow)
  | .entries => Option (List (Entry Hash))
  | .operational => Option (Metadata Hash × OperationalState Hash)
  | .verify => Except Error Unit
  | .fileDigest => Option Hash
  | .transact w => Except Error w.Result

/-- The port of the ledger. -/
abbrev port (Hash : Type) : Port := ⟨Request Hash, Request.Answer⟩

/-- The programs of the ledger. -/
abbrev Proc (Hash : Type) := Program (port Hash)

/-- A request with its answer. -/
abbrev ask {Hash : Type} (r : Request Hash) : Proc Hash r.Answer := Program.ask (P := port Hash) r

/-! ## The database on its disk -/

/-- The database as its statements see it, the digest of its main file, and the digests of the
backups that it has been fenced for. The last is no state of the source: it tells the fences of a
run apart. -/
structure Disk (Hash : Type) where
  db : Db Hash
  file : Hash
  fences : List Hash

/-- The transaction has set the fence of a restored ledger. -/
def Write.fences {Hash : Type} (w : Write Hash) (db db' : Db Hash) : List Hash :=
  match w with
  | .fenceRestored digest =>
    if db.operational.fenceState ≠ .restoreFenced ∧ db'.operational.fenceState = .restoreFenced then
      [digest]
    else []
  | _ => []

/-- The transaction has committed the database. -/
def Disk.commit {Hash : Type} (disk : Disk Hash) (w : Write Hash) (db : Db Hash) : Disk Hash :=
  ⟨db, disk.file, disk.fences ++ w.fences disk.db db⟩

section
variable {Hash : Type} [DecidableEq Hash] [Inhabited Hash] (codec : Codec Hash)

/-- What a request answers, and what it leaves, if nothing fails. -/
def Request.perform : (r : Request Hash) → Disk Hash → r.Answer × Disk Hash
  | .authority, disk => (disk.db.authority, disk)
  | .latestKey keyID, disk => (disk.db.latestRow keyID, disk)
  | .operation operationID, disk => (lookupOperation disk.db operationID, disk)
  | .checkpointAtSize treeSize, disk =>
    (disk.db.checkpoints.find? (·.treeSize == treeSize), disk)
  | .checkpoint reference, disk =>
    (disk.db.checkpoints.find? (·.checkpointReference == reference), disk)
  | .metadata, disk => (some disk.db.metadata, disk)
  | .lastCheckpoint, disk => (.ok disk.db.orderedCheckpoints.getLast?, disk)
  | .entries, disk => (some disk.db.ordered, disk)
  | .operational, disk => (some (disk.db.metadata, disk.db.operational), disk)
  | .verify, disk => (Sqlite.verify codec disk.db, disk)
  | .fileDigest, disk => (some disk.file, disk)
  | .transact w, disk =>
    match w.run codec disk.db with
    | .ok (a, db) => (.ok a, disk.commit w db)
    | .error e => (.error e, disk)

/-- What a request answers if it fails and leaves the database. The statements of `Verify` may see
different states, so it may answer anything. -/
def Request.Fails : (r : Request Hash) → r.Answer → Prop
  | .authority, ans => ans = none
  | .latestKey _, ans => ans = none
  | .operation _, ans => ∃ e, ans = .error e
  | .checkpointAtSize _, ans => ans = none
  | .checkpoint _, ans => ans = none
  | .metadata, ans => ans = none
  | .lastCheckpoint, ans => ∃ e, ans = .error e
  | .entries, ans => ans = none
  | .operational, ans => ans = none
  | .verify, _ => True
  | .fileDigest, ans => ans = none
  | .transact _, ans => ∃ e, ans = .error e

/-- The requests of a ledger: one is performed, it fails and is rolled back, or a transaction
commits without an acknowledgement. -/
inductive ledgerSem : (r : Request Hash) → Disk Hash → r.Answer → Disk Hash → Prop
  | performed (r : Request Hash) (disk : Disk Hash) :
      ledgerSem r disk (r.perform codec disk).1 (r.perform codec disk).2
  | failed {r : Request Hash} {disk : Disk Hash} {ans : r.Answer} : r.Fails ans →
      ledgerSem r disk ans disk
  | unacknowledged {w : Write Hash} {disk : Disk Hash} {a : w.Result} {db : Db Hash} (e : Error) :
      w.run codec disk.db = .ok (a, db) →
      ledgerSem (.transact w) disk (.error e) (disk.commit w db)

omit [DecidableEq Hash] [Inhabited Hash] in
/-- The log is checkpointed into the main file. -/
def ledgerEnv (disk disk' : Disk Hash) : Prop := ∃ file, disk' = { disk with file }

/-! ## Checkpoints -/

/-- `latestKey`. -/
def latestKey (keyID : String) (authority : Bytes) :
    Proc Hash (Except Error SignedVerificationKeyStatement) :=
  if authority.length = publicKeySize then do
    let pinned ← ask .authority
    if pinned = some authority then
      let row ← ask (.latestKey keyID)
      return (do
        let row ← required row .unavailable
        let statement ←
          verifyKeyStatement codec authority row.canonicalStatement row.authoritySignature
        return ⟨statement, row.canonicalStatement, row.authoritySignature⟩)
    else return .error .unavailable
  else return .error .unavailable

/-- The part of `checkpointCandidate` for an operation that is not recorded. -/
def newCandidate (issuedAt : Time) (selection : CheckpointSigningSelection)
    (canonicalRecord : Bytes) : Proc Hash (Except Error (Checkpoint Hash)) := do
  let metadata ← ask .metadata
  Program.onOk (required metadata .unavailable) fun metadata =>
    if metadata.merkleSize < maxJSONSafeSequence then do
      let row ← ask .lastCheckpoint
      Program.onOk (orUnavailable (row.bind (predecessorReference codec issuedAt)))
        fun predecessor => do
          let entries ← ask .entries
          return (do
            let entries ← required entries .unavailable
            nextCandidate codec issuedAt selection canonicalRecord metadata predecessor entries)
    else return .error .unavailable

/-- `checkpointCandidate`. -/
def checkpointCandidate (issuedAt : Time) (selection : CheckpointSigningSelection)
    (operationID : String) (canonicalRecord : Bytes) :
    Proc Hash (Except Error (Checkpoint Hash)) := do
  let existing ← ask (.operation operationID)
  Program.onOk (orUnavailable existing) fun
    | some (stored, receipt) =>
      if stored = canonicalRecord then do
        let row ← ask (.checkpointAtSize receipt.sequence)
        return retryCandidate codec issuedAt selection row
      else return .error .conflict
    | none => newCandidate codec issuedAt selection canonicalRecord

/-- `Ledger.CreateCheckpoint`. -/
def createCheckpoint (issuedAt : Time) (authority : Bytes) (signer : CheckpointSigner)
    (operationID : String) : Proc Hash (Except Error (SignedCheckpoint Hash)) :=
  Program.onOk (required signer.select .unavailable) fun selection =>
    if selection.algorithm = checkpointAlgorithm then do
      let key ← latestKey codec selection.keyID authority
      Program.onOk key fun key =>
        let record := checkpointRecord selection.keyID key.statement.version operationID issuedAt
        Program.onOk (canonicalRecord codec.record record) fun canonical => do
          let checkpoint ← checkpointCandidate codec issuedAt selection operationID canonical
          Program.onOk checkpoint fun checkpoint =>
            Program.onOk (signCandidate codec signer selection key.statement checkpoint)
              fun signed =>
                ask (.transact (.commitCheckpoint signed key.statement.version operationID
                  canonical))
    else return .error .unavailable

/-! ## Witnesses -/

/-- What `WitnessCheckpoint` is given: `CanonicalCheckpointExport` of the library, the witness and
the verifier. -/
structure Witness (Hash : Type) where
  canonicalExport : SignedCheckpoint Hash → SignedVerificationKeyStatement → Option Bytes
  witness : Bytes → Option WitnessAcknowledgement
  verifyWitness : WitnessAcknowledgement → Bool

/-- The checkpoint of a reference with the last statement of its key: the start of
`ExportCheckpoint` and of `WitnessCheckpoint`. -/
def readSigned (reference : String) (authority : Bytes) :
    Proc Hash (Except Error (SignedCheckpoint Hash × SignedVerificationKeyStatement)) := do
  let row ← ask (.checkpoint reference)
  Program.onOk (do
      let row ← required row .unavailable
      scanCheckpoint codec row) fun (signed, keyVersion) => do
    let key ← latestKey codec signed.checkpoint.keyID authority
    return (do
      let key ← orUnavailable key
      ensure (keyVersion ≤ key.statement.version) .unavailable
      return (signed, key))

/-- `Ledger.ExportCheckpoint`. -/
def exportCheckpoint (witness : Witness Hash) (reference : String) (authority : Bytes) :
    Proc Hash (Except Error Bytes) := do
  let signed ← readSigned codec reference authority
  return (do
    let (signed, key) ← signed
    let _ ← verifySignedCheckpoint codec signed key.statement
    required (witness.canonicalExport signed key) .unavailable)

/-- `Ledger.WitnessCheckpoint`. -/
def witnessCheckpoint (witness : Witness Hash) (reference : String) (authority : Bytes) :
    Proc Hash (Except Error WitnessAcknowledgement) := do
  let signed ← readSigned codec reference authority
  Program.onOk (do
      let (signed, key) ← signed
      let trust ← orUnavailable (verifySignedCheckpoint codec signed key.statement)
      ensure (trust == .trusted) .unavailable) fun _ => do
    let exported ← exportCheckpoint codec witness reference authority
    Program.onOk (do
        let exported ← exported
        let ack ← required (witness.witness exported) .unavailable
        checkAcknowledgement codec witness.verifyWitness reference ack
        return ack) fun ack =>
      ask (.transact (.storeWitness ack))

/-! ## Restores and readiness -/

/-- `Ledger.ValidateRestore`. -/
def validateRestore (signed : SignedRecoveryManifest Hash) (authority : Bytes) :
    Proc Hash (Except Error (RestorePlan Hash)) :=
  Program.onOk (parseCanonicalRecoveryManifest codec signed.canonical) fun manifest => do
    let signed := { signed with manifest }
    let manifestKey ← latestKey codec manifest.keyID authority
    Program.onOk manifestKey fun manifestKey => do
      let checkpoint ← readSigned codec manifest.checkpointReference authority
      Program.onOk (do
          let (checkpoint, checkpointKey) ← checkpoint
          orUnavailable (verifySignedRecoveryManifest codec signed manifestKey.statement checkpoint
            checkpointKey.statement)) fun _ => do
        let row ← ask .operational
        return (do
          let (metadata, state) ← required row .unavailable
          checkRestore signed metadata state)

/-- A restore: `ValidateRestore`, and any number of `CommitRestore` calls with its plan. -/
def restore (signed : SignedRecoveryManifest Hash) (authority : Bytes)
    (attempts : List (String × Time)) : Proc Hash (Except Error Unit) := do
  let plan ← validateRestore codec signed authority
  Program.onOk plan fun plan => attempts.foldr (fun attempt rest => do
      let _ ← ask (.transact (.commitRestore plan attempt.1 attempt.2))
      rest) (return .ok ())

/-- `OpenRestored`. The schema is the current one, so the migration changes nothing. -/
def openRestored (expectedBackupDigest : Hash) : Proc Hash (Except Error Unit) := do
  let digest ← ask .fileDigest
  if digest = some expectedBackupDigest then
    let fenced ← ask (.transact (.fenceRestored expectedBackupDigest))
    Program.onOk fenced fun _ => do
      let verified ← ask .verify
      return verified
  else return .error .unavailable

/-- `Ledger.OperationalReady` up to its reading of the clock, with the tolerance of its policy. What
follows in the source only reads. -/
def operationalReady (now : Time) (tolerance : Duration) : Proc Hash (Except Error Unit) :=
  if validMillis now ∧ 0 ≤ tolerance ∧ tolerance ≤ 300 * second then do
    let verified ← ask .verify
    Program.onOk (orUnavailable verified) fun _ => do
      let observed ← ask (.transact (.observeOperationalClock now tolerance))
      return (do
        let observed ← observed
        let _ ← required observed .unavailable)
  else return .error .unavailable

/-- `Ledger.RebuildMerkle`: the transaction, and `Verify`. -/
def rebuildMerkleVerified : Proc Hash (Except Error Unit) := do
  let rebuilt ← ask (.transact .rebuildMerkle)
  Program.onOk rebuilt fun _ => do
    let verified ← ask .verify
    return verified

end

/-! ## Calls -/

/-- The calls that keep records, checkpoints and acknowledgements. -/
inductive Call (Hash : Type) where
  | append (record : AuditRecord)
  | installVerificationKey (signed : SignedVerificationKeyStatement) (authority : Bytes)
      (operationID : String) (recordedAt : Time) (authorityReference : String)
  | createCheckpoint (issuedAt : Time) (authority : Bytes) (signer : CheckpointSigner)
      (operationID : String)
  | witnessCheckpoint (witness : Witness Hash) (reference : String) (authority : Bytes)

/-- What they return. -/
inductive Reply (Hash : Type) where
  | receipt (receipt : Receipt Hash)
  | installed
  | checkpoint (signed : SignedCheckpoint Hash)
  | acknowledgement (ack : WitnessAcknowledgement)

/-- The program of a call. -/
def Call.run {Hash : Type} [DecidableEq Hash] (codec : Codec Hash) :
    Call Hash → Proc Hash (Except Error (Reply Hash))
  | .append record => do
    let result ← ask (.transact (.append record))
    return result.map .receipt
  | .installVerificationKey signed authority operationID recordedAt authorityReference => do
    let result ← ask (.transact (.installVerificationKey signed authority operationID recordedAt
      authorityReference))
    return result.map fun _ => .installed
  | .createCheckpoint issuedAt authority signer operationID => do
    let result ← Sqlite.createCheckpoint codec issuedAt authority signer operationID
    return result.map .checkpoint
  | .witnessCheckpoint witness reference authority => do
    let result ← Sqlite.witnessCheckpoint codec witness reference authority
    return result.map .acknowledgement

/-! ## What a call requests -/

/-- The request is no transaction. -/
def Request.Reads {Hash : Type} : Request Hash → Prop
  | .transact _ => False
  | _ => True

section
variable {Hash : Type} {codec : Codec Hash}

theorem latestKey_reads (keyID : String) (authority : Bytes) :
    (latestKey codec keyID authority).Only Request.Reads := by
  unfold latestKey
  split
  · refine Program.only_ask_bind.2 ⟨trivial, fun pinned => ?_⟩
    split
    · exact Program.only_ask_bind.2 ⟨trivial, fun _ => trivial⟩
    · trivial
  · trivial

theorem newCandidate_reads (issuedAt : Time) (selection : CheckpointSigningSelection)
    (canonicalRecord : Bytes) :
    (newCandidate codec issuedAt selection canonicalRecord).Only Request.Reads := by
  refine Program.only_ask_bind.2 ⟨trivial, fun metadata => Program.Only.onOk fun metadata _ => ?_⟩
  split
  · refine Program.only_ask_bind.2 ⟨trivial, fun row => Program.Only.onOk fun predecessor _ => ?_⟩
    exact Program.only_ask_bind.2 ⟨trivial, fun _ => trivial⟩
  · trivial

theorem checkpointCandidate_reads (issuedAt : Time) (selection : CheckpointSigningSelection)
    (operationID : String) (canonicalRecord : Bytes) :
    (checkpointCandidate codec issuedAt selection operationID canonicalRecord).Only
      Request.Reads := by
  refine Program.only_ask_bind.2 ⟨trivial, fun existing => Program.Only.onOk fun found _ => ?_⟩
  cases found with
  | none => exact newCandidate_reads issuedAt selection canonicalRecord
  | some found =>
    dsimp only
    split
    · exact Program.only_ask_bind.2 ⟨trivial, fun _ => trivial⟩
    · trivial

theorem readSigned_reads (reference : String) (authority : Bytes) :
    (readSigned codec reference authority).Only Request.Reads := by
  refine Program.only_ask_bind.2 ⟨trivial, fun row => Program.Only.onOk fun signed _ => ?_⟩
  exact (latestKey_reads _ authority).bind fun _ => trivial

variable [DecidableEq Hash]

theorem exportCheckpoint_reads (witness : Witness Hash) (reference : String) (authority : Bytes) :
    (exportCheckpoint codec witness reference authority).Only Request.Reads :=
  (readSigned_reads reference authority).bind fun _ => trivial

/-- A checkpoint is created by reading and by the commit of what was signed. -/
theorem createCheckpoint_only {ok : Request Hash → Prop} (hreads : ∀ r, r.Reads → ok r)
    {issuedAt : Time} {authority : Bytes} {signer : CheckpointSigner} {operationID : String}
    (hcommit : ∀ selection statement checkpoint signed keyVersion canonical,
      signCandidate codec signer selection statement checkpoint = .ok signed →
      ok (.transact (.commitCheckpoint signed keyVersion operationID canonical))) :
    (createCheckpoint codec issuedAt authority signer operationID).Only ok := by
  refine Program.Only.onOk fun selection _ => ?_
  split
  · refine ((latestKey_reads _ authority).mono hreads).bind fun key => ?_
    refine Program.Only.onOk fun key _ => Program.Only.onOk fun canonical _ => ?_
    refine ((checkpointCandidate_reads issuedAt selection operationID canonical).mono hreads).bind
      fun checkpoint => ?_
    refine Program.Only.onOk fun checkpoint _ => Program.Only.onOk fun signed hsigned => ?_
    exact ⟨hcommit _ _ _ _ _ _ hsigned, fun _ => trivial⟩
  · trivial

/-- A checkpoint is witnessed by reading and by storing an acknowledgement. -/
theorem witnessCheckpoint_only {ok : Request Hash → Prop} (hreads : ∀ r, r.Reads → ok r)
    (hstore : ∀ ack, ok (.transact (.storeWitness ack))) (witness : Witness Hash)
    (reference : String) (authority : Bytes) :
    (witnessCheckpoint codec witness reference authority).Only ok := by
  refine ((readSigned_reads reference authority).mono hreads).bind fun signed =>
    Program.Only.onOk fun _ _ => ?_
  refine ((exportCheckpoint_reads witness reference authority).mono hreads).bind fun exported =>
    Program.Only.onOk fun ack _ => ?_
  exact ⟨hstore ack, fun _ => trivial⟩

/-- The calls read, append, install, commit what was signed and store acknowledgements. -/
theorem Call.only {ok : Request Hash → Prop} (hreads : ∀ r, r.Reads → ok r)
    (happend : ∀ record, ok (.transact (.append record)))
    (hinstall : ∀ signed authority operationID recordedAt authorityReference,
      ok (.transact (.installVerificationKey signed authority operationID recordedAt
        authorityReference)))
    (hcommit : ∀ signer selection statement checkpoint signed keyVersion operationID canonical,
      signCandidate codec signer selection statement checkpoint = .ok signed →
      ok (.transact (.commitCheckpoint signed keyVersion operationID canonical)))
    (hstore : ∀ ack, ok (.transact (.storeWitness ack))) (c : Call Hash) :
    (c.run codec).Only ok := by
  cases c with
  | append record => exact ⟨happend record, fun _ => trivial⟩
  | installVerificationKey => exact ⟨hinstall _ _ _ _ _, fun _ => trivial⟩
  | createCheckpoint =>
    exact (createCheckpoint_only hreads fun _ _ _ _ _ _ h => hcommit _ _ _ _ _ _ _ _ h).bind
      fun _ => trivial
  | witnessCheckpoint =>
    exact (witnessCheckpoint_only hreads hstore _ _ _).bind fun _ => trivial

/-! ## What a request does -/

variable [Inhabited Hash]

theorem eval_ask {α : Type} (r : Request Hash) (f : r.Answer → Proc Hash α) (disk : Disk Hash) :
    (ask r >>= f).eval (Request.perform codec) disk =
      (f (r.perform codec disk).1).eval (Request.perform codec) (r.perform codec disk).2 := rfl

/-- A request leaves the disk, or it is a transaction that commits. -/
theorem ledgerSem.cases {r : Request Hash} {disk disk' : Disk Hash} {ans : r.Answer}
    (h : ledgerSem codec r disk ans disk') : disk' = disk ∨ ∃ (w : Write Hash) (a : w.Result)
      (db : Db Hash), r = .transact w ∧ w.run codec disk.db = .ok (a, db) ∧
        disk' = disk.commit w db := by
  cases h with
  | performed =>
    cases r with
    | transact w =>
      cases hrun : w.run codec disk.db with
      | ok result =>
        refine .inr ⟨w, result.1, result.2, rfl, hrun, ?_⟩
        simp only [Request.perform, hrun]
      | error e =>
        refine .inl ?_
        simp only [Request.perform, hrun]
    | _ => exact .inl rfl
  | failed => exact .inl rfl
  | @unacknowledged w _ a db e hrun => exact .inr ⟨w, a, db, rfl, hrun, rfl⟩

/-- A statement leaves the disk, and answers from it or fails. -/
theorem ledgerSem.read {r : Request Hash} (hr : r.Reads) {disk disk' : Disk Hash} {ans : r.Answer}
    (h : ledgerSem codec r disk ans disk') :
    disk' = disk ∧ (ans = (r.perform codec disk).1 ∨ r.Fails ans) := by
  cases h with
  | performed =>
    refine ⟨?_, .inl rfl⟩
    cases r <;> first | rfl | cases hr
  | failed hfails => exact ⟨rfl, .inr hfails⟩
  | unacknowledged => cases hr

/-- A transaction that is acknowledged has committed. -/
theorem ledgerSem.ok {w : Write Hash} {disk disk' : Disk Hash} {a : w.Result}
    (h : ledgerSem codec (.transact w) disk (.ok a) disk') :
    ∃ db : Db Hash, w.run codec disk.db = .ok (a, db) ∧ disk' = disk.commit w db := by
  generalize hans : (Except.ok a : Except Error w.Result) = ans at h
  cases h with
  | performed =>
    simp only [Request.perform] at hans ⊢
    split at hans
    · next result db hrun =>
      cases hans
      exact ⟨db, hrun, rfl⟩
    · cases hans
  | failed hfails =>
    obtain ⟨e, rfl⟩ := hfails
    cases hans
  | unacknowledged => cases hans

end

end YukhCoordination.Relay.Audit.Sqlite
