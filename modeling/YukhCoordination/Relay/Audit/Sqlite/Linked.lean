import Mathlib.Data.List.Induction
import YukhCoordination.Relay.Audit.Sqlite.Cached
import YukhCoordination.Relay.Audit.Sqlite.Calls
import YukhCoordination.Relay.Audit.Sqlite.Install

/-!
# The chain of checkpoints

A candidate is computed before its signature and committed after it; the commit refuses one that the
ledger has outgrown, so the stored checkpoints stay `Linked`.
-/

namespace YukhCoordination.Relay.Audit.Sqlite

open Lifecycle Coordination Transaction Interleave MerkleTree

/-! ## Prefixes of the chain -/

section
variable {Hash : Type} {codec : Codec Hash}

theorem chainOf_prefix (codec : Codec Hash) (ledgerID : String) (records more : List Bytes) :
    chainOf codec ledgerID records <+: chainOf codec ledgerID (records ++ more) := by
  induction more using List.reverseRecOn with
  | nil => simp
  | append_singleton more canonical ih =>
    rw [← List.append_assoc, chainOf_concat, extendChain]
    exact ih.trans (List.prefix_append _ _)

theorem chainOf_take (codec : Codec Hash) (ledgerID : String) (records : List Bytes) (size : Nat) :
    chainOf codec ledgerID (records.take size) = (chainOf codec ledgerID records).take size := by
  have hprefix := chainOf_prefix codec ledgerID (records.take size) (records.drop size)
  rw [List.take_append_drop] at hprefix
  rw [List.prefix_iff_eq_take.1 hprefix, length_chainOf, List.length_take,
    ← length_chainOf codec ledgerID records, ← List.take_eq_take_min]

theorem leavesOf_take (codec : Codec Hash) (chain : List Hash) (size : Nat) :
    leavesOf codec (chain.take size) = (leavesOf codec chain).take size := by
  refine List.ext_getElem? fun index => ?_
  rw [leavesOf, leavesOf, List.getElem?_mapIdx, List.getElem?_take, List.getElem?_take,
    List.getElem?_mapIdx]
  split <;> rfl

/-- The root of the tree of the first records. -/
def rootOf (codec : Codec Hash) (ledgerID : String) (records : List Bytes) : Hash :=
  merkleRoot codec.sha256 (leavesOf codec (chainOf codec ledgerID records))

/-! ## Consistency proofs of the ledger -/

variable {ledgerID : String} {db db' : Db Hash}

/-- **The ledger proves its own growth**: for two sizes that it has reached, its consistency proof
is accepted with the roots of the first records. -/
theorem Chained.merkleConsistencyProof [DecidableEq Hash] (hc : Chained codec ledgerID db)
    {firstSize secondSize : Nat} (hpos : 0 < firstSize) (hle : firstSize ≤ secondSize)
    (hsize : secondSize ≤ db.records.length) :
    ∃ proof, Sqlite.merkleConsistencyProof codec firstSize secondSize db = .ok proof ∧
      verifyConsistency codec.sha256 (rootOf codec ledgerID (db.records.take firstSize))
        (rootOf codec ledgerID (db.records.take secondSize)) proof := by
  have hrecords := hc.length_records
  have hbound := hc.bound
  have hmerkle := hc.merkleSize
  have hleaves : (leavesOf codec (chainOf codec ledgerID db.records)).length =
      db.records.length := by rw [length_leavesOf, length_chainOf]
  have hnodes := hc.nodes
  simp only [rootOf, chainOf_take, leavesOf_take]
  generalize leavesOf codec (chainOf codec ledgerID db.records) = leaves at hleaves hnodes
  have hlength : (leaves.take secondSize).length = secondSize := by
    rw [List.length_take]
    omega
  rw [hnodes.merkleConsistencyProof (by omega) (by omega) (by omega), buildConsistencyProof,
    hlength, if_neg (by omega)]
  by_cases hsame : firstSize = secondSize
  · subst hsame
    exact ⟨_, if_pos (.inr rfl), (verifyConsistency_full hpos).2 ⟨by omega, rfl, rfl⟩⟩
  · obtain ⟨-, haccepted⟩ := @verifyConsistency_build _ codec.sha256 (leaves.take secondSize) _
      firstSize hpos (by omega) (by omega)
    rw [List.take_take, Nat.min_eq_left hle, hlength] at haccepted
    exact ⟨_, if_neg (by omega), haccepted⟩

/-! ## Stored checkpoints -/

/-- The reference of a checkpoint that may be absent. -/
def referenceOf (row : Option CheckpointRow) : String := row.elim "" (·.checkpointReference)

/-- A stored checkpoint is carried by its bytes, names its predecessor, and has the root and the
head of the first records. -/
structure Seals (codec : Codec Hash) (ledgerID : String) (records : List Bytes)
    (predecessor : String) (row : CheckpointRow) (checkpoint : Checkpoint Hash) : Prop where
  carried : parseCanonicalCheckpoint codec row.canonicalCheckpoint = .ok checkpoint
  reference : checkpointReference codec row.canonicalCheckpoint row.signature =
    .ok row.checkpointReference
  ledger : checkpoint.ledgerID = ledgerID
  size : checkpoint.treeSize = row.treeSize
  pos : 0 < row.treeSize
  covered : row.treeSize ≤ records.length
  predecessor : checkpoint.predecessorReference = predecessor
  root : checkpoint.rootHash = rootOf codec ledgerID (records.take row.treeSize)
  head : checkpoint.chainHead =
    headOf codec ledgerID (chainOf codec ledgerID (records.take row.treeSize))

/-- The chain of the stored checkpoints, in the order in which they were stored. -/
structure Linked (codec : Codec Hash) (ledgerID : String) (db : Db Hash) : Prop where
  chained : Chained codec ledgerID db
  /-- The tree sizes grow. -/
  sizes : db.checkpoints.Pairwise fun row row' => row.treeSize < row'.treeSize
  /-- Each checkpoint names the one before, and is one of the first records. -/
  sealed : ∀ before row after, db.checkpoints = before ++ row :: after →
    ∃ checkpoint, Seals codec ledgerID db.records (referenceOf before.getLast?) row checkpoint

variable {row : CheckpointRow} {checkpoint : Checkpoint Hash} {operationID : String}
  {signed : SignedCheckpoint Hash}

/-- More records leave what a checkpoint seals. -/
theorem Seals.mono {records : List Bytes} {predecessor : String}
    (h : Seals codec ledgerID records predecessor row checkpoint) (more : List Bytes) :
    Seals codec ledgerID (records ++ more) predecessor row checkpoint := by
  have htake : (records ++ more).take row.treeSize = records.take row.treeSize :=
    List.take_append_of_le_length h.covered
  refine { h with covered := ?_, root := htake ▸ h.root, head := htake ▸ h.head }
  rw [List.length_append]
  exact h.covered.trans (Nat.le_add_right _ _)

theorem Linked.opened (codec : Codec Hash) (ledgerID : String) :
    Linked codec ledgerID (opened codec ledgerID) where
  chained := .opened codec ledgerID
  sizes := .nil
  sealed before row after h := by simp [Sqlite.opened] at h

/-- Other tables may change. -/
theorem Linked.of_eq (h : Linked codec ledgerID db) (hmetadata : db'.metadata = db.metadata)
    (hentries : db'.entries = db.entries) (hnodes : db'.nodes = db.nodes)
    (hcheckpoints : db'.checkpoints = db.checkpoints) : Linked codec ledgerID db' := by
  refine ⟨h.chained.of_eq hmetadata hentries hnodes, hcheckpoints ▸ h.sizes, ?_⟩
  rw [hcheckpoints, Db.records, Db.ordered, hentries]
  exact h.sealed

/-- A new entry leaves the stored checkpoints. -/
theorem Linked.written [DecidableEq Hash] [Inhabited Hash] {canonical : Bytes}
    {receipt : Receipt Hash} {receiptBytes : Bytes} (h : Linked codec ledgerID db)
    (hw : Written codec operationID canonical db receipt receiptBytes db') :
    Linked codec ledgerID db' := by
  have hcheckpoints : db'.checkpoints = db.checkpoints := by rw [hw.frame]
  refine ⟨h.chained.written hw, hcheckpoints ▸ h.sizes, fun before row after hsplit => ?_⟩
  obtain ⟨checkpoint, hseals⟩ := h.sealed before row after (hcheckpoints ▸ hsplit)
  rw [h.chained.records_written hw]
  exact ⟨checkpoint, hseals.mono _⟩

/-- Recording an operation leaves the stored checkpoints. -/
theorem Linked.appendRecord [DecidableEq Hash] [Inhabited Hash] {canonical : Bytes}
    {receipt : Receipt Hash} (h : Linked codec ledgerID db)
    (happend : Sqlite.appendRecord codec operationID canonical db = .ok (receipt, db')) :
    Linked codec ledgerID db' := by
  rcases appendRecord_ok happend with ⟨rfl, -⟩ | ⟨receiptBytes, hw⟩
  · exact h
  · exact h.written hw

/-- A stored checkpoint seals some of the records. -/
theorem Linked.seals (h : Linked codec ledgerID db) (hr : row ∈ db.checkpoints) :
    ∃ predecessor checkpoint, Seals codec ledgerID db.records predecessor row checkpoint := by
  obtain ⟨before, after, hsplit⟩ := List.append_of_mem hr
  exact ⟨_, h.sealed before row after hsplit⟩

/-- Stored checkpoints cover no more than the stored records. -/
theorem Linked.treeSize_le (h : Linked codec ledgerID db)
    (hr : row ∈ db.checkpoints) : row.treeSize ≤ db.metadata.merkleSize := by
  obtain ⟨predecessor, checkpoint, hseals⟩ := h.seals hr
  rw [h.chained.merkleSize, ← h.chained.length_records]
  exact hseals.covered

theorem Linked.ordered (h : Linked codec ledgerID db) : db.orderedCheckpoints = db.checkpoints :=
  List.Pairwise.insertionSort_eq (h.sizes.imp Nat.le_of_lt)

/-- Where all stored checkpoints are smaller, the predecessor is the last one. -/
theorem Linked.checkpointBelow (h : Linked codec ledgerID db) {treeSize : Nat}
    (hsmaller : ∀ row ∈ db.checkpoints, row.treeSize < treeSize) :
    db.checkpointBelow treeSize = db.checkpoints.getLast? := by
  rw [Db.checkpointBelow, h.ordered, List.filter_eq_self.2]
  exact fun row hr => decide_eq_true (hsmaller row hr)

/-- A checkpoint of all records goes after the stored ones. -/
theorem Linked.concat (h : Linked codec ledgerID db)
    (hsmaller : ∀ row' ∈ db.checkpoints, row'.treeSize < row.treeSize)
    (hseals : Seals codec ledgerID db.records (referenceOf db.checkpoints.getLast?) row
      checkpoint) :
    Linked codec ledgerID { db with checkpoints := db.checkpoints ++ [row] } where
  chained := h.chained.of_eq rfl rfl rfl
  sizes := by
    refine List.pairwise_append.2 ⟨h.sizes, List.pairwise_singleton _ _, fun row' hr row'' hr' =>
      ?_⟩
    obtain rfl := List.mem_singleton.1 hr'
    exact hsmaller row' hr
  sealed before row' after hsplit := by
    have hsplit : db.checkpoints ++ [row] = before ++ row' :: after := hsplit
    rcases List.eq_nil_or_concat after with rfl | ⟨rest, last, rfl⟩
    · obtain ⟨rfl, hlast⟩ := List.append_inj' hsplit rfl
      cases hlast
      exact ⟨checkpoint, hseals⟩
    · rw [List.concat_eq_append, ← List.cons_append, ← List.append_assoc] at hsplit
      exact h.sealed before row' rest (List.append_inj' hsplit rfl).1

/-! ## The commit of a checkpoint -/

variable [DecidableEq Hash]

/-- A row stores a signed checkpoint. -/
structure Stores (signed : SignedCheckpoint Hash) (row : CheckpointRow) : Prop where
  size : row.treeSize = signed.checkpoint.treeSize
  reference : row.checkpointReference = signed.reference
  canonical : row.canonicalCheckpoint = signed.canonical
  signature : row.signature = signed.signature

/-- What a commit has checked and stored. -/
structure Commits (codec : Codec Hash) (signed : SignedCheckpoint Hash) (keyVersion : Nat)
    (operationID : String) (canonicalRecord : Bytes) (db appended db' : Db Hash) : Prop where
  admitted : db.operational.fenceState = .admitted
  recorded : ∃ receipt, appendRecord codec operationID canonicalRecord db = .ok (receipt, appended)
  ledger : appended.metadata.ledgerID = signed.checkpoint.ledgerID
  size : appended.metadata.merkleSize = signed.checkpoint.treeSize
  root : appended.metadata.merkleRoot = signed.checkpoint.rootHash
  head : appended.metadata.chainHead = signed.checkpoint.chainHead
  predecessor : referenceOf (appended.checkpointBelow signed.checkpoint.treeSize) =
    signed.checkpoint.predecessorReference
  stored : (db' = db ∧ ∃ row ∈ appended.checkpoints, Stores signed row) ∨
    0 < signed.checkpoint.treeSize ∧
      (∀ row ∈ appended.checkpoints, row.treeSize ≠ signed.checkpoint.treeSize) ∧
      db' = { appended with
        checkpoints := appended.checkpoints ++ [⟨signed.reference, signed.checkpoint.treeSize,
          signed.checkpoint.keyID, keyVersion, signed.canonical, signed.signature⟩] }

theorem commitCheckpoint_ok {result : SignedCheckpoint Hash} {keyVersion : Nat}
    {canonicalRecord : Bytes}
    (h : commitCheckpoint codec signed keyVersion operationID canonicalRecord db =
      .ok (result, db')) :
    result = signed ∧
      ∃ appended, Commits codec signed keyVersion operationID canonicalRecord db appended db' := by
  obtain ⟨⟨⟩, hadmitted, h⟩ := bind_ok.1 h
  obtain ⟨⟨receipt, appended⟩, happend, h⟩ := bind_ok.1 h
  obtain ⟨hmetadata, h⟩ := ensure_bind.1 h
  obtain ⟨hpredecessor, h⟩ := ensure_bind.1 h
  simp only [Bool.and_eq_true, beq_iff_eq] at hmetadata hpredecessor
  obtain ⟨⟨⟨hledger, hsize⟩, hroot⟩, hhead⟩ := hmetadata
  have hfence := beq_iff_eq.1 (ensure_ok.1 hadmitted)
  split at h
  · next row hfind =>
    obtain ⟨hsame, h⟩ := ensure_bind.1 h
    cases h
    simp only [Bool.and_eq_true, beq_iff_eq] at hsame
    refine ⟨rfl, appended, hfence, ⟨receipt, happend⟩, hledger, hsize, hroot, hhead, hpredecessor,
      .inl ⟨rfl, row, List.mem_of_find?_eq_some hfind, ?_⟩⟩
    have hrow : row.treeSize = appended.metadata.merkleSize := by simpa using List.find?_some hfind
    exact ⟨hrow.trans hsize, hsame.1.1, hsame.1.2, hsame.2⟩
  · next hfind =>
    obtain ⟨checkpoints, hinsert, h⟩ := required_bind.1 h
    cases h
    unfold insertCheckpointRow at hinsert
    split at hinsert
    case isFalse => cases hinsert
    case isTrue hrow =>
    cases hinsert
    simp only [Bool.and_eq_true, decide_eq_true_eq] at hrow
    have hpos : 0 < signed.checkpoint.treeSize := hsize ▸ hrow.1.1.1.1.1.1.1.1.1.1.1.2
    refine ⟨rfl, appended, hfence, ⟨receipt, happend⟩, hledger, hsize, hroot, hhead, hpredecessor,
      .inr ⟨hpos, fun row hr hrow => ?_, by rw [hsize]⟩⟩
    exact List.find?_eq_none.1 hfind row hr (beq_iff_eq.2 (hrow.trans hsize.symm))

/-- The bytes of a signed checkpoint carry it, and its reference is theirs. -/
structure Carried (codec : Codec Hash) (signed : SignedCheckpoint Hash) : Prop where
  parsed : parseCanonicalCheckpoint codec signed.canonical = .ok signed.checkpoint
  reference : checkpointReference codec signed.canonical signed.signature = .ok signed.reference

theorem carried_of_signCandidate {signer : CheckpointSigner}
    {selection : CheckpointSigningSelection} {statement : VerificationKeyStatement}
    (h : signCandidate codec signer selection statement checkpoint = .ok signed) :
    signed.checkpoint = checkpoint ∧ Carried codec signed := by
  obtain ⟨canonical, -, h⟩ := bind_ok.1 h
  obtain ⟨signature, -, h⟩ := required_bind.1 h
  obtain ⟨-, h⟩ := ensure_bind.1 h
  obtain ⟨reference, hreference, h⟩ := bind_ok.1 h
  obtain ⟨trust, htrust, h⟩ := bind_ok.1 h
  obtain ⟨-, h⟩ := ensure_bind.1 h
  cases h
  obtain ⟨parsed, hparsed, htrust⟩ := bind_ok.1 (orUnavailable_ok.1 htrust)
  obtain ⟨hfields, -⟩ := ensure_bind.1 htrust
  simp only [Bool.and_eq_true, beq_iff_eq] at hfields
  exact ⟨rfl, hfields.1.1.1.1 ▸ hparsed, hreference⟩

variable [Inhabited Hash]

/-- A committed checkpoint seals all records of the ledger with its own. -/
theorem Commits.linked {keyVersion : Nat} {canonicalRecord : Bytes} {appended : Db Hash}
    (hcommits : Commits codec signed keyVersion operationID canonicalRecord db appended db')
    (hcarried : Carried codec signed) (h : Linked codec ledgerID db) :
    Linked codec ledgerID db' := by
  rcases hcommits.stored with ⟨rfl, -⟩ | ⟨hpos, hnew, rfl⟩
  · exact h
  · obtain ⟨receipt, happend⟩ := hcommits.recorded
    have hlinked := h.appendRecord happend
    have hc := hlinked.chained
    have hall : signed.checkpoint.treeSize = appended.records.length := by
      rw [hc.length_records, ← hc.merkleSize, hcommits.size]
    have hsmaller (row : CheckpointRow) (hr : row ∈ appended.checkpoints) :
        row.treeSize < signed.checkpoint.treeSize :=
      Nat.lt_of_le_of_ne (hcommits.size ▸ hlinked.treeSize_le hr) (hnew row hr)
    have htake : appended.records.take signed.checkpoint.treeSize = appended.records := by
      rw [hall, List.take_length]
    refine hlinked.concat hsmaller ⟨hcarried.parsed, hcarried.reference, ?_, rfl, hpos, hall.le, ?_,
      ?_, ?_⟩
    · rw [← hcommits.ledger, hc.ledger]
    · rw [← hcommits.predecessor, hlinked.checkpointBelow hsmaller]
    · rw [htake, ← hcommits.root, hc.root, rootOf]
    · rw [htake, ← hcommits.head, hc.head]

/-! ## The other transactions -/

omit [Inhabited Hash] in
/-- An installation pins its authority, adds its row if the version is new, and records itself. -/
theorem installVerificationKey_ok {signed : SignedVerificationKeyStatement} {authority : Bytes}
    {authorityReference : String} {recordedAt : Time}
    (h : installVerificationKey codec signed authority operationID recordedAt authorityReference
      db = .ok ((), db')) :
    ∃ statement canonical keyStatements receipt,
      verifyKeyStatement codec authority signed.canonical signed.signature = .ok statement ∧
      db.operational.fenceState = .admitted ∧
      (db.authority = none ∨ db.authority = some authority) ∧
      (keyStatements = db.keyStatements ∨ insertKeyRow ⟨statement.keyID, statement.version,
        signed.canonical, signed.signature⟩ db.keyStatements = some keyStatements) ∧
      appendRecord codec operationID canonical
        { db with authority := some authority, keyStatements } = .ok (receipt, db') := by
  obtain ⟨statement, hstatement, h⟩ := bind_ok.1 h
  obtain ⟨⟨⟩, hadmitted, h⟩ := bind_ok.1 h
  obtain ⟨pinned, hpin, h⟩ := bind_ok.1 h
  obtain ⟨canonical, -, h⟩ := bind_ok.1 h
  have hfence := beq_iff_eq.1 (ensure_ok.1 hadmitted)
  obtain ⟨hauthority, rfl⟩ : (db.authority = none ∨ db.authority = some authority) ∧
      pinned = { db with authority := some authority } := by
    obtain ⟨-, hpin⟩ := ensure_bind.1 hpin
    cases hexisting : db.authority with
    | none =>
      rw [hexisting] at hpin
      cases hpin
      exact ⟨.inl rfl, rfl⟩
    | some existing =>
      rw [hexisting] at hpin
      obtain ⟨hsame, hpin⟩ := ensure_bind.1 hpin
      cases hpin
      obtain rfl := beq_iff_eq.1 hsame
      exact ⟨.inr rfl, by rw [← hexisting]⟩
  -- A new version adds its row, and a stored one is recorded again.
  have hnew (h : installNew codec signed statement operationID canonical
      { db with authority := some authority } = .ok ((), db')) :
      ∃ keyStatements receipt, insertKeyRow ⟨statement.keyID, statement.version, signed.canonical,
          signed.signature⟩ db.keyStatements = some keyStatements ∧
        appendRecord codec operationID canonical
          { db with authority := some authority, keyStatements } = .ok (receipt, db') := by
    obtain ⟨keyStatements, hinsert, h⟩ := required_bind.1 h
    obtain ⟨⟨receipt, after⟩, happend, h⟩ := bind_ok.1 h
    cases h
    exact ⟨keyStatements, receipt, hinsert, happend⟩
  refine ⟨statement, canonical, ?_⟩
  split at h
  · next previous hlatest =>
    split at h
    · obtain ⟨stored, -, h⟩ := required_bind.1 h
      obtain ⟨-, h⟩ := ensure_bind.1 h
      obtain ⟨covering, -, h⟩ := required_bind.1 h
      obtain ⟨-, h⟩ := ensure_bind.1 h
      obtain ⟨⟨receipt, after⟩, happend, h⟩ := bind_ok.1 h
      cases h
      exact ⟨db.keyStatements, receipt, orUnavailable_ok.1 hstatement, hfence, hauthority, .inl rfl,
        happend⟩
    · obtain ⟨⟨⟩, -, h⟩ := bind_ok.1 h
      obtain ⟨keyStatements, receipt, hinsert, happend⟩ := hnew h
      exact ⟨keyStatements, receipt, orUnavailable_ok.1 hstatement, hfence, hauthority,
        .inr hinsert, happend⟩
  · obtain ⟨keyStatements, receipt, hinsert, happend⟩ := hnew h
    exact ⟨keyStatements, receipt, orUnavailable_ok.1 hstatement, hfence, hauthority, .inr hinsert,
      happend⟩

omit [Inhabited Hash] in
/-- Storing an acknowledgement changes no other table. -/
theorem storeWitness_ok {ack result : WitnessAcknowledgement}
    (h : storeWitness codec ack db = .ok (result, db')) :
    db.operational.fenceState = .admitted ∧ ∃ witnesses, db' = { db with witnesses } := by
  obtain ⟨⟨⟩, hadmitted, h⟩ := bind_ok.1 h
  refine ⟨beq_iff_eq.1 (ensure_ok.1 hadmitted), ?_⟩
  dsimp only at h
  split at h
  · obtain ⟨-, h⟩ := ensure_bind.1 h
    cases h
    exact ⟨db.witnesses, rfl⟩
  · obtain ⟨witnesses, -, h⟩ := required_bind.1 h
    cases h
    exact ⟨witnesses, rfl⟩

/-! ## Interleaved calls -/

/-- The transactions of the calls, with what `CreateCheckpoint` has checked of its checkpoint. -/
def Request.OfCall (codec : Codec Hash) : Request Hash → Prop
  | .transact (.append _) => True
  | .transact (.installVerificationKey ..) => True
  | .transact (.commitCheckpoint signed ..) => Carried codec signed
  | .transact (.storeWitness _) => True
  | .transact _ => False
  | _ => True

omit [Inhabited Hash] in
theorem Call.ofCall (c : Call Hash) : (c.run codec).Only (Request.OfCall codec) :=
  c.only (fun r hr => by cases r <;> trivial) (fun _ => trivial)
    (fun _ _ _ _ _ => trivial) (fun _ _ _ _ _ _ _ _ h => (carried_of_signCandidate h).2)
    (fun _ => trivial)

/-- Every transaction of a call keeps the chain of checkpoints. -/
theorem Linked.write (h : Linked codec ledgerID db) {w : Write Hash} {a : w.Result}
    (hw : (Request.transact w).OfCall codec) (hrun : w.run codec db = .ok (a, db')) :
    Linked codec ledgerID db' := by
  cases w with
  | append record =>
    obtain ⟨canonical, -, hrun⟩ := bind_ok.1 hrun
    obtain ⟨⟨⟩, -, happend⟩ := bind_ok.1 hrun
    exact h.appendRecord happend
  | installVerificationKey =>
    obtain ⟨_, _, _, _, -, -, -, -, happend⟩ := installVerificationKey_ok hrun
    refine Linked.appendRecord ?_ happend
    exact h.of_eq rfl rfl rfl rfl
  | commitCheckpoint =>
    obtain ⟨-, appended, hcommits⟩ := commitCheckpoint_ok hrun
    exact hcommits.linked hw h
  | storeWitness =>
    obtain ⟨-, witnesses, rfl⟩ := storeWitness_ok hrun
    exact h.of_eq rfl rfl rfl rfl
  | _ => cases hw

/-- The runs of the calls of any number of threads, from the first migration. -/
abbrev LedgerRun (ι : Type) [DecidableEq ι] (codec : Codec Hash) (ledgerID : String) (file : Hash)
    (p : Pool (port Hash) ι (Call Hash) (Except Error (Reply Hash)) (Disk Hash)) : Prop :=
  Pool.Reach (fun _ => ledgerSem codec) ledgerEnv (Call.run codec) ⟨opened codec ledgerID,
    file, []⟩ p

/-- **The checkpoints of a ledger form a chain.** In every state that interleaved calls reach, the
stored checkpoints have growing tree sizes, each names its predecessor and is one of the first
records, and for any two of them the ledger's consistency proof is accepted. -/
theorem checkpoints_linked {ι : Type} [DecidableEq ι] {file : Hash}
    {p : Pool (port Hash) ι (Call Hash) (Except Error (Reply Hash)) (Disk Hash)}
    (hp : LedgerRun ι codec ledgerID file p) :
    Linked codec ledgerID p.shared.db ∧
      ∀ row ∈ p.shared.db.checkpoints, ∀ row' ∈ p.shared.db.checkpoints, ∀ checkpoint checkpoint',
        parseCanonicalCheckpoint codec row.canonicalCheckpoint = .ok checkpoint →
        parseCanonicalCheckpoint codec row'.canonicalCheckpoint = .ok checkpoint' →
        checkpoint.treeSize ≤ checkpoint'.treeSize →
        ∃ proof, merkleConsistencyProof codec checkpoint.treeSize checkpoint'.treeSize p.shared.db =
            .ok proof ∧
          verifyConsistency codec.sha256 checkpoint.rootHash checkpoint'.rootHash proof = true := by
  have hlinked : Linked codec ledgerID p.shared.db := by
    refine Pool.Reach.invariant_only (I := fun disk => Linked codec ledgerID disk.db) Call.ofCall
      (.opened codec ledgerID) (fun _ r disk ans disk' hr h hsem => ?_) (fun disk disk' h henv =>
        ?_) hp
    · rcases hsem.cases with rfl | ⟨w, a, db, rfl, hrun, rfl⟩
      · exact h
      · exact h.write hr hrun
    · obtain ⟨file, rfl⟩ := henv
      exact h
  refine ⟨hlinked, fun row hr row' hr' checkpoint checkpoint' hparsed hparsed' hle => ?_⟩
  obtain ⟨_, sealed, hseals⟩ := hlinked.seals hr
  obtain ⟨_, sealed', hseals'⟩ := hlinked.seals hr'
  obtain rfl := Except.ok.inj (hseals.carried.symm.trans hparsed)
  obtain rfl := Except.ok.inj (hseals'.carried.symm.trans hparsed')
  have hproof := hlinked.chained.merkleConsistencyProof (hseals.size ▸ hseals.pos) hle
    (hseals'.size ▸ hseals'.covered)
  rwa [hseals.size, hseals'.size, ← hseals.root, ← hseals'.root, ← hseals.size, ← hseals'.size]
    at hproof

end

/-! ## Samples -/

/-- The text of a digest at a place, as long as those of digests are. -/
def sampleText (index : Nat) : String := String.ofList (List.replicate 42 'A') ++ toString index

/-- A codec for the sample's checkpoint, with texts that references can have. -/
def sampleCheckpointCodec : Codec Symbolic := { sampleTableCodec with
    checkpoint := tableJcs [{ sampleCheckpointDocument with
      rootHash := sampleText 0, chainHead := sampleText 1 }] (sampleCodec sampleKnown).checkpoint
    encodeDigest := fun digest => sampleText (sampleKnown.idxOf digest)
    decodeHash := fun text => (digits (text.toList.drop 42)).bind fun index => sampleKnown[index]? }

/-- A signer with the key of the checkpoints. -/
def sampleSigner : CheckpointSigner :=
  ⟨some ⟨"key-1", checkpointAlgorithm⟩, fun _ _ => some (samplePublicKey ++ samplePublicKey)⟩

/-- The installation of the key, and a checkpoint. -/
def sampleCheckpointed : List (Call Symbolic) :=
  [.installVerificationKey (sampleSigned 1 none 0) sampleAuthority sampleFirstID (sampleTime 1)
    "authority:keys:1",
    .createCheckpoint (sampleTime 2) sampleAuthority sampleSigner
      sampleCheckpointRecord.operationID]

/-- The sample's calls with one more record. -/
def sampleOutgrown : List (Call Symbolic) :=
  sampleCheckpointed ++ [.append (sampleKeyRecord 2 sampleSecondID)]

/-- What calls return that run one after the other, and what they leave. -/
def sampleRun (calls : List (Call Symbolic)) :
    List (Except Error (Reply Symbolic)) × Disk Symbolic :=
  Pool.evals (Request.perform sampleCheckpointCodec) (Call.run sampleCheckpointCodec) calls
    ⟨opened sampleCheckpointCodec sampleLedgerID, .empty, []⟩

/-- The sample's calls are a run. -/
theorem exists_sampleRun (calls : List (Call Symbolic)) :
    ∃ p, LedgerRun Nat sampleCheckpointCodec sampleLedgerID .empty p ∧
      p.shared = (sampleRun calls).2 ∧ ∀ i c a, calls[i]? = some c →
        (sampleRun calls).1[i]? = some a → p.Returned i c a :=
  ⟨_, (Pool.Reach.evals (fun _ r disk => .performed r disk) calls).2, rfl, fun _ c a hc ha =>
    Option.map_eq_some_iff.2 ⟨(c, a), List.getElem?_zip_eq_some.2 ⟨hc, ha⟩, rfl⟩⟩

/-- A ledger that has outgrown its checkpoint by a record. -/
theorem checkpoints_linked_sample : ∃ db : Db Symbolic,
    db.checkpoints.length = 1 ∧ db.metadata.merkleSize = 3 ∧
      Linked sampleCheckpointCodec sampleLedgerID db := by
  obtain ⟨p, hp, hshared, -⟩ := exists_sampleRun sampleOutgrown
  have hsizes : (sampleRun sampleOutgrown).2.db.checkpoints.length = 1 ∧
      (sampleRun sampleOutgrown).2.db.metadata.merkleSize = 3 := by decide +kernel
  rw [← hshared] at hsizes
  exact ⟨p.shared.db, hsizes.1, hsizes.2, (checkpoints_linked hp).1⟩

end YukhCoordination.Relay.Audit.Sqlite
