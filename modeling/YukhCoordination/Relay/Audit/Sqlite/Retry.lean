import YukhCoordination.Relay.Audit.Sqlite.Linked

/-!
# Repeating a checkpoint request

A repeated request signs the stored checkpoint again, until another record is appended
(`createCheckpoint_after_append`).
-/

namespace YukhCoordination.Relay.Audit.Sqlite

open Lifecycle Coordination Transaction Interleave

/-! ## What stays -/

section
variable {Hash : Type}

/-- Nothing is removed or changed. -/
structure Grows (db db' : Db Hash) : Prop where
  entries : db.entries <+: db'.entries
  checkpoints : db.checkpoints <+: db'.checkpoints
  keyStatements : db.keyStatements <+: db'.keyStatements
  authority : ∀ authority, db.authority = some authority → db'.authority = some authority

theorem Grows.refl (db : Db Hash) : Grows db db :=
  ⟨List.prefix_rfl, List.prefix_rfl, List.prefix_rfl, fun _ => id⟩

theorem Grows.trans {db db' db'' : Db Hash} (h : Grows db db') (h' : Grows db' db'') :
    Grows db db'' :=
  ⟨h.entries.trans h'.entries, h.checkpoints.trans h'.checkpoints,
    h.keyStatements.trans h'.keyStatements, fun a ha => h'.authority a (h.authority a ha)⟩

variable {codec : Codec Hash} {ledgerID operationID : String} {canonical : Bytes}
  {db db' : Db Hash} {receipt : Receipt Hash} {receiptBytes : Bytes}

/-- What the entries and the statements of the ledger satisfy besides the chain. -/
structure Kept (codec : Codec Hash) (ledgerID : String) (db : Db Hash) : Prop where
  linked : Linked codec ledgerID db
  admitted : db.operational.fenceState = .admitted
  /-- The entries are numbered in the order of their insertion. -/
  numbered : db.entries.map (·.sequence) = List.range' 1 db.metadata.lastSequence
  digests : ∀ e ∈ db.entries, e.recordDigest = recordDigest codec.sha256 e.canonicalRecord
  operations : (db.entries.map (·.operationID)).Nodup
  records : (db.entries.map (·.canonicalRecord)).Nodup
  /-- Each version of a key is stored once and carries its statement. -/
  carries : ∀ row ∈ db.keyStatements, ∃ authority statement, Carries codec authority row statement
  versions : (db.keyStatements.map KeyRow.key).Nodup

theorem Kept.opened (codec : Codec Hash) (ledgerID : String) :
    Kept codec ledgerID (opened codec ledgerID) where
  linked := .opened codec ledgerID
  admitted := rfl
  numbered := rfl
  digests _ he := absurd he List.not_mem_nil
  operations := List.nodup_nil
  records := List.nodup_nil
  carries _ hr := absurd hr List.not_mem_nil
  versions := List.nodup_nil

/-- A row that carries its statement, of a version that is not stored, keeps what is kept. -/
theorem Kept.insertKeyRow (h : Kept codec ledgerID db) {row : KeyRow} {keyStatements : List KeyRow}
    {authority : Bytes} {statement : VerificationKeyStatement}
    (hcarries : Carries codec authority row statement)
    (hinsert : Sqlite.insertKeyRow row db.keyStatements = some keyStatements) :
    (∀ row ∈ keyStatements, ∃ authority statement, Carries codec authority row statement) ∧
      (keyStatements.map KeyRow.key).Nodup ∧ db.keyStatements <+: keyStatements := by
  unfold Sqlite.insertKeyRow at hinsert
  split at hinsert
  case isFalse => cases hinsert
  case isTrue hrow =>
  cases hinsert
  simp only [Bool.and_eq_true, List.all_eq_true, Bool.not_eq_true', Bool.and_eq_false_iff,
    beq_eq_false_iff_ne] at hrow
  refine ⟨fun row' hr => ?_, unique_concat h.versions fun row' hr heq => ?_, List.prefix_append _ _⟩
  · rcases List.mem_append.1 hr with hr | hr
    · exact h.carries row' hr
    · obtain rfl := List.mem_singleton.1 hr
      exact ⟨authority, statement, hcarries⟩
  · obtain ⟨hkey, hversion⟩ := Prod.mk.inj heq
    exact (hrow.2 row' hr).1.elim (· hkey) (· hversion)

/-! ## The entry of a checkpoint -/

theorem Kept.ordered (h : Kept codec ledgerID db) : db.ordered = db.entries := by
  refine List.Pairwise.insertionSort_eq ?_
  have hsorted : (db.entries.map (·.sequence)).Pairwise (· < ·) := by
    rw [h.numbered]
    exact List.pairwise_lt_range'
  exact (List.pairwise_map.1 hsorted).imp Nat.le_of_lt

/-- Where the head of the chain is that of a record, and the record is stored, its entry is the last
one. -/
theorem Kept.sequence_of_head (h : Kept codec ledgerID db) (hinj : Function.Injective codec.sha256)
    {sequence : Nat} {previous : Hash} (hhead : db.metadata.chainHead =
      codec.sha256 (.chain sequence previous (recordDigest codec.sha256 canonical)))
    {entry : Entry Hash} (he : entry ∈ db.entries) (hentry : entry.canonicalRecord = canonical) :
    entry.sequence = db.metadata.lastSequence := by
  obtain ⟨init, last, hlast⟩ : ∃ init last, db.entries = init ++ [last] := by
    rcases List.eq_nil_or_concat db.entries with hnil | ⟨init, last, hlast⟩
    · rw [hnil] at he
      cases he
    · exact ⟨init, last, hlast.trans (List.concat_eq_append)⟩
  have hrecords : db.records = init.map (·.canonicalRecord) ++ [last.canonicalRecord] := by
    rw [Db.records, h.ordered, hlast, List.map_append]
    rfl
  have hsame : last.canonicalRecord = canonical := by
    rw [h.linked.chained.head, hrecords, chainOf_concat, extendChain, headOf,
      List.getLastD_concat] at hhead
    injection hinj hhead with _ _ hdigest
    injection hinj hdigest
  obtain rfl : entry = last := by
    refine List.inj_on_of_nodup_map h.records he ?_ (hentry.trans hsame.symm)
    rw [hlast]
    exact List.mem_append_right _ List.mem_cons_self
  have hnumbered := h.numbered
  have hlength : db.metadata.lastSequence = init.length + 1 := by
    simpa [hlast] using (congrArg List.length hnumbered).symm
  rw [hlast, hlength, List.range'_concat, List.map_append] at hnumbered
  have hsequence : entry.sequence = 1 + 1 * init.length :=
    List.singleton_inj.1 (List.append_inj' hnumbered rfl).2
  omega

/-- The record of a checkpoint is stored, at the size of its tree. -/
structure Covers (ledgerID operationID : String) (canonical : Bytes) (treeSize : Nat)
    (entry : Entry Hash) : Prop where
  operation : entry.operationID = operationID
  record : entry.canonicalRecord = canonical
  sequence : entry.sequence = treeSize
  receipt : ∃ receipt, newReceipt ledgerID entry.sequence operationID entry.recordDigest
    entry.previousChainDigest entry.chainDigest = .ok receipt

/-- What is known of a candidate: its record is stored at its size, or its head is the one after its
record. -/
def Foreseen (codec : Codec Hash) (operationID : String) (canonical : Bytes)
    (checkpoint : Checkpoint Hash) (db : Db Hash) : Prop :=
  (∃ entry ∈ db.entries, entry.operationID = operationID ∧ entry.sequence = checkpoint.treeSize) ∨
    ∃ previous, checkpoint.chainHead =
      codec.sha256 (.chain checkpoint.treeSize previous (recordDigest codec.sha256 canonical))

theorem Foreseen.mono {checkpoint : Checkpoint Hash}
    (h : Foreseen codec operationID canonical checkpoint db) (hgrows : Grows db db') :
    Foreseen codec operationID canonical checkpoint db' :=
  h.imp (fun ⟨entry, he, h⟩ => ⟨entry, hgrows.entries.subset he, h⟩) id

/-- A recorded operation has an entry, and its receipt has the sequence of the entry. -/
theorem lookupOperation_ok {stored : Bytes}
    (h : lookupOperation db operationID = .ok (some (stored, receipt))) :
    ∃ entry ∈ db.entries, entry.operationID = operationID ∧ entry.canonicalRecord = stored ∧
      receipt.sequence = entry.sequence := by
  unfold lookupOperation at h
  split at h
  · cases h
  · next entry hfind =>
    obtain ⟨found, hfound, h⟩ := bind_ok.1 h
    cases h
    obtain ⟨-, hfound⟩ := ensure_bind.1 hfound
    obtain ⟨-, hfound⟩ := ensure_bind.1 hfound
    cases hfound
    exact ⟨entry, List.mem_of_find?_eq_some hfind, by simpa using List.find?_some hfind, rfl, rfl⟩

/-- A repeated request finds the record of the first one. -/
theorem Covers.lookupOperation {treeSize : Nat} {entry : Entry Hash}
    (hkept : Kept codec ledgerID db)
    (he : entry ∈ db.entries) (hcovers : Covers ledgerID operationID canonical treeSize entry) :
    ∃ receipt, Sqlite.lookupOperation db operationID = .ok (some (canonical, receipt)) ∧
      receipt.sequence = treeSize := by
  obtain ⟨receipt, hreceipt⟩ := hcovers.receipt
  have hlookup : Sqlite.lookupOperation db operationID = .ok (some (canonical, receipt)) := by
    rw [Sqlite.lookupOperation, find?_of_unique hkept.operations he hcovers.operation,
      hkept.linked.chained.ledger, ← hcovers.record]
    exact bind_ok.2 ⟨receipt, hreceipt, rfl⟩
  obtain ⟨found, hf, hoperation, -, hsequence⟩ := lookupOperation_ok hlookup
  obtain rfl := List.inj_on_of_nodup_map hkept.operations hf he
    (hoperation.trans hcovers.operation.symm)
  exact ⟨receipt, hlookup, hsequence.trans hcovers.sequence⟩

/-- The stored checkpoint of a size is found by it. -/
theorem Linked.find?_treeSize (h : Linked codec ledgerID db) {row : CheckpointRow}
    (hr : row ∈ db.checkpoints) : db.checkpoints.find? (·.treeSize == row.treeSize) = some row := by
  have hsizes : (db.checkpoints.map (·.treeSize)).Nodup :=
    List.pairwise_map.2 (h.sizes.imp Nat.ne_of_lt)
  exact find?_of_unique hsizes hr rfl

/-- The predecessor of a stored checkpoint is the one before it. -/
theorem Linked.checkpointBelow_split (h : Linked codec ledgerID db) {row : CheckpointRow}
    {before after : List CheckpointRow} (hsplit : db.checkpoints = before ++ row :: after) :
    db.checkpointBelow row.treeSize = before.getLast? := by
  have hsizes := h.sizes
  rw [hsplit, List.pairwise_append, List.pairwise_cons] at hsizes
  obtain ⟨-, ⟨hafter, -⟩, hbefore⟩ := hsizes
  have hkeep : before.filter (·.treeSize < row.treeSize) = before :=
    List.filter_eq_self.2 fun row' hr => decide_eq_true (hbefore row' hr row List.mem_cons_self)
  have hdrop : (row :: after).filter (·.treeSize < row.treeSize) = [] := by
    refine List.filter_eq_nil_iff.2 fun row' hr => ?_
    rcases List.mem_cons.1 hr with rfl | hr
    · simp
    · simpa using (hafter row' hr).le
  rw [Db.checkpointBelow, h.ordered, hsplit, List.filter_append, hkeep, hdrop, List.append_nil]

/-- What a call has read of a key. -/
structure KeyFound (codec : Codec Hash) (keyID : String) (authority : Bytes)
    (statement : VerificationKeyStatement) (db : Db Hash) : Prop where
  length : authority.length = publicKeySize
  pinned : db.authority = some authority
  stored : ∃ row ∈ db.keyStatements, row.keyID = keyID ∧
    verifyKeyStatement codec authority row.canonicalStatement row.authoritySignature = .ok statement

theorem KeyFound.mono {keyID : String} {authority : Bytes} {statement : VerificationKeyStatement}
    (h : KeyFound codec keyID authority statement db) (hgrows : Grows db db') :
    KeyFound codec keyID authority statement db' := by
  obtain ⟨hlength, hpinned, row, hr, hrow⟩ := h
  exact ⟨hlength, hgrows.authority _ hpinned, row, hgrows.keyStatements.subset hr, hrow⟩

/-! ## What transactions keep -/

variable [DecidableEq Hash]

theorem Written.grows (hw : Written codec operationID canonical db receipt receiptBytes db') :
    Grows db db' := by
  have hentries : db.entries <+: db'.entries := by
    rw [hw.entries]
    exact List.prefix_append _ _
  have hgrows : Grows db { db with
      metadata := db'.metadata, entries := db'.entries, nodes := db'.nodes } :=
    ⟨hentries, List.prefix_rfl, List.prefix_rfl, fun _ => id⟩
  exact hw.frame ▸ hgrows

/-- A commit leaves the record at the size of the tree, and the checkpoint. -/
theorem Commits.covers {signed : SignedCheckpoint Hash} {keyVersion : Nat} {appended : Db Hash}
    (hcommits : Commits codec signed keyVersion operationID canonical db appended db')
    (h : Kept codec ledgerID db) (hinj : Function.Injective codec.sha256)
    (hforeseen : Foreseen codec operationID canonical signed.checkpoint db) :
    (∃ entry ∈ db'.entries,
        Covers ledgerID operationID canonical signed.checkpoint.treeSize entry) ∧
      ∃ row ∈ db'.checkpoints, Stores signed row := by
  obtain ⟨receipt, happend⟩ := hcommits.recorded
  rcases appendRecord_ok happend with
    ⟨rfl, entry, he, hoperation, hrecord, hreceipt⟩ | ⟨receiptBytes, hw⟩
  · have hsequence : entry.sequence = signed.checkpoint.treeSize := by
      rcases hforeseen with ⟨entry', he', hoperation', hsequence⟩ | ⟨previous, hhead⟩
      · obtain rfl := List.inj_on_of_nodup_map h.operations he he'
          (hoperation.trans hoperation'.symm)
        exact hsequence
      · rw [h.sequence_of_head hinj (hcommits.head.trans hhead) he hrecord,
          ← h.linked.chained.merkleSize, hcommits.size]
    have hcovers : Covers ledgerID operationID canonical signed.checkpoint.treeSize entry :=
      ⟨hoperation, hrecord, hsequence, receipt, h.linked.chained.ledger ▸ hreceipt⟩
    rcases hcommits.stored with ⟨rfl, row, hr, hrow⟩ | ⟨-, -, rfl⟩
    · exact ⟨⟨entry, he, hcovers⟩, row, hr, hrow⟩
    · exact ⟨⟨entry, he, hcovers⟩, _, List.mem_append_right _ List.mem_cons_self, rfl, rfl,
        rfl, rfl⟩
  · have hsize : db.metadata.lastSequence + 1 = signed.checkpoint.treeSize := by
      rw [← hcommits.size, hw.metadata]
    rcases hcommits.stored with ⟨-, row, hr, hrow⟩ | ⟨-, -, rfl⟩
    · -- A stored checkpoint does not cover a record that is new.
      have hrows : appended.checkpoints = db.checkpoints := by rw [hw.frame]
      have hle := h.linked.treeSize_le (hrows ▸ hr)
      rw [h.linked.chained.merkleSize, hrow.size] at hle
      omega
    · have hreceipt := hw.newReceipt
      rw [h.linked.chained.ledger] at hreceipt
      have hcovers : Covers ledgerID operationID canonical signed.checkpoint.treeSize
          (nextEntry codec db operationID canonical receiptBytes) :=
        ⟨rfl, rfl, hsize, receipt, hreceipt⟩
      have he : nextEntry codec db operationID canonical receiptBytes ∈ appended.entries := by
        rw [hw.entries]
        exact List.mem_append_right _ List.mem_cons_self
      exact ⟨⟨_, he, hcovers⟩, _, List.mem_append_right _ List.mem_cons_self, rfl, rfl, rfl, rfl⟩

variable [Inhabited Hash]

/-- A new entry keeps what is kept. -/
theorem Kept.written (h : Kept codec ledgerID db)
    (hw : Written codec operationID canonical db receipt receiptBytes db') :
    Kept codec ledgerID db' := by
  have hkeys : db'.keyStatements = db.keyStatements := by rw [hw.frame]
  refine ⟨h.linked.written hw, ?_, ?_, fun e he => ?_, ?_, ?_, hkeys ▸ h.carries,
    hkeys ▸ h.versions⟩
  · rw [hw.frame]
    exact h.admitted
  · rw [hw.entries, List.map_append, h.numbered, hw.metadata, List.range'_concat, Nat.one_mul,
      Nat.add_comm 1]
    rfl
  · rw [hw.entries] at he
    rcases List.mem_append.1 he with he | he
    · exact h.digests e he
    · obtain rfl := List.mem_singleton.1 he
      rfl
  · rw [hw.entries]
    exact unique_concat h.operations fun e he => (hw.fresh e he).1
  · rw [hw.entries]
    refine unique_concat h.records fun e he heq => (hw.fresh e he).2 ?_
    have heq : e.canonicalRecord = canonical := heq
    rw [h.digests e he, heq]

theorem Kept.appendRecord (h : Kept codec ledgerID db)
    (happend : Sqlite.appendRecord codec operationID canonical db = .ok (receipt, db')) :
    Kept codec ledgerID db' ∧ Grows db db' := by
  rcases appendRecord_ok happend with ⟨rfl, -⟩ | ⟨receiptBytes, hw⟩
  · exact ⟨h, .refl _⟩
  · exact ⟨h.written hw, hw.grows⟩

/-- Every transaction of a call keeps what is kept, and removes nothing. -/
theorem Kept.write (h : Kept codec ledgerID db) {w : Write Hash} {a : w.Result}
    (hw : (Request.transact w).OfCall codec) (hrun : w.run codec db = .ok (a, db')) :
    Kept codec ledgerID db' ∧ Grows db db' := by
  cases w with
  | append record =>
    obtain ⟨canonical, -, hrun⟩ := bind_ok.1 hrun
    obtain ⟨⟨⟩, -, happend⟩ := bind_ok.1 hrun
    exact h.appendRecord happend
  | installVerificationKey signed authority =>
    obtain ⟨statement, canonical, keyStatements, receipt, hstatement, -, hauthority, hrows,
      happend⟩ :=
      installVerificationKey_ok hrun
    obtain ⟨hcarries, hversions, hprefix⟩ : (∀ row ∈ keyStatements, ∃ authority statement,
        Carries codec authority row statement) ∧ (keyStatements.map KeyRow.key).Nodup ∧
          db.keyStatements <+: keyStatements := by
      rcases hrows with rfl | hinsert
      · exact ⟨h.carries, h.versions, List.prefix_rfl⟩
      · exact h.insertKeyRow ⟨hstatement, rfl, rfl⟩ hinsert
    have hkept : Kept codec ledgerID { db with authority := some authority, keyStatements } :=
      ⟨h.linked.of_eq rfl rfl rfl rfl, h.admitted, h.numbered, h.digests, h.operations, h.records,
        hcarries, hversions⟩
    have hgrows : Grows db { db with authority := some authority, keyStatements } := by
      refine ⟨List.prefix_rfl, List.prefix_rfl, hprefix, fun pinned hpinned => ?_⟩
      rw [hpinned] at hauthority
      exact (hauthority.resolve_left (Option.some_ne_none pinned)).symm
    obtain ⟨hkept', hgrows'⟩ := hkept.appendRecord happend
    exact ⟨hkept', hgrows.trans hgrows'⟩
  | commitCheckpoint =>
    obtain ⟨-, appended, hcommits⟩ := commitCheckpoint_ok hrun
    have hlinked := hcommits.linked hw h.linked
    obtain ⟨receipt, happend⟩ := hcommits.recorded
    obtain ⟨hkept, hgrows⟩ := h.appendRecord happend
    rcases hcommits.stored with ⟨rfl, -⟩ | ⟨-, -, rfl⟩
    · exact ⟨h, .refl _⟩
    · refine ⟨⟨hlinked, hkept.admitted, hkept.numbered, hkept.digests, hkept.operations,
        hkept.records, hkept.carries, hkept.versions⟩, hgrows.trans ?_⟩
      exact ⟨List.prefix_rfl, List.prefix_append _ _, List.prefix_rfl, fun _ => id⟩
  | storeWitness =>
    obtain ⟨-, witnesses, rfl⟩ := storeWitness_ok hrun
    exact ⟨⟨h.linked.of_eq rfl rfl rfl rfl, h.admitted, h.numbered, h.digests, h.operations,
      h.records, h.carries, h.versions⟩, List.prefix_rfl, List.prefix_rfl, List.prefix_rfl,
      fun _ => id⟩
  | _ => cases hw

/-! ## Following a checkpoint request -/

/-- What a call knows of its candidate. -/
structure Candidate (codec : Codec Hash) (issuedAt : Time) (selection : CheckpointSigningSelection)
    (operationID : String) (canonical : Bytes) (checkpoint : Checkpoint Hash) (db : Db Hash) :
    Prop where
  issuedAt : checkpoint.issuedAt = issuedAt
  keyID : checkpoint.keyID = selection.keyID
  algorithm : checkpoint.algorithm = selection.algorithm
  foreseen : Foreseen codec operationID canonical checkpoint db

/-- The program returns what `post` allows, while other calls keep what is kept and remove nothing,
and so does the program. -/
abbrev MeetsKept {α : Type} (codec : Codec Hash) (ledgerID : String) (p : Proc Hash α)
    (post : α → Disk Hash → Prop) (disk : Disk Hash) : Prop :=
  p.Meets (ledgerSem codec) (fun t => Kept codec ledgerID t.db) (fun t u => Grows t.db u.db)
    (fun t u => Grows t.db u.db) post disk

variable {disk : Disk Hash}

theorem MeetsKept.and_grows {α : Type} {p : Proc Hash α} {post : α → Disk Hash → Prop}
    (h : MeetsKept codec ledgerID p post disk) :
    MeetsKept codec ledgerID p (fun a t => Grows disk.db t.db ∧ post a t) disk :=
  Program.Meets.and_rely (fun t => .refl t.db) (fun _ _ _ => .trans) (fun _ _ => id) h

/-- A call reads what is kept, or fails. -/
theorem meetsKept_read {α : Type} {r : Request Hash} (hr : r.Reads) {f : r.Answer → Proc Hash α}
    {post : α → Disk Hash → Prop}
    (h : ∀ disk' ans, Grows disk.db disk'.db → Kept codec ledgerID disk'.db →
      ans = (r.perform codec disk').1 ∨ r.Fails ans → MeetsKept codec ledgerID (f ans) post disk') :
    MeetsKept codec ledgerID (ask r >>= f) post disk := by
  intro t hrely hinv ans u hsem
  obtain ⟨rfl, hans⟩ := hsem.read hr
  exact ⟨hinv, .refl _, h _ ans hrely hinv hans⟩

theorem latestKey_meets (keyID : String) (authority : Bytes) (disk : Disk Hash) :
    MeetsKept codec ledgerID (latestKey codec keyID authority)
      (fun result t => ∀ key, result = .ok key → KeyFound codec keyID authority key.statement t.db)
      disk := by
  unfold latestKey
  split
  case isFalse => exact fun key h => by cases h
  case isTrue hlength =>
  refine meetsKept_read (by trivial) fun disk pinned _ _ hpinned => ?_
  split
  case isFalse => exact fun key h => by cases h
  case isTrue hsame =>
  have hauthority : disk.db.authority = some authority := by
    rcases hpinned with rfl | hfails
    · exact hsame
    · cases hfails.symm.trans hsame
  refine meetsKept_read (by trivial) fun disk' row hgrows _ hrow key hkey => ?_
  obtain ⟨found, hfound, hkey⟩ := required_bind.1 hkey
  obtain ⟨statement, hstatement, hkey⟩ := bind_ok.1 hkey
  cases hkey
  have hlatest : disk'.db.latestRow keyID = some found := by
    rcases hrow with hrow | hfails
    · exact hrow.symm.trans hfound
    · cases hfails.symm.trans hfound
  obtain ⟨hr, hkeyID, -⟩ := latestRow_some hlatest
  exact ⟨hlength, hgrows.authority _ hauthority, found, hr, hkeyID, hstatement⟩

theorem newCandidate_meets (issuedAt : Time) (selection : CheckpointSigningSelection)
    (operationID : String) (canonical : Bytes) (disk : Disk Hash) :
    MeetsKept codec ledgerID (newCandidate codec issuedAt selection canonical)
      (fun result t => ∀ checkpoint, result = .ok checkpoint →
        Candidate codec issuedAt selection operationID canonical checkpoint t.db) disk := by
  refine meetsKept_read (by trivial) fun _ _ _ _ _ =>
    Program.Meets.onOk (fun metadata _ => ?_) fun _ _ h => by cases h
  split
  case isFalse => exact fun checkpoint h => by cases h
  case isTrue =>
  refine meetsKept_read (by trivial) fun _ _ _ _ _ =>
    Program.Meets.onOk (fun predecessor _ => ?_) fun _ _ h => by cases h
  refine meetsKept_read (by trivial) fun _ _ _ _ _ checkpoint hcheckpoint => ?_
  obtain ⟨entries, -, hcheckpoint⟩ := required_bind.1 hcheckpoint
  obtain ⟨leaves, -, hcheckpoint⟩ := bind_ok.1 hcheckpoint
  obtain ⟨-, hcheckpoint⟩ := ensure_bind.1 hcheckpoint
  obtain ⟨chainHead, hhead, hcheckpoint⟩ := bind_ok.1 hcheckpoint
  obtain ⟨leaf, -, hcheckpoint⟩ := bind_ok.1 hcheckpoint
  cases hcheckpoint
  obtain ⟨-, hhead⟩ := ensure_bind.1 hhead
  cases hhead
  exact ⟨rfl, rfl, rfl, .inr ⟨metadata.chainHead, rfl⟩⟩

theorem checkpointCandidate_meets (issuedAt : Time) (selection : CheckpointSigningSelection)
    (operationID : String) (canonical : Bytes) (disk : Disk Hash) :
    MeetsKept codec ledgerID (checkpointCandidate codec issuedAt selection operationID canonical)
      (fun result t => ∀ checkpoint, result = .ok checkpoint →
        Candidate codec issuedAt selection operationID canonical checkpoint t.db) disk := by
  refine meetsKept_read (by trivial) fun disk existing _ _ hexisting =>
    Program.Meets.onOk (fun found hfound => ?_) fun _ _ h => by cases h
  obtain rfl := orUnavailable_ok.1 hfound
  match found with
  | none => exact newCandidate_meets issuedAt selection operationID canonical disk
  | some (stored, receipt) =>
    have hlookup : lookupOperation disk.db operationID = .ok (some (stored, receipt)) := by
      rcases hexisting with hexisting | ⟨e, hfails⟩
      · exact hexisting.symm
      · cases hfails
    obtain ⟨entry, he, hoperation, -, hsequence⟩ := lookupOperation_ok hlookup
    dsimp only
    split
    case isFalse => exact fun checkpoint h => by cases h
    case isTrue =>
    refine meetsKept_read (by trivial) fun disk' row hgrows hkept hrow checkpoint hcheckpoint => ?_
    obtain ⟨found, hfound, hcheckpoint⟩ := required_bind.1 hcheckpoint
    obtain ⟨⟨signed, keyVersion⟩, hscan, hcheckpoint⟩ := bind_ok.1 hcheckpoint
    obtain ⟨hfields, hcheckpoint⟩ := ensure_bind.1 hcheckpoint
    cases hcheckpoint
    simp only [Bool.and_eq_true, beq_iff_eq] at hfields
    have hfind : disk'.db.checkpoints.find? (·.treeSize == receipt.sequence) = some found := by
      rcases hrow with hrow | hfails
      · exact hrow.symm.trans hfound
      · cases hfails.symm.trans hfound
    obtain ⟨_, sealed, hseals⟩ := hkept.linked.seals (List.mem_of_find?_eq_some hfind)
    obtain ⟨parsed, hparsed, hscan⟩ := bind_ok.1 (orUnavailable_ok.1 hscan)
    obtain ⟨expected, -, hscan⟩ := bind_ok.1 hscan
    obtain ⟨-, hscan⟩ := ensure_bind.1 hscan
    cases hscan
    obtain rfl := Except.ok.inj (hseals.carried.symm.trans hparsed)
    have hsize : found.treeSize = receipt.sequence := by simpa using List.find?_some hfind
    refine ⟨hfields.1.1, hfields.1.2, hfields.2,
      .inl ⟨entry, hgrows.entries.subset he, hoperation, ?_⟩⟩
    rw [← hsequence, ← hsize, hseals.size]

/-- What a request that was answered with a checkpoint has found, made and stored. -/
structure Answered (codec : Codec Hash) (ledgerID : String) (issuedAt : Time) (authority : Bytes)
    (signer : CheckpointSigner) (operationID : String) (selection : CheckpointSigningSelection)
    (statement : VerificationKeyStatement) (canonical : Bytes) (signed : SignedCheckpoint Hash)
    (db : Db Hash) : Prop where
  selected : signer.select = some selection
  algorithm : selection.algorithm = checkpointAlgorithm
  found : KeyFound codec selection.keyID authority statement db
  record : canonicalRecord codec.record
    (checkpointRecord selection.keyID statement.version operationID issuedAt) = .ok canonical
  candidate : Candidate codec issuedAt selection operationID canonical signed.checkpoint db
  signs : signCandidate codec signer selection statement signed.checkpoint = .ok signed
  covered : ∃ entry ∈ db.entries,
    Covers ledgerID operationID canonical signed.checkpoint.treeSize entry
  stored : ∃ row ∈ db.checkpoints, Stores signed row

section
variable {issuedAt : Time} {authority : Bytes} {signer : CheckpointSigner}
  {selection : CheckpointSigningSelection} {statement : VerificationKeyStatement}
  {signed : SignedCheckpoint Hash}

omit [Inhabited Hash] in
theorem Answered.mono
    (h : Answered codec ledgerID issuedAt authority signer operationID selection statement canonical
      signed db) (hgrows : Grows db db') :
    Answered codec ledgerID issuedAt authority signer operationID selection statement canonical
      signed db' := by
  obtain ⟨entry, he, hcovers⟩ := h.covered
  obtain ⟨row, hr, hstores⟩ := h.stored
  exact { h with
    found := h.found.mono hgrows
    candidate := { h.candidate with foreseen := h.candidate.foreseen.mono hgrows }
    covered := ⟨entry, hgrows.entries.subset he, hcovers⟩
    stored := ⟨row, hgrows.checkpoints.subset hr, hstores⟩ }

/-- A request that is answered with a checkpoint has stored it with its record. -/
theorem createCheckpoint_meets (hinj : Function.Injective codec.sha256) (issuedAt : Time)
    (authority : Bytes) (signer : CheckpointSigner) (operationID : String)
    (hdisk : Kept codec ledgerID disk.db) :
    MeetsKept codec ledgerID (createCheckpoint codec issuedAt authority signer operationID)
      (fun result t => ∀ signed, result = .ok signed → ∃ selection statement canonical,
        Answered codec ledgerID issuedAt authority signer operationID selection statement canonical
          signed t.db) disk := by
  refine Program.Meets.onOk (fun selection hselected => ?_) fun _ _ h => by cases h
  split
  case isFalse => exact fun _ h => by cases h
  case isTrue halgorithm =>
  refine Program.Meets.bind hdisk (latestKey_meets selection.keyID authority disk)
    fun result disk hkept hkey => Program.Meets.onOk (fun key hresult => ?_) fun _ _ h => by cases h
  have hkey := hkey key hresult
  refine Program.Meets.onOk (fun canonical hcanonical => ?_) fun _ _ h => by cases h
  refine Program.Meets.bind hkept (MeetsKept.and_grows
    (checkpointCandidate_meets issuedAt selection operationID canonical disk))
    fun result disk' hkept' ⟨hgrows, hcandidate⟩ =>
      Program.Meets.onOk (fun checkpoint hresult => ?_) fun _ _ h => by cases h
  have hcandidate := hcandidate checkpoint hresult
  have hkey := hkey.mono hgrows
  refine Program.Meets.onOk (fun signed hsigned => ?_) fun _ _ h => by cases h
  obtain ⟨rfl, hcarried⟩ := carried_of_signCandidate hsigned
  -- The commit: what was found is still there, and the record and the checkpoint are stored.
  intro t hrely hinv ans u hsem
  have hwrite : Kept codec ledgerID u.db ∧ Grows t.db u.db := by
    rcases hsem.cases with rfl | ⟨w, a, db, hw, hrun, rfl⟩
    · exact ⟨hinv, .refl _⟩
    · obtain rfl := Request.transact.inj hw
      exact Kept.write hinv (w := .commitCheckpoint ..) hcarried hrun
  refine ⟨hwrite.1, hwrite.2, fun result hans => ?_⟩
  subst hans
  obtain ⟨db, hrun, rfl⟩ := hsem.ok
  obtain ⟨rfl, appended, hcommits⟩ := commitCheckpoint_ok hrun
  obtain ⟨hcovered, hstored⟩ := hcommits.covers hinv hinj (hcandidate.foreseen.mono hrely)
  have hlater := hrely.trans hwrite.2
  exact ⟨selection, key.statement, canonical, required_ok.1 hselected, halgorithm,
    hkey.mono hlater, hcanonical,
    { hcandidate with foreseen := hcandidate.foreseen.mono hlater }, hsigned, hcovered, hstored⟩

/-! ## The repeated request -/

omit [Inhabited Hash] in
/-- Where the record of the operation names the last version of the key, a repeated request reads
the statement that the first one has read. -/
theorem Answered.latestRow (h : Answered codec ledgerID issuedAt authority signer operationID
      selection statement canonical signed db) (hkept : Kept codec ledgerID db)
    (hjcs : codec.record.Lawful CanonicalRecord.Exact)
    (hkey : ∀ key, db.latestRow signed.checkpoint.keyID = some key → ∀ entry ∈ db.entries,
      entry.operationID = operationID → ∀ document,
      codec.record.decode entry.canonicalRecord = some document →
      document.signingKeyReference = signingKeyReference signed.checkpoint.keyID key.version) :
    ∃ row, db.latestRow selection.keyID = some row ∧
      verifyKeyStatement codec authority row.canonicalStatement row.authoritySignature =
        .ok statement := by
  obtain ⟨hlength, hpinned, row, hr, hkeyID, hverified⟩ := h.found
  obtain ⟨entry, he, hcovers⟩ := h.covered
  have hsome : (db.latestRow selection.keyID).isSome = true := by
    cases hlatest : db.latestRow selection.keyID with
    | none => exact absurd hkeyID (latestRow_none hlatest row hr)
    | some last => rfl
  obtain ⟨last, hlast⟩ := Option.isSome_iff_exists.1 hsome
  obtain ⟨hl, hlastKey, -⟩ := latestRow_some hlast
  have hversion : statement.version = last.version := by
    have hdocument := hkey last (h.candidate.keyID ▸ hlast) entry he hcovers.operation _
      (hcovers.record ▸ decode_of_canonicalRecord hjcs h.record)
    rw [h.candidate.keyID] at hdocument
    exact (signingKeyReference_inj hdocument).2
  obtain ⟨authority', statement', hcarries⟩ := hkept.carries row hr
  have hsame : statement' = statement := Except.ok.inj
    ((verifyKeyStatement_ok hcarries.verified).1.symm.trans (verifyKeyStatement_ok hverified).1)
  obtain rfl : row = last := by
    refine List.inj_on_of_nodup_map hkept.versions hr hl ?_
    rw [KeyRow.key, KeyRow.key, hkeyID, hlastKey, ← hcarries.version, hsame, hversion]
  exact ⟨row, hlast, hverified⟩

omit [Inhabited Hash] in
/-- Committing the stored checkpoint of all records again changes nothing. -/
theorem Answered.commitCheckpoint (h : Answered codec ledgerID issuedAt authority signer operationID
      selection statement canonical signed db) (hkept : Kept codec ledgerID db)
    (hsize : db.metadata.merkleSize = signed.checkpoint.treeSize) :
    Sqlite.commitCheckpoint codec signed statement.version operationID canonical db =
      .ok (signed, db) := by
  obtain ⟨entry, he, hcovers⟩ := h.covered
  obtain ⟨receipt, hlookup, -⟩ := hcovers.lookupOperation hkept he
  obtain ⟨row, hr, hstores⟩ := h.stored
  have hlinked := hkept.linked
  obtain ⟨-, hcarried⟩ := carried_of_signCandidate h.signs
  -- The stored checkpoint is the last one, since it covers all records.
  obtain ⟨before, after, hsplit⟩ := List.append_of_mem hr
  obtain ⟨checkpoint, hseals⟩ := hlinked.sealed before row after hsplit
  have hparsed := hseals.carried
  rw [hstores.canonical, hcarried.parsed] at hparsed
  obtain rfl := Except.ok.inj hparsed
  have htake : db.records.take row.treeSize = db.records := by
    rw [hstores.size, ← hsize, hlinked.chained.merkleSize, ← hlinked.chained.length_records,
      List.take_length]
  have hbelow := hlinked.checkpointBelow_split hsplit
  rw [hstores.size] at hbelow
  have happend : appendRecord codec operationID canonical db = .ok (receipt, db) := by
    unfold appendRecord
    rw [hlookup]
    exact ensure_bind.2 ⟨beq_self_eq_true _, rfl⟩
  unfold Sqlite.commitCheckpoint
  refine bind_ok.2 ⟨(), ensure_ok.2 (beq_iff_eq.2 hkept.admitted), bind_ok.2 ⟨_, happend, ?_⟩⟩
  refine ensure_bind.2 ⟨?_, ensure_bind.2 ⟨?_, ?_⟩⟩
  · simp only [Bool.and_eq_true, beq_iff_eq]
    refine ⟨⟨⟨?_, hsize⟩, ?_⟩, ?_⟩
    · rw [hlinked.chained.ledger, hseals.ledger]
    · rw [hseals.root, htake, hlinked.chained.root, rootOf]
    · rw [hseals.head, htake, hlinked.chained.head]
  · rw [hbelow, beq_iff_eq, hseals.predecessor, referenceOf]
  · rw [hsize, ← hstores.size, hlinked.find?_treeSize hr]
    refine ensure_bind.2 ⟨?_, rfl⟩
    simp only [Bool.and_eq_true, beq_iff_eq]
    exact ⟨⟨hstores.reference, hstores.canonical⟩, hstores.signature⟩

/-- The request is repeated, and nothing fails. -/
theorem Answered.createCheckpoint
    (h : Answered codec ledgerID issuedAt authority signer operationID selection statement canonical
      signed disk.db) (hkept : Kept codec ledgerID disk.db) {row : KeyRow}
    (hlatest : disk.db.latestRow selection.keyID = some row)
    (hverified : verifyKeyStatement codec authority row.canonicalStatement row.authoritySignature =
      .ok statement) (hsize : disk.db.metadata.merkleSize = signed.checkpoint.treeSize) :
    (Sqlite.createCheckpoint codec issuedAt authority signer operationID).eval
      (Request.perform codec) disk = (.ok signed, disk) := by
  obtain ⟨entry, he, hcovers⟩ := h.covered
  obtain ⟨receipt, hlookup, hsequence⟩ := hcovers.lookupOperation hkept he
  obtain ⟨stored, hr, hstores⟩ := h.stored
  obtain ⟨-, hcarried⟩ := carried_of_signCandidate h.signs
  have hkey : (latestKey codec selection.keyID authority).eval (Request.perform codec) disk =
      (.ok ⟨statement, row.canonicalStatement, row.authoritySignature⟩, disk) := by
    rw [latestKey, if_pos h.found.length]
    refine (eval_ask _ _ _).trans ?_
    rw [if_pos (show (Request.perform codec .authority disk).1 = some authority from
      h.found.pinned)]
    refine (eval_ask _ _ _).trans (Prod.ext ?_ rfl)
    exact required_bind.2 ⟨row, hlatest, bind_ok.2 ⟨statement, hverified, rfl⟩⟩
  have hretry : retryCandidate codec issuedAt selection (some stored) = .ok signed.checkpoint := by
    refine required_bind.2 ⟨stored, rfl, bind_ok.2 ⟨(⟨signed.checkpoint,
      stored.canonicalCheckpoint, stored.signature, stored.checkpointReference⟩, stored.keyVersion),
      orUnavailable_ok.2 ?_, ensure_bind.2 ⟨?_, rfl⟩⟩⟩
    · refine bind_ok.2 ⟨signed.checkpoint, hstores.canonical ▸ hcarried.parsed,
        bind_ok.2 ⟨signed.reference, ?_, ensure_bind.2 ⟨?_, rfl⟩⟩⟩
      · rw [hstores.canonical, hstores.signature]
        exact hcarried.reference
      · rw [beq_iff_eq, hstores.reference]
    · simp only [Bool.and_eq_true, beq_iff_eq]
      exact ⟨⟨h.candidate.issuedAt, h.candidate.keyID⟩, h.candidate.algorithm⟩
  have hcandidate : (checkpointCandidate codec issuedAt selection operationID canonical).eval
      (Request.perform codec) disk = (.ok signed.checkpoint, disk) := by
    have hfind := hkept.linked.find?_treeSize hr
    rw [hstores.size, ← hsequence] at hfind
    refine (eval_ask _ _ _).trans ?_
    rw [show (Request.perform codec (.operation operationID) disk).1 =
      .ok (some (canonical, receipt)) from hlookup, orUnavailable, Program.onOk_ok]
    dsimp only
    rw [if_pos rfl]
    refine (eval_ask _ _ _).trans (Prod.ext ?_ rfl)
    exact (congrArg _ hfind).trans hretry
  have hcommit : Request.perform codec (.transact (.commitCheckpoint signed statement.version
      operationID canonical)) disk = (.ok signed, disk) := by
    simp only [Request.perform, Write.run, h.commitCheckpoint hkept hsize, Disk.commit,
      Write.fences, List.append_nil]
  simp only [Sqlite.createCheckpoint, h.selected, required, Program.onOk_ok, if_pos h.algorithm,
    Program.eval_bind, hkey, h.record, hcandidate, h.signs]
  exact hcommit

end

/-! ## Runs -/

/-- What holds once a call has returned: a checkpoint that was answered is stored with its
record. -/
def Call.Post (codec : Codec Hash) (ledgerID : String) (c : Call Hash)
    (result : Except Error (Reply Hash)) (db : Db Hash) : Prop :=
  ∀ issuedAt authority signer operationID signed,
    c = .createCheckpoint issuedAt authority signer operationID →
      result = .ok (.checkpoint signed) →
    ∃ selection statement canonical, Answered codec ledgerID issuedAt authority signer operationID
      selection statement canonical signed db

/-- Every call keeps what is kept, removes nothing, and ensures its postcondition. -/
theorem Call.meets (hinj : Function.Injective codec.sha256) (c : Call Hash)
    (hdisk : Kept codec ledgerID disk.db) :
    MeetsKept codec ledgerID (c.run codec) (fun result t => c.Post codec ledgerID result t.db)
      disk := by
  have hkept (r : Request Hash) (t : Disk Hash) (ans : r.Answer) (u : Disk Hash)
      (hr : r.OfCall codec) (hinv : Kept codec ledgerID t.db) (hsem : ledgerSem codec r t ans u) :
      Kept codec ledgerID u.db ∧ Grows t.db u.db := by
    rcases hsem.cases with rfl | ⟨w, a, db, rfl, hrun, rfl⟩
    · exact ⟨hinv, .refl _⟩
    · exact hinv.write hr hrun
  have honly : MeetsKept codec ledgerID (c.run codec) (fun _ _ => True) disk :=
    c.ofCall.meets hkept (fun _ _ => trivial) disk
  cases c with
  | createCheckpoint issuedAt authority signer operationID =>
    refine Program.Meets.bind hdisk
      (createCheckpoint_meets hinj issuedAt authority signer operationID hdisk)
      fun result t _ hresult issuedAt' authority' signer' operationID' signed hc hsigned => ?_
    cases hc
    obtain ⟨signed', hsigned', hsame⟩ := map_ok.1 hsigned
    cases hsame
    exact hresult signed hsigned'
  | _ =>
    -- The other calls return no checkpoint of a request.
    exact Program.Meets.mono_post (fun _ _ _ _ _ _ _ _ hc => by cases hc) honly

/-- The calls of any number of threads, each relying on the others to remove nothing. -/
def ledgerRely {ι : Type} [DecidableEq ι] (codec : Codec Hash) (ledgerID : String)
    (hinj : Function.Injective codec.sha256) :
    RelyGuarantee (fun _ : ι => ledgerSem codec) ledgerEnv (Call.run codec) where
  inv disk := Kept codec ledgerID disk.db
  rely _ t u := Grows t.db u.db
  fresh _ _ := True
  post _ c result disk := c.Post codec ledgerID result disk.db
  rely_refl _ disk := .refl disk.db
  rely_trans _ _ _ _ := .trans
  env_inv := by
    rintro disk _ h ⟨file, rfl⟩
    exact h
  env_rely := by
    rintro _ disk _ _ ⟨file, rfl⟩
    exact .refl disk.db
  fresh_stable _ _ _ _ _ := trivial
  post_stable _ c result s t _ hpost hgrows issuedAt authority signer operationID signed hc hr := by
    obtain ⟨selection, statement, canonical, h⟩ :=
      hpost issuedAt authority signer operationID signed hc hr
    exact ⟨selection, statement, canonical, h.mono hgrows⟩
  meets _ c _ h _ := (c.meets hinj h).mono_guar fun _ _ hgrows _ _ => hgrows

/-- **A checkpoint request can be repeated** while the ledger ends with its record: in every run,
once a request has been answered with a checkpoint, the same request is answered with the same
checkpoint and changes nothing, provided that the ledger still has the size of the checkpoint's tree
and that the record of the operation names the last version of the checkpoint's key. -/
theorem createCheckpoint_again {ι : Type} [DecidableEq ι] {file : Hash}
    (hinj : Function.Injective codec.sha256) (hjcs : codec.record.Lawful CanonicalRecord.Exact)
    {p : Pool (port Hash) ι (Call Hash) (Except Error (Reply Hash)) (Disk Hash)}
    (hp : LedgerRun ι codec ledgerID file p) {i : ι} {issuedAt : Time} {authority : Bytes}
    {signer : CheckpointSigner} {operationID : String} {signed : SignedCheckpoint Hash}
    (hr : p.Returned i (.createCheckpoint issuedAt authority signer operationID)
      (.ok (.checkpoint signed)))
    (hsize : p.shared.db.metadata.merkleSize = signed.checkpoint.treeSize)
    (hkey : ∀ key, p.shared.db.latestRow signed.checkpoint.keyID = some key →
      ∀ entry ∈ p.shared.db.entries, entry.operationID = operationID → ∀ document,
      codec.record.decode entry.canonicalRecord = some document →
      document.signingKeyReference = signingKeyReference signed.checkpoint.keyID key.version) :
    (createCheckpoint codec issuedAt authority signer operationID).eval (Request.perform codec)
      p.shared = (.ok signed, p.shared) := by
  have hopened : (ledgerRely codec ledgerID hinj : RelyGuarantee (fun _ : ι => _) _ _).inv
    ⟨opened codec ledgerID, file, []⟩ := Kept.opened codec ledgerID
  have hkept := (RelyGuarantee.reach _ hopened (fun _ => trivial) hp).inv
  obtain ⟨selection, statement, canonical, h⟩ :=
    RelyGuarantee.returned _ hopened (fun _ => trivial) hp hr _ _ _ _ _ rfl rfl
  obtain ⟨row, hlatest, hverified⟩ := h.latestRow hkept hjcs hkey
  exact h.createCheckpoint hkept hlatest hverified hsize

end

/-! ## Samples -/

/-- The request of the sample, repeated. -/
def sampleAgain (disk : Disk Symbolic) : Except Error (SignedCheckpoint Symbolic) × Disk Symbolic :=
  (createCheckpoint sampleCheckpointCodec (sampleTime 2) sampleAuthority sampleSigner
    sampleCheckpointRecord.operationID).eval (Request.perform sampleCheckpointCodec) disk

/-- The checkpoint that the second call of the sample returns. -/
def sampleReply : List (Except Error (Reply Symbolic)) → Option (SignedCheckpoint Symbolic)
  | _ :: .ok (.checkpoint signed) :: _ => some signed
  | _ => none

/-- The records of the operation name the last version of the key. -/
def sampleNamed (db : Db Symbolic) : Bool :=
  (db.latestRow "key-1").all fun key => db.entries.all fun entry =>
    entry.operationID != sampleCheckpointRecord.operationID ||
      (sampleCheckpointCodec.record.decode entry.canonicalRecord).all fun document =>
        document.signingKeyReference == signingKeyReference "key-1" key.version

/-- A checkpoint of the sample has the size of the ledger and a key that its record names. -/
def sampleCurrent (db : Db Symbolic) (signed : SignedCheckpoint Symbolic) : Bool :=
  db.metadata.merkleSize == signed.checkpoint.treeSize && signed.checkpoint.keyID == "key-1" &&
    sampleNamed db

theorem getElem?_of_sampleReply {replies : List (Except Error (Reply Symbolic))}
    {signed : SignedCheckpoint Symbolic} (h : sampleReply replies = some signed) :
    replies[1]? = some (.ok (.checkpoint signed)) := by
  unfold sampleReply at h
  split at h
  · cases h
    rfl
  · cases h

theorem named_of_sampleNamed {db : Db Symbolic} (h : sampleNamed db) :
    ∀ key, db.latestRow "key-1" = some key → ∀ entry ∈ db.entries,
      entry.operationID = sampleCheckpointRecord.operationID → ∀ document,
      sampleCheckpointCodec.record.decode entry.canonicalRecord = some document →
      document.signingKeyReference = signingKeyReference "key-1" key.version := by
  intro key hkey entry hentry hoperation document hdocument
  simp only [sampleNamed, hkey, Option.all_some, List.all_eq_true, Bool.or_eq_true, bne_iff_ne] at h
  simpa [hdocument, hoperation] using h entry hentry

theorem createCheckpoint_again_sample : ∃ (signed : SignedCheckpoint Symbolic)
    (disk : Disk Symbolic), (sampleRun sampleCheckpointed).2 = disk ∧
      sampleReply (sampleRun sampleCheckpointed).1 = some signed ∧
      sampleAgain disk = (.ok signed, disk) := by
  obtain ⟨p, hp, hshared, hreturned⟩ := exists_sampleRun sampleCheckpointed
  have hsample : ((sampleReply (sampleRun sampleCheckpointed).1).any
      (sampleCurrent (sampleRun sampleCheckpointed).2.db)) = true := by decide +kernel
  obtain ⟨signed, hreply, hcurrent⟩ := (Option.any_eq_true _ _).1 hsample
  rw [← hshared] at hcurrent
  simp only [sampleCurrent, Bool.and_eq_true, beq_iff_eq] at hcurrent
  obtain ⟨⟨hsize, hkeyID⟩, hnamed⟩ := hcurrent
  refine ⟨signed, p.shared, hshared.symm, hreply, ?_⟩
  exact createCheckpoint_again Symbolic.hash_injective (tableJcs_lawful _ sampleJcs_lawful) hp
    (hreturned 1 _ _ rfl (getElem?_of_sampleReply hreply)) hsize
    (hkeyID ▸ named_of_sampleNamed hnamed)

/-- **A repeated request fails once another record is appended**: the checkpoint of the sample is
returned, a record is appended, and the same request is refused. -/
theorem createCheckpoint_after_append : ¬ ∀ (codec : Codec Symbolic) (ledgerID : String)
    (file : Symbolic)
    (p : Pool (port Symbolic) Nat (Call Symbolic) (Except Error (Reply Symbolic)) (Disk Symbolic)),
    Function.Injective codec.sha256 → codec.record.Lawful CanonicalRecord.Exact →
    LedgerRun Nat codec ledgerID file p → ∀ i issuedAt authority signer operationID signed,
    p.Returned i (.createCheckpoint issuedAt authority signer operationID)
      (.ok (.checkpoint signed)) →
    (createCheckpoint codec issuedAt authority signer operationID).eval (Request.perform codec)
      p.shared = (.ok signed, p.shared) := by
  intro h
  obtain ⟨p, hp, hshared, hreturned⟩ := exists_sampleRun sampleOutgrown
  have hsample : ((sampleReply (sampleRun sampleOutgrown).1).any
      fun _ => !(sampleAgain (sampleRun sampleOutgrown).2).1.isOk) = true := by decide +kernel
  obtain ⟨signed, hreply, hfailed⟩ := (Option.any_eq_true _ _).1 hsample
  have hagain : sampleAgain p.shared = (.ok signed, p.shared) :=
    h _ _ _ p Symbolic.hash_injective (tableJcs_lawful _ sampleJcs_lawful) hp 1 _ _ _ _ _
      (hreturned 1 _ _ rfl (getElem?_of_sampleReply hreply))
  rw [← hshared, hagain] at hfailed
  cases hfailed

end YukhCoordination.Relay.Audit.Sqlite
