import YukhCoordination.Relay.Audit.Sqlite.Nodes
import YukhCoordination.Relay.Audit.Sqlite.Verify

/-!
# Runs of appends

A run of appends keeps what `Ledger.Verify` checks (`Sound`), if the times have the years 0 to 9999.
-/

namespace YukhCoordination.Relay.Audit.Sqlite

open Lifecycle Coordination Transaction

section
variable {Hash : Type} {codec : Codec Hash}

theorem orUnavailable_ok {α : Type} {result : Except Error α} {a : α} :
    orUnavailable result = .ok a ↔ result = .ok a := by
  cases result <;> simp [orUnavailable]

theorem merkleLeafHash_ok {sha256 : Preimage Hash → Hash} {sequence : Nat} {chain leaf : Hash} :
    merkleLeafHash sha256 sequence chain = .ok leaf ↔
      (0 < sequence ∧ sequence ≤ maxJSONSafeSequence) ∧
        sha256 (.merkleLeaf sequence chain) = leaf := by
  unfold merkleLeafHash
  split
  · next h => simp; omega
  · next h => simp; omega

/-! ## The chain of the stored records -/

/-- The head of a chain. -/
def headOf (codec : Codec Hash) (ledgerID : String) (chain : List Hash) : Hash :=
  chain.getLastD (codec.sha256 (.genesis ledgerID))

/-- The chain with the digest of one more record. -/
def extendChain (codec : Codec Hash) (ledgerID : String) (chain : List Hash) (canonical : Bytes) :
    List Hash :=
  chain ++ [codec.sha256 (.chain (chain.length + 1) (headOf codec ledgerID chain)
    (recordDigest codec.sha256 canonical))]

/-- The chain of a list of records. -/
def chainOf (codec : Codec Hash) (ledgerID : String) (records : List Bytes) : List Hash :=
  records.foldl (extendChain codec ledgerID) []

/-- The leaves of a chain. -/
def leavesOf (codec : Codec Hash) (chain : List Hash) : List Hash :=
  chain.mapIdx fun index digest => codec.sha256 (.merkleLeaf (index + 1) digest)

/-- The stored records in their order. -/
def Db.records (db : Db Hash) : List Bytes := db.ordered.map (·.canonicalRecord)

theorem length_chainOf (codec : Codec Hash) (ledgerID : String) (records : List Bytes) :
    (chainOf codec ledgerID records).length = records.length := by
  have hfold (chain : List Hash) :
      (records.foldl (extendChain codec ledgerID) chain).length = chain.length +
        records.length := by
    induction records generalizing chain with
    | nil => rfl
    | cons record records ih =>
      rw [List.foldl_cons, ih, extendChain, List.length_append, List.length_cons]
      simp only [List.length_cons, List.length_nil]
      omega
  exact (hfold []).trans (Nat.zero_add _)

theorem length_leavesOf (codec : Codec Hash) (chain : List Hash) :
    (leavesOf codec chain).length = chain.length := List.length_mapIdx

variable {ledgerID operationID : String} {canonical receiptBytes : Bytes} {db db' : Db Hash}
  {receipt : Receipt Hash} {entry : Entry Hash} {record : AuditRecord}

theorem chainOf_concat (codec : Codec Hash) (ledgerID : String) (records : List Bytes)
    (canonical : Bytes) : chainOf codec ledgerID (records ++ [canonical]) =
      extendChain codec ledgerID (chainOf codec ledgerID records) canonical := by
  rw [chainOf, List.foldl_append, List.foldl_cons, List.foldl_nil, ← chainOf]

/-- The chain, its head, the cached nodes and the root are those of the stored records. -/
structure Chained (codec : Codec Hash) (ledgerID : String) (db : Db Hash) : Prop where
  ledger : db.metadata.ledgerID = ledgerID
  sequence_le : ∀ e ∈ db.entries, e.sequence ≤ db.metadata.lastSequence
  chain : db.ordered.map (·.chainDigest) = chainOf codec ledgerID db.records
  head : db.metadata.chainHead = headOf codec ledgerID (chainOf codec ledgerID db.records)
  size : (chainOf codec ledgerID db.records).length = db.metadata.lastSequence
  merkleSize : db.metadata.merkleSize = db.metadata.lastSequence
  bound : db.metadata.lastSequence ≤ maxJSONSafeSequence
  nodes : Complete codec db.nodes (leavesOf codec (chainOf codec ledgerID db.records))
  root : db.metadata.merkleRoot =
    merkleRoot codec.sha256 (leavesOf codec (chainOf codec ledgerID db.records))

theorem Chained.opened (codec : Codec Hash) (ledgerID : String) :
    Chained codec ledgerID (opened codec ledgerID) where
  ledger := rfl
  sequence_le _ he := absurd he List.not_mem_nil
  chain := rfl
  head := rfl
  size := rfl
  merkleSize := rfl
  bound := Nat.zero_le _
  nodes := complete_nil _
  root := (merkleRoot.eq_1 codec.sha256).symm

/-- Other tables may change. -/
theorem Chained.of_eq (hc : Chained codec ledgerID db)
    (hmetadata : db'.metadata = db.metadata) (hentries : db'.entries = db.entries)
    (hnodes : db'.nodes = db.nodes) : Chained codec ledgerID db' := by
  cases db'
  cases hmetadata
  cases hentries
  cases hnodes
  exact ⟨hc.ledger, hc.sequence_le, hc.chain, hc.head, hc.size, hc.merkleSize, hc.bound, hc.nodes,
    hc.root⟩

theorem Chained.length_records (hc : Chained codec ledgerID db) :
    db.records.length = db.metadata.lastSequence := by rw [← hc.size, length_chainOf]

/-- An entry is the one of a record that was answered with a receipt. -/
structure Answers (codec : Codec Hash) (ledgerID : String) (record : AuditRecord)
    (receipt : Receipt Hash) (entry : Entry Hash) : Prop where
  operationID : entry.operationID = record.operationID
  canonicalRecord : canonicalRecord codec.record record = .ok entry.canonicalRecord
  newReceipt : newReceipt ledgerID entry.sequence record.operationID entry.recordDigest
    entry.previousChainDigest entry.chainDigest = .ok receipt

/-- Where each operation has one entry, a lookup finds the one of an answered record. -/
theorem Answers.lookupOperation (ha : Answers codec db.metadata.ledgerID record receipt entry)
    (he : entry ∈ db.entries) (honce : (db.entries.map (·.operationID)).Nodup) :
    Sqlite.lookupOperation db record.operationID = .ok (some (entry.canonicalRecord, receipt)) := by
  rw [Sqlite.lookupOperation, find?_of_unique honce he ha.operationID]
  exact bind_ok.2 ⟨receipt, ha.newReceipt, rfl⟩

variable [DecidableEq Hash]

/-! ## A new entry -/

/-- The chain digest of the next record. -/
def nextChain (codec : Codec Hash) (db : Db Hash) (canonical : Bytes) : Hash :=
  codec.sha256 (.chain (db.metadata.lastSequence + 1) db.metadata.chainHead
    (recordDigest codec.sha256 canonical))

/-- The leaf of the next record. -/
def nextLeaf (codec : Codec Hash) (db : Db Hash) (canonical : Bytes) : Hash :=
  codec.sha256 (.merkleLeaf (db.metadata.lastSequence + 1) (nextChain codec db canonical))

/-- The entry of the next record. -/
def nextEntry (codec : Codec Hash) (db : Db Hash) (operationID : String)
    (canonical receiptBytes : Bytes) : Entry Hash :=
  ⟨db.metadata.lastSequence + 1, operationID, canonical, recordDigest codec.sha256 canonical,
    db.metadata.chainHead, nextChain codec db canonical, receiptBytes⟩

/-- What a new entry writes. -/
structure Written (codec : Codec Hash) (operationID : String) (canonical : Bytes) (db : Db Hash)
    (receipt : Receipt Hash) (receiptBytes : Bytes) (db' : Db Hash) : Prop where
  /-- There is a sequence left. -/
  below : db.metadata.lastSequence < maxJSONSafeSequence
  /-- The receipt is the one of the entry. -/
  newReceipt : newReceipt db.metadata.ledgerID (db.metadata.lastSequence + 1) operationID
    (recordDigest codec.sha256 canonical) db.metadata.chainHead (nextChain codec db canonical) =
      .ok receipt
  canonicalReceipt : canonicalReceipt codec.receipt receipt = .ok receiptBytes
  /-- No entry has the operation or the record. -/
  fresh : ∀ e ∈ db.entries, e.operationID ≠ operationID ∧
    e.recordDigest ≠ recordDigest codec.sha256 canonical
  entries : db'.entries = db.entries ++ [nextEntry codec db operationID canonical receiptBytes]
  nodes : insertMerkleLeaf codec db.nodes db.metadata.lastSequence (nextLeaf codec db canonical) =
    .ok db'.nodes
  root : subtreeHash codec db'.nodes 0 (db.metadata.lastSequence + 1) = .ok db'.metadata.merkleRoot
  metadata : db'.metadata = ⟨db.metadata.ledgerID, db.metadata.lastSequence + 1,
    nextChain codec db canonical, db.metadata.lastSequence + 1, db'.metadata.merkleRoot⟩
  /-- The other tables are as they were. -/
  frame : db' = { db with metadata := db'.metadata, entries := db'.entries, nodes := db'.nodes }

theorem writeRecord_ok (h : writeRecord codec operationID canonical db = .ok (receipt, db')) :
    ∃ receiptBytes, Written codec operationID canonical db receipt receiptBytes db' := by
  obtain ⟨hbelow, h⟩ := ensure_bind.1 h
  rw [Bool.and_eq_true, decide_eq_true_eq] at hbelow
  obtain ⟨-, -, h⟩ := bind_ok.1 h
  obtain ⟨root, -, h⟩ := bind_ok.1 h
  obtain ⟨-, h⟩ := ensure_bind.1 h
  obtain ⟨chain, hchain, h⟩ := bind_ok.1 h
  obtain ⟨-, hchain⟩ := ensure_bind.1 hchain
  cases hchain
  obtain ⟨receipt', hreceipt, h⟩ := bind_ok.1 h
  obtain ⟨receiptBytes, hbytes, h⟩ := bind_ok.1 h
  obtain ⟨entries, hinsert, h⟩ := required_bind.1 h
  obtain ⟨leaf, hleaf, h⟩ := bind_ok.1 h
  obtain rfl := (merkleLeafHash_ok.1 hleaf).2
  obtain ⟨nodes, hnodes, h⟩ := bind_ok.1 h
  obtain ⟨merkleRoot, hroot, h⟩ := bind_ok.1 h
  obtain ⟨metadata, hmetadata, h⟩ := required_bind.1 h
  cases h
  unfold insertEntry at hinsert
  split at hinsert
  case isFalse => cases hinsert
  case isTrue hfresh =>
  cases hinsert
  unfold updateMetadata at hmetadata
  split at hmetadata
  case isFalse => cases hmetadata
  case isTrue =>
  cases hmetadata
  refine ⟨receiptBytes, hbelow.1, hreceipt, hbytes, fun e he => ?_, rfl, hnodes, hroot, rfl, rfl⟩
  simp only [Bool.and_eq_true, List.all_eq_true, bne_iff_ne] at hfresh
  exact ⟨(hfresh.2 e he).1.1.2, (hfresh.2 e he).1.2⟩

/-- A new entry is the last one. -/
theorem Written.ordered (hw : Written codec operationID canonical db receipt receiptBytes db')
    (hle : ∀ e ∈ db.entries, e.sequence ≤ db.metadata.lastSequence) :
    db'.ordered = db.ordered ++ [nextEntry codec db operationID canonical receiptBytes] := by
  rw [Db.ordered, hw.entries]
  exact insertionSort_concat fun e he => (hle e he).trans (Nat.le_succ _)

/-- A new entry adds its record. -/
theorem Chained.records_written (hc : Chained codec ledgerID db)
    (hw : Written codec operationID canonical db receipt receiptBytes db') :
    db'.records = db.records ++ [canonical] := by
  rw [Db.records, hw.ordered hc.sequence_le, List.map_append]
  rfl

/-! ## The outcomes of an append -/

/-- `appendRecord` finds the entry of the operation or writes it. -/
theorem appendRecord_ok (h : appendRecord codec operationID canonical db = .ok (receipt, db')) :
    (db' = db ∧ ∃ entry ∈ db.entries, entry.operationID = operationID ∧
      entry.canonicalRecord = canonical ∧ newReceipt db.metadata.ledgerID entry.sequence operationID
        entry.recordDigest entry.previousChainDigest entry.chainDigest = .ok receipt) ∨
      ∃ receiptBytes, Written codec operationID canonical db receipt receiptBytes db' := by
  obtain ⟨existing, hexisting, h⟩ := bind_ok.1 h
  unfold lookupOperation at hexisting
  cases hfind : db.entries.find? (·.operationID == operationID) with
  | none =>
    rw [hfind] at hexisting
    cases orUnavailable_ok.1 hexisting
    exact .inr (writeRecord_ok h)
  | some entry =>
    rw [hfind] at hexisting
    obtain ⟨stored, hstored, hexisting⟩ := bind_ok.1 (orUnavailable_ok.1 hexisting)
    cases hexisting
    obtain ⟨hsame, h⟩ := ensure_bind.1 h
    cases h
    have hoperation : entry.operationID = operationID := by simpa using List.find?_some hfind
    exact .inl ⟨rfl, entry, List.mem_of_find?_eq_some hfind, hoperation, beq_iff_eq.1 hsame,
      hstored⟩

/-- An append finds the entry of its record or writes it. -/
theorem append_ok (h : append codec record db = .ok (receipt, db')) :
    (db' = db ∧ ∃ entry ∈ db.entries, Answers codec db.metadata.ledgerID record receipt entry) ∨
      ∃ canonical receiptBytes, canonicalRecord codec.record record = .ok canonical ∧
        Written codec record.operationID canonical db receipt receiptBytes db' := by
  obtain ⟨canonical, hcanonical, h⟩ := bind_ok.1 h
  obtain ⟨-, -, h⟩ := bind_ok.1 h
  rcases appendRecord_ok h with ⟨rfl, entry, he, hoperation, rfl, hreceipt⟩ | ⟨receiptBytes, hw⟩
  · exact .inl ⟨rfl, entry, he, hoperation, hcanonical, hreceipt⟩
  · exact .inr ⟨canonical, receiptBytes, hcanonical, hw⟩

/-- What a record of an answered operation is answered: the receipt if its bytes are the stored
ones, and otherwise the error of its canonicalization or a conflict. -/
theorem Answers.append (ha : Answers codec db.metadata.ledgerID record receipt entry)
    (he : entry ∈ db.entries) (honce : (db.entries.map (·.operationID)).Nodup)
    (hfence : db.operational.fenceState = .admitted) {record' : AuditRecord}
    (hsame : record'.operationID = record.operationID) :
    Sqlite.append codec record' db = (do
      let canonical ← Audit.canonicalRecord codec.record record'
      if canonical = entry.canonicalRecord then return (receipt, db) else throw .conflict) := by
  have hlookup := ha.lookupOperation he honce
  have hadmitted : requireAdmitted db = .ok () := by rw [requireAdmitted, hfence]; rfl
  unfold Sqlite.append appendRecord
  rw [hadmitted, hsame, hlookup]
  cases Audit.canonicalRecord codec.record record' with
  | error e => rfl
  | ok canonical =>
    by_cases hcanonical : canonical = entry.canonicalRecord
    · simp [orUnavailable, ensure, hcanonical, bind, Except.bind]
    · have hne : entry.canonicalRecord ≠ canonical := Ne.symm hcanonical
      simp [orUnavailable, ensure, hcanonical, hne, bind, Except.bind]
      rfl

/-! ## Verification after a new entry -/

variable [Inhabited Hash] {state state' : ChainState Hash}

/-- What the verification of the chain and the tree checks, with the state of its loop. -/
structure Verified (codec : Codec Hash) (db : Db Hash) (state : ChainState Hash) : Prop where
  ledgerID : canonicalV7 db.metadata.ledgerID
  entries : db.ordered.foldlM (verifyEntry codec db.metadata.ledgerID)
    ⟨0, codec.sha256 (.genesis db.metadata.ledgerID), Dict.empty⟩ = .ok state
  count : state.count = db.metadata.lastSequence
  head : db.metadata.chainHead = state.previous
  size : db.metadata.merkleSize = state.count
  root : db.metadata.merkleRoot = rootFromExpected codec state.expectedNodes state.count
  nodes : ∀ k, db.nodes.get? k = state.expectedNodes.get? k

theorem verifiedChainState_ok :
    orUnavailable (verifiedChainState codec db) = .ok state ↔ canonicalV7 db.metadata.ledgerID ∧
      db.ordered.foldlM (verifyEntry codec db.metadata.ledgerID)
        ⟨0, codec.sha256 (.genesis db.metadata.ledgerID), Dict.empty⟩ = .ok state ∧
      state.count = db.metadata.lastSequence ∧ db.metadata.chainHead = state.previous := by
  rw [orUnavailable_ok]
  constructor
  · intro h
    obtain ⟨genesis, hgenesis, h⟩ := bind_ok.1 h
    obtain ⟨hid, hgenesis⟩ := ensure_bind.1 hgenesis
    cases hgenesis
    obtain ⟨state, hentries, h⟩ := bind_ok.1 h
    obtain ⟨hhead, h⟩ := ensure_bind.1 h
    cases h
    rw [Bool.and_eq_true, beq_iff_eq, beq_iff_eq] at hhead
    exact ⟨hid, hentries, hhead⟩
  · rintro ⟨hid, hentries, hhead⟩
    refine bind_ok.2 ⟨_, ensure_bind.2 ⟨hid, rfl⟩, bind_ok.2 ⟨state, hentries, ?_⟩⟩
    refine ensure_bind.2 ⟨?_, rfl⟩
    rwa [Bool.and_eq_true, beq_iff_eq, beq_iff_eq]

theorem verifyChain_ok : verifyChain codec db = .ok () ↔ ∃ state, Verified codec db state := by
  constructor
  · intro h
    obtain ⟨state, hstate, h⟩ := bind_ok.1 h
    obtain ⟨hsize, h⟩ := ensure_bind.1 h
    obtain ⟨hroot, h⟩ := ensure_bind.1 h
    obtain ⟨hid, hentries, hcount, hhead⟩ := verifiedChainState_ok.1 hstate
    exact ⟨state, hid, hentries, hcount, hhead, beq_iff_eq.1 hsize, beq_iff_eq.1 hroot,
      verifyStoredNodes_ok.1 h⟩
  · rintro ⟨state, h⟩
    refine bind_ok.2 ⟨state, verifiedChainState_ok.2 ⟨h.ledgerID, h.entries, h.count, h.head⟩, ?_⟩
    refine ensure_bind.2 ⟨beq_iff_eq.2 h.size, ?_⟩
    exact ensure_bind.2 ⟨beq_iff_eq.2 h.root, verifyStoredNodes_ok.2 h.nodes⟩

/-- A row of the loop extends the chain and the tree. -/
theorem verifyEntry_ok (h : verifyEntry codec ledgerID state entry = .ok state') :
    entry.sequence = state.count + 1 ∧
      entry.recordDigest = recordDigest codec.sha256 entry.canonicalRecord ∧ ∃ chain,
      chain = codec.sha256 (.chain (state.count + 1) state.previous
        (recordDigest codec.sha256 entry.canonicalRecord)) ∧
      state' = ⟨state.count + 1, chain, addExpectedLeaf codec state.expectedNodes state.count
        (codec.sha256 (.merkleLeaf (state.count + 1) chain))⟩ := by
  obtain ⟨hsequence, h⟩ := ensure_bind.1 h
  obtain ⟨-, -, h⟩ := bind_ok.1 h
  obtain ⟨hdigest, h⟩ := ensure_bind.1 h
  obtain ⟨chain, hchain, h⟩ := bind_ok.1 h
  obtain ⟨-, h⟩ := ensure_bind.1 h
  obtain ⟨receipt, -, h⟩ := bind_ok.1 h
  obtain ⟨expectedReceipt, -, h⟩ := bind_ok.1 h
  obtain ⟨-, h⟩ := ensure_bind.1 h
  obtain ⟨leaf, hleaf, h⟩ := bind_ok.1 h
  cases h
  obtain ⟨-, hchain⟩ := ensure_bind.1 hchain
  cases hchain
  obtain ⟨-, rfl⟩ := merkleLeafHash_ok.1 hleaf
  rw [Bool.and_eq_true, beq_iff_eq] at hdigest
  rw [beq_iff_eq.1 hsequence]
  exact ⟨rfl, hdigest.1, _, rfl, rfl⟩

/-- The sequences of verified entries are bounded by their number, and their digests are those of
their records. -/
theorem entries_of_foldlM {entries : List (Entry Hash)}
    (h : entries.foldlM (verifyEntry codec ledgerID) state = .ok state') :
    state.count ≤ state'.count ∧ ∀ e ∈ entries, e.sequence ≤ state'.count ∧
      e.recordDigest = recordDigest codec.sha256 e.canonicalRecord := by
  induction entries generalizing state with
  | nil =>
    cases h
    exact ⟨le_rfl, fun e he => absurd he List.not_mem_nil⟩
  | cons entry entries ih =>
    rw [List.foldlM_cons] at h
    obtain ⟨next, hnext, h⟩ := bind_ok.1 h
    obtain ⟨hsequence, hdigest, chain, -, rfl⟩ := verifyEntry_ok hnext
    obtain ⟨hle, hall⟩ := ih h
    refine ⟨(Nat.le_succ _).trans hle, fun e he => ?_⟩
    rcases List.mem_cons.1 he with rfl | he
    · exact ⟨hsequence.trans_le hle, hdigest⟩
    · exact hall e he

theorem Verified.sequence_le (h : Verified codec db state) {e : Entry Hash}
    (he : e ∈ db.entries) : e.sequence ≤ db.metadata.lastSequence :=
  h.count ▸ ((entries_of_foldlM h.entries).2 e ((List.mem_insertionSort _).2 he)).1

theorem Verified.recordDigest (h : Verified codec db state) {e : Entry Hash}
    (he : e ∈ db.entries) :
    e.recordDigest = recordDigest codec.sha256 e.canonicalRecord :=
  ((entries_of_foldlM h.entries).2 e ((List.mem_insertionSort _).2 he)).2

/-- A new entry verifies after those before it. -/
theorem Written.verifyEntry (hw : Written codec operationID canonical db receipt receiptBytes db')
    (hv : Verified codec db state)
    (hvalid : validateCanonicalRecord codec.record canonical = .ok ()) :
    Sqlite.verifyEntry codec db.metadata.ledgerID state
      (nextEntry codec db operationID canonical receiptBytes) =
        .ok ⟨db.metadata.lastSequence + 1, nextChain codec db canonical,
          addExpectedLeaf codec state.expectedNodes db.metadata.lastSequence
            (nextLeaf codec db canonical)⟩ := by
  have hbound : db.metadata.lastSequence + 1 ≤ maxJSONSafeSequence := hw.below
  unfold Sqlite.verifyEntry
  rw [← hv.head, hv.count]
  refine ensure_bind.2 ⟨beq_self_eq_true _, ?_⟩
  refine bind_ok.2 ⟨(), hvalid, ?_⟩
  refine ensure_bind.2 ⟨by simp [nextEntry], ?_⟩
  refine bind_ok.2 ⟨nextChain codec db canonical, ensure_bind.2 ⟨?_, rfl⟩, ?_⟩
  · rw [Bool.and_eq_true, bne_iff_ne, decide_eq_true_eq]
    exact ⟨Nat.succ_ne_zero _, hbound⟩
  refine ensure_bind.2 ⟨beq_self_eq_true _, ?_⟩
  refine bind_ok.2 ⟨receipt, hw.newReceipt, ?_⟩
  refine bind_ok.2 ⟨receiptBytes, hw.canonicalReceipt, ?_⟩
  refine ensure_bind.2 ⟨beq_self_eq_true _, ?_⟩
  refine bind_ok.2 ⟨nextLeaf codec db canonical,
    merkleLeafHash_ok.2 ⟨⟨Nat.succ_pos _, hbound⟩, rfl⟩, rfl⟩

/-- **A new entry keeps the verification of the chain and the tree**, on any database. -/
theorem Written.verifyChain (hw : Written codec operationID canonical db receipt receiptBytes db')
    (hvalid : validateCanonicalRecord codec.record canonical = .ok ())
    (h : Sqlite.verifyChain codec db = .ok ()) : Sqlite.verifyChain codec db' = .ok () := by
  obtain ⟨state, hv⟩ := verifyChain_ok.1 h
  have hid : db'.metadata.ledgerID = db.metadata.ledgerID := by rw [hw.metadata]
  have hlast : db'.metadata.lastSequence = db.metadata.lastSequence + 1 := by rw [hw.metadata]
  have hnodes := insertMerkleLeaf_agree hv.nodes hw.nodes
  refine verifyChain_ok.2 ⟨⟨db.metadata.lastSequence + 1, nextChain codec db canonical, _⟩,
    hid ▸ hv.ledgerID, ?_, hlast.symm, ?_, ?_, ?_, hnodes⟩
  · rw [hw.ordered fun e he => hv.sequence_le he, hid, List.foldlM_append]
    refine bind_ok.2 ⟨state, hv.entries, ?_⟩
    rw [List.foldlM_cons]
    exact bind_ok.2 ⟨_, hw.verifyEntry hv hvalid, rfl⟩
  · rw [hw.metadata]
  · rw [hw.metadata]
  · rw [rootFromExpected, if_neg (Nat.succ_ne_zero _)]
    exact (subtreeHash_agree hnodes (Nat.succ_pos _) hw.root).symm

/-! ## The chain and the tree of the stored records -/

/-- A new entry keeps the chain and the tree. -/
theorem Chained.written (hc : Chained codec ledgerID db)
    (hw : Written codec operationID canonical db receipt receiptBytes db') :
    Chained codec ledgerID db' := by
  have hchain : chainOf codec ledgerID db'.records =
      chainOf codec ledgerID db.records ++ [nextChain codec db canonical] := by
    rw [hc.records_written hw, chainOf_concat, extendChain, hc.size, ← hc.head, nextChain]
  have hleaves : leavesOf codec (chainOf codec ledgerID db'.records) =
      leavesOf codec (chainOf codec ledgerID db.records) ++ [nextLeaf codec db canonical] := by
    rw [hchain, leavesOf, List.mapIdx_concat, hc.size, nextLeaf, leavesOf]
  have hlength : (leavesOf codec (chainOf codec ledgerID db.records)).length =
      db.metadata.lastSequence := by rw [length_leavesOf, hc.size]
  have hnodes : Complete codec db'.nodes (leavesOf codec (chainOf codec ledgerID db'.records)) := by
    rw [hleaves]
    exact insertMerkleLeaf_complete hc.nodes (hlength ▸ hw.nodes)
  have hlength' : (leavesOf codec (chainOf codec ledgerID db'.records)).length =
      db.metadata.lastSequence + 1 := by rw [hleaves, List.length_append, hlength]; rfl
  have hlast : db'.metadata.lastSequence = db.metadata.lastSequence + 1 := by rw [hw.metadata]
  refine ⟨?_, fun e he => ?_, ?_, ?_, ?_, ?_, ?_, hnodes, ?_⟩
  · rw [hw.metadata]
    exact hc.ledger
  · rw [hw.entries] at he
    rcases List.mem_append.1 he with he | he
    · exact (hc.sequence_le e he).trans (hlast ▸ Nat.le_succ _)
    · obtain rfl := List.mem_singleton.1 he
      exact hlast.ge
  · rw [hw.ordered hc.sequence_le, List.map_append, hc.chain, hchain]
    rfl
  · rw [hchain, headOf, List.getLastD_concat, hw.metadata]
  · rw [hchain, List.length_append, hc.size, hw.metadata]
    rfl
  · rw [hw.metadata]
  · exact hlast.trans_le hw.below
  · have hroot := hnodes.subtreeHash (hlength'.trans_le hw.below)
      (show 0 + (db.metadata.lastSequence + 1) ≤ _ by omega)
    rw [List.drop_zero, ← hlength', List.take_length, hlength', hw.root] at hroot
    exact Except.ok.inj hroot

/-! ## Runs -/

/-- The calls of a run with their answers. -/
abbrev Log (Hash : Type) := List (AuditRecord × Except Error (Receipt Hash))

/-- The runs of `Ledger.Append` calls from the first migration, with records that meet a condition:
each call commits, or fails at some statement and is rolled back. -/
inductive Run (codec : Codec Hash) (ledgerID : String) (Meets : AuditRecord → Prop) :
    Log Hash → Db Hash → Prop
  | opened : Run codec ledgerID Meets [] (opened codec ledgerID)
  | append {log : Log Hash} {db db' : Db Hash} {record : AuditRecord}
      {answer : Except Error (Receipt Hash)} : Run codec ledgerID Meets log db → Meets record →
      Atomic (append codec record) db answer db' →
      Run codec ledgerID Meets (log ++ [(record, answer)]) db'

/-- What holds in the states of a run. -/
structure Sound (codec : Codec Hash) (ledgerID : String) (log : Log Hash) (db : Db Hash) :
    Prop where
  /-- `Ledger.Verify` succeeds. -/
  verifies : verify codec db = .ok ()
  /-- The chain, its head and the root are those of the stored records. -/
  chain : db.ordered.map (·.chainDigest) = chainOf codec ledgerID db.records
  head : db.metadata.chainHead = headOf codec ledgerID (chainOf codec ledgerID db.records)
  size : db.metadata.merkleSize = db.records.length
  root : db.metadata.merkleRoot =
    merkleRoot codec.sha256 (leavesOf codec (chainOf codec ledgerID db.records))
  /-- No operation has two entries, and an acknowledged one has one. -/
  distinct : (db.entries.map (·.operationID)).Nodup
  recorded : ∀ record receipt, (record, .ok receipt) ∈ log →
    db.entries.countP (·.operationID == record.operationID) = 1
  /-- A retry of an acknowledged record is answered with its receipt. -/
  retry : ∀ record receipt, (record, .ok receipt) ∈ log → append codec record db = .ok (receipt, db)
  /-- Other bytes for an acknowledged operation are refused. -/
  conflict : ∀ record receipt, (record, .ok receipt) ∈ log → ∀ record',
    record'.operationID = record.operationID →
    canonicalRecord codec.record record' ≠ canonicalRecord codec.record record →
    ∃ e, append codec record' db = .error e
  /-- A call that fails changes nothing. -/
  unchanged : ∀ record e db', Atomic (append codec record) db (.error e) db' → db' = db

/-- The invariant of the runs. -/
structure Inv (codec : Codec Hash) (ledgerID : String) (log : Log Hash) (db : Db Hash) : Prop
    extends Chained codec ledgerID db where
  verifyChain : verifyChain codec db = .ok ()
  /-- The other tables are those of the first migration. -/
  frame : db = { opened codec ledgerID with
    metadata := db.metadata, entries := db.entries, nodes := db.nodes }
  distinct : (db.entries.map (·.operationID)).Nodup
  answered : ∀ record receipt, (record, .ok receipt) ∈ log →
    ∃ entry ∈ db.entries, Answers codec ledgerID record receipt entry

/-- The invariant holds after the first migration. -/
theorem Inv.opened (hid : canonicalV7 ledgerID) :
    Inv codec ledgerID [] (opened codec ledgerID) where
  toChained := .opened codec ledgerID
  verifyChain := verifyChain_ok.2 ⟨_, hid, rfl, rfl, rfl, rfl, rfl, fun _ => rfl⟩
  frame := rfl
  distinct := List.nodup_nil
  answered _ _ h := absurd h List.not_mem_nil

variable {log : Log Hash}

/-- A new entry keeps the invariant. -/
theorem Inv.written (hinv : Inv codec ledgerID log db)
    (hcanonical : canonicalRecord codec.record record = .ok canonical)
    (hw : Written codec record.operationID canonical db receipt receiptBytes db')
    (hvalid : validateCanonicalRecord codec.record canonical = .ok ()) :
    Inv codec ledgerID (log ++ [(record, .ok receipt)]) db' := by
  refine ⟨hinv.toChained.written hw, hw.verifyChain hvalid hinv.verifyChain, ?_, ?_, ?_⟩
  · rw [hw.frame, hinv.frame]
  · rw [hw.entries]
    exact unique_concat hinv.distinct fun e he => (hw.fresh e he).1
  · intro record' receipt' hmem
    rw [hw.entries]
    rcases List.mem_append.1 hmem with hmem | hmem
    · obtain ⟨entry, he, ha⟩ := hinv.answered record' receipt' hmem
      exact ⟨entry, List.mem_append_left _ he, ha⟩
    · cases List.mem_singleton.1 hmem
      exact ⟨_, List.mem_append_right _ List.mem_cons_self, rfl, hcanonical,
        hinv.ledger ▸ hw.newReceipt⟩

/-- A call of a run keeps the invariant. -/
theorem Inv.append (hinv : Inv codec ledgerID log db)
    (hjcs : codec.record.Lawful CanonicalRecord.Exact)
    (hyear : 0 ≤ year record.decisionTime ∧ year record.decisionTime ≤ 9999)
    {answer : Except Error (Receipt Hash)} (h : Atomic (Sqlite.append codec record) db answer db') :
    Inv codec ledgerID (log ++ [(record, answer)]) db' := by
  cases h with
  | rolledBack e =>
    refine { hinv with answered := fun record' receipt hmem => hinv.answered record' receipt ?_ }
    rcases List.mem_append.1 hmem with hmem | hmem
    · exact hmem
    · cases List.mem_singleton.1 hmem
  | committed h =>
    rcases append_ok h with ⟨rfl, entry, he, ha⟩ | ⟨canonical, receiptBytes, hcanonical, hw⟩
    · refine { hinv with answered := fun record' receipt hmem => ?_ }
      rcases List.mem_append.1 hmem with hmem | hmem
      · exact hinv.answered record' receipt hmem
      · cases List.mem_singleton.1 hmem
        exact ⟨entry, he, hinv.ledger ▸ ha⟩
    · have hdecode := decodeCanonicalRecord_canonicalRecord hjcs hcanonical hyear
      exact hinv.written hcanonical hw (bind_ok.2 ⟨record, hdecode, rfl⟩)

/-- The invariant gives what holds in the states of a run. -/
theorem Inv.sound (hinv : Inv codec ledgerID log db) : Sound codec ledgerID log db := by
  have hfence : db.operational.fenceState = .admitted := by rw [hinv.frame]; rfl
  have hanswered (record : AuditRecord) (receipt : Receipt Hash)
      (hmem : (record, .ok receipt) ∈ log) : ∃ entry ∈ db.entries,
        Answers codec db.metadata.ledgerID record receipt entry :=
    hinv.ledger ▸ hinv.answered record receipt hmem
  have hcheckpoints : verifyCheckpointState codec db = .ok () := by rw [hinv.frame]; rfl
  have hrecovery : verifyRecoveryState codec db = .ok () := by rw [hinv.frame]; rfl
  refine ⟨?_, hinv.chain, hinv.head, ?_, hinv.root, hinv.distinct, ?_, ?_, ?_, ?_⟩
  · exact bind_ok.2 ⟨(), hinv.verifyChain, bind_ok.2 ⟨(), hcheckpoints, hrecovery⟩⟩
  · rw [hinv.merkleSize, hinv.length_records]
  · intro record receipt hmem
    obtain ⟨entry, he, ha⟩ := hanswered record receipt hmem
    have hmem : record.operationID ∈ db.entries.map (·.operationID) :=
      List.mem_map.2 ⟨entry, he, ha.operationID⟩
    rw [← List.count_eq_one_of_mem hinv.distinct hmem, List.count, List.countP_map]
    rfl
  · intro record receipt hmem
    obtain ⟨entry, he, ha⟩ := hanswered record receipt hmem
    rw [ha.append he hinv.distinct hfence rfl, ha.canonicalRecord]
    exact if_pos rfl
  · intro record receipt hmem record' hsame hne
    obtain ⟨entry, he, ha⟩ := hanswered record receipt hmem
    rw [ha.append he hinv.distinct hfence hsame]
    cases hcanonical : canonicalRecord codec.record record' with
    | error e => exact ⟨e, rfl⟩
    | ok canonical =>
      rw [hcanonical, ha.canonicalRecord] at hne
      exact ⟨.conflict, if_neg fun heq => hne (congrArg Except.ok heq)⟩
  · intro record e db' h
    cases h
    rfl

theorem Run.inv (hjcs : codec.record.Lawful CanonicalRecord.Exact) (hid : canonicalV7 ledgerID)
    (hrun : Run codec ledgerID
      (fun record => 0 ≤ year record.decisionTime ∧ year record.decisionTime ≤ 9999) log db) :
    Inv codec ledgerID log db := by
  induction hrun with
  | opened => exact .opened hid
  | append _ hyear h ih => exact ih.append hjcs hyear h

/-- **Runs of appends are sound** as long as the decision times have the years 0 to 9999: in every
state of such a run the ledger verifies, its chain and root are those of the stored records, each
acknowledged operation has one entry, its retry is answered with its receipt, other bytes for it
are refused, and a failed call changes nothing. -/
theorem append_run_sound (hjcs : codec.record.Lawful CanonicalRecord.Exact)
    (hid : canonicalV7 ledgerID = true) (hrun : Run codec ledgerID
      (fun record => 0 ≤ year record.decisionTime ∧ year record.decisionTime ≤ 9999) log db) :
    Sound codec ledgerID log db :=
  (hrun.inv hjcs hid).sound

end

/-- A ledger ID. -/
def sampleLedgerID : String := "0198f56b-0c00-7000-8000-0000000000aa"

/-- A codec for the digests of the sample record at a time. -/
def sampleRecordCodec (unixMilli : Int) : Codec Symbolic :=
  sampleCodec [.genesis sampleLedgerID, .record (sampleBytes unixMilli),
    .chain 1 (.genesis sampleLedgerID) (.record (sampleBytes unixMilli))]

/-- The append of the sample record at a time to an empty ledger. -/
def sampleAppend (unixMilli : Int) : Except Error (Receipt Symbolic × Db Symbolic) :=
  append (sampleRecordCodec unixMilli) (sampleRecord unixMilli)
    (opened (sampleRecordCodec unixMilli) sampleLedgerID)

/-- One record of the year 2026 is appended to a new ledger. -/
theorem append_run_sound_2026 : ∃ receipt db, sampleAppend 1785747600000 = .ok (receipt, db) ∧
      Sound (sampleRecordCodec 1785747600000) sampleLedgerID
        [(sampleRecord 1785747600000, .ok receipt)] db := by
  have hok : (sampleAppend 1785747600000).isOk = true := by decide +kernel
  cases happend : sampleAppend 1785747600000 with
  | error e => rw [happend] at hok; cases hok
  | ok result =>
    have hyear : 0 ≤ year (sampleRecord 1785747600000).decisionTime ∧
        year (sampleRecord 1785747600000).decisionTime ≤ 9999 := by decide
    exact ⟨result.1, result.2, rfl, append_run_sound sampleJcs_lawful (by rfl)
      (.append .opened hyear (.committed happend))⟩

/-- The record of the first day of the year 10000 is appended and acknowledged, and the ledger does
not verify. -/
theorem append_year_10000 : Function.Injective (sampleRecordCodec 253402300800000).sha256 ∧
    ∃ log db, Run (sampleRecordCodec 253402300800000) sampleLedgerID (fun _ => True) log db ∧
      verify (sampleRecordCodec 253402300800000) db = .error .unavailable := by
  refine ⟨Symbolic.hash_injective, ?_⟩
  have hverify : (sampleAppend 253402300800000).map
      (fun result => verify (sampleRecordCodec 253402300800000) result.2) =
        .ok (.error .unavailable) := by decide +kernel
  cases happend : sampleAppend 253402300800000 with
  | error e => rw [happend] at hverify; cases hverify
  | ok result =>
    rw [happend] at hverify
    exact ⟨_, result.2, .append .opened trivial (.committed happend), Except.ok.inj hverify⟩

end YukhCoordination.Relay.Audit.Sqlite
