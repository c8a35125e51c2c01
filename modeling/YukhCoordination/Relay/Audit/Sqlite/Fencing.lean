import YukhCoordination.Relay.Audit.Sqlite.Linked

/-!
# Fencing

`Turn` says once what a transaction can do to the fence and to the head. A plan of an earlier fence
can lift a later one for the same backup (`commitRestore_stale`).
-/

namespace YukhCoordination.Relay.Audit.Sqlite

open Lifecycle Coordination Transaction Interleave

/-! ## Rebuilding the tree -/

section
variable {Hash : Type} [DecidableEq Hash] [Inhabited Hash] {codec : Codec Hash}

/-- What the loop over some entries has recomputed. -/
structure Scanned (codec : Codec Hash) (ledgerID : String) (records : List Bytes)
    (state : ChainState Hash) : Prop where
  count : state.count = records.length
  previous : state.previous = headOf codec ledgerID (chainOf codec ledgerID records)
  nodes : Complete codec state.expectedNodes (leavesOf codec (chainOf codec ledgerID records))

theorem scanned_of_foldlM {ledgerID : String} {entries : List (Entry Hash)}
    {state : ChainState Hash} (h : entries.foldlM (verifyEntry codec ledgerID)
      ⟨0, codec.sha256 (.genesis ledgerID), Dict.empty⟩ = .ok state) :
    Scanned codec ledgerID (entries.map (·.canonicalRecord)) state := by
  induction entries using List.reverseRecOn generalizing state with
  | nil =>
    cases h
    exact ⟨rfl, rfl, complete_nil _⟩
  | append_singleton entries entry ih =>
    rw [List.foldlM_append] at h
    obtain ⟨before, hbefore, h⟩ := bind_ok.1 h
    rw [List.foldlM_cons] at h
    obtain ⟨after, hafter, h⟩ := bind_ok.1 h
    cases h
    have hscanned := ih hbefore
    obtain ⟨-, -, chain, hchain, rfl⟩ := verifyEntry_ok hafter
    have hlength := length_chainOf codec ledgerID (entries.map (·.canonicalRecord))
    rw [List.map_append, List.map_singleton]
    have hextend : chainOf codec ledgerID (entries.map (·.canonicalRecord) ++
      [entry.canonicalRecord])
        = chainOf codec ledgerID (entries.map (·.canonicalRecord)) ++ [chain] := by
      rw [chainOf_concat, extendChain, hlength, ← hscanned.count, ← hscanned.previous, hchain]
    refine ⟨?_, ?_, ?_⟩
    · rw [List.length_append, ← hscanned.count]
      rfl
    · rw [hextend, headOf, List.getLastD_concat]
    · have hcount : before.count = (leavesOf codec
          (chainOf codec ledgerID (entries.map (·.canonicalRecord)))).length := by
        rw [length_leavesOf, hlength, hscanned.count]
      have hleaves : leavesOf codec (chainOf codec ledgerID
          (entries.map (·.canonicalRecord) ++ [entry.canonicalRecord])) =
          leavesOf codec (chainOf codec ledgerID (entries.map (·.canonicalRecord))) ++
            [codec.sha256 (.merkleLeaf (before.count + 1) chain)] := by
        rw [hextend, leavesOf, List.mapIdx_concat, hlength, ← hscanned.count, leavesOf]
      rw [hleaves, hcount]
      exact addExpectedLeaf_complete hscanned.nodes _

omit [Inhabited Hash] in
/-- Inserted nodes are there, and change none. -/
theorem insertNodes_ok {coordinates : List (NodeCoordinate × Hash)}
    {nodes nodes' : Dict NodeCoordinate Hash}
    (h : coordinates.foldlM (fun nodes e => insertNode nodes e.1.1 e.1.2 e.2) nodes = .ok nodes') :
    (∀ k hash, nodes.get? k = some hash → nodes'.get? k = some hash) ∧
      ∀ e ∈ coordinates, nodes'.get? e.1 = some e.2 := by
  induction coordinates generalizing nodes with
  | nil =>
    cases h
    exact ⟨fun _ _ => id, fun e he => absurd he List.not_mem_nil⟩
  | cons coordinate coordinates ih =>
    rw [List.foldlM_cons] at h
    obtain ⟨inserted, hinsert, h⟩ := bind_ok.1 h
    obtain ⟨hnew, rfl⟩ := insertNode_ok hinsert
    obtain ⟨hgrows, hthere⟩ := ih h
    refine ⟨fun k hash hk => hgrows k hash ?_, fun e he => ?_⟩
    · rw [Dict.get?_set, if_neg, hk]
      rintro rfl
      rw [hnew] at hk
      cases hk
    · rcases List.mem_cons.1 he with rfl | he
      · refine hgrows _ _ ?_
        rw [Dict.get?_set, if_pos rfl]
      · exact hthere e he

/-- Rebuilding the tree of a ledger whose chain and tree are those of its records changes nothing
but the nodes, which stay complete. -/
theorem rebuildMerkle_ok {ledgerID : String} {db db' : Db Hash} (hc : Chained codec ledgerID db)
    (h : rebuildMerkle codec db = .ok ((), db')) :
    (∃ nodes, db' = { db with nodes }) ∧ Chained codec ledgerID db' := by
  obtain ⟨state, hstate, h⟩ := bind_ok.1 h
  obtain ⟨nodes, hnodes, h⟩ := bind_ok.1 h
  cases h
  obtain ⟨-, hentries, -⟩ := verifiedChainState_ok.1 hstate
  rw [hc.ledger] at hentries
  have hscanned : Scanned codec ledgerID db.records state := scanned_of_foldlM hentries
  have hlength : (leavesOf codec (chainOf codec ledgerID db.records)).length = state.count := by
    rw [length_leavesOf, length_chainOf, hscanned.count]
  have hcount : state.count = db.metadata.merkleSize := by
    rw [hscanned.count, hc.length_records, hc.merkleSize]
  have hbound : (leavesOf codec (chainOf codec ledgerID db.records)).length ≤
      maxJSONSafeSequence := by
    rw [hlength, hcount, hc.merkleSize]
    exact hc.bound
  have hroot := hscanned.nodes.rootFromExpected hbound
  rw [hlength, ← hc.root] at hroot
  have hcomplete : Complete codec nodes (leavesOf codec (chainOf codec ledgerID db.records)) := by
    intro level index hle
    have hget := hscanned.nodes level index hle
    exact (insertNodes_ok hnodes).2 (_, _) ((List.mem_insertionSort _).2 (Dict.get?_eq_some.1 hget))
  have hdb : { db with
      nodes, metadata := { db.metadata with
        merkleSize := state.count
        merkleRoot := rootFromExpected codec state.expectedNodes state.count } } =
      { db with nodes } := by rw [hroot, hcount]
  rw [hdb]
  exact ⟨⟨nodes, rfl⟩, hc.ledger, hc.sequence_le, hc.chain, hc.head, hc.size, hc.merkleSize,
    hc.bound, hcomplete, hc.root⟩

/-! ## What a transaction can do -/

/-- What a transaction can do to the operational state, to the entries and to the metadata. -/
inductive Turn : Write Hash → Db Hash → Db Hash → Prop
  /-- It writes other tables, or an admitted ledger. -/
  | kept {w : Write Hash} {db db' : Db Hash} : db'.operational = db.operational →
      db.operational.fenceState = .admitted ∨
        db'.entries = db.entries ∧ db'.metadata = db.metadata → Turn w db db'
  /-- It fences an admitted ledger for a backup. -/
  | fenced {digest : Hash} {db : Db Hash} : db.operational.fenceState = .admitted →
      Turn (.fenceRestored digest) db { db with operational := { db.operational with
        fenceState := .restoreFenced, restoreBackupDigest := some digest
        acceptedManifestReference := none, externalCheckpointReference := none
        completionReceipt := none } }
  /-- It raises the high-water mark of an admitted ledger or fences it. -/
  | observed {w : Write Hash} {db : Db Hash} {fence : FenceState} {high : Nat} :
      db.operational.fenceState = .admitted → fence ≠ .restoreFenced →
      db.operational.wallHighWaterMillis ≤ high →
      Turn w db { db with operational := { db.operational with
        fenceState := fence, wallHighWaterMillis := high } }
  /-- It admits a ledger that is fenced for the backup of a plan. -/
  | restored {plan : RestorePlan Hash} {operationID : String} {at_ : Time} {db db' : Db Hash} :
      db.operational.fenceState = .restoreFenced →
      db.operational.restoreBackupDigest = some plan.backupDigest →
      db'.operational.fenceState = .admitted →
      db'.operational.restoreBackupDigest = db.operational.restoreBackupDigest →
      db'.operational.wallHighWaterMillis = db.operational.wallHighWaterMillis →
      Turn (.commitRestore plan operationID at_) db db'

omit [Inhabited Hash] in
theorem updateOperational_ok {new : OperationalState Hash} {db db' : Db Hash}
    (h : updateOperational new db = some db') : db' = { db with operational := new } ∧
      db.operational.wallHighWaterMillis ≤ new.wallHighWaterMillis := by
  unfold updateOperational at h
  split at h
  case isFalse => cases h
  case isTrue hok =>
  cases h
  simp only [operationalTransition, Bool.and_eq_true, decide_eq_true_eq] at hok
  exact ⟨rfl, hok.1.1⟩

section
variable {ledgerID operationID : String} {canonical : Bytes} {receipt : Receipt Hash}
  {db db' : Db Hash}

/-- Recording an operation keeps the chain and leaves the operational state. -/
theorem Chained.appendRecord (hc : Chained codec ledgerID db)
    (h : Sqlite.appendRecord codec operationID canonical db = .ok (receipt, db')) :
    Chained codec ledgerID db' ∧ db'.operational = db.operational := by
  rcases appendRecord_ok h with ⟨rfl, -⟩ | ⟨receiptBytes, hw⟩
  · exact ⟨hc, rfl⟩
  · exact ⟨hc.written hw, by rw [hw.frame]⟩

omit [Inhabited Hash] in
theorem fenceRestored_turn {digest : Hash} (h : fenceRestored digest db = .ok ((), db')) :
    Turn (.fenceRestored digest) db db' ∧ db'.metadata = db.metadata ∧ db'.entries = db.entries ∧
      db'.nodes = db.nodes := by
  unfold fenceRestored at h
  split at h
  · obtain ⟨-, h⟩ := ensure_bind.1 h
    cases h
    exact ⟨.kept rfl (.inr ⟨rfl, rfl⟩), rfl, rfl, rfl⟩
  · cases h
  · next hadmitted =>
    obtain ⟨updated, hupdate, h⟩ := required_bind.1 h
    cases h
    obtain ⟨rfl, -⟩ := updateOperational_ok hupdate
    exact ⟨.fenced hadmitted, rfl, rfl, rfl⟩

omit [Inhabited Hash] in
theorem observeOperationalClock_turn {now : Time} {tolerance : Duration} {observed : Option Time}
    (w : Write Hash) (h : observeOperationalClock now tolerance db = .ok (observed, db')) :
    Turn w db db' ∧ db'.metadata = db.metadata ∧ db'.entries = db.entries ∧
      db'.nodes = db.nodes := by
  obtain ⟨-, h⟩ := ensure_bind.1 h
  obtain ⟨hadmitted, h⟩ := ensure_bind.1 h
  replace hadmitted := beq_iff_eq.1 hadmitted
  dsimp only at h
  split at h
  · cases h
    cases hupdate : updateOperational { db.operational with fenceState := .clockFenced } db with
    | none => exact ⟨.kept rfl (.inl hadmitted), rfl, rfl, rfl⟩
    | some fenced =>
      obtain ⟨rfl, hle⟩ := updateOperational_ok hupdate
      exact ⟨.observed hadmitted (by decide) hle, rfl, rfl, rfl⟩
  · obtain ⟨updated, hupdate, h⟩ := required_bind.1 h
    cases h
    obtain ⟨rfl, hle⟩ := updateOperational_ok hupdate
    have hunrestored : db.operational.fenceState ≠ .restoreFenced := by
      rw [hadmitted]
      decide
    exact ⟨.observed hadmitted hunrestored hle, rfl, rfl, rfl⟩

theorem admitRestored_ok {plan : RestorePlan Hash} {reference : String}
    (hc : Chained codec ledgerID db)
    (h : admitRestored codec plan operationID canonical db = .ok (reference, db')) :
    Chained codec ledgerID db' ∧ db'.operational.fenceState = .admitted ∧
      db'.operational.restoreBackupDigest = db.operational.restoreBackupDigest ∧
      db'.operational.wallHighWaterMillis = db.operational.wallHighWaterMillis := by
  obtain ⟨⟨committed, appended⟩, happend, h⟩ := bind_ok.1 h
  obtain ⟨manifests, -, h⟩ := required_bind.1 h
  obtain ⟨updated, hupdate, h⟩ := required_bind.1 h
  cases h
  obtain ⟨rfl, -⟩ := updateOperational_ok hupdate
  obtain ⟨hchained, hoperational⟩ := hc.appendRecord happend
  refine ⟨hchained.of_eq rfl rfl rfl, rfl, ?_, ?_⟩
  · exact congrArg (·.restoreBackupDigest) hoperational
  · exact congrArg (·.wallHighWaterMillis) hoperational

theorem commitRestore_turn {plan : RestorePlan Hash} {at_ : Time} {reference : String}
    (hc : Chained codec ledgerID db)
    (h : commitRestore codec plan operationID at_ db = .ok (reference, db')) :
    Turn (.commitRestore plan operationID at_) db db' ∧ Chained codec ledgerID db' := by
  obtain ⟨canonical, -, h⟩ := bind_ok.1 h
  obtain ⟨hdigest, h⟩ := ensure_bind.1 h
  split at h
  · next hadmitted =>
    obtain ⟨receipt, -, h⟩ := required_bind.1 h
    cases h
    exact ⟨.kept rfl (.inl hadmitted.1), hc⟩
  · obtain ⟨hfenced, h⟩ := ensure_bind.1 h
    obtain ⟨hchained, hadmitted, hbackup, hhigh⟩ := admitRestored_ok hc h
    exact ⟨.restored (beq_iff_eq.1 hfenced) (beq_iff_eq.1 hdigest) hadmitted hbackup hhigh,
      hchained⟩

/-- Every transaction keeps the chain, and takes one of the turns. -/
theorem Write.turn (hc : Chained codec ledgerID db) {w : Write Hash} {a : w.Result}
    (h : w.run codec db = .ok (a, db')) : Turn w db db' ∧ Chained codec ledgerID db' := by
  cases w with
  | append record =>
    obtain ⟨canonical, -, h⟩ := bind_ok.1 h
    obtain ⟨⟨⟩, hadmitted, happend⟩ := bind_ok.1 h
    obtain ⟨hchained, hoperational⟩ := hc.appendRecord happend
    exact ⟨.kept hoperational (.inl (beq_iff_eq.1 (ensure_ok.1 hadmitted))), hchained⟩
  | installVerificationKey =>
    obtain ⟨_, _, _, _, -, hadmitted, -, -, happend⟩ := installVerificationKey_ok h
    have hkeys keyStatements authority :
        Chained codec ledgerID { db with keyStatements, authority } := hc.of_eq rfl rfl rfl
    obtain ⟨hchained, hoperational⟩ := (hkeys _ _).appendRecord happend
    exact ⟨.kept hoperational (.inl hadmitted), hchained⟩
  | commitCheckpoint =>
    obtain ⟨-, appended, hcommits⟩ := commitCheckpoint_ok h
    obtain ⟨receipt, happend⟩ := hcommits.recorded
    obtain ⟨hchained, hoperational⟩ := hc.appendRecord happend
    rcases hcommits.stored with ⟨rfl, -⟩ | ⟨-, -, rfl⟩
    · exact ⟨.kept rfl (.inl hcommits.admitted), hc⟩
    · exact ⟨.kept hoperational (.inl hcommits.admitted), hchained.of_eq rfl rfl rfl⟩
  | storeWitness =>
    obtain ⟨hadmitted, witnesses, rfl⟩ := storeWitness_ok h
    exact ⟨.kept rfl (.inl hadmitted), hc.of_eq rfl rfl rfl⟩
  | fenceRestored digest =>
    obtain ⟨hturn, hmetadata, hentries, hnodes⟩ := fenceRestored_turn h
    exact ⟨hturn, hc.of_eq hmetadata hentries hnodes⟩
  | commitRestore => exact commitRestore_turn hc h
  | observeOperationalClock =>
    obtain ⟨hturn, hmetadata, hentries, hnodes⟩ := observeOperationalClock_turn _ h
    exact ⟨hturn, hc.of_eq hmetadata hentries hnodes⟩
  | rebuildMerkle =>
    obtain ⟨⟨nodes, rfl⟩, hchained⟩ := rebuildMerkle_ok hc h
    exact ⟨.kept rfl (.inr ⟨rfl, rfl⟩), hchained⟩

end

end

/-! ## Steps -/

section
variable {Hash : Type}

/-- The head of the tree. -/
def Db.treeHead (db : Db Hash) : TreeHead Hash := ⟨db.metadata.merkleSize, db.metadata.merkleRoot⟩

/-- The ledger is fenced for a backup. -/
def Db.FencedFor (db : Db Hash) (digest : Hash) : Prop :=
  db.operational.fenceState = .restoreFenced ∧ db.operational.restoreBackupDigest = some digest

/-- The backup that a request sets the fence for. -/
def Request.fence? : Request Hash → Option Hash
  | .transact (.fenceRestored digest) => some digest
  | _ => none

/-- The request sets no fence for a backup that the ledger has been fenced for before. -/
def Request.Fresh (disk : Disk Hash) (r : Request Hash) : Prop :=
  disk.db.operational.fenceState = .restoreFenced ∨ ∀ digest ∈ r.fence?, digest ∉ disk.fences

instance [DecidableEq Hash] (disk : Disk Hash) (r : Request Hash) : Decidable (r.Fresh disk) :=
  inferInstanceAs (Decidable (_ ∨ _))

/-- The requests of a ledger that is not fenced twice for the same backup. -/
def freshSem [DecidableEq Hash] [Inhabited Hash] (codec : Codec Hash) (r : Request Hash)
    (disk : Disk Hash) (ans : r.Answer) (disk' : Disk Hash) : Prop :=
  r.Fresh disk ∧ ledgerSem codec r disk ans disk'

/-- The chain is that of the records, and the ledger has been fenced for the backup it names. -/
structure Guarded (codec : Codec Hash) (ledgerID : String) (disk : Disk Hash) : Prop where
  chained : Chained codec ledgerID disk.db
  recorded : ∀ digest, disk.db.operational.restoreBackupDigest = some digest → digest ∈ disk.fences

/-- Fences are remembered, and a fence of an earlier backup has stood with its head since. -/
structure Stands (disk disk' : Disk Hash) : Prop where
  fences : ∀ digest ∈ disk.fences, digest ∈ disk'.fences
  fenced : ∀ digest ∈ disk.fences, disk'.db.FencedFor digest →
    disk.db.FencedFor digest ∧ disk'.db.treeHead = disk.db.treeHead

theorem Stands.refl (disk : Disk Hash) : Stands disk disk := ⟨fun _ => id, fun _ _ h => ⟨h, rfl⟩⟩

theorem Stands.trans {disk disk' disk'' : Disk Hash} (h : Stands disk disk')
    (h' : Stands disk' disk'') : Stands disk disk'' where
  fences digest hd := h'.fences digest (h.fences digest hd)
  fenced digest hd hfenced := by
    obtain ⟨hfenced', hhead'⟩ := h'.fenced digest (h.fences digest hd) hfenced
    obtain ⟨hfenced'', hhead⟩ := h.fenced digest hd hfenced'
    exact ⟨hfenced'', hhead'.trans hhead⟩

variable {codec : Codec Hash} {ledgerID : String} {disk disk' : Disk Hash}

/-- A turn at a fence that is not set again keeps what is guarded. -/
theorem Turn.stands {w : Write Hash} {db' : Db Hash} (hg : Guarded codec ledgerID disk)
    (hturn : Turn w disk.db db') (hfresh : (Request.transact w).Fresh disk) :
    (∀ digest, db'.operational.restoreBackupDigest = some digest →
      digest ∈ (disk.commit w db').fences) ∧ Stands disk (disk.commit w db') := by
  have hfences (digest : Hash) (hd : digest ∈ disk.fences) : digest ∈ (disk.commit w db').fences :=
    List.mem_append_left _ hd
  generalize hdb : disk.db = db at hturn
  cases hturn with
  | kept hoperational hwrites =>
    rw [← hdb] at hoperational
    refine ⟨fun digest hd => hfences digest (hg.recorded digest (hoperational ▸ hd)),
      hfences, fun digest _ hfenced => ?_⟩
    have hfenced' : disk.db.FencedFor digest := by
      rw [Db.FencedFor, ← hoperational]
      exact hfenced
    refine ⟨hfenced', ?_⟩
    rcases hwrites with hadmitted | ⟨-, hmetadata⟩
    · rw [← hdb, hfenced'.1] at hadmitted
      cases hadmitted
    · rw [Db.treeHead, Db.treeHead, hdb, ← hmetadata]
      rfl
  | @fenced digest db hadmitted =>
    subst hdb
    have hnew : digest ∉ disk.fences := by
      refine hfresh.resolve_left (fun hfenced => ?_) digest rfl
      rw [hadmitted] at hfenced
      cases hfenced
    refine ⟨fun digest' hd => ?_, hfences, fun digest' hd hfenced => ?_⟩
    · obtain rfl := Option.some.inj hd
      refine List.mem_append_right _ ?_
      rw [Write.fences, if_pos ⟨by rw [hadmitted]; decide, rfl⟩]
      exact List.mem_singleton.2 rfl
    · obtain rfl := Option.some.inj hfenced.2
      exact absurd hd hnew
  | observed hadmitted hfence _ =>
    subst hdb
    exact ⟨fun digest hd => hfences digest (hg.recorded digest hd), hfences,
      fun digest _ hfenced => absurd hfenced.1 hfence⟩
  | restored _ _ hadmitted hbackup _ =>
    refine ⟨fun digest hd => hfences digest (hg.recorded digest ?_), hfences,
      fun digest _ hfenced => ?_⟩
    · rw [hdb, ← hbackup, hd]
    · rw [Db.FencedFor, show (disk.commit _ db').db = db' from rfl, hadmitted] at hfenced
      cases hfenced.1

section
variable {w : Write Hash} {db db' : Db Hash}

theorem Turn.highWater (h : Turn w db db') :
    db.operational.wallHighWaterMillis ≤ db'.operational.wallHighWaterMillis := by
  cases h with
  | kept hoperational => rw [hoperational]
  | fenced => exact Nat.le_refl _
  | observed _ _ hhigh => exact hhigh
  | restored _ _ _ _ hhigh => exact hhigh.ge

/-- Nothing is appended to a ledger that stays fenced. -/
theorem Turn.entries (h : Turn w db db') (hfence : db.operational.fenceState ≠ .admitted) :
    db'.entries = db.entries ∨
      db.operational.fenceState = .restoreFenced ∧ db'.operational.fenceState = .admitted := by
  cases h with
  | kept _ hwrites => exact .inl (hwrites.resolve_left hfence).1
  | fenced hadmitted | observed hadmitted => exact absurd hadmitted hfence
  | restored hfenced _ hadmitted => exact .inr ⟨hfenced, hadmitted⟩

theorem Turn.clock (h : Turn w db db') (hclock : db.operational.fenceState = .clockFenced) :
    db'.operational.fenceState = .clockFenced := by
  cases h with
  | kept hoperational => rw [hoperational, hclock]
  | fenced hadmitted | observed hadmitted | restored hadmitted => cases hclock.symm.trans hadmitted

/-- The fence of a restore is lifted by a commit for the backup of the fence. -/
theorem Turn.admission (h : Turn w db db') (hfenced : db.operational.fenceState = .restoreFenced)
    (hlifted : db'.operational.fenceState ≠ .restoreFenced) : ∃ plan operationID at_,
      w = .commitRestore plan operationID at_ ∧ db.FencedFor plan.backupDigest := by
  cases h with
  | kept hoperational => exact absurd (hoperational ▸ hfenced) hlifted
  | fenced hadmitted | observed hadmitted => cases hfenced.symm.trans hadmitted
  | restored _ hdigest => exact ⟨_, _, _, rfl, hfenced, hdigest⟩

end

variable [DecidableEq Hash] [Inhabited Hash]

/-- A request at a fence that is not set again keeps what is guarded. -/
theorem Guarded.request (hg : Guarded codec ledgerID disk) {r : Request Hash} {ans : r.Answer}
    (hsem : freshSem codec r disk ans disk') : Guarded codec ledgerID disk' ∧
      Stands disk disk' := by
  obtain ⟨hfresh, hsem⟩ := hsem
  rcases hsem.cases with rfl | ⟨w, a, db, rfl, hrun, rfl⟩
  · exact ⟨hg, .refl _⟩
  · obtain ⟨hturn, hchained⟩ := Write.turn hg.chained hrun
    obtain ⟨hrecorded, hstands⟩ := hturn.stands hg hfresh
    exact ⟨⟨hchained, hrecorded⟩, hstands⟩

/-! ## Validated plans -/

omit [Inhabited Hash] in
/-- What `ValidateRestore` has checked of its manifest. -/
structure Validated (codec : Codec Hash) (signed : SignedRecoveryManifest Hash)
    (plan : RestorePlan Hash) : Prop where
  manifest : plan.manifest = { signed with manifest := plan.manifest.manifest }
  parsed : parseCanonicalRecoveryManifest codec signed.canonical = .ok plan.manifest.manifest
  verified : ∃ manifestKey checkpoint checkpointKey,
    verifySignedRecoveryManifest codec plan.manifest manifestKey checkpoint checkpointKey = .ok ()
  digest : plan.backupDigest = plan.manifest.manifest.auditBackup.digest

/-- The ledger has been fenced for the backup of a plan, and where it still is, its head is that of
the manifest. -/
structure Bound (plan : RestorePlan Hash) (disk : Disk Hash) : Prop where
  fences : plan.backupDigest ∈ disk.fences
  head : disk.db.FencedFor plan.backupDigest →
    plan.manifest.manifest.auditBackupTreeHead = disk.db.treeHead

omit [DecidableEq Hash] [Inhabited Hash] in
theorem Bound.mono {plan : RestorePlan Hash} (h : Bound plan disk) (hstands : Stands disk disk') :
    Bound plan disk' where
  fences := hstands.fences _ h.fences
  head hfenced := by
    obtain ⟨hfenced', hhead⟩ := hstands.fenced _ h.fences hfenced
    rw [h.head hfenced', hhead]

omit [Inhabited Hash] in
theorem checkRestore_ok {signed : SignedRecoveryManifest Hash} {plan : RestorePlan Hash}
    (hg : Guarded codec ledgerID disk)
    (h : checkRestore signed disk.db.metadata disk.db.operational = .ok plan) :
    plan = ⟨signed, signed.manifest.auditBackup.digest⟩ ∧ Bound plan disk := by
  obtain ⟨hstate, h⟩ := ensure_bind.1 h
  obtain ⟨hhead, h⟩ := ensure_bind.1 h
  cases h
  simp only [Bool.and_eq_true, beq_iff_eq] at hstate
  refine ⟨rfl, hg.recorded _ hstate.2, fun hfenced => ?_⟩
  simp only [hfenced.1, bne_self_eq_false, Bool.false_or, Bool.and_eq_true, beq_iff_eq] at hhead
  rw [Db.treeHead, hhead.1, hhead.2]

/-- What a program of the ledger meets among others that are not fenced twice. -/
abbrev MeetsGuarded {α : Type} (codec : Codec Hash) (ledgerID : String)
    (post : α → Disk Hash → Prop) (q : Proc Hash α) (disk : Disk Hash) : Prop :=
  q.Meets (freshSem codec) (Guarded codec ledgerID) Stands Stands post disk

theorem meetsGuarded_reads {α : Type} {q : Proc Hash α} (hreads : q.Only Request.Reads)
    (disk : Disk Hash) : MeetsGuarded codec ledgerID (fun _ _ => True) q disk :=
  hreads.meets (fun _ _ _ _ _ hg hsem => hg.request hsem) (fun _ _ => trivial) disk

/-- A plan is validated and bound to the fence. -/
theorem validateRestore_meets (signed : SignedRecoveryManifest Hash) (authority : Bytes)
    (hg : Guarded codec ledgerID disk) : MeetsGuarded codec ledgerID
      (fun result disk => ∀ plan, result = .ok plan → Validated codec signed plan ∧ Bound plan disk)
      (validateRestore codec signed authority) disk := by
  refine Program.Meets.onOk (fun manifest hparsed => ?_) (fun _ _ h => by cases h)
  refine Program.Meets.bind hg (meetsGuarded_reads (latestKey_reads _ authority) _)
    fun manifestKey disk hg _ => ?_
  refine Program.Meets.onOk (fun manifestKey _ => ?_) (fun _ _ h => by cases h)
  refine Program.Meets.bind hg (meetsGuarded_reads (readSigned_reads _ authority) _)
    fun checkpoint disk hg _ => ?_
  refine Program.Meets.onOk (fun _ hverified => ?_) (fun _ _ h => by cases h)
  obtain ⟨⟨checkpoint, checkpointKey⟩, -, hverified⟩ := bind_ok.1 hverified
  refine Program.meets_ask_bind.2 fun disk _ hg ans disk' hsem => ?_
  obtain ⟨hg', hstands⟩ := hg.request hsem
  refine ⟨hg', hstands, fun plan hplan => ?_⟩
  obtain ⟨rfl, hans⟩ := hsem.2.read (by trivial)
  obtain ⟨⟨metadata, state⟩, hrow, hplan⟩ := required_bind.1 hplan
  rcases hans with rfl | rfl
  · cases hrow
    obtain ⟨rfl, hbound⟩ := checkRestore_ok hg hplan
    exact ⟨⟨rfl, hparsed, ⟨_, _, _, orUnavailable_ok.1 hverified⟩, rfl⟩, hbound⟩
  · cases hrow

end

/-! ## Calls -/

/-- The calls of a ledger that is restored and whose clock is observed. -/
inductive OperationalCall (Hash : Type) where
  | ledger (call : Call Hash)
  | openRestored (expectedBackupDigest : Hash)
  | restore (signed : SignedRecoveryManifest Hash) (authority : Bytes)
      (attempts : List (String × Time))
  | operationalReady (now : Time) (tolerance : Duration)
  | rebuildMerkle

section
variable {Hash : Type} [DecidableEq Hash]

/-- The program of a call, without what it returns. -/
def OperationalCall.run (codec : Codec Hash) : OperationalCall Hash → Proc Hash (Except Error Unit)
  | .ledger call => do
    let result ← call.run codec
    return result.map fun _ => ()
  | .openRestored expectedBackupDigest => Sqlite.openRestored expectedBackupDigest
  | .restore signed authority attempts => Sqlite.restore codec signed authority attempts
  | .operationalReady now tolerance => Sqlite.operationalReady now tolerance
  | .rebuildMerkle => rebuildMerkleVerified

/-- The request commits no restore. -/
def Request.CommitsNone : Request Hash → Prop
  | .transact (.commitRestore ..) => False
  | _ => True

/-- A commit is made by the restore that has validated its plan. -/
def OperationalCall.Commits (codec : Codec Hash) (c : OperationalCall Hash) (r : Request Hash)
    (disk : Disk Hash) : Prop :=
  match r with
  | .transact (.commitRestore plan operationID at_) => ∃ signed authority attempts,
      c = .restore signed authority attempts ∧ (operationID, at_) ∈ attempts ∧
        Validated codec signed plan ∧ Bound plan disk
  | _ => True

variable {codec : Codec Hash} {ledgerID : String}

omit [DecidableEq Hash] in
theorem Request.Reads.commitsNone {r : Request Hash} (h : r.Reads) : r.CommitsNone := by
  cases r with
  | transact w => cases h
  | _ => trivial

theorem Request.CommitsNone.commits {r : Request Hash} (h : r.CommitsNone)
    (c : OperationalCall Hash) (disk : Disk Hash) : c.Commits codec r disk := by
  cases r with
  | transact w =>
    cases w with
    | commitRestore => cases h
    | _ => trivial
  | _ => trivial

theorem validateRestore_reads (signed : SignedRecoveryManifest Hash) (authority : Bytes) :
    (validateRestore codec signed authority).Only Request.Reads := by
  refine Program.Only.onOk fun manifest _ => ?_
  refine (latestKey_reads _ authority).bind fun _ => Program.Only.onOk fun _ _ => ?_
  refine (readSigned_reads _ authority).bind fun _ => Program.Only.onOk fun _ _ => ?_
  exact Program.only_ask_bind.2 ⟨trivial, fun _ => trivial⟩

/-- The calls other than a restore commit none. -/
theorem OperationalCall.commitsNone {c : OperationalCall Hash}
    (hc : ∀ signed authority attempts, c ≠ .restore signed authority attempts) :
    (c.run codec).Only Request.CommitsNone := by
  cases c with
  | ledger call =>
    refine (Call.only (fun _ => Request.Reads.commitsNone) (fun _ => trivial)
      (fun _ _ _ _ _ => trivial) (fun _ _ _ _ _ _ _ _ _ => trivial) (fun _ => trivial) call).bind
      fun _ => trivial
  | openRestored digest =>
    refine Program.only_ask_bind.2 ⟨trivial, fun found => ?_⟩
    split
    · refine Program.only_ask_bind.2 ⟨trivial, fun fenced => Program.Only.onOk fun _ _ => ?_⟩
      exact Program.only_ask_bind.2 ⟨trivial, fun _ => trivial⟩
    · trivial
  | restore signed authority attempts => exact absurd rfl (hc signed authority attempts)
  | operationalReady now tolerance =>
    change (Sqlite.operationalReady now tolerance).Only _
    unfold Sqlite.operationalReady
    split
    · refine Program.only_ask_bind.2 ⟨trivial, fun verified => Program.Only.onOk fun _ _ => ?_⟩
      exact Program.only_ask_bind.2 ⟨trivial, fun _ => trivial⟩
    · trivial
  | rebuildMerkle =>
    refine Program.only_ask_bind.2 ⟨trivial, fun rebuilt => Program.Only.onOk fun _ _ => ?_⟩
    exact Program.only_ask_bind.2 ⟨trivial, fun _ => trivial⟩

variable [Inhabited Hash]

/-- Every attempt is made with a plan that is still bound. -/
theorem restore_asks (signed : SignedRecoveryManifest Hash) (authority : Bytes)
    (attempts : List (String × Time)) {disk : Disk Hash} (hg : Guarded codec ledgerID disk) :
    (Sqlite.restore codec signed authority attempts).Asks (freshSem codec) (Guarded codec ledgerID)
      Stands ((OperationalCall.restore signed authority attempts).Commits codec) disk := by
  refine Program.Asks.bind
    ((validateRestore_reads signed authority).asks (fun _ _ h => h.commitsNone.commits _ _) _)
    (validateRestore_meets signed authority hg) fun result disk hresult => ?_
  refine Program.Asks.onOk fun plan hplan => ?_
  obtain ⟨hvalidated, hbound⟩ := hresult plan hplan
  clear hresult hplan hg
  -- Each attempt is one of the call's, and leaves the plan bound whatever it does.
  suffices ∀ rest : List (String × Time), rest ⊆ attempts → ∀ disk, Bound plan disk →
      (rest.foldr (fun attempt rest => do
        let _ ← ask (.transact (.commitRestore plan attempt.1 attempt.2))
        rest) (return .ok ()) : Proc Hash (Except Error Unit)).Asks (freshSem codec)
          (Guarded codec ledgerID) Stands
          ((OperationalCall.restore signed authority attempts).Commits codec) disk from
    this attempts (List.Subset.refl _) disk hbound
  intro rest
  induction rest with
  | nil => exact fun _ _ _ => trivial
  | cons attempt rest ih =>
    intro hsub disk hbound disk' hstands hg
    have hbound' := hbound.mono hstands
    refine ⟨⟨signed, authority, attempts, rfl, hsub List.mem_cons_self, hvalidated, hbound'⟩,
      fun ans disk'' hsem => ?_⟩
    exact ih (fun _ h => hsub (List.mem_cons_of_mem _ h)) _ (hbound'.mono (hg.request hsem).2)

/-- Every commit is made by a restore with a plan that is still bound. -/
theorem OperationalCall.asks (c : OperationalCall Hash) {disk : Disk Hash}
    (hg : Guarded codec ledgerID disk) :
    (c.run codec).Asks (freshSem codec) (Guarded codec ledgerID) Stands (c.Commits codec) disk := by
  by_cases hc : ∃ signed authority attempts, c = .restore signed authority attempts
  · obtain ⟨signed, authority, attempts, rfl⟩ := hc
    exact restore_asks signed authority attempts hg
  · refine (OperationalCall.commitsNone fun signed authority attempts h => ?_).asks
      (fun _ _ h => h.commits c _) disk
    exact hc ⟨signed, authority, attempts, h⟩

/-- The obligations of the calls among each other. -/
def guardedRely {ι : Type} [DecidableEq ι] (codec : Codec Hash) (ledgerID : String) :
    RelyGuarantee (fun _ : ι => freshSem codec) ledgerEnv (OperationalCall.run codec) where
  inv := Guarded codec ledgerID
  rely _ := Stands
  fresh _ _ := True
  post _ _ _ _ := True
  rely_refl _ := .refl
  rely_trans _ _ _ _ := .trans
  env_inv := by
    rintro disk _ hg ⟨file, rfl⟩
    exact ⟨hg.chained, hg.recorded⟩
  env_rely := by
    rintro _ disk _ - ⟨file, rfl⟩
    exact ⟨fun _ => id, fun _ _ h => ⟨h, rfl⟩⟩
  fresh_stable _ _ _ _ _ := trivial
  post_stable _ _ _ _ _ _ _ _ := trivial
  meets _ c disk _ _ := ((Program.only_true _).meets
    (fun _ _ _ _ _ hg hsem => hg.request hsem) (fun _ _ => trivial) disk).mono_guar
      fun _ _ hstands _ _ => hstands

/-- The runs of the calls of any number of threads, from the first migration. -/
abbrev OperationalRun (ι : Type) [DecidableEq ι]
    (sem : (r : Request Hash) → Disk Hash → r.Answer → Disk Hash → Prop) (codec : Codec Hash)
    (ledgerID : String) (file : Hash)
    (p : Pool (port Hash) ι (OperationalCall Hash) (Except Error Unit) (Disk Hash)) : Prop :=
  Pool.Reach (fun _ => sem) ledgerEnv (OperationalCall.run codec)
    ⟨opened codec ledgerID, file, []⟩ p

/-- What a step does to the fences of a ledger: its high-water mark does not decrease, nothing is
appended to a ledger that is fenced and stays so, a ledger that its clock has fenced stays so, and
a fence of a restore is lifted only by the commit of a restore whose validated manifest has the head
of the ledger. -/
structure Fencing {ι : Type} (codec : Codec Hash)
    (p q : Pool (port Hash) ι (OperationalCall Hash) (Except Error Unit) (Disk Hash)) : Prop where
  highWater : p.shared.db.operational.wallHighWaterMillis ≤
    q.shared.db.operational.wallHighWaterMillis
  entries : p.shared.db.operational.fenceState ≠ .admitted →
    q.shared.db.entries = p.shared.db.entries ∨
      p.shared.db.operational.fenceState = .restoreFenced ∧
        q.shared.db.operational.fenceState = .admitted
  clock : p.shared.db.operational.fenceState = .clockFenced →
    q.shared.db.operational.fenceState = .clockFenced
  admission : p.shared.db.operational.fenceState = .restoreFenced →
    q.shared.db.operational.fenceState ≠ .restoreFenced →
    ∃ i signed authority attempts plan operationID at_ k reference,
      p.thread i = some (.restore signed authority attempts,
        .call (.transact (.commitRestore plan operationID at_)) k) ∧
      commitRestore codec plan operationID at_ p.shared.db = .ok (reference, q.shared.db) ∧
      Validated codec signed plan ∧
      plan.manifest.manifest.auditBackupTreeHead = p.shared.db.treeHead

section
variable {ι : Type}
  {p q : Pool (port Hash) ι (OperationalCall Hash) (Except Error Unit) (Disk Hash)}

omit [Inhabited Hash] in
theorem Fencing.of_eq (h : q.shared.db = p.shared.db) : Fencing codec p q where
  highWater := by rw [h]
  entries _ := .inl (by rw [h])
  clock hfence := h ▸ hfence
  admission hfenced hlifted := absurd (h ▸ hfenced) hlifted

/-- A transaction of a thread keeps to the fences, if a commit is made with a bound plan. -/
theorem Fencing.of_turn {i : ι} {c : OperationalCall Hash} {w : Write Hash} {a : w.Result}
    {k : Except Error w.Result → Proc Hash (Except Error Unit)}
    (hthread : p.thread i = some (c, .call (.transact w) k))
    (hrun : w.run codec p.shared.db = .ok (a, q.shared.db)) (hturn : Turn w p.shared.db q.shared.db)
    (hcommits : c.Commits codec (.transact w) p.shared) : Fencing codec p q where
  highWater := hturn.highWater
  entries := hturn.entries
  clock := hturn.clock
  admission hfenced hlifted := by
    obtain ⟨plan, operationID, at_, rfl, hdigest⟩ := hturn.admission hfenced hlifted
    obtain ⟨signed, authority, attempts, rfl, -, hvalidated, hbound⟩ := hcommits
    exact ⟨i, signed, authority, attempts, plan, operationID, at_, k, a, hthread, hrun, hvalidated,
      hbound.head hdigest⟩

end

/-- **Fencing.** In every run in which the ledger is not fenced twice for the same backup, every
step keeps to the fences. -/
theorem fencing {ι : Type} [DecidableEq ι] {file : Hash}
    {p q : Pool (port Hash) ι (OperationalCall Hash) (Except Error Unit) (Disk Hash)}
    (hp : OperationalRun ι (freshSem codec) codec ledgerID file p)
    (hstep : Pool.Step (fun _ => freshSem codec) ledgerEnv (OperationalCall.run codec) p q) :
    Fencing codec p q := by
  have hopened : (guardedRely codec ledgerID : RelyGuarantee (fun _ : ι => _) _ _).inv
      ⟨opened codec ledgerID, file, []⟩ := ⟨.opened codec ledgerID, fun _ h => by cases h⟩
  have hg : Guarded codec ledgerID p.shared :=
    (RelyGuarantee.reach _ hopened (fun _ => trivial) hp).inv
  cases hstep with
  | start => exact .of_eq rfl
  | env henv =>
    obtain ⟨file, rfl⟩ := henv
    exact .of_eq rfl
  | run i hi hsem =>
    rcases hsem.2.cases with rfl | ⟨w, a, db, rfl, hrun, rfl⟩
    · exact .of_eq rfl
    · have hcommits := RelyGuarantee.asks (guardedRely codec ledgerID)
        (fun i c disk hg _ => OperationalCall.asks c hg) hopened (fun _ => trivial) hp hi
      exact .of_turn hi hrun (Write.turn hg.chained hrun).1 hcommits

end

/-! ## Samples -/

/-- The signature of the sample's checkpoint and manifests. -/
def sampleSignature : Bytes := samplePublicKey ++ samplePublicKey

/-- The digests of the checkpoint, of a backup and of the references of two manifests. -/
def sampleRestored : List Symbolic :=
  sampleKnown ++ [.empty, .recoveryReference [0] sampleSignature,
    .recoveryReference [0, 0] sampleSignature]

/-- The last characters that texts of digests can have. -/
def sampleLast : List Char := ['A', 'E', 'I', 'M', 'Q', 'U']

/-- The text of the digest at a place. -/
def sampleDigestText (index : Nat) : String :=
  String.ofList (List.replicate 42 'A' ++ (sampleLast[index]?).toList)

/-- The evidence of the sample's backups. -/
def sampleBackup : CanonicalBackupEvidence :=
  ⟨"0198f56b-0c00-7000-8000-0000000000b1", sampleLedgerID, sampleDigestText 2,
    formatMillis (sampleTime 2)⟩

/-- The document of a manifest of the backup with two records. -/
def sampleManifestDocument (manifestID : String) : CanonicalRecoveryManifest :=
  ⟨recoveryManifestProfile, manifestID, sampleBackup, sampleBackup, 2, sampleDigestText 0,
    "audit-checkpoint:" ++ sampleDigestText 5, 2, sampleDigestText 0, [], [],
    formatMillis (sampleTime 2), formatMillis (sampleTime 3), checkpointAlgorithm, "key-1"⟩

/-- The record of the restore with the manifest at a place of the table. -/
def sampleRestoreRecord (place : Nat) (operationID : String) : AuditRecord :=
  { ledgerRecord .restoreFence .restoreVerified operationID (sampleTime 4) with
    checkpointReference := "audit-checkpoint:" ++ sampleDigestText 5
    recoveryReference := "audit-recovery:" ++ sampleDigestText (place + 3) }

/-- A codec with the documents of two manifests. -/
def sampleRestoreCodec : Codec Symbolic := { sampleTableCodec with
    record := tableJcs [canonicalValue (sampleKeyRecord 1 sampleFirstID),
      canonicalValue sampleCheckpointRecord,
      canonicalValue (sampleRestoreRecord 0 "0198f56b-0c00-7000-8000-000000000004"),
      canonicalValue (sampleRestoreRecord 1 "0198f56b-0c00-7000-8000-000000000005")] sampleJcs
    checkpoint := tableJcs [{ sampleCheckpointDocument with
      rootHash := sampleDigestText 0, chainHead := sampleDigestText 1 }]
      (sampleCodec sampleKnown).checkpoint
    manifest := tableJcs [sampleManifestDocument "0198f56b-0c00-7000-8000-0000000000c1",
      sampleManifestDocument "0198f56b-0c00-7000-8000-0000000000c2"]
      (sampleCodec sampleKnown).manifest
    encodeDigest := fun digest => sampleDigestText (sampleRestored.idxOf digest)
    decodeHash := fun text =>
      (text.toList.getLast?).bind fun last => sampleRestored[sampleLast.idxOf last]? }

/-- The restore with the manifest at a place of the table. -/
def sampleRestore (place : Nat) (operationID : String) : OperationalCall Symbolic :=
  .restore ⟨⟨"", ⟨"", "", .empty, sampleTime 0⟩, ⟨"", "", .empty, sampleTime 0⟩, ⟨0, .empty⟩, "",
      ⟨0, .empty⟩, ⟨0, 0, []⟩, [], sampleTime 0, sampleTime 0, "", ""⟩,
    List.replicate (place + 1) 0, sampleSignature, "audit-recovery:" ++ sampleDigestText
      (place + 3)⟩
    sampleAuthority [(operationID, sampleTime 4)]

/-- The handler of a ledger on which nothing fails, and of one that is not fenced twice. -/
def sampleHandle (fresh : Bool) (r : Request Symbolic) (disk : Disk Symbolic) :
    Option (r.Answer × Disk Symbolic) :=
  if !fresh || r.Fresh disk then some (r.perform sampleRestoreCodec disk) else none

theorem ledgerSem_of_sampleHandle {fresh : Bool} {r : Request Symbolic} {disk disk' : Disk Symbolic}
    {ans : r.Answer} (h : sampleHandle fresh r disk = some (ans, disk')) :
    ledgerSem sampleRestoreCodec r disk ans disk' := by
  have hperformed : ledgerSem sampleRestoreCodec r disk _ _ := .performed r disk
  unfold sampleHandle at h
  split at h
  · rwa [Option.some.inj h] at hperformed
  · cases h

theorem freshSem_of_sampleHandle {r : Request Symbolic} {disk disk' : Disk Symbolic}
    {ans : r.Answer} (h : sampleHandle true r disk = some (ans, disk')) :
    freshSem sampleRestoreCodec r disk ans disk' := by
  refine ⟨?_, ledgerSem_of_sampleHandle h⟩
  unfold sampleHandle at h
  split at h
  · next hfresh => simpa using hfresh
  · cases h

/-- The pools of the sample. -/
abbrev SamplePool :=
  Pool (port Symbolic) (Fin 6) (OperationalCall Symbolic) (Except Error Unit) (Disk Symbolic)

/-- The key and a checkpoint, the fence of a restored ledger, and a first restore up to its
commit. -/
def sampleFenced : List (Fin 6 × (OperationalCall Symbolic ⊕ Nat)) :=
  [(0, .inl (.ledger (.installVerificationKey (sampleSigned 1 none 0) sampleAuthority sampleFirstID
      (sampleTime 1) "authority:keys:1"))), (0, .inr 1),
    (1, .inl (.ledger (.createCheckpoint (sampleTime 2) sampleAuthority sampleSigner
      sampleCheckpointRecord.operationID))), (1, .inr 7),
    (2, .inl (.openRestored .empty)), (2, .inr 2),
    (3, .inl (sampleRestore 0 "0198f56b-0c00-7000-8000-000000000004")), (3, .inr 6)]

/-- A second restore with its commit, and the fence for the same backup again. -/
def sampleRefenced : List (Fin 6 × (OperationalCall Symbolic ⊕ Nat)) :=
  [(4, .inl (sampleRestore 1 "0198f56b-0c00-7000-8000-000000000005")), (4, .inr 7),
    (5, .inl (.openRestored .empty)), (5, .inr 2)]

/-- The pool after some moves. -/
def samplePlay (fresh : Bool) (moves : List (Fin 6 × (OperationalCall Symbolic ⊕ Nat)))
    (p : SamplePool) : SamplePool :=
  moves.foldl (Pool.move (sampleHandle fresh) (OperationalCall.run sampleRestoreCodec)) p

/-- The pool in which the first restore is about to be committed. -/
def fencedPool : SamplePool :=
  samplePlay true sampleFenced (.init ⟨opened sampleRestoreCodec sampleLedgerID, .empty, []⟩)

/-- The pool in which it still is, and the ledger is fenced again. -/
def refencedPool : SamplePool := samplePlay false sampleRefenced fencedPool

/-- The next step of the first restore. -/
def sampleCommit (fresh : Bool) (p : SamplePool) : SamplePool :=
  p.move (sampleHandle fresh) (OperationalCall.run sampleRestoreCodec) (3, .inr 1)

/-- The head in the manifest of the commit that a thread is about to make. -/
def pendingHead : Option (OperationalCall Symbolic × Proc Symbolic (Except Error Unit)) →
      Option (TreeHead Symbolic)
  | some (_, .call (.transact (.commitRestore plan _ _)) _) =>
    some plan.manifest.manifest.auditBackupTreeHead
  | _ => none

/-- The next step of the first restore lifts the fence. -/
def sampleLifts (fresh : Bool) (p : SamplePool) : Bool :=
  p.shared.db.operational.fenceState == .restoreFenced && (match p.thread 3 with
      | some (_, .call r _) => (sampleHandle fresh r p.shared).isSome
      | _ => false) &&
    (sampleCommit fresh p).shared.db.operational.fenceState == .admitted

/-- A commit is pending whose manifest has another head. -/
def sampleStale (p : SamplePool) : Bool :=
  (List.finRange 6).all fun i => pendingHead (p.thread i) != some p.shared.db.treeHead

/-- The first restore lifts the first fence, and the second one with another head. -/
theorem sampleLifts_pools : (sampleLifts true fencedPool && (sampleLifts false refencedPool &&
    sampleStale refencedPool)) := by decide +kernel

theorem step_of_sampleLifts {fresh : Bool} {p : SamplePool} (h : sampleLifts fresh p)
    {sem : (r : Request Symbolic) → Disk Symbolic → r.Answer → Disk Symbolic → Prop}
    (hsem : ∀ r disk ans disk', sampleHandle fresh r disk = some (ans, disk') →
      sem r disk ans disk') :
    p.shared.db.operational.fenceState = .restoreFenced ∧
      (sampleCommit fresh p).shared.db.operational.fenceState ≠ .restoreFenced ∧
      Pool.Step (fun _ => sem) ledgerEnv (OperationalCall.run sampleRestoreCodec) p
        (sampleCommit fresh p) := by
  simp only [sampleLifts, Bool.and_eq_true, beq_iff_eq] at h
  obtain ⟨⟨hfenced, hthread⟩, hadmitted⟩ := h
  refine ⟨hfenced, by rw [hadmitted]; decide, ?_⟩
  split at hthread
  · next hcall => exact .move (fun _ => hsem) hcall hthread
  · cases hthread

theorem fencing_sample : ∃ p q : SamplePool, p.shared.db.operational.fenceState = .restoreFenced ∧
      q.shared.db.operational.fenceState ≠ .restoreFenced ∧ Fencing sampleRestoreCodec p q := by
  have hlifts := (Bool.and_eq_true_iff.1 sampleLifts_pools).1
  obtain ⟨hfenced, hlifted, hstep⟩ :=
    step_of_sampleLifts hlifts fun _ _ _ _ => freshSem_of_sampleHandle
  have hp : OperationalRun (Fin 6) (freshSem sampleRestoreCodec) sampleRestoreCodec sampleLedgerID
      .empty fencedPool :=
    Pool.Reach.moves (fun _ _ _ _ _ => freshSem_of_sampleHandle) .refl _
  exact ⟨_, _, hfenced, hlifted, fencing hp hstep⟩

/-- **A plan of an earlier fence lifts a later one**: two restores of one backup are validated, the
second is committed and appends its record, the ledger is fenced for the backup again, and the first
is committed, whose manifest does not have the head of the ledger. -/
theorem commitRestore_stale : ¬ ∀ (codec : Codec Symbolic) (ledgerID : String) (file : Symbolic)
    (p q : SamplePool), OperationalRun (Fin 6) (ledgerSem codec) codec ledgerID file p →
    Pool.Step (fun _ => ledgerSem codec) ledgerEnv (OperationalCall.run codec) p q →
    Fencing codec p q := by
  intro h
  obtain ⟨hlifts, hstale⟩ := Bool.and_eq_true_iff.1 (Bool.and_eq_true_iff.1 sampleLifts_pools).2
  obtain ⟨hfenced, hlifted, hstep⟩ :=
    step_of_sampleLifts hlifts fun _ _ _ _ => ledgerSem_of_sampleHandle
  have hp : OperationalRun (Fin 6) (ledgerSem sampleRestoreCodec) sampleRestoreCodec sampleLedgerID
      .empty refencedPool :=
    .moves (fun _ _ _ _ _ => ledgerSem_of_sampleHandle)
      (.moves (fun _ _ _ _ _ => ledgerSem_of_sampleHandle) .refl _) _
  obtain ⟨i, _, _, _, plan, _, _, _, _, hthread, -, -, hhead⟩ :=
    (h _ _ _ _ _ hp hstep).admission hfenced hlifted
  have hi := List.all_eq_true.1 hstale i (List.mem_finRange i)
  rw [hthread, pendingHead, hhead, bne_self_eq_false] at hi
  cases hi

end YukhCoordination.Relay.Audit.Sqlite
