import YukhCoordination.Relay.Lifecycle.Recovery
import YukhCoordination.Relay.Lifecycle.Time
import YukhCoordination.Relay.Sqlite.Integrity

/-!
# The evidence of a completed operation

The obligations of an operation are those of the one set that was bound to it, a receipt is stored
only for a bound obligation that it meets and after the custodian's verifier has accepted it, and a
completion is stored in one transaction with the state `completed`, which accepts no further receipt
(`Evidenced`). So what a completion was checked against is what stays stored.
-/

namespace YukhCoordination.Relay.Sqlite

open Lifecycle Transaction Interleave

/-! ## The evidence of an operation -/

/-- The obligations of an operation by domain. -/
def Db.obligationsOf (db : Db) (operationID : String) : List ObligationRow :=
  (db.obligations.filter (·.operationID == operationID)).insertionSort
    fun r r' => indexDomain r.domain ≤ indexDomain r'.domain

/-- The receipts of an operation in the order of their insertion. -/
def Db.receiptsOf (db : Db) (operationID : String) : List ReceiptRow :=
  db.receipts.filter (·.operationID == operationID)

/-- The backup evidence of an operation. -/
def Db.evidenceOf (db : Db) (operationID : String) : BackupEvidence :=
  ⟨(db.obligationsOf operationID).map (·.canonicalObligation),
    (db.receiptsOf operationID).map (·.canonicalReceipt)⟩

section
variable {codec : Codec} {v : Verdicts} {db db' : Db} {row row' : OperationRow} {request : Request}
  {operationID : String}

theorem loadBackupEvidence_ok {backups : BackupEvidence}
    (h : loadBackupEvidence codec operationID db = .ok backups) :
    backups = db.evidenceOf operationID := by
  unfold loadBackupEvidence at h
  obtain ⟨-, h⟩ := ensure_bind.1 h
  obtain ⟨-, h⟩ := ensure_bind.1 h
  cases h
  rfl

/-- An obligation that was loaded is stored for the operation and the domain. -/
theorem loadObligation_ok {domain : BackupDomain} {obligation : ObligationRow}
    (h : loadObligation codec operationID domain db = .ok obligation) :
    obligation ∈ db.obligations ∧ obligation.operationID = operationID ∧
      obligation.domain = domain := by
  unfold loadObligation at h
  obtain ⟨found, hfind, h⟩ := required_bind.1 h
  obtain ⟨-, h⟩ := ensure_bind.1 h
  cases h
  have hkeys := List.find?_some hfind
  simp only [Bool.and_eq_true, beq_iff_eq] at hkeys
  exact ⟨List.mem_of_find?_eq_some hfind, hkeys⟩

/-! ## The invariant -/

/-- A bound set: it is valid, for the intent of an operation whose payload was removed. -/
structure BoundSet (codec : Codec) (db : Db) (s : ObligationSetRow) : Prop where
  columns : s = ⟨s.canonicalSet.operationID, codec.obligationSetDigest s.canonicalSet,
    s.canonicalSet⟩
  valid : validateBackupObligationSet s.canonicalSet
  operation : ∃ row ∈ db.operations, row.operationID = s.operationID ∧ 5 ≤ order row.state ∧
    validateObligationSetIntent s.canonicalSet row.canonicalIntent row.intentDigest = .ok ()

/-- A stored receipt: it meets a bound obligation, and the verifier has accepted it. -/
structure KeptReceipt (codec : Codec) (v : Verdicts) (db : Db) (r : ReceiptRow) : Prop where
  columns : r = receiptRow codec r.canonicalReceipt
  meets : ∃ o ∈ db.obligations, o.operationID = r.operationID ∧ o.domain = r.domain ∧
    (validateReceiptObligation r.canonicalReceipt o.canonicalObligation o.obligationDigest).isOk =
      true
  accepted : v.custodian r.canonicalReceipt.verificationKeyID r.canonicalReceipt.signatureAlgorithm
    (codec.custodianReceiptSigning r.canonicalReceipt) r.canonicalReceipt.detachedSignature

/-- A stored completion: its operation is completed, and it references the receipts stored for
it. -/
structure KeptCompletion (codec : Codec) (v : Verdicts) (db : Db) (c : CompletionRow) : Prop where
  columns : c = completionRow codec c.canonicalCompletion
  valid : validateCompletionEvidence c.canonicalCompletion
  audit : v.audit c.canonicalCompletion
  operation : ∃ row ∈ db.operations, row.operationID = c.operationID ∧ row.state = .completed ∧
    row.intentDigest = c.canonicalCompletion.intentDigest ∧
    row.canonicalIntent.policyDigest = c.canonicalCompletion.policyDigest
  references : completionReferencesStored codec c.canonicalCompletion (db.evidenceOf c.operationID)

/-- The invariant of the backup evidence. -/
structure Evidenced (codec : Codec) (v : Verdicts) (db : Db) : Prop extends
    Integral codec v db where
  setIDs : (db.obligationSets.map (·.operationID)).Nodup
  sets : ∀ s ∈ db.obligationSets, BoundSet codec db s
  bound : ∀ row ∈ db.operations, 5 ≤ order row.state →
    ∃ s ∈ db.obligationSets, s.operationID = row.operationID
  obligations : db.obligations =
    db.obligationSets.flatMap fun s => s.canonicalSet.obligations.map (obligationRow codec)
  receiptIDs : (db.receipts.map (·.receiptID)).Nodup
  receiptDigests : (db.receipts.map (·.receiptDigest)).Nodup
  receipts : ∀ r ∈ db.receipts, KeptReceipt codec v db r
  completionIDs : (db.completions.map (·.operationID)).Nodup
  completions : ∀ c ∈ db.completions, KeptCompletion codec v db c
  completed : ∀ row ∈ db.operations, row.state = .completed →
    ∃ c ∈ db.completions, c.operationID = row.operationID

theorem Evidenced.empty : Evidenced codec v {} where
  toIntegral := .empty
  setIDs := List.nodup_nil
  sets := by simp
  bound := by simp
  obligations := rfl
  receiptIDs := List.nodup_nil
  receiptDigests := List.nodup_nil
  receipts := by simp
  completionIDs := List.nodup_nil
  completions := by simp
  completed := by simp

theorem order_completed {state : SagaState} : 6 ≤ order state ↔ state = .completed := by
  cases state <;> simp [order]

variable {s : ObligationSetRow} {r : ReceiptRow} {c : CompletionRow} {set : BackupObligationSet}
  {preflight : OperationRow} {o : ObligationRow}

/-- What is bound to an operation stays bound while the operation goes on. -/
theorem BoundSet.later (h : BoundSet codec db s)
    (hrows : ∀ row ∈ db.operations, ∃ row' ∈ db'.operations, Continues row row') :
    BoundSet codec db' s := by
  obtain ⟨row, hrow, hid, hord, hintent⟩ := h.operation
  obtain ⟨row', hrow', hcont⟩ := hrows row hrow
  refine ⟨h.columns, h.valid, row', hrow', hcont.operationID.trans hid, ?_, ?_⟩
  · exact hord.trans hcont.order
  · rw [hcont.canonicalIntent, hcont.intentDigest]
    exact hintent

theorem KeptReceipt.later (h : KeptReceipt codec v db r)
    (hobligations : db.obligations ⊆ db'.obligations) : KeptReceipt codec v db' r := by
  obtain ⟨o, ho, hmeets⟩ := h.meets
  exact ⟨h.columns, ⟨o, hobligations ho, hmeets⟩, h.accepted⟩

/-- A completed operation stays, so its completion stays for the same evidence. -/
theorem KeptCompletion.later (h : KeptCompletion codec v db c)
    (hrows : ∀ row ∈ db.operations, ∃ row' ∈ db'.operations, Continues row row')
    (hevidence : db'.evidenceOf c.operationID = db.evidenceOf c.operationID) :
    KeptCompletion codec v db' c := by
  obtain ⟨row, hrow, hid, hstate, hdigest, hpolicy⟩ := h.operation
  obtain ⟨row', hrow', hcont⟩ := hrows row hrow
  refine ⟨h.columns, h.valid, h.audit, ⟨row', hrow', hcont.operationID.trans hid, ?_, ?_, ?_⟩, ?_⟩
  · refine order_completed.1 ?_
    exact (order_completed.2 hstate).trans hcont.order
  · exact hcont.intentDigest.trans hdigest
  · rw [hcont.canonicalIntent]
    exact hpolicy
  · rw [hevidence]
    exact h.references

/-- A turn that leaves the backup evidence keeps the invariant, if it takes no operation as far as
its obligations. -/
theorem Evidenced.same (h : Evidenced codec v db) (hint : Integral codec v db')
    (hrows : ∀ row ∈ db.operations, ∃ row' ∈ db'.operations, Continues row row')
    (hlate : ∀ row' ∈ db'.operations, 5 ≤ order row'.state → row' ∈ db.operations)
    (hb : SameBackups db db') : Evidenced codec v db' where
  toIntegral := hint
  setIDs := by
    rw [hb.obligationSets]
    exact h.setIDs
  sets s hs := (h.sets s (hb.obligationSets ▸ hs)).later hrows
  bound row' hrow' hord := by
    rw [hb.obligationSets]
    exact h.bound row' (hlate row' hrow' hord) hord
  obligations := by
    rw [hb.obligations, hb.obligationSets]
    exact h.obligations
  receiptIDs := by
    rw [hb.receipts]
    exact h.receiptIDs
  receiptDigests := by
    rw [hb.receipts]
    exact h.receiptDigests
  receipts r hr := (h.receipts r (hb.receipts ▸ hr)).later
    (by rw [hb.obligations]; exact List.Subset.refl _)
  completionIDs := by
    rw [hb.completions]
    exact h.completionIDs
  completions c hc := by
    refine (h.completions c (hb.completions ▸ hc)).later hrows ?_
    simp only [Db.evidenceOf, Db.obligationsOf, Db.receiptsOf, hb.obligations, hb.receipts]
  completed row' hrow' hstate := by
    rw [hb.completions]
    exact h.completed row' (hlate row' hrow' (by simp [hstate, order])) hstate

/-- The rows after a move of an operation that stays before its obligations. -/
theorem mem_of_mem_put (hord : order row'.state < 5) {r : OperationRow} (hr : r ∈ db.put row')
    (hlate : 5 ≤ order r.state) : r ∈ db.operations := by
  rcases mem_put hr with rfl | ⟨hr, -⟩
  · omega
  · exact hr

/-- The obligations of a valid set are those of its operation. -/
theorem operationID_of_mem_set (h : validateBackupObligationSet set) {o : BackupObligation}
    (ho : o ∈ set.obligations) : o.operationID = set.operationID := by
  simp only [validateBackupObligationSet, Bool.and_eq_true, List.all_eq_true, beq_iff_eq] at h
  exact (h.2 o ho).1.1.2

/-- A completion is of an operation that is past its last receipt, so the operation of a row in
another state is another one. -/
theorem Evidenced.ne_of_completion (h : Evidenced codec v db)
    (hc : c ∈ db.completions) (hrow : row ∈ db.operations) (hstate : row.state ≠ .completed) :
    row.operationID ≠ c.operationID := by
  intro heq
  obtain ⟨row', hrow', hid, hstate', -⟩ := (h.completions c hc).operation
  exact hstate (h.eq_of_id hrow hrow' (heq.trans hid.symm) ▸ hstate')

/-- Obligations of another operation are not among those of an operation. -/
theorem obligationsOf_append (db : Db) {rows : List ObligationRow}
    (hrows : ∀ r ∈ rows, r.operationID ≠ operationID) :
    ({ db with obligations := db.obligations ++ rows } : Db).obligationsOf operationID =
      db.obligationsOf operationID := by
  have hnone : rows.filter (·.operationID == operationID) = [] := by
    simpa [List.filter_eq_nil_iff] using hrows
  simp only [Db.obligationsOf, List.filter_append, hnone, List.append_nil]

theorem Evidenced.bind (h : Evidenced codec v db) (hrow : row ∈ db.operations)
    (hm : Moves codec (.bindBackupObligations set preflight) row row')
    (hc : (Request.bindBackupObligations set preflight).Checked codec v)
    (hnew : ∀ s ∈ db.obligationSets, s.operationID ≠ set.operationID) (heq : db' = { db with
      obligationSets := db.obligationSets ++ [⟨set.operationID, codec.obligationSetDigest set, set⟩]
      obligations := db.obligations ++ set.obligations.map (obligationRow codec)
      operations := db.put row' }) (hint : Integral codec v db')
    (hrows : ∀ row ∈ db.operations, ∃ row' ∈ db'.operations, Continues row row') :
    Evidenced codec v db' := by
  subst heq
  obtain ⟨hvalid, hintent⟩ := hc
  cases hm with
  | bound hid hdigest hintent' hdigest' hstate =>
    have hother : ∀ c ∈ db.completions, set.operationID ≠ c.operationID := fun c hc =>
      hid ▸ h.ne_of_completion hc hrow (by simp [hstate])
    refine ⟨hint, ?_, fun s hs => ?_, fun r hr hord => ?_, ?_, h.receiptIDs, h.receiptDigests,
      fun r hr => ?_, h.completionIDs, fun c hc => ?_, fun r hr hdone => ?_⟩
    · exact unique_concat h.setIDs hnew
    · rcases List.mem_append.1 hs with hs | hs
      · exact (h.sets s hs).later hrows
      · rw [List.mem_singleton.1 hs]
        refine ⟨rfl, hvalid, _, self_mem_put hrow rfl, hid, by simp [order], ?_⟩
        simp only [hintent', hdigest']
        exact hintent
    · rcases mem_put hr with rfl | ⟨hr, -⟩
      · exact ⟨_, List.mem_append_right _ (List.mem_singleton_self _), hid.symm⟩
      · obtain ⟨s, hs, hsid⟩ := h.bound r hr hord
        exact ⟨s, List.mem_append_left _ hs, hsid⟩
    · rw [List.flatMap_append, ← h.obligations]
      simp
    · exact (h.receipts r hr).later (List.subset_append_left _ _)
    · refine (h.completions c hc).later hrows ?_
      have hrows' : ∀ r ∈ set.obligations.map (obligationRow codec),
          r.operationID ≠ c.operationID := by
        intro r hr
        obtain ⟨o, ho, rfl⟩ := List.mem_map.1 hr
        exact (operationID_of_mem_set hvalid ho).trans_ne (hother c hc)
      exact congrArg (fun o : List ObligationRow => (⟨o.map (·.canonicalObligation),
        (db.receiptsOf c.operationID).map (·.canonicalReceipt)⟩ : BackupEvidence))
        (obligationsOf_append db hrows')
    · rcases mem_put hr with rfl | ⟨hr, -⟩
      · cases hdone
      · exact h.completed r hr hdone

theorem Evidenced.record {receipt : CustodianReceipt} {obligation current : ObligationRow}
    (h : Evidenced codec v db) (hrow : row ∈ db.operations)
    (hid : row.operationID = receipt.operationID) (hstate : row.state = .backupsPending)
    (hload : loadObligation codec receipt.operationID receipt.domain db = .ok current)
    (hdigest : current.obligationDigest = obligation.obligationDigest)
    (hobligation : current.canonicalObligation = obligation.canonicalObligation)
    (hnew : ∀ r ∈ db.receipts, r.receiptID ≠ receipt.receiptID)
    (hnew' : ∀ r ∈ db.receipts, r.receiptDigest ≠ codec.custodianReceiptDigest receipt)
    (hc : (Request.recordBackupReceipt receipt preflight obligation).Checked codec v)
    (hint : Integral codec v { db with receipts := db.receipts ++ [receiptRow codec receipt] }) :
    Evidenced codec v { db with receipts := db.receipts ++ [receiptRow codec receipt] } := by
  obtain ⟨-, hmeets, haccepted⟩ := hc
  have hrows : ∀ row ∈ db.operations, ∃ row' ∈ db.operations, Continues row row' :=
    fun row hrow => ⟨row, hrow, .refl row⟩
  refine ⟨hint, h.setIDs, fun s hs => (h.sets s hs).later hrows, h.bound, h.obligations,
    unique_concat h.receiptIDs hnew, unique_concat h.receiptDigests hnew', fun r hr => ?_,
    h.completionIDs, fun c hc => ?_, h.completed⟩
  · rcases List.mem_append.1 hr with hr | hr
    · exact (h.receipts r hr).later (List.Subset.refl _)
    · rw [List.mem_singleton.1 hr]
      obtain ⟨hmem, hoid, hdomain⟩ := loadObligation_ok hload
      refine ⟨rfl, ⟨current, hmem, hoid, hdomain, ?_⟩, haccepted⟩
      rw [hobligation, hdigest]
      exact hmeets
  · refine (h.completions c hc).later hrows ?_
    have hother : (receipt.operationID == c.operationID) = false := by
      simpa [hid] using h.ne_of_completion hc hrow (by simp [hstate])
    simp [Db.evidenceOf, Db.obligationsOf, Db.receiptsOf, List.filter_append, receiptRow, hother]

theorem Evidenced.complete {evidence : CompletionEvidence} {set : ObligationSetRow}
    {backups : BackupEvidence} (h : Evidenced codec v db) (hrow : row ∈ db.operations)
    (hm : Moves codec (.complete evidence preflight set backups) row row')
    (hc : (Request.complete evidence preflight set backups).Checked codec v)
    (hload : loadBackupEvidence codec evidence.operationID db = .ok backups)
    (hreferences : completionReferencesStored codec evidence backups)
    (hnew : ∀ c ∈ db.completions, c.operationID ≠ evidence.operationID) (heq : db' = { db with
      completions := db.completions ++ [completionRow codec evidence]
      operations := db.put row' }) (hint : Integral codec v db')
    (hrows : ∀ row ∈ db.operations, ∃ row' ∈ db'.operations, Continues row row') :
    Evidenced codec v db' := by
  subst heq
  obtain ⟨hvalid, hpolicy, haudit⟩ := hc
  have hbackups := loadBackupEvidence_ok hload
  cases hm with
  | completed hid hdigest hintent hstate =>
    refine ⟨hint, h.setIDs, fun s hs => (h.sets s hs).later hrows, fun r hr hord => ?_,
      h.obligations, h.receiptIDs, h.receiptDigests, fun r hr =>
        (h.receipts r hr).later (List.Subset.refl _),
      unique_concat h.completionIDs hnew, fun c hc => ?_, fun r hr hdone => ?_⟩
    · rcases mem_put hr with rfl | ⟨hr, -⟩
      · exact h.bound row hrow (by simp [hstate, order])
      · exact h.bound r hr hord
    · rcases List.mem_append.1 hc with hc | hc
      · exact (h.completions c hc).later hrows rfl
      · rw [List.mem_singleton.1 hc]
        refine ⟨rfl, hvalid, haudit, ⟨_, self_mem_put hrow rfl, hid, rfl, hdigest, ?_⟩, ?_⟩
        · simp only [hintent]
          exact hpolicy
        · rw [hbackups] at hreferences
          exact hreferences
    · rcases mem_put hr with rfl | ⟨hr, -⟩
      · exact ⟨_, List.mem_append_right _ (List.mem_singleton_self _), hid.symm⟩
      · obtain ⟨c, hc, hcid⟩ := h.completed r hr hdone
        exact ⟨c, List.mem_append_left _ hc, hcid⟩

/-- **Every turn keeps the invariant of the backup evidence.** -/
theorem Evidenced.turn (h : Evidenced codec v db) (hint : Integral codec v db')
    (hc : request.Checked codec v) (ht : Turn codec db db' request) : Evidenced codec v db' := by
  have hrows := ht.continues h.toOrdered
  cases ht with
  | framed hops _ hb _ => exact h.same hint hrows (fun r hr _ => hops ▸ hr) hb
  | reserved policy _ _ hops _ hb _ =>
    refine h.same hint hrows (fun r hr hlate => ?_) hb
    rw [hops] at hr
    rcases List.mem_append.1 hr with hr | hr
    · exact hr
    · rw [List.mem_singleton.1 hr, reservedRow] at hlate
      split at hlate <;> simp [order] at hlate
  | moved row row' hrow hm hops hside _ hb _ =>
    refine h.same hint hrows (fun r hr => mem_of_mem_put ?_ (hops ▸ hr)) hb
    simp only [List.mem_cons, List.not_mem_nil, or_false] at hside
    omega
  | marked row row' marker hrow hm _ hops _ hb _ =>
    exact h.same hint hrows (fun r hr => mem_of_mem_put (by cases hm; simp [order]) (hops ▸ hr)) hb
  | removed row row' removed mid hrow hm _ _ _ hloop heq =>
    subst heq
    have hb := removeRecords_backups hloop
    exact h.same hint hrows (fun r hr => mem_of_mem_put (by cases hm; simp [order]) hr)
      ⟨hb.obligationSets, hb.obligations, hb.receipts, hb.completions⟩
  | bound row row' hrow hm hnew heq => exact h.bind hrow hm hc hnew heq hint hrows
  | recorded row current hrow hid hstate hload hdigest hobligation hnew hnew' heq =>
    subst heq
    exact h.record hrow hid hstate hload hdigest hobligation hnew hnew' hc hint
  | completed row row' hrow hm hload hreferences hnew heq =>
    exact h.complete hrow hm hc hload hreferences hnew heq hint hrows

/-- The invariant holds in every run whose verifiers accept only what is in `v`. -/
theorem JudgedReach.evidenced (hremoval : ∀ records, validDigest (codec.removalDigest records))
    {p : Pool} (hp : JudgedReach codec v p) : Evidenced codec v p.shared := by
  refine Interleave.Pool.Reach.invariant_heeds (fun _ _ _ _ _ h => h.2) (fun c =>
    Call.careful (v := v) c) Evidenced.empty ?_ (fun _ _ _ hf => hf.elim) hp
  rintro i r _ db ans db' ⟨hc, -⟩ h hs
  rcases hs.1.cases with rfl | ⟨a, hrun⟩
  · exact h
  · exact h.turn (h.toIntegral.run hremoval hc hrun) hc (run_turn h.toOrdered hrun)

/-! ## Loads -/

/-- The documents stored for an operation are within the size under which they are loaded. -/
structure Fits (codec : Codec) (db : Db) (operationID : String) : Prop where
  intent : ∀ row ∈ db.operations, row.operationID = operationID →
    canonicalSize (codec.intentSize row.canonicalIntent)
  obligationSet : ∀ s ∈ db.obligationSets, s.operationID = operationID →
    canonicalSize (codec.obligationSetSize s.canonicalSet)
  obligations : ∀ o ∈ db.obligations, o.operationID = operationID →
    canonicalSize (codec.obligationSize o.canonicalObligation)
  receipts : ∀ r ∈ db.receipts, r.operationID = operationID →
    canonicalSize (codec.custodianReceiptSize r.canonicalReceipt)
  completion : ∀ c ∈ db.completions, c.operationID = operationID →
    canonicalSize (codec.completionSize c.canonicalCompletion)

theorem Integral.load (h : Integral codec v db) (hrow : row ∈ db.operations)
    (hsize : canonicalSize (codec.intentSize row.canonicalIntent)) :
    loadLifecycleOperation codec row.operationID db = .ok (some row) := by
  have hsound := h.rows row hrow
  have hfind : db.operation? row.operationID = some row := find?_of_unique h.ids hrow rfl
  simp only [loadLifecycleOperation, hfind, hsize, hsound.intent, hsound.digest, hsound.stored,
    beq_self_eq_true, Bool.and_self, if_true]

theorem Evidenced.loadObligationSet (h : Evidenced codec v db) (hs : s ∈ db.obligationSets)
    (hsize : canonicalSize (codec.obligationSetSize s.canonicalSet)) :
    loadObligationSet codec s.operationID db = .ok (some s) := by
  have hfind : db.obligationSets.find? (·.operationID == s.operationID) = some s :=
    find?_of_unique h.setIDs hs rfl
  have hdigest : codec.obligationSetDigest s.canonicalSet = s.setDigest := by
    rw [(h.sets s hs).columns]
  simp only [Sqlite.loadObligationSet, hfind, hsize, (h.sets s hs).valid, hdigest, beq_self_eq_true,
    Bool.and_self, if_true]

theorem Evidenced.loadReceiptByID (h : Evidenced codec v db) (hr : r ∈ db.receipts)
    (hintact : intactReceipt codec r) : loadReceiptByID codec r.receiptID db = .ok (some r) := by
  have hfind : db.receipts.find? (·.receiptID == r.receiptID) = some r :=
    find?_of_unique h.receiptIDs hr rfl
  simp only [Sqlite.loadReceiptByID, hfind, hintact, if_true]

theorem Evidenced.loadCompletion (h : Evidenced codec v db) (hc : c ∈ db.completions)
    (hsize : canonicalSize (codec.completionSize c.canonicalCompletion)) :
    loadCompletion codec c.operationID db = .ok (some c) := by
  have hfind : db.completions.find? (·.operationID == c.operationID) = some c :=
    find?_of_unique h.completionIDs hc rfl
  have hkept := h.completions c hc
  have hcolumns := hkept.columns
  have hdigest : codec.completionDigest c.canonicalCompletion = c.completionDigest := by
    rw [hcolumns]
    rfl
  have hid : c.canonicalCompletion.operationID = c.operationID := by
    rw [hcolumns]
    rfl
  have hcompletedAt : c.canonicalCompletion.completedAt = c.completedAt := by
    rw [hcolumns]
    rfl
  simp only [Sqlite.loadCompletion, hfind, hsize, hkept.valid, hdigest, hid, hcompletedAt,
    beq_self_eq_true, Bool.and_self, if_true]

theorem KeptReceipt.intact (h : KeptReceipt codec v db r)
    (hsize : canonicalSize (codec.custodianReceiptSize r.canonicalReceipt)) :
    intactReceipt codec r := by
  obtain ⟨o, -, -, -, hok⟩ := h.meets
  obtain ⟨u, hok⟩ := exists_ok hok
  obtain ⟨hvalid, -⟩ := ensure_bind.1 hok
  simp only [Bool.and_eq_true] at hvalid
  rw [h.columns] at hsize hvalid ⊢
  simp only [receiptRow] at hsize hvalid ⊢
  simp only [intactReceipt, hsize, hvalid, beq_self_eq_true, Bool.and_self]

/-- The obligations of valid sets are intact. -/
theorem Evidenced.intactObligation (h : Evidenced codec v db) (ho : o ∈ db.obligations)
    (hsize : canonicalSize (codec.obligationSize o.canonicalObligation)) :
    intactObligation codec o ∧ o = obligationRow codec o.canonicalObligation := by
  rw [h.obligations, List.mem_flatMap] at ho
  obtain ⟨s, hs, hrow⟩ := ho
  obtain ⟨obligation, ho, rfl⟩ := List.mem_map.1 hrow
  have hvalid := (h.sets s hs).valid
  simp only [validateBackupObligationSet, Bool.and_eq_true, List.all_eq_true] at hvalid
  have hobligation := (hvalid.2 obligation ho).1.1.1
  refine ⟨?_, rfl⟩
  simp only [obligationRow] at hsize ⊢
  simp only [Sqlite.intactObligation, hsize, hobligation, beq_self_eq_true, Bool.and_self]

theorem mem_obligationsOf :
    o ∈ db.obligationsOf operationID ↔ o ∈ db.obligations ∧ o.operationID = operationID := by
  rw [Db.obligationsOf, List.mem_insertionSort, List.mem_filter, beq_iff_eq]

theorem mem_receiptsOf :
    r ∈ db.receiptsOf operationID ↔ r ∈ db.receipts ∧ r.operationID = operationID := by
  rw [Db.receiptsOf, List.mem_filter, beq_iff_eq]

theorem Evidenced.loadBackupEvidence (h : Evidenced codec v db)
    (hfits : Fits codec db operationID) :
    loadBackupEvidence codec operationID db = .ok (db.evidenceOf operationID) := by
  refine ensure_bind.2 ⟨?_, ensure_bind.2 ⟨?_, rfl⟩⟩
  · refine List.all_eq_true.2 fun o ho => ?_
    obtain ⟨ho, hid⟩ := mem_obligationsOf.1 ho
    exact (h.intactObligation ho (hfits.obligations o ho hid)).1
  · refine List.all_eq_true.2 fun r hr => ?_
    obtain ⟨hr, hid⟩ := mem_receiptsOf.1 hr
    exact (h.receipts r hr).intact (hfits.receipts r hr hid)

/-! ## Completed operations -/

/-- A list with one entry of each domain, in their order. -/
theorem exists_of_domains {α : Type} {domain : α → BackupDomain} {xs : List α}
    (h : xs.map domain = backupDomains) :
    ∃ e i a, xs = [e, i, a] ∧ domain e = .event ∧ domain i = .identity ∧ domain a = .audit := by
  have hlen : xs.length = 3 := by simpa [backupDomains] using congrArg List.length h
  obtain ⟨e, i, a, rfl⟩ := List.length_eq_three.1 hlen
  simp only [List.map_cons, List.map_nil, backupDomains, List.cons.injEq, and_true] at h
  exact ⟨e, i, a, rfl, h⟩

theorem getElem?_indexDomain {α : Type} {domain : α → BackupDomain} {xs : List α}
    (h : xs.map domain = backupDomains) {d : BackupDomain} (hd : d ∈ backupDomains) {x : α}
    (hx : xs[indexDomain d]? = some x) : x ∈ xs ∧ domain x = d := by
  refine ⟨List.mem_of_getElem? hx, ?_⟩
  have hindex : ∀ d ∈ backupDomains, backupDomains[indexDomain d]? = some d := by decide
  have hdomain : (xs.map domain)[indexDomain d]? = some (domain x) := by
    rw [List.getElem?_map, hx]
    rfl
  rw [h, hindex d hd] at hdomain
  exact (Option.some.inj hdomain).symm

theorem domains_of_validCompletion {evidence : CompletionEvidence}
    (h : validateCompletionEvidence evidence) :
    evidence.receipts.map (·.domain) = backupDomains ∧ validTime evidence.completedAt := by
  simp only [validateCompletionEvidence, Bool.and_eq_true, beq_iff_eq] at h
  exact ⟨h.1.2, h.1.1.2⟩

theorem domains_of_valid (h : validateBackupObligationSet set) :
    set.obligations.map (·.domain) = backupDomains := by
  simp only [validateBackupObligationSet, Bool.and_eq_true, beq_iff_eq] at h
  exact h.1.2

/-- The obligations of an operation are those of its set. -/
theorem Evidenced.obligationsOf_eq (h : Evidenced codec v db) (hs : s ∈ db.obligationSets) :
    db.obligationsOf s.operationID = s.canonicalSet.obligations.map (obligationRow codec) := by
  have hcolumn : ∀ s ∈ db.obligationSets, s.canonicalSet.operationID = s.operationID := by
    intro s hs
    have := (h.sets s hs).columns
    rw [this]
  have hrows : ∀ s ∈ db.obligationSets, ∀ r ∈ s.canonicalSet.obligations.map (obligationRow codec),
      r.operationID = s.operationID := by
    intro s hs r hr
    obtain ⟨o, ho, rfl⟩ := List.mem_map.1 hr
    exact (operationID_of_mem_set (h.sets s hs).valid ho).trans (hcolumn s hs)
  rw [Db.obligationsOf, h.obligations, filter_flatMap_of_unique h.setIDs hrows hs]
  refine List.Pairwise.insertionSort_eq ?_
  obtain ⟨e, i, a, hset, he, hi, ha⟩ := exists_of_domains (domains_of_valid (h.sets s hs).valid)
  simp [hset, obligationRow, he, hi, ha, indexDomain]

/-- The obligations that are loaded are those of the bound set. -/
theorem Evidenced.obligations_eq (h : Evidenced codec v db) (hs : s ∈ db.obligationSets) :
    (db.evidenceOf s.operationID).obligations = s.canonicalSet.obligations := by
  simp only [Db.evidenceOf, h.obligationsOf_eq hs, List.map_map]
  exact List.map_id _

/-- The operation that a document of the backup evidence names. -/
structure Concerns (db : Db) (row : OperationRow) (operationID intentDigest policyDigest : String) :
    Prop where
  mem : row ∈ db.operations
  operationID : row.operationID = operationID
  intentDigest : row.intentDigest = intentDigest
  policyDigest : row.canonicalIntent.policyDigest = policyDigest
  order : 5 ≤ order row.state

/-- A valid completion that references the receipts stored for its operation. -/
structure Supported (codec : Codec) (db : Db) (row : OperationRow) (evidence : CompletionEvidence) :
    Prop extends Concerns db row evidence.operationID evidence.intentDigest
      evidence.policyDigest where
  valid : validateCompletionEvidence evidence
  references : completionReferencesStored codec evidence (db.evidenceOf row.operationID)

/-- A stored completion is one. -/
theorem Evidenced.supported (h : Evidenced codec v db)
    (hc : c ∈ db.completions) : ∃ row, Supported codec db row c.canonicalCompletion ∧
      row.operationID = c.operationID ∧ row.state = .completed := by
  obtain ⟨hcolumns, hvalid, -, ⟨row, hrow, hid, hstate, hdigest, hpolicy⟩, href⟩ :=
    h.completions c hc
  refine ⟨row, ⟨⟨hrow, ?_, hdigest, hpolicy, by simp [hstate, order]⟩, hvalid, hid ▸ href⟩, hid,
    hstate⟩
  rw [hid, hcolumns]
  rfl

/-- What a completion references. -/
structure Referenced (db : Db) (row : OperationRow) (evidence : CompletionEvidence)
    (reference : ReceiptEvidence) (r : ReceiptRow) (o : ObligationRow) : Prop where
  receipt : r ∈ db.receiptsOf row.operationID
  obligation : o ∈ db.obligationsOf row.operationID
  domain : r.domain = reference.domain ∧ o.domain = reference.domain
  receiptID : reference.receiptID = r.receiptID
  receiptDigest : reference.receiptDigest = r.receiptDigest
  succeeded : r.outcome = .succeeded
  deadline : r.evidenceTime ≤ o.deadline
  completedAt : r.evidenceTime ≤ evidence.completedAt

variable {evidence : CompletionEvidence}

theorem Evidenced.referenced (h : Evidenced codec v db) (hsup : Supported codec db row evidence)
    {reference : ReceiptEvidence} (href : reference ∈ evidence.receipts) :
    ∃ r o, Referenced db row evidence reference r o := by
  obtain ⟨s, hs, hsid⟩ := h.bound row hsup.mem hsup.order
  have hstored : (db.evidenceOf row.operationID).obligations = s.canonicalSet.obligations := by
    rw [← hsid]
    exact h.obligations_eq hs
  have href' := hsup.references
  simp only [completionReferencesStored, Bool.and_eq_true, List.all_eq_true] at href'
  have href' := href'.2 reference href
  rw [hstored] at href'
  split at href'
  · next receipt obligation hlast hindex =>
    simp only [Bool.and_eq_true, beq_iff_eq, decide_eq_true_eq] at href'
    obtain ⟨⟨⟨⟨⟨-, hreceiptID⟩, hdigest⟩, houtcome⟩, hdeadline⟩, hcompleted⟩ := href'
    have hknown : reference.domain ∈ backupDomains := by
      rw [← (domains_of_validCompletion hsup.valid).1]
      exact List.mem_map_of_mem href
    obtain ⟨ho, hdomain⟩ :=
      getElem?_indexDomain (domains_of_valid (h.sets s hs).valid) hknown hindex
    have hmem := List.mem_of_find?_eq_some hlast
    have hdomain' := List.find?_some hlast
    rw [List.mem_reverse, Db.evidenceOf, List.mem_map] at hmem
    obtain ⟨r, hr, rfl⟩ := hmem
    have hcolumns := (h.receipts r (List.mem_filter.1 hr).1).columns
    refine ⟨r, obligationRow codec obligation, hr, ?_, ⟨?_, hdomain⟩, ?_, ?_, ?_, ?_, ?_⟩
    · rw [← hsid, h.obligationsOf_eq hs]
      exact List.mem_map_of_mem ho
    · rw [hcolumns]
      exact beq_iff_eq.1 hdomain'
    · rw [hcolumns]
      exact hreceiptID
    · rw [hcolumns]
      exact hdigest
    · rw [hcolumns]
      exact houtcome
    · rw [hcolumns]
      exact hdeadline
    · rw [hcolumns]
      exact hcompleted
  · cases href'

/-- What is stored for a completed operation: one receipt of each domain, which meets the bound
obligation of its domain, was accepted by the verifier and succeeded in time, and the completion
that references these receipts and is not earlier than any of them. -/
structure SoundCompletion (codec : Codec) (v : Verdicts) (db : Db) (row : OperationRow) : Prop where
  domains : ((db.receiptsOf row.operationID).map (·.domain)).Perm backupDomains
  receipts : ∀ r ∈ db.receiptsOf row.operationID, r = receiptRow codec r.canonicalReceipt ∧
    ∃ o ∈ db.obligationsOf row.operationID, o.domain = r.domain ∧
      (∀ o' ∈ db.obligationsOf row.operationID, o'.domain = r.domain → o' = o) ∧
      validateReceiptObligation r.canonicalReceipt o.canonicalObligation o.obligationDigest =
        .ok () ∧
      v.custodian r.canonicalReceipt.verificationKeyID r.canonicalReceipt.signatureAlgorithm
        (codec.custodianReceiptSigning r.canonicalReceipt) r.canonicalReceipt.detachedSignature ∧
      r.outcome = .succeeded ∧ NotLater r.evidenceTime o.deadline
  completion : ∃ c ∈ db.completions, c.operationID = row.operationID ∧
    (∀ c' ∈ db.completions, c'.operationID = row.operationID → c' = c) ∧
    (c.canonicalCompletion.receipts.map fun x => (x.domain, x.receiptID, x.receiptDigest)).Perm
      ((db.receiptsOf row.operationID).map fun r => (r.domain, r.receiptID, r.receiptDigest)) ∧
    ∀ r ∈ db.receiptsOf row.operationID, NotLater r.evidenceTime c.completedAt

theorem nodup_backupDomains : backupDomains.Nodup := by decide

/-- The obligations of an operation are one for each domain. -/
theorem Evidenced.obligationsOf_domains (h : Evidenced codec v db) (hrow : row ∈ db.operations)
    (hord : 5 ≤ order row.state) :
    (db.obligationsOf row.operationID).map (·.domain) = backupDomains := by
  obtain ⟨s, hs, hsid⟩ := h.bound row hrow hord
  rw [← hsid, h.obligationsOf_eq hs, List.map_map]
  exact domains_of_valid (h.sets s hs).valid

/-- The obligation of a domain. -/
theorem Evidenced.loadObligation (h : Evidenced codec v db) (hrow : row ∈ db.operations)
    (hord : 5 ≤ order row.state) (hfits : Fits codec db row.operationID)
    (ho : o ∈ db.obligations) (hid : o.operationID = row.operationID) :
    loadObligation codec row.operationID o.domain db = .ok o := by
  obtain ⟨hintact, hcolumns⟩ := h.intactObligation ho (hfits.obligations o ho hid)
  refine required_bind.2 ⟨o, ?_, ensure_bind.2 ⟨?_, rfl⟩⟩
  · cases hfind : db.obligations.find? fun r =>
        r.operationID == row.operationID && r.domain == o.domain with
    | none =>
      have hnone := List.find?_eq_none.1 hfind o ho
      simp [hid] at hnone
    | some found =>
      have hkeys := List.find?_some hfind
      simp only [Bool.and_eq_true, beq_iff_eq] at hkeys
      have hdomains := h.obligationsOf_domains hrow hord
      refine congrArg some (List.inj_on_of_nodup_map (hdomains ▸ nodup_backupDomains)
        (mem_obligationsOf.2 ⟨List.mem_of_find?_eq_some hfind, hkeys.1⟩)
        (mem_obligationsOf.2 ⟨ho, hid⟩) hkeys.2)
  · rw [hcolumns] at hid
    rw [hintact, Bool.true_and, beq_iff_eq]
    exact hid

/-- The times of a receipt and of the obligation that it meets are valid. -/
theorem validTime_of_meets {receipt : CustodianReceipt} {obligation : BackupObligation}
    {digest : String} (h : validateReceiptObligation receipt obligation digest = .ok ()) :
    validTime receipt.evidenceTime ∧ validTime obligation.deadline := by
  unfold validateReceiptObligation at h
  obtain ⟨hvalid, -⟩ := ensure_bind.1 h
  simp only [validateCustodianReceipt, validateBackupObligation, Bool.and_eq_true] at hvalid
  exact ⟨hvalid.1.1.1.1.1.2, hvalid.2.1.2⟩

/-- A completion references a receipt of each domain. -/
theorem Evidenced.referenced_domain (h : Evidenced codec v db)
    (hsup : Supported codec db row evidence) {domain : BackupDomain}
    (hmem : domain ∈ backupDomains) :
    ∃ x ∈ evidence.receipts, ∃ r o, Referenced db row evidence x r o ∧ x.domain = domain := by
  rw [← (domains_of_validCompletion hsup.valid).1] at hmem
  obtain ⟨x, hx, rfl⟩ := List.mem_map.1 hmem
  obtain ⟨r, o, href⟩ := h.referenced hsup hx
  exact ⟨x, hx, r, o, href, rfl⟩

theorem Supported.length_receiptsOf (hsup : Supported codec db row evidence) :
    (db.receiptsOf row.operationID).length = 3 := by
  have hreferences := hsup.references
  simp only [completionReferencesStored, Bool.and_eq_true, beq_iff_eq] at hreferences
  simpa [Db.evidenceOf] using hreferences.1.1.2

/-- Three receipts that cover the three domains are one of each. -/
theorem Evidenced.receiptsOf_domains (h : Evidenced codec v db)
    (hsup : Supported codec db row evidence) :
    ((db.receiptsOf row.operationID).map (·.domain)).Perm backupDomains := by
  refine ((List.subperm_of_subset nodup_backupDomains fun domain hmem => ?_).perm_of_length_le
    ?_).symm
  · obtain ⟨x, -, r, o, href, rfl⟩ := h.referenced_domain hsup hmem
    exact List.mem_map.2 ⟨r, href.receipt, href.domain.1⟩
  · rw [List.length_map, hsup.length_receiptsOf]
    rfl

theorem Evidenced.nodup_receiptsOf (h : Evidenced codec v db)
    (hsup : Supported codec db row evidence) :
    ((db.receiptsOf row.operationID).map (·.domain)).Nodup :=
  (h.receiptsOf_domains hsup).nodup_iff.2 nodup_backupDomains

/-- Every receipt of the operation is referenced. -/
theorem Evidenced.referenced_receipt (h : Evidenced codec v db)
    (hsup : Supported codec db row evidence)
    (hr : r ∈ db.receiptsOf row.operationID) : ∃ x o, Referenced db row evidence x r o := by
  obtain ⟨x, -, r', o, href, hdomain⟩ := h.referenced_domain hsup
    ((h.receiptsOf_domains hsup).subset (List.mem_map_of_mem hr))
  obtain rfl := List.inj_on_of_nodup_map (h.nodup_receiptsOf hsup) hr href.receipt
    (hdomain.symm.trans href.domain.1.symm)
  exact ⟨x, o, href⟩

/-- An operation has one obligation of a domain. -/
theorem Evidenced.obligation_unique (h : Evidenced codec v db) (hrow : row ∈ db.operations)
    (hord : 5 ≤ order row.state) {o' : ObligationRow} (ho : o ∈ db.obligationsOf row.operationID)
    (ho' : o' ∈ db.obligationsOf row.operationID) (hdomain : o'.domain = o.domain) : o' = o :=
  List.inj_on_of_nodup_map (h.obligationsOf_domains hrow hord ▸ nodup_backupDomains) ho' ho hdomain

/-- A stored receipt meets the obligation of its domain. -/
theorem Evidenced.meets (h : Evidenced codec v db) (hrow : row ∈ db.operations)
    (hord : 5 ≤ order row.state) (hr : r ∈ db.receiptsOf row.operationID)
    (ho : o ∈ db.obligationsOf row.operationID) (hdomain : o.domain = r.domain) :
    validateReceiptObligation r.canonicalReceipt o.canonicalObligation o.obligationDigest =
      .ok () := by
  obtain ⟨hmem, hid⟩ := mem_receiptsOf.1 hr
  obtain ⟨o', ho', hoid, hdomain', hok⟩ := (h.receipts r hmem).meets
  have hmem' : o' ∈ db.obligationsOf row.operationID := mem_obligationsOf.2 ⟨ho', hoid.trans hid⟩
  rw [← h.obligation_unique hrow hord ho hmem' (hdomain'.trans hdomain.symm)]
  obtain ⟨u, hu⟩ := exists_ok hok
  exact hu

/-- The columns of a stored obligation. -/
theorem Evidenced.obligation_columns (h : Evidenced codec v db)
    (ho : o ∈ db.obligations) : o = obligationRow codec o.canonicalObligation := by
  rw [h.obligations, List.mem_flatMap] at ho
  obtain ⟨s, -, hrow⟩ := ho
  obtain ⟨obligation, -, rfl⟩ := List.mem_map.1 hrow
  rfl

/-- The completion references the receipts that are stored. -/
theorem Evidenced.references_perm (h : Evidenced codec v db)
    (hsup : Supported codec db row evidence) :
    (evidence.receipts.map fun x => (x.domain, x.receiptID, x.receiptDigest)).Perm
      ((db.receiptsOf row.operationID).map fun r => (r.domain, r.receiptID, r.receiptDigest)) := by
  have hdomains := (domains_of_validCompletion hsup.valid).1
  refine (List.subperm_of_subset ?_ fun y hy => ?_).perm_of_length_le ?_
  · refine List.Nodup.of_map (fun y : BackupDomain × String × String => y.1) ?_
    rw [List.map_map]
    exact hdomains ▸ nodup_backupDomains
  · obtain ⟨x, hx, rfl⟩ := List.mem_map.1 hy
    obtain ⟨r, o, href⟩ := h.referenced hsup hx
    refine List.mem_map.2 ⟨r, href.receipt, ?_⟩
    rw [href.domain.1, href.receiptID, href.receiptDigest]
  · have hthree : evidence.receipts.length = 3 := by
      simpa [backupDomains] using congrArg List.length hdomains
    rw [List.length_map, List.length_map, hsup.length_receiptsOf, hthree]

/-- **What the invariant says of a completed operation.** -/
theorem Evidenced.soundCompletion (h : Evidenced codec v db) (hrow : row ∈ db.operations)
    (hstate : row.state = .completed) : SoundCompletion codec v db row := by
  obtain ⟨c, hc, hcid⟩ := h.completed row hrow hstate
  obtain ⟨row', hsup, hid, -⟩ := h.supported hc
  obtain rfl := h.eq_of_id hsup.mem hrow (hid.trans hcid)
  have hmeets : ∀ r ∈ db.receiptsOf row'.operationID, ∃ x o,
      Referenced db row' c.canonicalCompletion x r o ∧ o.domain = r.domain ∧
      validTime r.evidenceTime = true ∧
      validateReceiptObligation r.canonicalReceipt o.canonicalObligation o.obligationDigest =
        .ok () := by
    intro r hr
    obtain ⟨x, o, href⟩ := h.referenced_receipt hsup hr
    have hdomain := href.domain.2.trans href.domain.1.symm
    have hok := h.meets hrow hsup.order hr href.obligation hdomain
    refine ⟨x, o, href, hdomain, ?_, hok⟩
    rw [(h.receipts r (mem_receiptsOf.1 hr).1).columns]
    exact (validTime_of_meets hok).1
  refine ⟨h.receiptsOf_domains hsup, fun r hr => ?_, c, hc, hcid, fun c' hc' hcid' => ?_,
    h.references_perm hsup, fun r hr => ?_⟩
  · obtain ⟨x, o, href, hdomain, htime, hok⟩ := hmeets r hr
    have hreceipt := h.receipts r (mem_receiptsOf.1 hr).1
    refine ⟨hreceipt.columns, o, href.obligation, hdomain, fun o' ho' heq =>
      h.obligation_unique hrow hsup.order href.obligation ho' (heq.trans hdomain.symm), hok,
      hreceipt.accepted, href.succeeded, ?_⟩
    refine notLater_of_le htime ?_ href.deadline
    rw [h.obligation_columns (mem_obligationsOf.1 href.obligation).1]
    exact (validTime_of_meets hok).2
  · exact List.inj_on_of_nodup_map h.completionIDs hc' hc (hcid'.trans hcid.symm)
  · obtain ⟨x, o, href, -, htime, -⟩ := hmeets r hr
    have hcompletedAt : c.completedAt = c.canonicalCompletion.completedAt := by
      rw [(h.completions c hc).columns]
      rfl
    rw [hcompletedAt]
    exact notLater_of_le htime (domains_of_validCompletion hsup.valid).2 href.completedAt

end

/-! ## The canonical form of a recovery -/

section
variable {codec : Codec} {verify : CustodianVerifier Id} {reference : OperationReference}

/-- What `ClassifyBackupRecovery` or `InspectBackupRecovery` returns. -/
def Recovered (codec : Codec) (verify : CustodianVerifier Id) (reference : OperationReference)
    (value : BackupRecovery) : Prop :=
  (∃ obligations receipts, value = Judge.recoveryOf ⟨codec, verify, obligations⟩ reference
    receipts) ∨
    ∃ commits db, inspectBackupRecovery (m := Id) codec verify reference commits db = .ok value

/-- The inspection returns the clone of a classification of what its transaction read, or the
corrupt recovery where that is not evidence to classify. -/
theorem inspectBackupRecovery_ok {commits : Bool} {db : Db} {value : BackupRecovery}
    (h : inspectBackupRecovery (m := Id) codec verify reference commits db = .ok value) :
    validateOperationReference reference = true ∧
      ((recoveryEvidence codec reference db = .ok none ∧ value = corruptRecovery reference) ∨
        ∃ evidence, recoveryEvidence codec reference db = .ok (some evidence) ∧
          value = cloneBackupRecovery
            (Judge.recoveryOf ⟨codec, verify, evidence.obligations⟩ reference
              evidence.receipts)) := by
  unfold inspectBackupRecovery at h
  split at h
  · cases h
  · next href =>
    rw [Bool.not_eq_true, Bool.not_eq_false'] at href
    refine ⟨href, ?_⟩
    split at h
    · cases h
    · next hread =>
      cases h
      exact .inl ⟨hread, rfl⟩
    · next evidence hread =>
      split at h
      · cases h
      · exact .inr ⟨evidence, hread, (Except.ok.inj h).symm⟩

/-- The clone of a recovery keeps its form where the recovery does. -/
theorem keepsForm_clone {digest : String → String} {value : BackupRecovery} :
    KeepsForm digest (cloneBackupRecovery value) ↔ KeepsForm digest value := by
  by_cases hnil : value.findings.getD [] = []
  · refine iff_of_false (fun h => ?_) fun h => (keepsForm_iff.1 h).2 hnil
    refine (keepsForm_iff.1 h).2 ?_
    rw [cloneBackupRecovery, if_pos hnil]
    rfl
  · rw [cloneBackupRecovery, if_neg hnil]

/-- **The canonical form of recoveries.** A classification has a canonical form that its clone
shares, with an array of findings, exactly when there is something to find in the evidence. So has
the result of an inspection, of the evidence that its transaction read. -/
theorem canonicalBackupRecovery_clone (digest : String → String) :
    (∀ (judge : Judge) receipts, CollisionFree judge.codec receipts →
      (KeepsForm digest (judge.recoveryOf reference receipts) ↔ judge.Finds reference receipts)) ∧
    ∀ commits db value,
      inspectBackupRecovery (m := Id) codec verify reference commits db = .ok value →
      (∀ evidence, recoveryEvidence codec reference db = .ok (some evidence) →
        CollisionFree codec evidence.receipts) →
      (KeepsForm digest value ↔
        ∀ evidence, recoveryEvidence codec reference db = .ok (some evidence) →
          Judge.Finds ⟨codec, verify, evidence.obligations⟩ reference evidence.receipts) := by
  refine ⟨fun _ _ hfree => keepsForm_recoveryOf hfree, fun commits db value h hfree => ?_⟩
  obtain ⟨href, ⟨hread, rfl⟩ | ⟨evidence, hread, rfl⟩⟩ := inspectBackupRecovery_ok h
  · refine iff_of_true (keepsForm_iff.2 ⟨?_, List.cons_ne_nil _ _⟩) fun evidence hevidence => ?_
    · simp [validateBackupRecovery, corruptRecovery, href, validFindings, validReason,
        validBackupDomain, indexDomain]
    · rw [hread] at hevidence
      cases hevidence
  · rw [keepsForm_clone, keepsForm_recoveryOf (j := ⟨_, _, _⟩) (hfree evidence hread)]
    refine ⟨fun hfinds evidence' hevidence => ?_, fun hall => hall evidence hread⟩
    rw [hread] at hevidence
    cases hevidence
    exact hfinds

/-- Without a receipt there is evidence to be found missing. -/
theorem canonicalBackupRecovery_clone_pending :
    KeepsForm id (evidenceJudge.recoveryOf evidenceReference []) := by
  refine ((@canonicalBackupRecovery_clone evidenceCodec evidenceJudge.verify _ id).1 _ []
    (by simp [CollisionFree])).2 ?_
  refine ⟨obligationsOf_evidence, ?_, .event, by decide, ?_⟩
  · exact not_refused_of_all (by simp) (by simp [OneDomainEach])
  · rintro ⟨r, hr, -⟩
    cases hr

/-- Without obligations the recovery is corrupt with no findings, and `null` stands for them. -/
theorem canonicalBackupRecovery_null : ¬ ∀ (codec : Codec) (verify : CustodianVerifier Id)
    (reference : OperationReference) (value : BackupRecovery) (digest : String → String),
    Recovered codec verify reference value → KeepsForm digest value := by
  intro hall
  have hkeeps := hall evidenceCodec (fun _ _ _ _ => .ok ()) evidenceReference _ id
    (.inl ⟨[], [], rfl⟩)
  refine (keepsForm_iff.1 hkeeps).2 ?_
  rw [recoveryOf_of_not (by simp [obligationsOf, backupDomains])]
  rfl

end

end YukhCoordination.Relay.Sqlite
