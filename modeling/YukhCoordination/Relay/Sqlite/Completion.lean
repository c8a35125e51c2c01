import YukhCoordination.Relay.Lifecycle.Obligations
import YukhCoordination.Relay.Sqlite.Idempotence

/-!
# The backup stage to its end

Where their documents are in order, the calls of the backup stage succeed, up to `Complete`.
-/

namespace YukhCoordination.Relay.Sqlite

open Lifecycle Transaction Interleave

/-- No stored document has the digest of the set or of one of its obligations, and their digests
differ. -/
structure Fresh (codec : Codec) (db : Db) (set : BackupObligationSet) : Prop where
  setDigest : ∀ s ∈ db.obligationSets, s.setDigest ≠ codec.obligationSetDigest set
  obligationDigest : ∀ o ∈ db.obligations,
    o.obligationDigest ∉ set.obligations.map codec.obligationDigest
  distinct : (set.obligations.map codec.obligationDigest).Nodup

variable {p q : Pool} {n : Nat} {domain : BackupDomain}

section
variable {codec : Codec} {v : Verdicts} {db : Db} {row : OperationRow}

/-- The `UPDATE` of an operation in the state that it asks for. -/
theorem updateOperation_advances {intentDigest : String} {state : SagaState}
    {change : OperationRow → OperationRow} (hids : (db.operations.map (·.operationID)).Nodup)
    (hrow : row ∈ db.operations) (hdigest : row.intentDigest = intentDigest)
    (hstate : row.state = state) (hchange : (change row).operationID = row.operationID) :
    updateOperation row.operationID intentDigest state change db =
      .ok { db with operations := db.put (change row) } := by
  have hp : ∀ r ∈ db.operations, (r.operationID == row.operationID &&
      r.intentDigest == intentDigest && r.state == state) = true ↔ r = row := by
    intro r hr
    simp only [Bool.and_eq_true, beq_iff_eq]
    refine ⟨fun h => List.inj_on_of_nodup_map hids hr hrow h.1.1, ?_⟩
    rintro rfl
    exact ⟨⟨rfl, hdigest⟩, hstate⟩
  have hone : db.operations.countP (fun r => r.operationID == row.operationID &&
      r.intentDigest == intentDigest && r.state == state) = 1 := by
    have hcount : db.operations.count row = 1 := List.count_eq_one_of_mem hids.of_map hrow
    rw [← hcount, List.count]
    refine List.countP_congr fun r hr => ?_
    rw [hp r hr, beq_iff_eq]
  refine required_bind.2 ⟨_, if_pos hone, ?_⟩
  refine congrArg Except.ok (congrArg (fun operations => { db with operations }) ?_)
  refine List.map_congr_left fun r hr => ?_
  by_cases hsame : r = row
  · subst hsame
    rw [if_pos ((hp r hr).2 rfl), if_pos hchange.symm]
  · rw [if_neg fun h => hsame ((hp r hr).1 h), if_neg]
    exact fun h => hsame (List.inj_on_of_nodup_map hids hr hrow (h.trans hchange))

/-! ## Obligations -/

theorem insertObligations_of {obligations : List BackupObligation}
    (hvalid : ∀ o ∈ obligations, validateBackupObligation o)
    (hnew : ∀ r ∈ db.obligations, ∀ o ∈ obligations,
      (r.operationID = o.operationID → r.domain ≠ o.domain) ∧
        r.obligationDigest ≠ codec.obligationDigest o)
    (hdomains : (obligations.map (·.domain)).Nodup)
    (hdigests : (obligations.map codec.obligationDigest).Nodup) :
    insertObligations codec obligations db =
      .ok { db with obligations := db.obligations ++ obligations.map (obligationRow codec) } := by
  induction obligations generalizing db with
  | nil => simp [insertObligations]
  | cons o obligations ih =>
    have hinsert : db.insertObligation (obligationRow codec o) =
        some { db with obligations := db.obligations ++ [obligationRow codec o] } := by
      refine if_neg fun hany => ?_
      obtain ⟨r, hr, hsame⟩ := List.any_eq_true.1 hany
      obtain ⟨hkey, hdigest⟩ := hnew r hr o List.mem_cons_self
      simp only [Bool.or_eq_true, Bool.and_eq_true, beq_iff_eq] at hsame
      rcases hsame with hsame | hsame
      · exact hkey hsame.1 hsame.2
      · exact hdigest hsame
    rw [List.map_cons, List.nodup_cons] at hdomains hdigests
    refine ensure_bind.2 ⟨hvalid o List.mem_cons_self, required_bind.2 ⟨_, hinsert, ?_⟩⟩
    rw [ih (fun o' ho' => hvalid o' (List.mem_cons_of_mem _ ho')) ?_ hdomains.2 hdigests.2]
    · simp
    · intro r hr o' ho'
      rcases List.mem_append.1 hr with hr | hr
      · exact hnew r hr o' (List.mem_cons_of_mem _ ho')
      · obtain rfl := List.mem_singleton.1 hr
        refine ⟨fun _ hdomain => hdomains.1 ?_, fun hdigest => hdigests.1 ?_⟩
        · exact List.mem_map.2 ⟨o', ho', hdomain.symm⟩
        · exact List.mem_map.2 ⟨o', ho', hdigest.symm⟩

/-- An operation whose obligations are not bound has no set. -/
theorem Evidenced.no_set (h : Evidenced codec v db) (hrow : row ∈ db.operations)
    (hord : order row.state < 5) : ∀ s ∈ db.obligationSets, s.operationID ≠ row.operationID := by
  intro s hs hid
  obtain ⟨row', hrow', hid', hord', -⟩ := (h.sets s hs).operation
  rw [h.eq_of_id hrow' hrow (hid'.trans hid)] at hord'
  omega

/-- The database with a new obligation set, before its obligations are inserted. -/
def Db.withSet (codec : Codec) (set : BackupObligationSet) (db : Db) : Db :=
  { db with obligationSets := db.obligationSets ++
      [⟨set.operationID, codec.obligationSetDigest set, set⟩] }

/-- The database after the obligations of an operation were bound. -/
def boundDb (codec : Codec) (set : BackupObligationSet) (row : OperationRow) (db : Db) : Db :=
  { db.withSet codec set with
    obligations := db.obligations ++ set.obligations.map (obligationRow codec)
    operations := db.put { row with state := .backupsPending } }

section
variable {set : BackupObligationSet}

theorem Fresh.insertObligationSet (hfresh : Fresh codec db set)
    (hnone : ∀ s ∈ db.obligationSets, s.operationID ≠ set.operationID) :
    db.insertObligationSet ⟨set.operationID, codec.obligationSetDigest set, set⟩ =
      some (db.withSet codec set) :=
  if_neg (not_any_of_ne fun s hs => ⟨hnone s hs, hfresh.setDigest s hs⟩)

theorem Fresh.insertObligations (hfresh : Fresh codec db set) (h : Evidenced codec v db)
    (hvalid : validateBackupObligationSet set)
    (hnone : ∀ s ∈ db.obligationSets, s.operationID ≠ set.operationID) :
    insertObligations codec set.obligations (db.withSet codec set) = .ok { db.withSet codec set with
        obligations := db.obligations ++ set.obligations.map (obligationRow codec) } := by
  have hall := hvalid
  simp only [validateBackupObligationSet, Bool.and_eq_true, List.all_eq_true, beq_iff_eq] at hall
  refine insertObligations_of (fun o ho => (hall.2 o ho).1.1.1) (fun r hr o ho => ⟨?_, ?_⟩)
    (domains_of_valid hvalid ▸ nodup_backupDomains) hfresh.distinct
  · -- A stored obligation of the operation would come from a set of it.
    intro hrid
    change r ∈ db.obligations at hr
    rw [h.obligations, List.mem_flatMap] at hr
    obtain ⟨s, hs, hr⟩ := hr
    obtain ⟨o', ho', rfl⟩ := List.mem_map.1 hr
    have hcolumn : s.operationID = s.canonicalSet.operationID := by rw [(h.sets s hs).columns]
    refine absurd ?_ (hnone s hs)
    rw [hcolumn, ← operationID_of_mem_set (h.sets s hs).valid ho', ← (hall.2 o ho).1.1.2]
    exact hrid
  · exact fun hdigest => hfresh.obligationDigest r hr (List.mem_map.2 ⟨o, ho, hdigest.symm⟩)

/-- `BindBackupObligations` advances an operation whose payload was removed. -/
theorem bindBackupObligations_advances (h : Evidenced codec v db) (hrow : row ∈ db.operations)
    (hstate : row.state = .payloadRemoved)
    (hok : validateObligationSetIntent set row.canonicalIntent row.intentDigest = .ok ())
    (hfresh : Fresh codec db set) :
    ((Call.bindBackupObligations set).body codec).eval (accepting codec) db =
      (.operation (.ok { row.operation with state := .backupsPending }),
        boundDb codec set row db) := by
  obtain ⟨hvalid, hmatch⟩ := ensure_bind.1 hok
  obtain ⟨hmatch, -⟩ := ensure_bind.1 hmatch
  simp only [Bool.and_eq_true, beq_iff_eq] at hvalid hmatch
  have hid : row.operationID = set.operationID := (h.rows row hrow).id.trans hmatch.1.1.symm
  have hnone : ∀ s ∈ db.obligationSets, s.operationID ≠ set.operationID :=
    hid ▸ h.no_set hrow (by simp [hstate, order])
  have hsize := (h.rows row hrow).size (by simp [hstate, order])
  have hset : loadObligationSet codec set.operationID db = .ok none := by
    simp only [loadObligationSet, find?_eq_none_of_ne hnone]
  have hrun : Sqlite.bindBackupObligations codec set row db =
      .ok ({ row.operation with state := .backupsPending }, boundDb codec set row db) := by
    refine bind_ok.2 ⟨row, hid ▸ h.loadFound hrow hsize, ?_⟩
    rw [if_neg (by simp [hstate])]
    refine ensure_bind.2 ⟨by simp [sameOperationSnapshot, hstate], ?_⟩
    refine required_bind.2 ⟨_, hfresh.insertObligationSet hnone, bind_ok.2
      ⟨_, hfresh.insertObligations h hvalid.1 hnone, bind_ok.2 ⟨_, ?_, rfl⟩⟩⟩
    rw [← hid]
    refine updateOperation_advances ?_ ?_ hmatch.1.2.symm hstate rfl
    · exact h.ids
    · exact hrow
  refine eval_operation ?_
  unfold LifecycleBackupCompletion.bindBackupObligations canonicalBackupObligationSet
  rw [hvalid.1]
  refine (eval_ok (r := .loadOperation _) (query_of_ok (hid ▸ h.load hrow hsize))).trans ?_
  simp only [hok]
  refine (eval_ok (r := .loadObligationSet _) (query_of_ok hset)).trans ?_
  simp only [hstate, bne_self_eq_false, Bool.false_eq_true, if_false]
  exact eval_ok hrun

end

/-! ## Receipts -/

/-- `RecordBackupReceipt` stores a new receipt that meets its obligation. -/
theorem recordBackupReceipt_advances (h : Evidenced codec v db) (hrow : row ∈ db.operations)
    (hstate : row.state = .backupsPending) (hfits : Fits codec db row.operationID)
    {receipt : CustodianReceipt} (hid : receipt.operationID = row.operationID)
    (hintent : receipt.intentDigest = row.intentDigest) {o : ObligationRow}
    (ho : o ∈ db.obligations) (hoid : o.operationID = row.operationID)
    (hdomain : o.domain = receipt.domain)
    (hok : validateReceiptObligation receipt o.canonicalObligation o.obligationDigest = .ok ())
    (hnew : ∀ r ∈ db.receipts, r.receiptID ≠ receipt.receiptID ∧
      r.receiptDigest ≠ codec.custodianReceiptDigest receipt) :
    ((Call.recordBackupReceipt receipt).body codec).eval (accepting codec) db =
      (.operation (.ok row.operation),
        { db with receipts := db.receipts ++ [receiptRow codec receipt] }) := by
  have hvalid := valid_of_meets hok
  have hsize := hfits.intent row hrow rfl
  have hcurrent := eval_currentOperation h.toIntegral hrow hsize
  have hobligation := h.loadObligation hrow (by simp [hstate, order]) hfits ho hoid
  rw [hdomain] at hobligation
  have hreceipt : loadReceiptByID codec receipt.receiptID db = .ok none := by
    simp only [loadReceiptByID, find?_eq_none_of_ne fun r hr => (hnew r hr).1]
  have hinsert : db.insertReceipt (receiptRow codec receipt) =
      some { db with receipts := db.receipts ++ [receiptRow codec receipt] } :=
    if_neg (not_any_of_ne hnew)
  have hrun : Sqlite.recordBackupReceipt codec receipt row o db =
      .ok (row.operation, { db with receipts := db.receipts ++ [receiptRow codec receipt] }) := by
    refine bind_ok.2 ⟨row, hid ▸ h.loadFound hrow hsize, bind_ok.2 ⟨none, hreceipt, ?_⟩⟩
    refine ensure_bind.2 ⟨?_, required_bind.2 ⟨_, hinsert, rfl⟩⟩
    rw [hid, hobligation]
    simp [sameOperationSnapshot, hstate]
  refine eval_operation ?_
  unfold LifecycleBackupCompletion.recordBackupReceipt
  rw [canonicalCustodianReceipt_eq hvalid, hid]
  simp only [Program.eval_bind, hcurrent]
  simp only [hintent, hstate, bne_self_eq_false, Bool.false_and, Bool.or_self, Bool.false_eq_true,
    if_false]
  refine (eval_ok (r := .loadObligation _ _) (query_of_ok hobligation)).trans ?_
  simp only [hok, Except.isOk, Except.toBool, Bool.not_true, Bool.false_eq_true, if_false]
  rw [Program.eval_bind, eval_validateCustodianReceiptSignature, signatureOf_acceptCustodian hvalid]
  unfold LifecycleBackupCompletion.recordBackupReceipt.store
  refine (eval_ok (r := .loadReceiptByID _) (query_of_ok hreceipt)).trans ?_
  simp only [hstate, bne_self_eq_false, Bool.false_eq_true, if_false]
  exact eval_ok hrun

/-! ## Completion -/

/-- The database after an operation was completed. -/
def completedDb (codec : Codec) (evidence : CompletionEvidence) (row : OperationRow) (db : Db) :
    Db :=
  { db with
    completions := db.completions ++ [completionRow codec evidence]
    operations := db.put { row with state := .completed } }

/-- An operation that is not completed has no completion. -/
theorem Evidenced.no_completion (h : Evidenced codec v db) (hrow : row ∈ db.operations)
    (hstate : row.state ≠ .completed) : ∀ c ∈ db.completions, c.operationID ≠ row.operationID := by
  intro c hc hid
  obtain ⟨row', hsup, hid', hcompleted⟩ := h.supported hc
  rw [h.eq_of_id hsup.mem hrow (hid'.trans hid)] at hcompleted
  exact hstate hcompleted

/-- `Complete` completes an operation whose receipts the completion references. -/
theorem complete_advances (h : Evidenced codec v db) {evidence : CompletionEvidence}
    (hsup : Supported codec db row evidence) (hstate : row.state = .backupsPending)
    (hfits : Fits codec db row.operationID)
    (hnew : ∀ c ∈ db.completions, c.completionDigest ≠ codec.completionDigest evidence) :
    ((Call.complete evidence).body codec).eval (accepting codec) db =
      (.operation (.ok { row.operation with state := .completed }),
        completedDb codec evidence row db) := by
  obtain ⟨hrow, hid, hintent, hpolicy, hord⟩ := hsup.toConcerns
  obtain ⟨s, hs, hsid⟩ := h.bound row hrow hord
  have hsize := hfits.intent row hrow rfl
  have hnone := h.no_completion hrow (by simp [hstate])
  have hcurrent := eval_currentOperation h.toIntegral hrow hsize
  have hset := h.loadObligationSet hs (hfits.obligationSet s hs hsid)
  have hevidence := h.loadBackupEvidence hfits
  have hagainst := h.validateCompletionAgainst hsup
  have hreferences := hsup.references
  have hload := h.loadFound hrow hsize
  rw [hsid] at hset
  have hcompletion : loadCompletion codec row.operationID db = .ok none := by
    simp only [loadCompletion, find?_eq_none_of_ne hnone]
  have hinsert : db.insertCompletion (completionRow codec evidence) =
      some { db with completions := db.completions ++ [completionRow codec evidence] } :=
    if_neg (not_any_of_ne fun c hc => ⟨fun hsame => hnone c hc (hsame.trans hid.symm), hnew c hc⟩)
  have hrun : Sqlite.complete codec evidence row s (db.evidenceOf row.operationID) db =
      .ok ({ row.operation with state := .completed }, completedDb codec evidence row db) := by
    unfold Sqlite.complete
    rw [← hid]
    refine bind_ok.2 ⟨row, hload, ?_⟩
    rw [if_neg (by simp [hstate]), hset, hevidence]
    refine ensure_bind.2 ⟨by simp [sameOperationSnapshot, hstate], ensure_bind.2
      ⟨by simp [hreferences], required_bind.2 ⟨{ db with completions := db.completions ++
        [completionRow codec evidence] }, ?_, bind_ok.2 ⟨_, ?_, rfl⟩⟩⟩⟩
    · rw [hid]
      exact hinsert
    · refine updateOperation_advances ?_ ?_ hintent hstate rfl
      · exact h.ids
      · exact hrow
  refine eval_operation ?_
  unfold LifecycleBackupCompletion.complete canonicalCompletionEvidence
  rw [hsup.valid, ← hid]
  refine (Program.eval_bind).trans ?_
  simp only [hcurrent, hintent, hpolicy, hstate, bne_self_eq_false, Bool.false_and, Bool.or_self,
    Bool.false_eq_true, if_false]
  refine (eval_ok (r := .loadObligationSet _) (query_of_ok hset)).trans ?_
  refine (eval_ok (r := .loadBackupEvidence _) (query_of_ok hevidence)).trans ?_
  simp only [Program.eval_bind, hagainst]
  unfold LifecycleBackupCompletion.complete.store
  refine (eval_ok (r := .verifyCompletionAudit _) rfl).trans ?_
  refine (eval_ok (r := .loadCompletion _) (query_of_ok (hid ▸ hcompletion))).trans ?_
  exact eval_ok hrun

/-! ## What is stored for a completed operation -/

/-- One step of a run whose verifiers accept only what is in `v`. -/
abbrev JudgedStep (codec : Codec) (v : Verdicts) : Pool → Pool → Prop :=
  Interleave.Pool.Step (judgedSem codec v) (fun _ _ => False) (Call.body codec)

/-- A run leads from `p` to `q`. -/
def JudgedLater (codec : Codec) (v : Verdicts) : Pool → Pool → Prop :=
  Relation.ReflTransGen (JudgedStep codec v)

/-- What is stored is kept by every step of a run. -/
theorem Later.kept (hp : Reach codec p) (hq : Later codec p q) : Kept p.shared q.shared := by
  induction hq with
  | refl => exact .refl _
  | tail hq hstep ih =>
    refine ih.trans ?_
    rcases hstep.shared with heq | ⟨i, r, ans, hs⟩ | hf
    · exact heq ▸ .refl _
    · exact (sem_kept (Later.reach hp hq).ordered hs).2
    · exact hf.elim

/-- What the verifiers accept does not matter for what is kept. -/
theorem JudgedLater.kept (hp : JudgedReach codec v p) (hq : JudgedLater codec v p q) :
    Kept p.shared q.shared :=
  Later.kept (hp.mono fun _ _ _ _ _ h => h.1)
    (Relation.ReflTransGen.mono (fun _ _ hs => hs.mono fun _ _ _ _ _ h => h.1) _ _ hq)

/-- **Completion soundness.** Whatever the interleaving of the calls and wherever they fail: what is
stored for a completed operation is sound, and every receipt that was ever stored for it is one of
its three receipts. -/
theorem completion_soundness {p q : Pool}
    (hremoval : ∀ records, validDigest (codec.removalDigest records) = true)
    (hp : JudgedReach codec v p) (hq : JudgedLater codec v p q)
    (hrow : row ∈ q.shared.operations) (hstate : row.state = .completed) :
    SoundCompletion codec v q.shared row ∧
      ∀ r ∈ p.shared.receiptsOf row.operationID, r ∈ q.shared.receiptsOf row.operationID := by
  refine ⟨(JudgedReach.evidenced hremoval (hp.trans hq)).soundCompletion hrow hstate,
    fun r hr => ?_⟩
  obtain ⟨hr, hid⟩ := List.mem_filter.1 hr
  exact List.mem_filter.2 ⟨(hq.kept hp).receipts hr, hid⟩

/-- **No stuck operation.** An intent has an obligation set if and only if its deadlines are
canonical, and with any set that is accepted for the intent an operation whose payload was removed
goes on. -/
theorem operation_not_stuck {intent : Intent} (hvalid : Lifecycle.validateIntent intent = true)
    (hdigest : validDigest (codec.intentDigest intent) = true) :
    ((∃ set, validateObligationSetIntent set intent (codec.intentDigest intent) = .ok ()) ↔
      ∀ window ∈ intent.expectedBackupDeletionWindows, validTime window.deadline = true) ∧
    ((∀ records, validDigest (codec.removalDigest records) = true) → ∀ p, Reach codec p →
      ∀ row ∈ p.shared.operations, row.canonicalIntent = intent → row.state = .payloadRemoved →
        ∀ set, validateObligationSetIntent set intent (codec.intentDigest intent) = .ok () →
        Fresh codec p.shared set →
        ((Call.bindBackupObligations set).body codec).eval (accepting codec) p.shared =
          (.operation (.ok { row.operation with state := .backupsPending }),
            boundDb codec set row p.shared)) := by
  refine ⟨exists_obligationSet_iff hvalid hdigest, ?_⟩
  rintro hremoval p hp row hrow rfl hstate set hset hfresh
  have h := hp.judged.evidenced hremoval
  rw [(h.rows row hrow).digest] at hset
  exact bindBackupObligations_advances h hrow hstate hset hfresh

end

/-! ## A run to the end -/

/-- The digest of a document of a domain. -/
def domainDigest : BackupDomain → String
  | .event => sampleDigest
  | .identity => "sha-256:bbbbbbbbbbbbbbbbbbbbbbbbbbbbbbbbbbbbbbbbbbbbbbbbbbbbbbbbbbbbbbbb"
  | .audit => "sha-256:cccccccccccccccccccccccccccccccccccccccccccccccccccccccccccccccc"
  | .unknown _ _ => sampleDigest

/-- The codec of the sample run, with different digests for the documents of two domains. -/
def backupCodec : Codec := { fenceCodec with
    obligationDigest := fun obligation => domainDigest obligation.domain
    custodianReceiptDigest := fun receipt => domainDigest receipt.domain }

/-- The database after the payload of the sample operation was removed. -/
def removedDb : Db := { markedDb [] removedRow with
    records := []
    payloadTombstones := [⟨sampleOperation, sampleKey, 1, "event-1", sampleDigest, "receipt-1"⟩]
    identifierTombstones := [⟨"tenant", "channel", .event, "event-1", sampleOperation⟩,
      ⟨"tenant", "channel", .receipt, "receipt-1", sampleOperation⟩] }

theorem Reachable.eval {codec : Codec} {db db' : Db} {c : Call} {a : Outcome}
    (h : Reachable codec (sem codec) n db)
    (he : (c.body codec).eval (accepting codec) db = (a, db')) :
    Reachable codec (sem codec) (n + 1) db' := by
  have hexec := Program.exec_eval (sem_accepting codec n) (c.body codec) db
  rw [he] at hexec
  exact h.call hexec

theorem Reachable.evidenced {codec : Codec} {db : Db}
    (hremoval : ∀ records, validDigest (codec.removalDigest records))
    (h : Reachable codec (sem codec) n db) : Evidenced codec acceptAll db := by
  obtain ⟨p, hp, hi⟩ := h
  rw [← hi.shared]
  exact (Reach.judged hp).evidenced hremoval

theorem valid_removalDigest_backup (records : List RemovalRecord) :
    validDigest (backupCodec.removalDigest records) :=
  valid_sampleDigest

theorem signedDb_reachable : Reachable backupCodec (sem backupCodec) 3 (signedDb []) :=
  ((Reachable.init.eval (c := .createChannel sampleChannel)
    (eval_single (r := .createChannel _) rfl)).eval (c := .appendChecked _ _ _)
      (eval_single (r := sampleAppend "event-1" "receipt-1") rfl)).eval
        (c := .attachSignature ⟨sampleKey, "receipt-1", [1], [1]⟩)
        (eval_single (r := .attachSignature _) rfl)

theorem markedDb_reachable : Reachable backupCodec (sem backupCodec) 5 (markedDb [] markedRow) :=
  (signedDb_reachable.eval (c := .reserve ⟨[samplePolicy]⟩ sampleIntent)
    (eval_single (r := .reserve _ _) reserve_sample)).eval (c := .persistMarker samplePersistence)
      (eval_single (r := .persistMarker _) (persistMarker_sample []))

theorem backupDocuments : Documents backupCodec sampleRow sampleMarker samplePreimage :=
  ⟨rfl, rfl, rfl, rfl, valid_sampleIntent, rfl, rfl, rfl, rfl, rfl, valid_sampleMarker,
    valid_samplePreimage, rfl⟩

theorem removedDb_reachable : Reachable backupCodec (sem backupCodec) 7 removedDb := by
  have hsigned := markedDb_reachable.call
    (backupDocuments.attach (fun _ _ _ _ h _ => .committed h) rfl
    (attachReceiptSignature_sample []))
  have hint := (hsigned.evidenced valid_removalDigest_backup).toIntegral
  have hrun : Sqlite.removePayload backupCodec sampleReference signedRow (markedDb [] signedRow) =
      .ok (removedRow.operation, removedDb) :=
    bind_ok.2 ⟨_, bind_ok.2 ⟨_, backupDocuments.load_signed rfl, rfl⟩, ensure_bind.2 ⟨rfl,
      ensure_bind.2 ⟨rfl, rfl⟩⟩⟩
  exact hsigned.eval (c := .removePayload sampleReference) (eval_operation
    (eval_removePayload hint (List.mem_singleton_self _) rfl valid_sampleReference rfl rfl rfl
      hrun))

/-- The set that is bound to the sample operation. -/
def sampleSet : BackupObligationSet := obligationsFor sampleIntent sampleDigest

/-- The row of the operation while its backups are pending. -/
def pendingRow : OperationRow := { removedRow with state := .backupsPending }

/-- The database after the set was bound and some receipts were recorded. -/
def pendingDb (receipts : List ReceiptRow) : Db :=
  { boundDb backupCodec sampleSet removedRow removedDb with receipts }

theorem fits_backup (db : Db) (operationID : String) : Fits backupCodec db operationID :=
  ⟨fun _ _ _ => rfl, fun _ _ _ => rfl, fun _ _ _ => rfl, fun _ _ _ => rfl, fun _ _ _ => rfl⟩

theorem valid_sampleDeadline : validTime "2026-01-02T00:00:00.000Z" := rfl

theorem valid_sampleWindows : ∀ window ∈ sampleIntent.expectedBackupDeletionWindows,
    validTime window.deadline := by
  simp [sampleIntent, valid_sampleDeadline]

theorem valid_sampleSet :
    validateObligationSetIntent sampleSet sampleIntent sampleDigest = .ok () :=
  validate_obligationsFor valid_sampleIntent valid_sampleDigest valid_sampleWindows

theorem nodup_domainDigest : (backupDomains.map domainDigest).Nodup := by decide

theorem fresh_sampleSet : Fresh backupCodec removedDb sampleSet :=
  ⟨fun _ hs => absurd hs List.not_mem_nil, fun _ ho => absurd ho List.not_mem_nil,
    nodup_domainDigest⟩

theorem pendingDb_reachable : Reachable backupCodec (sem backupCodec) 8 (pendingDb []) :=
  removedDb_reachable.eval (bindBackupObligations_advances
    (removedDb_reachable.evidenced valid_removalDigest_backup) (List.mem_singleton_self _) rfl
    valid_sampleSet fresh_sampleSet)

/-- The receipt of a domain for the sample operation. -/
def sampleReceipt (domain : BackupDomain) : CustodianReceipt :=
  { evidenceReceipt domain (evidenceID domain) with
    obligationDigest := domainDigest domain
    operationID := sampleOperation }

theorem valid_evidenceID (domain : BackupDomain) : validUUIDv7 (evidenceID domain) := by
  cases domain
  case unknown => exact (show validUUIDv7 (evidenceID .event) = true from rfl)
  all_goals rfl

theorem valid_domainDigest (domain : BackupDomain) : validDigest (domainDigest domain) := by
  cases domain
  · exact valid_sampleDigest
  · rfl
  · rfl
  · exact valid_sampleDigest

theorem valid_sampleReceipt (hmem : domain ∈ backupDomains) :
    validateCustodianReceipt (sampleReceipt domain) := by
  have hdomain := mem_backupDomains.1 hmem
  have hreference : validateOperationReference ⟨sampleOperation, evidenceDigest⟩ = true :=
    valid_sampleReference
  have htexts : validReference "custodian" = true ∧ validIdentifier "key" = true ∧
      validSignatureText (String.ofList (List.replicate 86 'A')) = true := by decide
  simp only [validateCustodianReceipt, sampleReceipt, evidenceReceipt, validDigest_evidence,
    hreference, valid_evidenceID, valid_domainDigest, hdomain, valid_sampleTime, htexts,
    beq_self_eq_true, Bool.and_self]

/-- The obligation of a domain that the sample set binds. -/
def sampleObligation (domain : BackupDomain) : BackupObligation :=
  obligationFor sampleIntent sampleDigest ⟨domain, "2026-01-02T00:00:00.000Z"⟩

theorem meets_sampleReceipt (hmem : domain ∈ backupDomains) :
    validateReceiptObligation (sampleReceipt domain) (sampleObligation domain)
      (domainDigest domain) = .ok () := by
  have hobligation : validateBackupObligation (sampleObligation domain) = true :=
    valid_obligationFor valid_sampleIntent valid_sampleDigest
      (List.mem_map_of_mem (f := fun d => (⟨d, "2026-01-02T00:00:00.000Z"⟩ : BackupDeadline)) hmem)
      valid_sampleDeadline
  refine ensure_bind.2 ⟨by rw [valid_sampleReceipt hmem, hobligation, Bool.and_self],
    ensure_bind.2 ⟨?_, rfl⟩⟩
  simp [sampleReceipt, evidenceReceipt, sampleObligation, obligationFor, sampleIntent,
    evidenceDigest, sampleDigest]

theorem mem_pendingDb (receipts : List ReceiptRow) (hmem : domain ∈ backupDomains) :
    obligationRow backupCodec (sampleObligation domain) ∈ (pendingDb receipts).obligations :=
  List.mem_map_of_mem (f := fun d => obligationRow backupCodec (sampleObligation d)) hmem

/-- A receipt of another domain is recorded behind the ones that are stored. -/
theorem record_sample (domains : List BackupDomain) (h : Reachable backupCodec (sem backupCodec) n
      (pendingDb (domains.map fun d => receiptRow backupCodec (sampleReceipt d))))
    (hall : ∀ d ∈ domains ++ [domain], d ∈ backupDomains) (hnew : domain ∉ domains) :
    Reachable backupCodec (sem backupCodec) (n + 1) (pendingDb ((domains ++ [domain]).map fun d =>
        receiptRow backupCodec (sampleReceipt d))) := by
  have hmem := hall domain (by simp)
  have hne : ∀ d ∈ domains, evidenceID d ≠ evidenceID domain ∧
      domainDigest d ≠ domainDigest domain := by
    have hdistinct : ∀ d ∈ backupDomains, ∀ d' ∈ backupDomains, d ≠ d' →
        evidenceID d ≠ evidenceID d' ∧ domainDigest d ≠ domainDigest d' := by decide
    exact fun d hd => hdistinct d (hall d (by simp [hd])) domain hmem fun heq => hnew (heq ▸ hd)
  have hrow : pendingRow ∈ (pendingDb (domains.map fun d =>
      receiptRow backupCodec (sampleReceipt d))).operations := List.mem_singleton_self _
  rw [List.map_append]
  refine h.eval (recordBackupReceipt_advances (h.evidenced valid_removalDigest_backup) hrow rfl
    (fits_backup _ _) rfl rfl (mem_pendingDb _ hmem) rfl rfl (meets_sampleReceipt hmem)
    fun r hr => ?_)
  obtain ⟨d, hd, rfl⟩ := List.mem_map.1 hr
  exact hne d hd

theorem recordedDb_reachable : Reachable backupCodec (sem backupCodec) 11
    (pendingDb (backupDomains.map fun d => receiptRow backupCodec (sampleReceipt d))) :=
  record_sample [.event, .identity] (record_sample [.event]
    (record_sample [] pendingDb_reachable (by decide) (by simp)) (by decide) (by simp))
    (by decide) (by simp)

/-- The completion of the sample operation. -/
def sampleCompletion : CompletionEvidence where
  profile := "yukh-transcript-lifecycle-completion-evidence/v0.1"
  operationID := sampleOperation
  intentDigest := sampleDigest
  policyDigest := sampleDigest
  receipts := backupDomains.map fun domain => ⟨domain, evidenceID domain, domainDigest domain⟩
  securityAuditReceipt := "audit"
  securityAuditCheckpoint := "checkpoint"
  completedAt := "2026-01-01T00:00:00.000Z"

theorem valid_sampleCompletion : validateCompletionEvidence sampleCompletion := by
  have hreference : validateOperationReference ⟨sampleOperation, sampleDigest⟩ = true :=
    valid_sampleReference
  have htexts : validReference "audit" = true ∧ validReference "checkpoint" = true := by
    decide
  simp [validateCompletionEvidence, sampleCompletion, hreference, htexts, valid_sampleDigest,
    valid_sampleTime, valid_evidenceID, valid_domainDigest, backupDomains]

/-- The database with a receipt of each domain. -/
def recordedDb : Db :=
  pendingDb (backupDomains.map fun d => receiptRow backupCodec (sampleReceipt d))

theorem evidenceOf_recordedDb : recordedDb.evidenceOf sampleOperation =
    ⟨backupDomains.map sampleObligation, backupDomains.map sampleReceipt⟩ := by
  rfl

theorem supported_sampleCompletion :
    Supported backupCodec recordedDb pendingRow sampleCompletion where
  mem := List.mem_singleton_self _
  operationID := rfl
  intentDigest := rfl
  policyDigest := rfl
  order := by decide
  valid := valid_sampleCompletion
  references := by
    have htimes : "2026-01-01T00:00:00.000Z" ≤ "2026-01-02T00:00:00.000Z" := by decide
    have hevidence : recordedDb.evidenceOf pendingRow.operationID =
        ⟨backupDomains.map sampleObligation, backupDomains.map sampleReceipt⟩ :=
      evidenceOf_recordedDb
    rw [hevidence]
    simp only [completionReferencesStored, Bool.and_eq_true, List.all_eq_true]
    refine ⟨⟨⟨rfl, rfl⟩, rfl⟩, fun reference href => ?_⟩
    obtain ⟨domain, hmem, rfl⟩ := List.mem_map.1 href
    have hlast : ∀ d ∈ backupDomains, lastOfDomain (backupDomains.map sampleReceipt) d =
        some (sampleReceipt d) := by decide
    have hindex : ∀ d ∈ backupDomains, (backupDomains.map sampleObligation)[indexDomain d]? =
        some (sampleObligation d) := by decide
    simp only [hlast domain hmem, hindex domain hmem, valid_sampleReceipt hmem, Bool.true_and,
      Bool.and_eq_true, beq_iff_eq, decide_eq_true_eq]
    exact ⟨⟨⟨⟨rfl, rfl⟩, rfl⟩, htimes⟩, String.le_refl _⟩

/-- The row of the operation after its completion. -/
def completedRow : OperationRow := { pendingRow with state := .completed }

theorem completedDb_reachable : Reachable backupCodec (sem backupCodec) 12
    (completedDb backupCodec sampleCompletion pendingRow recordedDb) :=
  recordedDb_reachable.eval (complete_advances
    (recordedDb_reachable.evidenced valid_removalDigest_backup) supported_sampleCompletion rfl
    (fits_backup _ _) fun _ hc => absurd hc List.not_mem_nil)

/-- The sample operation is completed, with three receipts. -/
theorem completion_soundness_sample : ∃ p : Pool, JudgedReach backupCodec acceptAll p ∧
    completedRow ∈ p.shared.operations ∧ p.shared.receipts.length = 3 ∧
    SoundCompletion backupCodec acceptAll p.shared completedRow := by
  obtain ⟨p, hp, hi⟩ := completedDb_reachable
  have hmem : completedRow ∈ p.shared.operations := by
    rw [hi.shared]
    exact List.mem_singleton_self _
  have hsound := completion_soundness valid_removalDigest_backup (Reach.judged hp) .refl hmem rfl
  exact ⟨p, Reach.judged hp, hmem, by rw [hi.shared]; rfl, hsound.1⟩

/-- The sample operation goes on from the removal of its payload. -/
theorem operation_not_stuck_sample : ∃ p : Pool, Reach backupCodec p ∧
    removedRow ∈ p.shared.operations ∧
    ((Call.bindBackupObligations sampleSet).body backupCodec).eval (accepting backupCodec)
      p.shared = (.operation (.ok { removedRow.operation with state := .backupsPending }),
        boundDb backupCodec sampleSet removedRow p.shared) := by
  obtain ⟨p, hp, hi⟩ := removedDb_reachable
  have hmem : removedRow ∈ p.shared.operations := by
    rw [hi.shared]
    exact List.mem_singleton_self _
  have hdigest : validDigest (backupCodec.intentDigest sampleIntent) = true := valid_sampleDigest
  refine ⟨p, hp, hmem, (operation_not_stuck valid_sampleIntent hdigest).2
    valid_removalDigest_backup p hp removedRow hmem rfl rfl sampleSet valid_sampleSet ?_⟩
  rw [hi.shared]
  exact fresh_sampleSet

/-- The intent of the sample operation, with a deadline that has one digit for its hour. -/
def looseIntent : Intent := { sampleIntent with
    expectedBackupDeletionWindows := [⟨.event, "2026-01-02T9:00:00.000Z"⟩,
      ⟨.identity, "2026-01-02T00:00:00.000Z"⟩, ⟨.audit, "2026-01-02T00:00:00.000Z"⟩] }

/-- A valid intent for which no obligation set is accepted. -/
theorem intent_without_obligations : ¬ ∀ (codec : Codec) (intent : Intent),
    Lifecycle.validateIntent intent = true → validDigest (codec.intentDigest intent) = true →
    ∃ set, validateObligationSetIntent set intent (codec.intentDigest intent) = .ok () := by
  intro h
  have hvalid : Lifecycle.validateIntent looseIntent = true := rfl
  have hloose : validTime "2026-01-02T9:00:00.000Z" = false := rfl
  have hdigest : validDigest (backupCodec.intentDigest looseIntent) = true := valid_sampleDigest
  have hall := (exists_obligationSet_iff hvalid hdigest).1
    (h backupCodec looseIntent hvalid hdigest)
  have hwindow := hall ⟨.event, "2026-01-02T9:00:00.000Z"⟩ List.mem_cons_self
  rw [hloose] at hwindow
  cases hwindow

/-! ## What stays along a run -/

/-- **Nothing that was acknowledged is lost.** Along every run the operations keep what they were
given and only go on, no backup evidence is lost, and the work of every lifecycle call that has
returned successfully stays in the database. -/
theorem acknowledged_work_stays {codec : Codec} (hp : Reach codec p)
    (hq : Later codec p q) : Kept p.shared q.shared ∧
      ∀ i c outcome, p.Returned i c outcome → outcome.isOk = true → c.Done codec q.shared := by
  have hkept := Later.kept hp hq
  exact ⟨hkept, fun _ _ _ hr hok => (hp.done hr hok).later hkept⟩

/-- A marker that was persisted stays when the receipt is signed. -/
theorem acknowledged_work_stays_marker : ∃ p q : Pool, Reach fenceCodec p ∧
    Later fenceCodec p q ∧ q.shared = markedDb [] signedRow ∧
    (Call.persistMarker samplePersistence).Done fenceCodec q.shared := by
  obtain ⟨p, hp, hi, hr⟩ := persistMarker_returned
  obtain ⟨q, hq, hi', -⟩ := hi.exec (S := sem fenceCodec) (fenceDocuments.attach
    (sem_of_run fenceCodec 5) rfl (attachReceiptSignature_sample []))
  exact ⟨p, q, hp, hq, hi'.shared, (acknowledged_work_stays hp hq).2 _ _ _ hr rfl⟩

end YukhCoordination.Relay.Sqlite
