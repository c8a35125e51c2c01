import YukhCoordination.Relay.Sqlite.Repeat

/-!
# Repeated calls find what they have left

The other half of `Repeat`: a call whose work is in the database, made again while its verifiers
accept and no statement fails (`accepting`), returns the current operation and changes nothing. This
holds in the states in which the call accepts a repeat (`Call.RepeatableIn`) and while the documents
of the operation are small enough to be loaded (`Fits`). `PersistMarker` refuses its repeat as soon
as the receipt is signed.
-/

namespace YukhCoordination.Relay.Sqlite

open Lifecycle Transaction Interleave

/-- The answer to a request none of whose statements fails; the verifiers accept. -/
def accepting (codec : Codec) (r : Request) (db : Db) : Except r.Err r.Result × Db :=
  match r.run codec db with
  | .ok (a, db') => (.ok a, db')
  | .error e => (.error e, db)

/-- The operation that a lifecycle call is about. -/
def Call.operationID : Call → String
  | .reserve _ intent => intent.operationID
  | .bindExport evidence => evidence.operationID
  | .persistMarker persistence => persistence.operationID
  | .attachReceiptSignature attachment => attachment.operationID
  | .removePayload reference => reference.operationID
  | .bindBackupObligations set => set.operationID
  | .recordBackupReceipt receipt => receipt.operationID
  | .complete evidence => evidence.operationID
  | _ => ""

/-- The states in which a call accepts its repeat. -/
def Call.RepeatableIn : Call → SagaState → Prop
  | .persistMarker _, state => state = .markerPersisted
  | .attachReceiptSignature _, state => alreadySigned state = true
  | .removePayload _, state => state = .payloadRemoved
  | _, _ => True

/-- The call, made now, returns the current operation and changes nothing. -/
def Call.Repeats (codec : Codec) (c : Call) (db : Db) : Prop :=
  ∃ row, db.operation? c.operationID = some row ∧
    (c.body codec).eval (accepting codec) db = (.operation (.ok row.operation), db)

section
variable {codec : Codec} {v : Verdicts} {db db' : Db} {row : OperationRow}
  {evidence : CompletionEvidence}

/-! ## Requests that are answered -/

theorem eval_ok {α : Type} {r : Request} {a : r.Result} {f : Except r.Err r.Result → Proc α}
    (h : r.run codec db = .ok (a, db')) :
    (ask r >>= f).eval (accepting codec) db = (f (.ok a)).eval (accepting codec) db' := by
  have hanswer : accepting codec r db = (.ok a, db') := by rw [accepting, h]
  change (f (accepting codec r db).1).eval (accepting codec) (accepting codec r db).2 = _
  rw [hanswer]

/-- The answers are among those of the requests. -/
theorem sem_accepting (codec : Codec) (i : Nat) (r : Request) (db : Db) :
    sem codec i r db (accepting codec r db).1 (accepting codec r db).2 := by
  unfold accepting
  split
  · next hrun => exact .committed hrun
  · exact .rolledBack _

/-- A call that is one request. -/
theorem eval_single {r : Request} {a : r.Result} {f : Except r.Err r.Result → Outcome}
    (h : r.run codec db = .ok (a, db')) :
    (ask r >>= fun ans => (pure (f ans) : Proc Outcome)).eval (accepting codec) db =
      (f (.ok a), db') :=
  eval_ok h

/-- A call that returns the result of a program. -/
theorem eval_operation {p : Proc (Except Lifecycle.Error Operation)} {a : Operation}
    (h : p.eval (accepting codec) db = (.ok a, db')) :
    (p >>= fun result => (pure (.operation result) : Proc Outcome)).eval (accepting codec) db =
      (.operation (.ok a), db') := by
  rw [Program.eval_bind, h]
  rfl

section
variable (h : Integral codec v db) (hrow : row ∈ db.operations)
include h hrow

/-- The current operation of an id. -/
theorem Integral.current {operationID : String} (hid : row.operationID = operationID) :
    db.operation? operationID = some row :=
  find?_of_unique h.ids hrow hid

/-- A signature over the receipt of an operation with a marker is verified. -/
theorem eval_verifySignature (hord : 2 ≤ order row.state) (signature : Bytes) :
    (verifySignature codec row.canonicalReceiptPreimage signature).eval (accepting codec) db =
      (.ok (), db) := by
  obtain ⟨⟨marker, preimage⟩, hpersistence⟩ := exists_ok ((h.rows row hrow).persistence hord)
  obtain ⟨-, hdecode, -, hvalid⟩ := validateMarkerPersistence_spec hpersistence
  unfold verifySignature
  rw [hdecode]
  simp only [hvalid, Bool.not_true, Bool.false_eq_true, if_false]
  exact eval_ok rfl

variable (hsize : canonicalSize (codec.intentSize row.canonicalIntent) = true)
include hsize

theorem Integral.loadFound : Sqlite.loadFound codec row.operationID db = .ok row :=
  bind_ok.2 ⟨some row, h.load hrow hsize, rfl⟩

theorem eval_currentOperation :
    (currentOperation row.operationID).eval (accepting codec) db = (.ok row, db) :=
  eval_ok (r := .loadOperation _) (query_of_ok (h.load hrow hsize))

/-! ## Reservation, export and marker -/

theorem reserve_repeat {preparation : LifecyclePreparation} :
    reserve codec preparation row.canonicalIntent db = .ok (row.operation, db) := by
  have hsound := h.rows row hrow
  refine bind_ok.2 ⟨_, ensure_bind.2 ⟨hsound.intent, rfl⟩, bind_ok.2 ⟨some row, ?_, ?_⟩⟩
  · rw [← hsound.id]
    exact h.load hrow hsize
  · exact ensure_bind.2 ⟨by simp [hsound.digest], rfl⟩

theorem bindExport_repeat {evidence : ExportEvidence} (hvalid : validateExportEvidence evidence)
    (hid : row.operationID = evidence.operationID)
    (hdigest : row.intentDigest = evidence.intentDigest)
    (hmode : row.canonicalIntent.exportMode = .required)
    (hmanifest : row.exportManifestDigest = evidence.manifestDigest)
    (hcustody : row.exportCustodyReceiptDigest = evidence.custodyReceiptDigest) :
    bindExport codec evidence db = .ok (row.operation, db) := by
  have hne : row.exportManifestDigest ≠ "" := by
    simp only [validateExportEvidence, Bool.and_eq_true] at hvalid
    rw [hmanifest]
    exact ne_empty_of_validDigest hvalid.1.2
  refine ensure_bind.2 ⟨hvalid, bind_ok.2 ⟨row, hid ▸ h.loadFound hrow hsize, ?_⟩⟩
  refine ensure_bind.2 ⟨by simp [hdigest, hmode], ?_⟩
  rw [if_pos (.inl hne)]
  exact ensure_bind.2 ⟨by simp [hmanifest, hcustody], rfl⟩

theorem persistMarker_repeat {persistence : MarkerPersistence}
    (hvalid : (validateMarkerPersistence codec persistence).isOk)
    (hid : row.operationID = persistence.operationID)
    (hdigest : row.intentDigest = persistence.intentDigest) (hstate : row.state = .markerPersisted)
    (hmarker : row.canonicalMarker = persistence.canonicalMarker)
    (hpreimage : row.canonicalReceiptPreimage = persistence.canonicalPreimage) :
    persistMarker codec persistence db = .ok (row.operation, db) := by
  obtain ⟨⟨marker, preimage⟩, hpersistence⟩ := exists_ok hvalid
  obtain ⟨hdecode, -⟩ := validateMarkerPersistence_spec hpersistence
  have hmatched := (h.rows row hrow).matched (by simp [hstate, order]) marker (hmarker ▸ hdecode)
  refine bind_ok.2 ⟨_, hpersistence, bind_ok.2 ⟨row, hid ▸ h.loadFound hrow hsize, ?_⟩⟩
  refine ensure_bind.2 ⟨by simp [hdigest, hmatched], ?_⟩
  rw [if_pos hstate]
  exact ensure_bind.2 ⟨by simp [hmarker, hpreimage], rfl⟩

/-! ## Signature and removal -/

theorem attachSignature_repeat {attachment : Lifecycle.SignatureAttachment}
    (hvalid : Lifecycle.validateSignatureAttachment codec attachment = .ok ())
    (hid : row.operationID = attachment.operationID)
    (hdigest : row.intentDigest = attachment.intentDigest) (hsigned : alreadySigned row.state)
    (hpreimage : row.canonicalReceiptPreimage = attachment.receiptPreimage)
    (hsignature : row.receiptSignature = attachment.signature) :
    (LifecycleSignatureRemoval.attachSignature codec attachment).eval (accepting codec) db =
      (.ok row.operation, db) := by
  have hord := order_of_alreadySigned hsigned
  unfold LifecycleSignatureRemoval.attachSignature
  rw [hvalid]
  refine (eval_ok (r := .loadOperation _) (query_of_ok (hid ▸ h.load hrow hsize))).trans ?_
  simp only [hdigest, ← hpreimage, ← hsignature, hsigned, bne_self_eq_false, Bool.or_self,
    Bool.false_eq_true, if_false, if_true]
  rw [Program.eval_bind, eval_verifySignature h hrow (by omega)]
  rfl

/-- `RemovePayload` comes to its transaction for an operation with a signed receipt. -/
theorem eval_removePayload {reference : OperationReference}
    (hvalid : validateOperationReference reference) (hid : row.operationID = reference.operationID)
    (hdigest : row.intentDigest = reference.intentDigest) (hsigned : alreadySigned row.state)
    {a : Operation} (hrun : Sqlite.removePayload codec reference row db = .ok (a, db')) :
    (LifecycleSignatureRemoval.removePayload codec reference).eval (accepting codec) db =
      (.ok a, db') := by
  have hord := order_of_alreadySigned hsigned
  unfold LifecycleSignatureRemoval.removePayload
  simp only [hvalid, Bool.not_true, Bool.false_eq_true, if_false]
  refine (eval_ok (r := .loadOperation _) (query_of_ok (hid ▸ h.load hrow hsize))).trans ?_
  simp only [hdigest, hsigned, bne_self_eq_false, Bool.not_true, Bool.or_self, Bool.false_eq_true,
    if_false]
  rw [Program.eval_bind, eval_verifySignature h hrow (by omega)]
  exact eval_ok hrun

theorem removePayload_repeat {reference : OperationReference} (ht : Entombed codec db)
    (hvalid : validateOperationReference reference) (hid : row.operationID = reference.operationID)
    (hdigest : row.intentDigest = reference.intentDigest) (hstate : row.state = .payloadRemoved) :
    (LifecycleSignatureRemoval.removePayload codec reference).eval (accepting codec) db =
      (.ok row.operation, db) := by
  refine eval_removePayload h hrow hsize hvalid hid hdigest (by rw [hstate]; rfl) ?_
  have hevidence := ht.evidence row hrow (by simp [hstate, order])
  refine bind_ok.2 ⟨row, hid ▸ h.loadFound hrow hsize, ensure_bind.2 ⟨by simp [hdigest], ?_⟩⟩
  refine ensure_bind.2 ⟨by simp, ?_⟩
  rw [if_pos hstate]
  exact ensure_bind.2 ⟨hevidence, rfl⟩

end

/-! ## Backup evidence -/

/-- The operation of a bound set. -/
theorem Evidenced.ofSet (h : Evidenced codec v db) {s : ObligationSetRow}
    (hs : s ∈ db.obligationSets) : ∃ row, Concerns db row s.canonicalSet.operationID
        s.canonicalSet.intentDigest s.canonicalSet.policyDigest ∧
      validateObligationSetIntent s.canonicalSet row.canonicalIntent row.intentDigest = .ok () := by
  obtain ⟨row, hrow, hid, hord, hok⟩ := (h.sets s hs).operation
  have hcolumn : s.operationID = s.canonicalSet.operationID := by rw [(h.sets s hs).columns]
  obtain ⟨-, hmatch⟩ := ensure_bind.1 hok
  obtain ⟨hmatch, -⟩ := ensure_bind.1 hmatch
  simp only [Bool.and_eq_true, beq_iff_eq] at hmatch
  exact ⟨row, ⟨hrow, hid.trans hcolumn, hmatch.1.2.symm, hmatch.2.symm, hord⟩, hok⟩

theorem pending_of_order {state : SagaState} (h : 5 ≤ order state) :
    (state != .backupsPending && state != .completed) = false := by
  cases state <;> simp [order] at h ⊢

variable {set : BackupObligationSet} {receipt : CustodianReceipt}

theorem obligationsMatchSet_self (h : validateBackupObligationSet set) :
    obligationsMatchSet set set.obligations := by
  simp only [validateBackupObligationSet, Bool.and_eq_true, List.all_eq_true] at h
  simp only [obligationsMatchSet, beq_self_eq_true, Bool.true_and, List.all_eq_true]
  exact fun o ho => (h.2 o ho).1.1.1

theorem bindBackupObligations_repeat (h : Evidenced codec v db) {s : ObligationSetRow}
    (hs : s ∈ db.obligationSets) (hfits : Fits codec db s.canonicalSet.operationID) :
    (Call.bindBackupObligations s.canonicalSet).Repeats codec db := by
  obtain ⟨row, ⟨hrow, hid, -, -, hord⟩, hok⟩ := h.ofSet hs
  have hcolumn : s.operationID = s.canonicalSet.operationID := by rw [(h.sets s hs).columns]
  have hvalid := (h.sets s hs).valid
  have hdigest : s.setDigest = codec.obligationSetDigest s.canonicalSet := by
    rw [(h.sets s hs).columns]
  have hload := h.load hrow (hfits.intent row hrow hid)
  rw [hid] at hload
  have hset := h.loadObligationSet hs (hfits.obligationSet s hs hcolumn)
  rw [hcolumn] at hset
  have hevidence := h.loadBackupEvidence hfits
  have hobligations := h.obligations_eq hs
  rw [hcolumn] at hobligations
  refine ⟨row, h.current hrow hid, eval_operation ?_⟩
  unfold LifecycleBackupCompletion.bindBackupObligations canonicalBackupObligationSet
  rw [hvalid]
  refine (eval_ok (r := .loadOperation _) (query_of_ok hload)).trans ?_
  simp only [hok]
  refine (eval_ok (r := .loadObligationSet _) (query_of_ok hset)).trans ?_
  unfold LifecycleBackupCompletion.bindBackupObligations.repeated
  simp only [hdigest, bne_self_eq_false, Bool.or_self, Bool.false_eq_true, if_false]
  refine (eval_ok (r := .loadBackupEvidence _) (query_of_ok hevidence)).trans ?_
  simp only [hobligations, obligationsMatchSet_self hvalid, Bool.not_true, Bool.false_eq_true,
    if_false]
  refine (eval_ok (r := .loadOperation _) (query_of_ok hload)).trans ?_
  simp only [pending_of_order hord, Bool.false_eq_true, if_false]
  rfl

/-- A verifier that accepts every signature. -/
def acceptCustodian : CustodianVerifier Id := fun _ _ _ _ => .ok ()

/-- Over the port, as with the verifier that accepts. -/
theorem eval_validateCustodianReceiptSignature (receipt : CustodianReceipt) :
    (validateCustodianReceiptSignature codec verifyCustodian receipt).eval (accepting codec) db =
      (signatureOf codec acceptCustodian receipt, db) := by
  unfold signatureOf validateCustodianReceiptSignature
  cases canonicalCustodianReceipt codec receipt with
  | error e => rfl
  | ok signed => exact eval_ok rfl

/-- A verified signature, where the receipt is valid. -/
theorem signatureOf_acceptCustodian (h : validateCustodianReceipt receipt) :
    signatureOf codec acceptCustodian receipt = .ok () := by
  unfold signatureOf validateCustodianReceiptSignature
  rw [canonicalCustodianReceipt_eq h]
  rfl

/-- A receipt that meets an obligation is valid. -/
theorem valid_of_meets {obligation : BackupObligation} {digest : String}
    (h : validateReceiptObligation receipt obligation digest = .ok ()) :
    validateCustodianReceipt receipt := by
  obtain ⟨hvalid, -⟩ := ensure_bind.1 h
  simp only [Bool.and_eq_true] at hvalid
  exact hvalid.1

/-- The operation of a stored receipt, and the obligation that it meets. -/
theorem Evidenced.ofReceipt (h : Evidenced codec v db) {r : ReceiptRow} (hr : r ∈ db.receipts) :
    ∃ row, Concerns db row r.canonicalReceipt.operationID r.canonicalReceipt.intentDigest
        r.canonicalReceipt.policyDigest ∧
      ∃ o ∈ db.obligations, o.operationID = row.operationID ∧ o.domain = r.canonicalReceipt.domain ∧
        validateReceiptObligation r.canonicalReceipt o.canonicalObligation o.obligationDigest =
          .ok () := by
  obtain ⟨hcolumns, ⟨o, ho, hoid, hdomain, hok⟩, -⟩ := h.receipts r hr
  obtain ⟨_, hok⟩ := exists_ok hok
  rw [hcolumns] at hoid hdomain
  have hmem := ho
  rw [h.obligations, List.mem_flatMap] at hmem
  obtain ⟨s, hs, hmem⟩ := hmem
  obtain ⟨obligation, hobligation, rfl⟩ := List.mem_map.1 hmem
  obtain ⟨row, hof, -⟩ := h.ofSet hs
  have hvalid := (h.sets s hs).valid
  simp only [validateBackupObligationSet, Bool.and_eq_true, List.all_eq_true, beq_iff_eq] at hvalid
  obtain ⟨⟨⟨-, hopid⟩, hintent⟩, hpolicy⟩ := hvalid.2 obligation hobligation
  obtain ⟨-, hmatch⟩ := ensure_bind.1 hok
  obtain ⟨hmatch, -⟩ := ensure_bind.1 hmatch
  simp only [Bool.and_eq_true, beq_iff_eq] at hmatch
  have hrid : row.operationID = obligation.operationID := hof.operationID.trans hopid.symm
  refine ⟨row, ⟨hof.mem, hrid.trans hoid, ?_, ?_, hof.order⟩, _, ho, hrid.symm, hdomain, hok⟩
  · rw [hof.intentDigest, ← hintent]
    exact hmatch.1.1.1.2.symm
  · rw [hof.policyDigest, ← hpolicy]
    exact hmatch.1.1.2.symm

theorem recordBackupReceipt_repeat (h : Evidenced codec v db) {r : ReceiptRow}
    (hr : r ∈ db.receipts) (hfits : Fits codec db r.canonicalReceipt.operationID) :
    (Call.recordBackupReceipt r.canonicalReceipt).Repeats codec db := by
  obtain ⟨row, ⟨hrow, hid, hdigest, -, hord⟩, o, ho, hoid, hdomain, hok⟩ := h.ofReceipt hr
  have hkept := h.receipts r hr
  have hcolumns : r = receiptRow codec r.canonicalReceipt := hkept.columns
  have hrid : r.operationID = r.canonicalReceipt.operationID := by
    rw [hcolumns]
    rfl
  have hreceiptID : r.receiptID = r.canonicalReceipt.receiptID := by
    rw [hcolumns]
    rfl
  have hrdigest : r.receiptDigest = codec.custodianReceiptDigest r.canonicalReceipt := by
    rw [hcolumns]
    rfl
  have hsize := hfits.intent row hrow hid
  have hvalid := valid_of_meets hok
  have hobligation := h.loadObligation hrow hord (hid ▸ hfits) ho hoid
  rw [hid, hdomain] at hobligation
  have hreceipt := h.loadReceiptByID hr (hkept.intact (hfits.receipts r hr hrid))
  rw [hreceiptID] at hreceipt
  have hcurrent := eval_currentOperation h.toIntegral hrow hsize
  rw [hid] at hcurrent
  refine ⟨row, h.current hrow hid, eval_operation ?_⟩
  unfold LifecycleBackupCompletion.recordBackupReceipt
  rw [canonicalCustodianReceipt_eq hvalid]
  simp only [Program.eval_bind, hcurrent]
  simp only [hdigest, pending_of_order hord, bne_self_eq_false, Bool.or_self, Bool.false_eq_true,
    if_false]
  refine (eval_ok (r := .loadObligation _ _) (query_of_ok hobligation)).trans ?_
  simp only [hok, Except.isOk, Except.toBool, Bool.not_true, Bool.false_eq_true, if_false]
  rw [Program.eval_bind, eval_validateCustodianReceiptSignature, signatureOf_acceptCustodian hvalid]
  unfold LifecycleBackupCompletion.recordBackupReceipt.store
  refine (eval_ok (r := .loadReceiptByID _) (query_of_ok hreceipt)).trans ?_
  simp only [hrdigest, bne_self_eq_false, Bool.or_self, Bool.false_eq_true, if_false]
  rw [Program.eval_bind, hcurrent]
  rfl

/-! ## Completion -/

theorem eval_countAll (obligations : List BackupObligation) (receipts : List CustodianReceipt)
    (tally : Tally) :
    (Tally.countAll codec verifyCustodian obligations receipts tally).eval (accepting codec) db =
      (Tally.countAll (m := Id) codec acceptCustodian obligations receipts tally, db) := by
  induction receipts generalizing tally with
  | nil => rfl
  | cons receipt receipts ih =>
    simp only [Tally.countAll]
    cases validBackupDomain receipt.domain with
    | false => rfl
    | true =>
    simp only [Bool.not_true, Bool.false_eq_true, if_false]
    cases obligations[indexDomain receipt.domain]? with
    | none => rfl
    | some obligation =>
      dsimp only
      cases tally.enter codec obligation receipt with
      | error findings => rfl
      | ok entered =>
        simp only [Program.eval_bind, eval_validateCustodianReceiptSignature]
        have hsignature : validateCustodianReceiptSignature (m := Id) codec acceptCustodian
            receipt = signatureOf codec acceptCustodian receipt := rfl
        simp only [hsignature, bind]
        cases entered.count codec obligation.deadline receipt
            (signatureOf codec acceptCustodian receipt) with
        | error findings => rfl
        | ok counted => exact ih counted

theorem eval_classifyBackupRecovery (reference : OperationReference)
    (obligations : List BackupObligation) (receipts : List CustodianReceipt) :
    (classifyBackupRecovery codec verifyCustodian reference obligations receipts).eval
      (accepting codec) db =
        (Judge.recoveryOf ⟨codec, acceptCustodian, obligations⟩ reference receipts, db) := by
  unfold Judge.recoveryOf classifyBackupRecovery
  cases obligationsOf reference obligations with
  | false => rfl
  | true =>
    simp only [Bool.not_true, Bool.false_eq_true, if_false, Program.eval_bind, eval_countAll]
    change _ = ((match Tally.countAll (m := Id) codec acceptCustodian obligations receipts {} with
      | .error findings => _
      | .ok tally => _ : BackupRecovery), db)
    cases Tally.countAll (m := Id) codec acceptCustodian obligations receipts {} with
    | error findings => rfl
    | ok tally =>
      dsimp only
      split_ifs <;> rfl

/-- The receipts that are loaded are those of the rows. -/
theorem mem_evidenceOf {operationID : String} : receipt ∈ (db.evidenceOf operationID).receipts ↔
      ∃ r ∈ db.receiptsOf operationID, r.canonicalReceipt = receipt :=
  List.mem_map

theorem Evidenced.collisionFree (h : Evidenced codec v db) (operationID : String) :
    CollisionFree codec (db.evidenceOf operationID).receipts := by
  intro receipt hreceipt receipt' hreceipt' hdigest
  obtain ⟨r, hr, rfl⟩ := mem_evidenceOf.1 hreceipt
  obtain ⟨r', hr', rfl⟩ := mem_evidenceOf.1 hreceipt'
  have hr := (mem_receiptsOf.1 hr).1
  have hr' := (mem_receiptsOf.1 hr').1
  rw [List.inj_on_of_nodup_map h.receiptDigests hr hr' ?_]
  rw [(h.receipts r hr).columns, (h.receipts r' hr').columns]
  exact hdigest

theorem Evidenced.oneDomainEach (h : Evidenced codec v db) (operationID : String) :
    OneDomainEach (db.evidenceOf operationID).receipts := by
  intro receipt hreceipt receipt' hreceipt' hid
  obtain ⟨r, hr, rfl⟩ := mem_evidenceOf.1 hreceipt
  obtain ⟨r', hr', rfl⟩ := mem_evidenceOf.1 hreceipt'
  have hr := (mem_receiptsOf.1 hr).1
  have hr' := (mem_receiptsOf.1 hr').1
  rw [List.inj_on_of_nodup_map h.receiptIDs hr hr' ?_]
  rw [(h.receipts r hr).columns, (h.receipts r' hr').columns]
  exact hid

/-- The obligations of a valid set are those of its operation. -/
theorem obligationsOf_set (h : validateBackupObligationSet set) :
    obligationsOf ⟨set.operationID, set.intentDigest⟩ set.obligations := by
  have hdomains := domains_of_valid h
  obtain ⟨e, i, a, hset, -⟩ := exists_of_domains hdomains
  simp only [validateBackupObligationSet, Bool.and_eq_true, List.all_eq_true, beq_iff_eq] at h
  have hhead : set.obligations.head?.map (·.policyDigest) = some set.policyDigest := by
    have he := h.2 e (by simp [hset])
    simp [hset, he.2]
  simp only [obligationsOf, Bool.and_eq_true, List.all_eq_true, beq_iff_eq, hhead]
  refine ⟨⟨h.1.1.1.2, hdomains⟩, fun o ho => ?_⟩
  obtain ⟨⟨⟨hvalid, hid⟩, hintent⟩, hpolicy⟩ := h.2 o ho
  exact ⟨⟨⟨hvalid, hid⟩, hintent⟩, congrArg some hpolicy⟩

/-- The obligation of a domain, where it is loaded. -/
theorem getElem?_of_domain (h : validateBackupObligationSet set) {o : BackupObligation}
    (ho : o ∈ set.obligations) : set.obligations[indexDomain o.domain]? = some o := by
  obtain ⟨e, i, a, hset, he, hi, ha⟩ := exists_of_domains (domains_of_valid h)
  rw [hset] at ho ⊢
  simp only [List.mem_cons, List.not_mem_nil, or_false] at ho
  rcases ho with rfl | rfl | rfl
  · rw [he]; rfl
  · rw [hi]; rfl
  · rw [ha]; rfl

/-- Evidence that a completion references settles each domain. -/
theorem Evidenced.settled (h : Evidenced codec v db) (hsup : Supported codec db row evidence)
    {domain : BackupDomain} (hmem : domain ∈ backupDomains) :
    Judge.Settled ⟨codec, acceptCustodian, (db.evidenceOf row.operationID).obligations⟩
      (db.evidenceOf row.operationID).receipts domain := by
  obtain ⟨x, -, r, o, href, rfl⟩ := h.referenced_domain hsup hmem
  obtain ⟨s, hs, hsid⟩ := h.bound row hsup.mem hsup.order
  have hobligations : (db.evidenceOf row.operationID).obligations = s.canonicalSet.obligations := by
    rw [← hsid]
    exact h.obligations_eq hs
  have hmeets := h.meets hsup.mem hsup.order href.receipt href.obligation
    (href.domain.2.trans href.domain.1.symm)
  have hcolumns := (h.receipts r (mem_receiptsOf.1 href.receipt).1).columns
  have hocolumns := h.obligation_columns (mem_obligationsOf.1 href.obligation).1
  have hdomain : r.canonicalReceipt.domain = x.domain := by
    rw [← href.domain.1, hcolumns]
    rfl
  have hodomain : o.canonicalObligation.domain = x.domain := by
    rw [← href.domain.2, hocolumns]
    rfl
  have hmem : o.canonicalObligation ∈ s.canonicalSet.obligations := by
    rw [← hobligations]
    exact List.mem_map_of_mem href.obligation
  have hindex : (db.evidenceOf row.operationID).obligations[indexDomain x.domain]? =
      some o.canonicalObligation := by
    rw [hobligations, ← hodomain]
    exact getElem?_of_domain (h.sets s hs).valid hmem
  have hdigest : o.obligationDigest = codec.obligationDigest o.canonicalObligation := by
    rw [hocolumns]
    rfl
  refine ⟨r.canonicalReceipt, mem_evidenceOf.2 ⟨r, href.receipt, rfl⟩, hdomain, ?_, ?_, ?_, ?_⟩
  · have hsignature : signatureOf codec acceptCustodian r.canonicalReceipt = .ok () :=
      signatureOf_acceptCustodian (valid_of_meets hmeets)
    rw [hdigest] at hmeets
    simp only [Judge.verified, Judge.meetsObligation, hdomain, hindex, hmeets, hsignature,
      Except.isOk, Except.toBool, Bool.and_self]
  · rw [← href.succeeded, hcolumns]
    rfl
  · have hdeadline := href.deadline
    rw [hcolumns, hocolumns] at hdeadline
    rw [Judge.deadlineOf, hindex]
    exact hdeadline
  · intro receipt hreceipt hdomain'
    obtain ⟨r', hr', rfl⟩ := mem_evidenceOf.1 hreceipt
    have hcolumns' := (h.receipts r' (mem_receiptsOf.1 hr').1).columns
    rw [List.inj_on_of_nodup_map (h.nodup_receiptsOf hsup) hr' href.receipt]
    rw [href.domain.1, ← hdomain', hcolumns']
    rfl

/-- Evidence that a completion references is completable. -/
theorem Evidenced.completable (h : Evidenced codec v db) (hsup : Supported codec db row evidence) :
    (Judge.recoveryOf ⟨codec, acceptCustodian, (db.evidenceOf row.operationID).obligations⟩
      ⟨evidence.operationID, evidence.intentDigest⟩
        (db.evidenceOf row.operationID).receipts).status = .completable := by
  have hdomains : ∀ receipt ∈ (db.evidenceOf row.operationID).receipts,
      receipt.domain ∈ backupDomains := by
    intro receipt hreceipt
    obtain ⟨r, hr, rfl⟩ := mem_evidenceOf.1 hreceipt
    rw [← (h.receiptsOf_domains hsup).mem_iff]
    refine List.mem_map.2 ⟨r, hr, ?_⟩
    rw [(h.receipts r (mem_receiptsOf.1 hr).1).columns]
    rfl
  refine (recoveryOf_completable (h.collisionFree _)).2 ⟨?_, hdomains, h.oneDomainEach _,
    fun _ => h.settled hsup⟩
  obtain ⟨s, hs, hsid⟩ := h.bound row hsup.mem hsup.order
  obtain ⟨row', hof, -⟩ := h.ofSet hs
  have hcolumn : s.operationID = s.canonicalSet.operationID := by rw [(h.sets s hs).columns]
  obtain rfl := h.eq_of_id hof.mem hsup.mem (hof.operationID.trans (hcolumn.symm.trans hsid))
  have hobligations : (db.evidenceOf row'.operationID).obligations =
    s.canonicalSet.obligations := by
    rw [← hsid]
    exact h.obligations_eq hs
  rw [hobligations, ← hsup.operationID, ← hsup.intentDigest, hof.operationID, hof.intentDigest]
  exact obligationsOf_set (h.sets s hs).valid

theorem Evidenced.validateCompletionAgainst (h : Evidenced codec v db)
    (hsup : Supported codec db row evidence) :
    (Lifecycle.validateCompletionAgainst codec verifyCustodian evidence
      (db.evidenceOf row.operationID).obligations (db.evidenceOf row.operationID).receipts).eval
        (accepting codec) db = (.ok (), db) := by
  unfold Lifecycle.validateCompletionAgainst
  simp only [hsup.valid, Bool.not_true, Bool.false_eq_true, if_false, Program.eval_bind,
    eval_classifyBackupRecovery, h.completable hsup, bne_self_eq_false]
  refine Prod.ext ?_ rfl
  refine ensure_ok.2 (List.all_eq_true.2 fun reference href => ?_)
  have hreferences := hsup.references
  simp only [completionReferencesStored, Bool.and_eq_true, List.all_eq_true] at hreferences
  have hreference := hreferences.2 reference href
  split at hreference
  · next receipt obligation hlast _ =>
    simp only [Bool.and_eq_true, beq_iff_eq, decide_eq_true_eq] at hreference
    obtain ⟨⟨⟨⟨⟨hvalid, hreceiptID⟩, hdigest⟩, -⟩, -⟩, hcompleted⟩ := hreference
    have hmem := List.mem_reverse.1 (List.mem_of_find?_eq_some hlast)
    obtain ⟨r, hr, rfl⟩ := mem_evidenceOf.1 hmem
    obtain ⟨hr, hrid⟩ := mem_receiptsOf.1 hr
    obtain ⟨row', hof, -⟩ := h.ofReceipt hr
    have hrcid : r.canonicalReceipt.operationID = row.operationID := by
      rw [← hrid, (h.receipts r hr).columns]
      rfl
    obtain rfl := h.eq_of_id hof.mem hsup.mem (hof.operationID.trans hrcid)
    have hoperation := hrcid.trans hsup.operationID
    have hintent := hof.intentDigest.symm.trans hsup.intentDigest
    have hpolicy := hof.policyDigest.symm.trans hsup.policyDigest
    simp only [hlast, hvalid, hreceiptID, hdigest, hoperation, hintent, hpolicy, hcompleted,
      beq_self_eq_true, decide_true, Bool.and_self]
  · cases hreference

theorem complete_repeat (h : Evidenced codec v db) {c : CompletionRow} (hc : c ∈ db.completions)
    (hfits : Fits codec db c.canonicalCompletion.operationID) :
    (Call.complete c.canonicalCompletion).Repeats codec db := by
  have hkept := h.completions c hc
  have hcid : c.operationID = c.canonicalCompletion.operationID := by
    rw [hkept.columns]
    rfl
  have hdigest : c.completionDigest = codec.completionDigest c.canonicalCompletion := by
    rw [hkept.columns]
    rfl
  obtain ⟨row, hsup, -, hstate⟩ := h.supported hc
  obtain ⟨hrow, hid, hintent, hpolicy, hord⟩ := hsup.toConcerns
  obtain ⟨s, hs, hsid⟩ := h.bound row hrow hord
  have hcurrent := eval_currentOperation h.toIntegral hrow (hfits.intent row hrow hid)
  have hset := h.loadObligationSet hs (hfits.obligationSet s hs (hsid.trans hid))
  rw [hsid, hid] at hset
  have hevidence := h.loadBackupEvidence hfits
  have hcompletion := h.loadCompletion hc (hfits.completion c hc hcid)
  have hagainst := h.validateCompletionAgainst hsup
  rw [hcid] at hcompletion
  rw [hid] at hcurrent hagainst
  refine ⟨row, h.current hrow hid, eval_operation ?_⟩
  unfold LifecycleBackupCompletion.complete canonicalCompletionEvidence
  rw [hkept.valid]
  refine (Program.eval_bind).trans ?_
  simp only [hcurrent, hintent, hpolicy, pending_of_order hord, bne_self_eq_false, Bool.or_self,
    Bool.false_eq_true, if_false]
  refine (eval_ok (r := .loadObligationSet _) (query_of_ok hset)).trans ?_
  refine (eval_ok (r := .loadBackupEvidence _) (query_of_ok hevidence)).trans ?_
  simp only [Program.eval_bind, hagainst]
  unfold LifecycleBackupCompletion.complete.store
  refine (eval_ok (r := .verifyCompletionAudit _) rfl).trans ?_
  refine (eval_ok (r := .loadCompletion _) (query_of_ok hcompletion)).trans ?_
  simp only [hdigest, bne_self_eq_false, Bool.or_self, Bool.false_eq_true, if_false,
    Program.eval_bind, hcurrent, hstate]
  rfl

/-! ## Every call -/

/-- The calls of the lifecycle capabilities. -/
def Call.lifecycle : Call → Bool
  | .reserve _ _ | .bindExport _ | .persistMarker _ | .attachReceiptSignature _ | .removePayload _
  | .bindBackupObligations _ | .recordBackupReceipt _ | .complete _ => true
  | _ => false

/-- A call whose work is done returns the current operation and changes nothing. -/
theorem Call.Done.repeats {c : Call} (hdone : c.Done codec db) (h : Evidenced codec v db)
    (ht : Entombed codec db) (hc : c.lifecycle) (hfits : Fits codec db c.operationID)
    (hstate : ∀ row, db.operation? c.operationID = some row → c.RepeatableIn row.state) :
    c.Repeats codec db := by
  cases c with
  | reserve preparation intent =>
    obtain ⟨-, row, hrow, hid, rfl⟩ := hdone
    exact ⟨row, h.current hrow hid, eval_single (r := .reserve _ _)
      (reserve_repeat h.toIntegral hrow (hfits.intent row hrow hid))⟩
  | bindExport evidence =>
    obtain ⟨hvalid, row, hrow, hid, hdigest, hmode, -, hmanifest, hcustody⟩ := hdone
    exact ⟨row, h.current hrow hid, eval_single (r := .bindExport _)
      (bindExport_repeat h.toIntegral hrow (hfits.intent row hrow hid) hvalid hid hdigest hmode
        hmanifest hcustody)⟩
  | persistMarker persistence =>
    obtain ⟨hvalid, row, hrow, hid, hdigest, -, hmarker, hpreimage⟩ := hdone
    have hcurrent := h.current hrow hid
    exact ⟨row, hcurrent, eval_single (r := .persistMarker _)
      (persistMarker_repeat h.toIntegral hrow (hfits.intent row hrow hid) hvalid hid hdigest
        (hstate row hcurrent) hmarker hpreimage)⟩
  | attachReceiptSignature attachment =>
    obtain ⟨hvalid, row, hrow, hid, hdigest, -, hpreimage, hsignature⟩ := hdone
    have hcurrent := h.current hrow hid
    exact ⟨row, hcurrent, eval_operation
      (attachSignature_repeat h.toIntegral hrow (hfits.intent row hrow hid) hvalid hid hdigest
        (hstate row hcurrent) hpreimage hsignature)⟩
  | removePayload reference =>
    obtain ⟨hvalid, row, hrow, hid, hdigest, -⟩ := hdone
    have hcurrent := h.current hrow hid
    exact ⟨row, hcurrent, eval_operation
      (removePayload_repeat h.toIntegral hrow (hfits.intent row hrow hid) ht hvalid hid hdigest
        (hstate row hcurrent))⟩
  | bindBackupObligations set =>
    obtain ⟨s, hs, rfl⟩ := hdone
    exact bindBackupObligations_repeat h hs hfits
  | recordBackupReceipt receipt =>
    obtain ⟨r, hr, rfl⟩ := hdone
    exact recordBackupReceipt_repeat h hr hfits
  | complete evidence =>
    obtain ⟨c, hmem, rfl⟩ := hdone
    exact complete_repeat h hmem hfits
  | _ => cases hc

/-- A run is one in which the verifiers may accept everything. -/
theorem Reach.judged {p : Pool} (hp : Reach codec p) : JudgedReach codec acceptAll p :=
  hp.mono fun _ r _ _ _ hs => ⟨hs, fun _ => r.accepted_acceptAll⟩

/-- **Idempotence.** A lifecycle call that has succeeded, made again at any later point of the run
at which the operation is in a state that the call accepts its repeat in, returns the current
operation and changes nothing. -/
theorem lifecycle_call_repeats {p : Pool}
    (hremoval : ∀ records, validDigest (codec.removalDigest records) = true)
    (hp : Reach codec p) {i : Nat} {c : Call} {outcome : Outcome} (hc : c.lifecycle = true)
    (hreturned : p.Returned i c outcome) (hok : outcome.isOk = true)
    (hfits : Fits codec p.shared c.operationID)
    (hstate : ∀ row, p.shared.operation? c.operationID = some row → c.RepeatableIn row.state) :
    c.Repeats codec p.shared :=
  (hp.done hreturned hok).repeats (hp.judged.evidenced hremoval) (hp.judged.entombed hremoval).2 hc
    hfits hstate

end

/-! ## A marker that is persisted again -/

/-- The documents of the sample runs are small. -/
theorem fits_sample (db : Db) (operationID : String) : Fits fenceCodec db operationID :=
  ⟨fun _ _ _ => rfl, fun _ _ _ => rfl, fun _ _ _ => rfl, fun _ _ _ => rfl, fun _ _ _ => rfl⟩

theorem sem_of_run (codec : Codec) (i : Nat) (r : Request) (db : Db) (a : r.Result) (db' : Db)
    (h : r.run codec db = .ok (a, db')) (_ : r.Fenced db) : sem codec i r db (.ok a) db' :=
  .committed h

/-- A run in which the marker of the sample operation has been persisted. -/
theorem persistMarker_returned : ∃ p : Pool, Reach fenceCodec p ∧ Idle 5 (markedDb [] markedRow) p ∧
    p.Returned 4 (.persistMarker samplePersistence) (.operation (.ok markedRow.operation)) := by
  obtain ⟨p, hp, hi⟩ := reservedDb_reachable (sem_of_run fenceCodec)
  obtain ⟨q, hq, hi', hreturned, -⟩ := hi.exec (S := sem fenceCodec)
    (c := .persistMarker samplePersistence)
    (exec_ask (r := .persistMarker _) (.committed (persistMarker_sample [])))
  exact ⟨q, hp.trans hq, hi', hreturned⟩

/-- The marker of the sample operation, persisted again right after. -/
theorem lifecycle_call_repeats_marker : ∃ p : Pool, Reach fenceCodec p ∧
    p.Returned 4 (.persistMarker samplePersistence) (.operation (.ok markedRow.operation)) ∧
    (Call.persistMarker samplePersistence).Repeats fenceCodec p.shared := by
  obtain ⟨p, hp, hi, hreturned⟩ := persistMarker_returned
  refine ⟨p, hp, hreturned, lifecycle_call_repeats valid_removalDigest hp rfl hreturned rfl
    (fits_sample _ _) fun row hrow => ?_⟩
  rw [hi.shared] at hrow
  obtain rfl : markedRow = row := Option.some.inj hrow
  rfl

/-- Once the receipt is signed, the marker that was persisted is refused. -/
theorem persistMarker_refused :
    (Request.persistMarker samplePersistence).run fenceCodec (markedDb [] signedRow) =
      .error .conflict := by
  change persistMarker fenceCodec samplePersistence (markedDb [] signedRow) = _
  unfold persistMarker loadFound
  have hload : loadLifecycleOperation fenceCodec samplePersistence.operationID
      (markedDb [] signedRow) = .ok (some signedRow) := fenceDocuments.load_signed rfl
  rw [fenceDocuments.persistence, hload]
  rfl

/-- `PersistMarker`, repeated after the receipt was signed, reports a conflict. -/
theorem persistMarker_not_repeated : ¬ ∀ (codec : Codec) (p : Pool),
    (∀ records, validDigest (codec.removalDigest records) = true) → Reach codec p →
    ∀ (i : Nat) (c : Call) (outcome : Outcome), c.lifecycle = true → p.Returned i c outcome →
      outcome.isOk = true → Fits codec p.shared c.operationID → c.Repeats codec p.shared := by
  intro h
  obtain ⟨p, hp, hi, hreturned⟩ := persistMarker_returned
  obtain ⟨q, hq, hi', -, hkept⟩ := hi.exec (S := sem fenceCodec) (fenceDocuments.attach
    (sem_of_run fenceCodec 5) rfl (attachReceiptSignature_sample []))
  obtain ⟨row, -, heval⟩ := h fenceCodec q valid_removalDigest (hp.trans hq) 4 _ _ rfl
    (hkept _ _ _ hreturned) rfl (fits_sample _ _)
  have hanswer : accepting fenceCodec (.persistMarker samplePersistence) q.shared =
      (.error .conflict, q.shared) := by
    rw [hi'.shared, accepting, persistMarker_refused]
  have hrefused : ((Call.persistMarker samplePersistence).body fenceCodec).eval
      (accepting fenceCodec) q.shared = (.operation (.error .conflict), q.shared) := by
    change (Outcome.operation (accepting fenceCodec (.persistMarker samplePersistence) q.shared).1,
      (accepting fenceCodec (.persistMarker samplePersistence) q.shared).2) = _
    rw [hanswer]
  rw [hrefused] at heval
  cases heval

end YukhCoordination.Relay.Sqlite
