import YukhCoordination.Relay.Sqlite.Effect

/-!
# The turns of the saga

`Turn` lists what a committed transaction does to the operations and to the evidence that belongs to
them, with everything it has checked before. An operation is found by its id, so its `UPDATE`
replaces one row. This is the one place where the lifecycle transactions are taken apart:
`run_turns` says that every request that succeeds has an effect and, where the ids of the operations
are unique, is a turn.
-/

namespace YukhCoordination.Relay.Sqlite

open Lifecycle Transaction Interleave

/-! ## Rows and tables -/

/-- `ValidSagaAdvance`: the place of a state in the saga. -/
def order : SagaState → Nat
  | .reserved => 0
  | .exportSatisfied => 1
  | .markerPersisted => 2
  | .receiptSigned => 3
  | .payloadRemoved => 4
  | .backupsPending => 5
  | .completed => 6

/-- The operations after the row of one of them became `row`. -/
def Db.put (db : Db) (row : OperationRow) : List OperationRow :=
  db.operations.map fun r => if r.operationID = row.operationID then row else r

/-- The tables of backup evidence stay as they are. -/
structure SameBackups (db db' : Db) : Prop where
  obligationSets : db'.obligationSets = db.obligationSets
  obligations : db'.obligations = db.obligations
  receipts : db'.receipts = db.receipts
  completions : db'.completions = db.completions

theorem SameBackups.refl (db : Db) : SameBackups db db := ⟨rfl, rfl, rfl, rfl⟩

/-- The transcripts that exist keep their lifecycle. -/
def SameLives (db db' : Db) : Prop :=
  ∀ t ∈ db.transcripts, ∃ t' ∈ db'.transcripts, t'.key = t.key ∧ t'.lifecycle = t.lifecycle

theorem SameLives.of_eq {db db' : Db} (h : db'.transcripts = db.transcripts) : SameLives db db' :=
  fun t ht => ⟨t, h ▸ ht, rfl, rfl⟩

/-- The policies, the bindings and the metadata of the transcripts stay as they are. -/
structure SameRetention (db db' : Db) : Prop where
  policies : db'.policies = db.policies
  bindings : db'.bindings = db.bindings
  metadata : ∀ t ∈ db.transcripts, ∃ t' ∈ db'.transcripts,
    t'.key = t.key ∧ t'.canonicalMetadata = t.canonicalMetadata

theorem SameRetention.of_eq {db db' : Db} (hpolicies : db'.policies = db.policies)
    (hbindings : db'.bindings = db.bindings) (htranscripts : db'.transcripts = db.transcripts) :
    SameRetention db db' :=
  ⟨hpolicies, hbindings, fun t ht => ⟨t, htranscripts ▸ ht, rfl, rfl⟩⟩

/-- What a reservation stores of the retention of its transcript: the policy and the deadline that
it computed of the metadata. -/
structure Retains (codec : Codec) (preparation : LifecyclePreparation) (intent : Intent)
    (policy : Policy) (db db' : Db) : Prop where
  known : policy ∈ preparation.policies
  digest : policy.policyDigest = intent.policyDigest
  deadline : ∃ t ∈ db.transcripts, t.key = intent.transcript.channelKey ∧ ∃ metadata deadline,
    codec.channelMetadata t.canonicalMetadata = some metadata ∧
    retentionDeadline metadata policy = .ok deadline ∧
    ⟨intent.transcript.channelKey, intent.policyDigest, intent.policyID, intent.policyEpoch,
      deadline⟩ ∈ db'.bindings
  policy : ⟨policy.policyDigest, policy.policyID, policy.policyEpoch, policy,
    policy.activeRetentionMillis, policy.exportMode⟩ ∈ db'.policies
  policies : db.policies ⊆ db'.policies
  bindings : db.bindings ⊆ db'.bindings
  unique : (db.bindings.map (·.key)).Nodup → (db'.bindings.map (·.key)).Nodup
  transcripts : db'.transcripts = db.transcripts

/-- The row of an obligation. -/
def obligationRow (codec : Codec) (obligation : BackupObligation) : ObligationRow :=
  ⟨obligation.operationID, obligation.domain, codec.obligationDigest obligation, obligation,
    obligation.deadline, obligation.bindingKind, obligation.bindingDigest⟩

/-- The row of a custodian receipt. -/
def receiptRow (codec : Codec) (receipt : CustodianReceipt) : ReceiptRow :=
  ⟨receipt.receiptID, codec.custodianReceiptDigest receipt, receipt.operationID, receipt.domain,
    receipt, receipt.evidenceTime, receipt.outcome⟩

/-- The row of a completion. -/
def completionRow (codec : Codec) (evidence : CompletionEvidence) : CompletionRow :=
  ⟨evidence.operationID, codec.completionDigest evidence, evidence, evidence.completedAt⟩

/-! ## Turns -/

/-- A row before the change that a request makes to it, and after. -/
inductive Moves (codec : Codec) : Request → OperationRow → OperationRow → Prop
  | exported {evidence : ExportEvidence} {row : OperationRow} :
      validateExportEvidence evidence → row.operationID = evidence.operationID →
      row.intentDigest = evidence.intentDigest → row.canonicalIntent.exportMode = .required →
      row.state = .reserved →
      Moves codec (.bindExport evidence) row
        { row with exportManifestDigest := evidence.manifestDigest,
                   exportCustodyReceiptDigest := evidence.custodyReceiptDigest,
                   state := .exportSatisfied }
  | marked {persistence : MarkerPersistence} {row : OperationRow} (marker : Marker)
      (preimage : ReceiptPreimage) :
      validateMarkerPersistence codec persistence = .ok (marker, preimage) →
      row.operationID = persistence.operationID → row.intentDigest = persistence.intentDigest →
      markerMatchesIntent marker row.canonicalIntent → row.state = .exportSatisfied →
      Moves codec (.persistMarker persistence) row
        { row with canonicalMarker := persistence.canonicalMarker,
                   canonicalReceiptPreimage := persistence.canonicalPreimage,
                   state := .markerPersisted }
  | signed {attachment : Lifecycle.SignatureAttachment} {row : OperationRow} :
      row.operationID = attachment.operationID → row.intentDigest = attachment.intentDigest →
      row.canonicalReceiptPreimage = attachment.receiptPreimage → row.state = .markerPersisted →
      Moves codec (.attachReceiptSignature attachment) row
        { row with receiptSignature := attachment.signature, state := .receiptSigned }
  | removed {reference : OperationReference} {preflight row : OperationRow}
      (removed : List RemovalRecord) :
      row.operationID = reference.operationID → row.intentDigest = reference.intentDigest →
      row.receiptSignature = preflight.receiptSignature → row.state = .receiptSigned →
      canonicalSize (codec.intentSize row.canonicalIntent) →
      Moves codec (.removePayload reference preflight) row
        { row with payloadRemovalDigest :=
                     codec.removalDigest (removed.map (RemovalRecord.evidence codec)),
                   state := .payloadRemoved }
  | bound {set : BackupObligationSet} {preflight row : OperationRow} :
      row.operationID = set.operationID → row.intentDigest = set.intentDigest →
      row.canonicalIntent = preflight.canonicalIntent →
      row.intentDigest = preflight.intentDigest → row.state = .payloadRemoved →
      Moves codec (.bindBackupObligations set preflight) row { row with state := .backupsPending }
  | completed {evidence : CompletionEvidence} {preflight row : OperationRow}
      {set : ObligationSetRow} {backups : BackupEvidence} :
      row.operationID = evidence.operationID → row.intentDigest = evidence.intentDigest →
      row.canonicalIntent = preflight.canonicalIntent → row.state = .backupsPending →
      Moves codec (.complete evidence preflight set backups) row { row with state := .completed }

/-- What a committed request does to the operations and to their evidence. -/
inductive Turn (codec : Codec) (db db' : Db) : Request → Prop
  | framed {r : Request} : db'.operations = db.operations → SameTombstones db db' →
      SameBackups db db' → SameLives db db' → SameRetention db db' → Turn codec db db' r
  | reserved {preparation : LifecyclePreparation} {intent : Intent} (policy : Policy) :
      Lifecycle.validateIntent intent → policy.exportMode = intent.exportMode →
      db'.operations = db.operations ++ [reservedRow codec intent policy] →
      SameTombstones db db' → SameBackups db db' → SameLives db db' →
      Retains codec preparation intent policy db db' →
      Turn codec db db' (.reserve preparation intent)
  | moved {r : Request} (row row' : OperationRow) : row ∈ db.operations →
      Moves codec r row row' → db'.operations = db.put row' → order row'.state ∈ [1, 3] →
      SameTombstones db db' → SameBackups db db' → SameLives db db' → SameRetention db db' →
      Turn codec db db' r
  | marked {persistence : MarkerPersistence} (row row' : OperationRow) (marker : Marker) :
      row ∈ db.operations → Moves codec (.persistMarker persistence) row row' →
      codec.decodeMarker row'.canonicalMarker = some marker →
      db'.operations = db.put row' → SameTombstones db db' → SameBackups db db' →
      updateOne (fun t : Transcript => t.key == marker.transcript.channelKey &&
        t.lifecycle == marker.previousLifecycle) (fun t =>
          { t with lifecycle := marker.resultingLifecycle, completeness := .incomplete })
        db.transcripts = some db'.transcripts → SameRetention db db' →
      Turn codec db db' (.persistMarker persistence)
  | removed {reference : OperationReference} {preflight : OperationRow} (row row' : OperationRow)
      (removed : List RemovalRecord) (mid : Db) : row ∈ db.operations →
      Moves codec (.removePayload reference preflight) row row' →
      row'.payloadRemovalDigest = codec.removalDigest (removed.map (RemovalRecord.evidence codec)) →
      selectRemovalRecords row.canonicalIntent db = .ok removed → removed ≠ [] →
      removeRecords codec row.canonicalIntent removed db = .ok mid →
      db' = { mid with operations := db.put row' } →
      Turn codec db db' (.removePayload reference preflight)
  | bound {set : BackupObligationSet} {preflight : OperationRow} (row row' : OperationRow) :
      row ∈ db.operations → Moves codec (.bindBackupObligations set preflight) row row' →
      (∀ s ∈ db.obligationSets, s.operationID ≠ set.operationID) →
      db' = { db with
        obligationSets := db.obligationSets ++
          [⟨set.operationID, codec.obligationSetDigest set, set⟩]
        obligations := db.obligations ++ set.obligations.map (obligationRow codec)
        operations := db.put row' } →
      Turn codec db db' (.bindBackupObligations set preflight)
  | recorded {receipt : CustodianReceipt} {preflight : OperationRow} {obligation : ObligationRow}
      (row : OperationRow) (current : ObligationRow) : row ∈ db.operations →
      row.operationID = receipt.operationID → row.state = .backupsPending →
      loadObligation codec receipt.operationID receipt.domain db = .ok current →
      current.obligationDigest = obligation.obligationDigest →
      current.canonicalObligation = obligation.canonicalObligation →
      (∀ r ∈ db.receipts, r.receiptID ≠ receipt.receiptID) →
      (∀ r ∈ db.receipts, r.receiptDigest ≠ codec.custodianReceiptDigest receipt) →
      db' = { db with receipts := db.receipts ++ [receiptRow codec receipt] } →
      Turn codec db db' (.recordBackupReceipt receipt preflight obligation)
  | completed {evidence : CompletionEvidence} {preflight : OperationRow} {set : ObligationSetRow}
      {backups : BackupEvidence} (row row' : OperationRow) : row ∈ db.operations →
      Moves codec (.complete evidence preflight set backups) row row' →
      loadBackupEvidence codec evidence.operationID db = .ok backups →
      completionReferencesStored codec evidence backups →
      (∀ c ∈ db.completions, c.operationID ≠ evidence.operationID) →
      db' = { db with
        completions := db.completions ++ [completionRow codec evidence]
        operations := db.put row' } →
      Turn codec db db' (.complete evidence preflight set backups)

/-- What a lifecycle call that succeeded has left in the database. -/
def Call.Done (codec : Codec) (db : Db) : Call → Prop
  | .reserve _ intent => Lifecycle.validateIntent intent = true ∧
      ∃ row ∈ db.operations, row.operationID = intent.operationID ∧ row.canonicalIntent = intent
  | .bindExport evidence => validateExportEvidence evidence = true ∧
      ∃ row ∈ db.operations, row.operationID = evidence.operationID ∧
        row.intentDigest = evidence.intentDigest ∧ row.canonicalIntent.exportMode = .required ∧
        1 ≤ order row.state ∧ row.exportManifestDigest = evidence.manifestDigest ∧
        row.exportCustodyReceiptDigest = evidence.custodyReceiptDigest
  | .persistMarker persistence => (validateMarkerPersistence codec persistence).isOk = true ∧
      ∃ row ∈ db.operations, row.operationID = persistence.operationID ∧
        row.intentDigest = persistence.intentDigest ∧ 2 ≤ order row.state ∧
        row.canonicalMarker = persistence.canonicalMarker ∧
        row.canonicalReceiptPreimage = persistence.canonicalPreimage
  | .attachReceiptSignature attachment =>
      Lifecycle.validateSignatureAttachment codec attachment = .ok () ∧
      ∃ row ∈ db.operations, row.operationID = attachment.operationID ∧
        row.intentDigest = attachment.intentDigest ∧ 3 ≤ order row.state ∧
        row.canonicalReceiptPreimage = attachment.receiptPreimage ∧
        row.receiptSignature = attachment.signature
  | .removePayload reference => validateOperationReference reference = true ∧
      ∃ row ∈ db.operations, row.operationID = reference.operationID ∧
        row.intentDigest = reference.intentDigest ∧ 4 ≤ order row.state
  | .bindBackupObligations set => ∃ s ∈ db.obligationSets, s.canonicalSet = set
  | .recordBackupReceipt receipt => ∃ r ∈ db.receipts, r.canonicalReceipt = receipt
  | .complete evidence => ∃ c ∈ db.completions, c.canonicalCompletion = evidence
  | _ => True

section
variable {codec : Codec} {db db' : Db} {row row' : OperationRow} {request : Request}

/-- The row that replaced another one is stored. -/
theorem self_mem_put (hrow : row ∈ db.operations) (hid : row'.operationID = row.operationID) :
    row' ∈ db.put row' := by
  refine List.mem_map.2 ⟨row, hrow, if_pos hid.symm⟩

/-- An `UPDATE` of the operation that was loaded replaces its row. -/
theorem updateOperation_put {operationID intentDigest : String} {state : SagaState}
    {change : OperationRow → OperationRow}
    (h : updateOperation operationID intentDigest state change db = .ok db')
    (hids : (db.operations.map (·.operationID)).Nodup) (hrow : row ∈ db.operations)
    (hid : row.operationID = operationID) (hchange : (change row).operationID = row.operationID) :
    row.intentDigest = intentDigest ∧ row.state = state ∧
      db' = { db with operations := db.put (change row) } := by
  unfold updateOperation at h
  obtain ⟨operations, hup, h⟩ := required_bind.1 h
  cases h
  obtain ⟨hone, rfl⟩ := updateOne_eq_some hup
  obtain ⟨found, hfound, hp⟩ := exists_of_countP_eq_one hone
  have hkeys := hp
  simp only [Bool.and_eq_true, beq_iff_eq] at hkeys
  obtain rfl := List.inj_on_of_nodup_map hids hfound hrow (hkeys.1.1.trans hid.symm)
  refine ⟨hkeys.1.2, hkeys.2, ?_⟩
  congr 1
  refine List.map_congr_left fun r hr => ?_
  by_cases hsame : r.operationID = (change found).operationID
  · obtain rfl := List.inj_on_of_nodup_map hids hr hfound (hsame.trans hchange)
    rw [if_pos hp, if_pos hsame]
  · rw [if_neg hsame, if_neg]
    intro hpr
    simp only [Bool.and_eq_true, beq_iff_eq] at hpr
    exact hsame (hpr.1.1.trans (hid.symm.trans hchange.symm))

/-- The operations after a turn: those before, with a new one or with one of them moved. -/
theorem Turn.operations (ht : Turn codec db db' request) : db'.operations = db.operations ∨
    (∃ intent policy, db'.operations = db.operations ++ [reservedRow codec intent policy]) ∨
    ∃ row ∈ db.operations, ∃ row', Moves codec request row row' ∧ db'.operations = db.put row' := by
  cases ht with
  | framed hops => exact .inl hops
  | reserved policy _ _ hops => exact .inr (.inl ⟨_, policy, hops⟩)
  | moved row row' hrow hm hops | marked row row' _ hrow hm _ hops =>
    exact .inr (.inr ⟨row, hrow, row', hm, hops⟩)
  | removed row row' _ _ hrow hm _ _ _ _ heq | bound row row' hrow hm _ heq
  | completed row row' hrow hm _ _ _ heq => exact .inr (.inr ⟨row, hrow, row', hm, by rw [heq]⟩)
  | recorded _ _ _ _ _ _ _ _ _ _ heq => exact .inl (by rw [heq])

/-! ## The relay store -/

/-- What a request that succeeds has done: its effect and, where the ids of the operations are
unique, its turn with what else it leaves. -/
def Turns (codec : Codec) (db db' : Db) (r : Request) (done : Prop) : Prop :=
  Effect codec db db' r ∧
    ((db.operations.map (·.operationID)).Nodup → Turn codec db db' r ∧ done)

/-- A request that finds its work done. -/
theorem Turns.unchanged {done : Prop} (h : done) : Turns codec db db request done :=
  ⟨.framed (.refl db) rfl, fun _ =>
    ⟨.framed rfl ⟨rfl, rfl⟩ (.refl db) (.of_eq rfl) (.of_eq rfl rfl rfl), h⟩⟩

theorem createChannel_turns {channel : Channel} {a : Unit}
    (h : createChannel channel db = .ok (a, db')) : Turns codec db db' request True := by
  obtain ⟨identities, rfl | ⟨t, hc, rfl⟩⟩ := createChannel_cases h
  · exact ⟨.framed ⟨⟨rfl, rfl⟩, rfl, rfl⟩ rfl, fun _ =>
      ⟨.framed rfl ⟨rfl, rfl⟩ ⟨rfl, rfl, rfl, rfl⟩ (.of_eq rfl) (.of_eq rfl rfl rfl), trivial⟩⟩
  · exact ⟨.created t hc, fun _ => ⟨.framed rfl ⟨rfl, rfl⟩ ⟨rfl, rfl, rfl, rfl⟩
      (fun t ht => ⟨t, List.mem_append_left _ ht, rfl, rfl⟩)
      ⟨rfl, rfl, fun t ht => ⟨t, List.mem_append_left _ ht, rfl, rfl⟩⟩, trivial⟩⟩

theorem appendChecked_turns {intent : AppendIntent} {admission : Admit} {prepare : PrepareRecord}
    {a : AppendResult} (h : appendChecked codec intent admission prepare db = .ok (a, db')) :
    Turns codec db db' (.appendChecked intent admission prepare) True := by
  rcases appendChecked_cases h with ⟨-, rfl, -⟩ | ⟨-, hc, he, -, t, -, hdb, happ⟩
  · exact .unchanged trivial
  · have hmem : ∀ t ∈ db.transcripts, t.allocate a.record ∈ db'.transcripts := fun t ht =>
      happ.transcripts ▸ List.mem_map_of_mem ht
    refine ⟨.appended t a.record hc he happ, fun _ =>
      ⟨.framed happ.operations happ.toSameTombstones (by rw [hdb]; exact ⟨rfl, rfl, rfl, rfl⟩)
        (fun t ht => ⟨_, hmem t ht, allocate_key t, allocate_lifecycle t⟩)
        ⟨by rw [hdb], by rw [hdb], fun t ht => ⟨_, hmem t ht, allocate_key t, allocate_metadata t⟩⟩,
        trivial⟩⟩

theorem attachSignature_turns {attachment : Relay.SignatureAttachment} {a : AcceptedRecord}
    (h : attachSignature attachment db = .ok (a, db')) : Turns codec db db' request True := by
  obtain ⟨-, -, -, -, rfl | ⟨hdb, hs⟩⟩ := attachSignature_cases h
  · exact .unchanged trivial
  · exact ⟨.signed attachment hs, fun _ => ⟨.framed hs.operations hs.toSameTombstones
      (by rw [hdb]; exact ⟨rfl, rfl, rfl, rfl⟩) (.of_eq hs.transcripts)
      (.of_eq (by rw [hdb]) (by rw [hdb]) hs.transcripts), trivial⟩⟩

/-! ## The lifecycle capabilities -/

variable {intent : Intent} {a : Operation} {preflight : OperationRow}

/-- A policy that is persisted is stored. -/
theorem persistLifecyclePolicy_ok {policy : Policy}
    (h : persistLifecyclePolicy policy db = .ok db') : db' = { db with policies := db'.policies } ∧
      ⟨policy.policyDigest, policy.policyID, policy.policyEpoch, policy,
        policy.activeRetentionMillis, policy.exportMode⟩ ∈ db'.policies ∧
      db.policies ⊆ db'.policies := by
  unfold persistLifecyclePolicy at h
  dsimp only at h
  split at h
  · cases h
    exact ⟨rfl, List.mem_append_right _ (List.mem_singleton_self _), List.subset_append_left _ _⟩
  · next existing hfind =>
    split at h
    · next heq =>
      cases h
      exact ⟨rfl, heq ▸ List.mem_of_find?_eq_some hfind, List.Subset.refl _⟩
    · cases h

/-- The deadline that is bound to a transcript is stored, and it is the only one. -/
theorem persistTranscriptPolicyBinding_ok {deadline : String}
    (h : persistTranscriptPolicyBinding intent deadline db = .ok db') :
    db' = { db with bindings := db'.bindings } ∧
      ⟨intent.transcript.channelKey, intent.policyDigest, intent.policyID, intent.policyEpoch,
        deadline⟩ ∈ db'.bindings ∧
      db.bindings ⊆ db'.bindings ∧
      ((db.bindings.map (·.key)).Nodup → (db'.bindings.map (·.key)).Nodup) := by
  unfold persistTranscriptPolicyBinding at h
  dsimp only at h
  split at h
  · next hfind =>
    cases h
    refine ⟨rfl, List.mem_append_right _ (List.mem_singleton_self _), List.subset_append_left _ _,
      fun hnodup => unique_concat hnodup fun other ho => ?_⟩
    simpa using List.find?_eq_none.1 hfind other ho
  · next existing hfind =>
    split at h
    · next heq =>
      cases h
      exact ⟨rfl, heq ▸ List.mem_of_find?_eq_some hfind, List.Subset.refl _, id⟩
    · cases h

theorem reserve_turns {preparation : LifecyclePreparation}
    (h : reserve codec preparation intent db = .ok (a, db')) :
    Turns codec db db' (.reserve preparation intent)
      ((Call.reserve preparation intent).Done codec db') := by
  unfold reserve at h
  obtain ⟨_, hi, h⟩ := bind_ok.1 h
  obtain ⟨hvalid, -⟩ := ensure_bind.1 hi
  obtain ⟨found, hload, h⟩ := bind_ok.1 h
  split at h
  · next existing =>
    obtain ⟨hsame, h⟩ := ensure_bind.1 h
    cases h
    simp only [Bool.and_eq_true, beq_iff_eq] at hsame
    obtain ⟨hmem, hid, -⟩ := loadFound_ok (bind_ok.2 ⟨some existing, hload, rfl⟩)
    exact .unchanged ⟨hvalid, existing, hmem, hid, hsame.2⟩
  · unfold reserveNew at h
    obtain ⟨policy, hfind, h⟩ := required_bind.1 h
    obtain ⟨hpolicy, h⟩ := ensure_bind.1 h
    obtain ⟨t, ht, h⟩ := required_bind.1 h
    obtain ⟨metadata, hmetadata, h⟩ := bind_ok.1 h
    obtain ⟨hw, h⟩ := ensure_bind.1 h
    obtain ⟨-, h⟩ := ensure_bind.1 h
    obtain ⟨deadline, hdeadline, h⟩ := bind_ok.1 h
    obtain ⟨db₁, h1, h⟩ := bind_ok.1 h
    obtain ⟨db₂, h2, h⟩ := bind_ok.1 h
    obtain ⟨db₃, h3, h⟩ := required_bind.1 h
    cases h
    obtain ⟨hdb₁, hstored, hpolicies⟩ := persistLifecyclePolicy_ok h1
    obtain ⟨hdb₂, hbound, hbindings, hunique⟩ := persistTranscriptPolicyBinding_ok h2
    rw [hdb₁] at hdb₂ hbindings hunique
    have hstate : (reservedRow codec intent policy).state = .reserved ∨
        (reservedRow codec intent policy).state = .exportSatisfied := by
      by_cases hx : policy.exportMode = .required <;> simp [reservedRow, hx]
    obtain ⟨hfresh, rfl⟩ := insertOperation_eq_some (by rcases hstate with h | h <;> simp [h]) h3
    rw [hdb₂] at hfresh
    obtain ⟨ht, hkey⟩ := transcript?_eq_some ht
    obtain ⟨found, hfound, hmetadata⟩ := required_bind.1 hmetadata
    obtain ⟨hm, hmetadata⟩ := ensure_bind.1 hmetadata
    cases hmetadata
    simp only [Bool.and_eq_true, beq_iff_eq, decide_eq_true_eq] at hm hpolicy
    refine ⟨.reserved t (reservedRow codec intent policy) rfl
      { valid := hvalid, mem := ht, key := hkey, active := hm.1.1.2, next := hm.2, highWater := hw,
        operationID := rfl, transcriptKey := rfl, state := hstate, fresh := hfresh,
        operations := by rw [hdb₂], records := by rw [hdb₂], transcripts := by rw [hdb₂],
        payloadTombstones := by rw [hdb₂], identifierTombstones := by rw [hdb₂] }, fun _ => ?_⟩
    refine ⟨.reserved policy hvalid hpolicy.2 (by rw [hdb₂]) ⟨by rw [hdb₂], by rw [hdb₂]⟩
      (by rw [hdb₂]; exact ⟨rfl, rfl, rfl, rfl⟩) (.of_eq (by rw [hdb₂]))
      ⟨List.mem_of_find?_eq_some hfind, by simpa using List.find?_some hfind,
        ⟨t, ht, hkey, metadata, deadline, hfound, hdeadline, hbound⟩, ?_, ?_, hbindings, hunique,
        by rw [hdb₂]⟩, hvalid, _, List.mem_append_right _ (List.mem_singleton_self _), rfl, rfl⟩
    · rw [hdb₂]
      exact hstored
    · rw [hdb₂]
      exact hpolicies

/-- Only an operation past its export has export evidence. -/
theorem order_of_exports (hstored : validStoredLifecycle codec row)
    (h : row.exportManifestDigest ≠ "" ∨ row.exportCustodyReceiptDigest ≠ "") :
    1 ≤ order row.state := by
  cases hstate : row.state with
  | reserved =>
    simp only [validStoredLifecycle, hstate, Bool.and_eq_true, beq_iff_eq] at hstored
    rcases h with h | h
    · exact absurd hstored.1.2 h
    · exact absurd hstored.2 h
  | _ => simp [order]

theorem bindExport_turns {evidence : ExportEvidence}
    (h : bindExport codec evidence db = .ok (a, db')) :
    Turns codec db db' (.bindExport evidence) ((Call.bindExport evidence).Done codec db') := by
  unfold bindExport at h
  obtain ⟨hvalid, h⟩ := ensure_bind.1 h
  obtain ⟨stored, hl, h⟩ := bind_ok.1 h
  obtain ⟨hmatch, h⟩ := ensure_bind.1 h
  obtain ⟨hmem, hid, -, -, hstored, -⟩ := loadFound_ok hl
  simp only [Bool.and_eq_true, beq_iff_eq] at hmatch
  split at h
  · next hbound =>
    obtain ⟨hsame, h⟩ := ensure_bind.1 h
    cases h
    simp only [Bool.and_eq_true, beq_iff_eq] at hsame
    exact .unchanged ⟨hvalid, stored, hmem, hid, hmatch.1, hmatch.2,
      order_of_exports hstored hbound, hsame.1, hsame.2⟩
  · obtain ⟨-, h⟩ := ensure_bind.1 h
    obtain ⟨db₁, hup, h⟩ := bind_ok.1 h
    cases h
    obtain ⟨hs, hm⟩ := updateOperation_ok hup fun r => ⟨rfl, rfl, rfl, rfl⟩
    refine ⟨.advanced evidence.operationID .exported hs hm, fun hids => ?_⟩
    obtain ⟨hdigest, hstate, rfl⟩ := updateOperation_put hup hids hmem hid rfl
    exact ⟨.moved stored _ hmem (.exported hvalid hid hdigest hmatch.2 hstate) rfl
      (by simp [order]) ⟨rfl, rfl⟩ ⟨rfl, rfl, rfl, rfl⟩ (.of_eq rfl) (.of_eq rfl rfl rfl),
        hvalid, _,
      self_mem_put hmem rfl, hid, hmatch.1, hmatch.2, by simp [order], rfl, rfl⟩

/-- What an accepted persistence decodes and validates. -/
theorem validateMarkerPersistence_spec {value : MarkerPersistence} {marker : Marker}
    {preimage : ReceiptPreimage}
    (h : validateMarkerPersistence codec value = .ok (marker, preimage)) :
    codec.decodeMarker value.canonicalMarker = some marker ∧
      codec.decodePreimage value.canonicalPreimage = some preimage ∧
      validateMarker marker ∧ validateReceiptPreimage preimage := by
  unfold validateMarkerPersistence at h
  obtain ⟨-, h⟩ := ensure_bind.1 h
  obtain ⟨_, hm, h⟩ := required_bind.1 h
  obtain ⟨_, hp, h⟩ := required_bind.1 h
  obtain ⟨hv, h⟩ := ensure_bind.1 h
  obtain ⟨-, h⟩ := ensure_bind.1 h
  cases h
  exact ⟨hm, hp, (Bool.and_eq_true _ _ ▸ hv).1, (Bool.and_eq_true _ _ ▸ hv).2⟩

theorem persistMarker_turns {persistence : MarkerPersistence}
    (h : persistMarker codec persistence db = .ok (a, db')) :
    Turns codec db db' (.persistMarker persistence)
      ((Call.persistMarker persistence).Done codec db') := by
  unfold persistMarker at h
  obtain ⟨⟨marker, preimage⟩, hv, h⟩ := bind_ok.1 h
  obtain ⟨stored, hl, h⟩ := bind_ok.1 h
  obtain ⟨hmatch, h⟩ := ensure_bind.1 h
  obtain ⟨hmem, hid, -⟩ := loadFound_ok hl
  have hvalid : (validateMarkerPersistence codec persistence).isOk = true := by rw [hv]; rfl
  simp only [Bool.and_eq_true, beq_iff_eq] at hmatch
  split at h
  · next hstate =>
    obtain ⟨hsame, h⟩ := ensure_bind.1 h
    cases h
    simp only [Bool.and_eq_true, beq_iff_eq] at hsame
    exact .unchanged ⟨hvalid, stored, hmem, hid, hmatch.1, by simp [hstate, order], hsame.1,
      hsame.2⟩
  · obtain ⟨-, h⟩ := ensure_bind.1 h
    obtain ⟨transcripts, ht, h⟩ := required_bind.1 h
    obtain ⟨db₁, hup, h⟩ := bind_ok.1 h
    cases h
    obtain ⟨hs, hm⟩ := updateOperation_ok hup fun r => ⟨rfl, rfl, rfl, rfl⟩
    have htranscript := hmatch.2
    simp only [markerMatchesIntent, Bool.and_eq_true, beq_iff_eq] at htranscript
    refine ⟨.marked stored marker
      { mem := hmem, transcript := htranscript.1.1.1.1.1.2,
        valid := validateMarkerPersistence_ok hv,
        records := hs.records, transcripts := by rw [hs.transcripts]; exact ht,
        operations := by rw [hid]; exact hm, payloadTombstones := hs.payloadTombstones,
        identifierTombstones := hs.identifierTombstones }, fun hids => ?_⟩
    obtain ⟨hdigest, hstate, rfl⟩ := updateOperation_put hup hids hmem hid rfl
    refine ⟨.marked stored _ marker hmem (.marked marker preimage hv hid hdigest hmatch.2 hstate)
      (validateMarkerPersistence_spec hv).1 rfl ⟨rfl, rfl⟩ ⟨rfl, rfl, rfl, rfl⟩ ht
      ⟨rfl, rfl, fun t hmem => ?_⟩, hvalid, _, self_mem_put hmem rfl, hid,
        hmatch.1, by simp [order],
      rfl, rfl⟩
    obtain ⟨-, rfl⟩ := updateOne_eq_some ht
    refine ⟨_, List.mem_map_of_mem hmem, ?_⟩
    split <;> exact ⟨rfl, rfl⟩

/-- The states in which a signature was attached before. -/
theorem order_of_alreadySigned {state : SagaState} (h : alreadySigned state) : 3 ≤ order state := by
  cases state <;> simp [alreadySigned, order] at h ⊢

theorem attachReceiptSignature_turns {attachment : Lifecycle.SignatureAttachment}
    (h : attachReceiptSignature codec attachment db = .ok (a, db')) :
    Turns codec db db' (.attachReceiptSignature attachment)
      (Lifecycle.validateSignatureAttachment codec attachment = .ok () →
        (Call.attachReceiptSignature attachment).Done codec db') := by
  unfold attachReceiptSignature at h
  obtain ⟨stored, hl, h⟩ := bind_ok.1 h
  obtain ⟨hmatch, h⟩ := ensure_bind.1 h
  obtain ⟨hmem, hid, -⟩ := loadFound_ok hl
  simp only [Bool.and_eq_true, beq_iff_eq] at hmatch
  split at h
  · obtain ⟨hsame, h⟩ := ensure_bind.1 h
    cases h
    simp only [Bool.and_eq_true, beq_iff_eq] at hsame
    exact .unchanged fun hvalid => ⟨hvalid, stored, hmem, hid, hmatch.1,
      order_of_alreadySigned hsame.1, hmatch.2, hsame.2⟩
  · obtain ⟨db₁, hup, h⟩ := bind_ok.1 h
    cases h
    obtain ⟨hs, hm⟩ := updateOperation_ok hup fun r => ⟨rfl, rfl, rfl, rfl⟩
    refine ⟨.advanced attachment.operationID .signed hs hm, fun hids => ?_⟩
    obtain ⟨hdigest, hstate, rfl⟩ := updateOperation_put hup hids hmem hid rfl
    exact ⟨.moved stored _ hmem (.signed hid hdigest hmatch.2 hstate) rfl (by simp [order])
      ⟨rfl, rfl⟩ ⟨rfl, rfl, rfl, rfl⟩ (.of_eq rfl) (.of_eq rfl rfl rfl), fun hvalid => ⟨hvalid, _,
      self_mem_put hmem rfl, hid, hmatch.1, by simp [order], hmatch.2, rfl⟩⟩

/-- The loop of a removal changes the records and the tombstones only. -/
theorem removeRecords_frame {intent : Intent} {removed : List RemovalRecord}
    (h : removeRecords codec intent removed db = .ok db') :
    ∃ records payloads identifiers, db' = { db with
      records := records
      payloadTombstones := payloads
      identifierTombstones := identifiers } := by
  induction removed generalizing db with
  | nil =>
    cases h
    exact ⟨_, _, _, rfl⟩
  | cons record removed ih =>
    unfold removeRecords at h
    obtain ⟨db₁, h1, h⟩ := bind_ok.1 h
    obtain ⟨records', payloads, identifiers, rfl⟩ := ih h
    unfold removeRecord insertRemovalEvidence at h1
    obtain ⟨db₂, h2, h1⟩ := bind_ok.1 h1
    obtain ⟨records, -, h1⟩ := required_bind.1 h1
    cases h1
    obtain ⟨db₃, h3, h2⟩ := required_bind.1 h2
    obtain ⟨db₄, h4, h2⟩ := required_bind.1 h2
    have h2 := required_ok.1 h2
    unfold Db.insertPayloadTombstone at h3
    unfold Db.insertIdentifierTombstone at h4 h2
    split at h3 <;> cases h3
    split at h4 <;> cases h4
    split at h2 <;> cases h2
    exact ⟨_, _, _, rfl⟩

/-- The loop of a removal leaves the backup evidence. -/
theorem removeRecords_backups {intent : Intent} {removed : List RemovalRecord}
    (h : removeRecords codec intent removed db = .ok db') : SameBackups db db' := by
  obtain ⟨records, payloads, identifiers, rfl⟩ := removeRecords_frame h
  exact ⟨rfl, rfl, rfl, rfl⟩

theorem removePayload_turns {reference : OperationReference}
    (h : removePayload codec reference preflight db = .ok (a, db')) :
    Turns codec db db' (.removePayload reference preflight)
      (validateOperationReference reference →
        (Call.removePayload reference).Done codec db') := by
  unfold removePayload at h
  obtain ⟨stored, hl, h⟩ := bind_ok.1 h
  obtain ⟨hsame, h⟩ := ensure_bind.1 h
  obtain ⟨hsnapshot, h⟩ := ensure_bind.1 h
  obtain ⟨hmem, hid, hintent, -, -, hsize⟩ := loadFound_ok hl
  split at h
  · next hstate =>
    obtain ⟨-, h⟩ := ensure_bind.1 h
    cases h
    exact .unchanged fun hvalid => ⟨hvalid, stored, hmem, hid, beq_iff_eq.1 hsame,
      by simp [hstate, order]⟩
  · obtain ⟨hsigned, h⟩ := ensure_bind.1 h
    obtain ⟨removed, hselected, h⟩ := bind_ok.1 h
    obtain ⟨hnonempty, h⟩ := ensure_bind.1 h
    obtain ⟨mid, hloop, h⟩ := bind_ok.1 h
    obtain ⟨db₁, hup, h⟩ := bind_ok.1 h
    cases h
    obtain ⟨hs, hm⟩ := updateOperation_ok hup fun r => ⟨rfl, rfl, rfl, rfl⟩
    refine ⟨.removed stored removed mid
      { toSameRecords := hs, mem := hmem, state := by simpa using hsigned, valid := hintent,
        selected := hselected, loop := hloop, operations := by rw [hid]; exact hm }, fun hids => ?_⟩
    obtain ⟨records, payloads, identifiers, rfl⟩ := removeRecords_frame hloop
    obtain ⟨hdigest, hstate, rfl⟩ := updateOperation_put hup hids hmem hid rfl
    simp only [Bool.and_eq_true, beq_iff_eq] at hsnapshot
    exact ⟨.removed stored _ removed _ hmem (.removed removed hid hdigest hsnapshot.1 hstate hsize)
      rfl hselected (by simpa using hnonempty) hloop rfl, fun hvalid => ⟨hvalid, _,
      self_mem_put hmem rfl, hid, beq_iff_eq.1 hsame, by simp [order]⟩⟩

/-- The inserts of obligations, in their order. -/
theorem insertObligations_ok {obligations : List BackupObligation}
    (h : insertObligations codec obligations db = .ok db') :
    db' = { db with obligations := db.obligations ++ obligations.map (obligationRow codec) } := by
  induction obligations generalizing db with
  | nil =>
    cases h
    simp
  | cons obligation obligations ih =>
    unfold insertObligations at h
    obtain ⟨-, h⟩ := ensure_bind.1 h
    obtain ⟨db₁, hins, h⟩ := required_bind.1 h
    unfold Db.insertObligation at hins
    split at hins
    · cases hins
    · cases hins
      rw [ih h]
      simp [obligationRow]

/-- A snapshot that an operation still has. -/
theorem sameOperationSnapshot_spec {a b : OperationRow} (h : sameOperationSnapshot a b) :
    a.intentDigest = b.intentDigest ∧ a.state = b.state ∧
      a.canonicalIntent = b.canonicalIntent := by
  simp only [sameOperationSnapshot, Bool.and_eq_true, beq_iff_eq] at h
  exact ⟨h.1.1.1.1.1.1, h.1.1.1.1.1.2, h.1.1.1.1.2⟩

/-- A set that was loaded is stored for the operation. -/
theorem loadObligationSet_ok {operationID : String} {s : ObligationSetRow}
    (h : loadObligationSet codec operationID db = .ok (some s)) :
    s ∈ db.obligationSets ∧ s.operationID = operationID := by
  unfold loadObligationSet at h
  split at h
  · cases h
  · next row hfind =>
    split at h <;> cases h
    exact ⟨List.mem_of_find?_eq_some hfind, by simpa using List.find?_some hfind⟩

theorem bindBackupObligations_turns {set : BackupObligationSet}
    (h : bindBackupObligations codec set preflight db = .ok (a, db')) :
    Turns codec db db' (.bindBackupObligations set preflight)
      ((Call.bindBackupObligations set).Done codec db') := by
  unfold bindBackupObligations at h
  obtain ⟨stored, hl, h⟩ := bind_ok.1 h
  obtain ⟨hmem, hid, -⟩ := loadFound_ok hl
  split at h
  · obtain ⟨hsame, h⟩ := ensure_bind.1 h
    cases h
    split at hsame
    · next concurrent evidence hload _ =>
      simp only [Bool.and_eq_true, beq_iff_eq] at hsame
      exact .unchanged ⟨concurrent, (loadObligationSet_ok hload).1, hsame.1.2⟩
    · cases hsame
  · obtain ⟨hsnapshot, h⟩ := ensure_bind.1 h
    obtain ⟨db₁, hset, h⟩ := required_bind.1 h
    obtain ⟨db₂, hins, h⟩ := bind_ok.1 h
    obtain ⟨db₃, hup, h⟩ := bind_ok.1 h
    cases h
    unfold Db.insertObligationSet at hset
    split at hset
    · cases hset
    · next hnew =>
      cases hset
      have hins := insertObligations_ok hins
      subst hins
      obtain ⟨hs, hm⟩ := updateOperation_ok hup fun r => ⟨rfl, rfl, rfl, rfl⟩
      refine ⟨.advanced set.operationID .bound ⟨⟨hs.payloadTombstones, hs.identifierTombstones⟩,
        hs.records, hs.transcripts⟩ hm, fun hids => ?_⟩
      obtain ⟨hdigest, hstate, rfl⟩ := updateOperation_put hup hids hmem hid rfl
      simp only [Bool.and_eq_true] at hsnapshot
      obtain ⟨hsame, -, hintent⟩ := sameOperationSnapshot_spec hsnapshot.1
      refine ⟨.bound stored _ hmem (.bound hid hdigest hintent.symm hsame.symm hstate) ?_ rfl, _,
        List.mem_append_right _ (List.mem_singleton_self _), rfl⟩
      intro s hs hsid
      exact hnew (List.any_eq_true.2 ⟨s, hs, by simp [hsid]⟩)

/-- A receipt id that is not found is not stored. -/
theorem loadReceiptByID_eq_none {receiptID : String}
    (h : loadReceiptByID codec receiptID db = .ok none) :
    ∀ r ∈ db.receipts, r.receiptID ≠ receiptID := by
  unfold loadReceiptByID at h
  split at h
  · next hfind => simpa using hfind
  · split at h <;> cases h

/-- A receipt that was loaded is stored under its id. -/
theorem loadReceiptByID_ok {receiptID : String} {r : ReceiptRow}
    (h : loadReceiptByID codec receiptID db = .ok (some r)) :
    r ∈ db.receipts ∧ r.receiptID = receiptID := by
  unfold loadReceiptByID at h
  split at h
  · cases h
  · next row hfind =>
    split at h <;> cases h
    exact ⟨List.mem_of_find?_eq_some hfind, by simpa using List.find?_some hfind⟩

theorem recordBackupReceipt_turns {receipt : CustodianReceipt} {obligation : ObligationRow}
    (h : recordBackupReceipt codec receipt preflight obligation db = .ok (a, db')) :
    Turns codec db db' (.recordBackupReceipt receipt preflight obligation)
      ((Call.recordBackupReceipt receipt).Done codec db') := by
  unfold recordBackupReceipt at h
  obtain ⟨stored, hl, h⟩ := bind_ok.1 h
  obtain ⟨hmem, hid, -⟩ := loadFound_ok hl
  obtain ⟨found, hfound, h⟩ := bind_ok.1 h
  split at h
  · next concurrent =>
    obtain ⟨hsame, h⟩ := ensure_bind.1 h
    cases h
    simp only [Bool.and_eq_true, beq_iff_eq] at hsame
    exact .unchanged ⟨concurrent, (loadReceiptByID_ok hfound).1, hsame.2⟩
  · obtain ⟨hcurrent, h⟩ := ensure_bind.1 h
    obtain ⟨db₁, hins, h⟩ := required_bind.1 h
    cases h
    unfold Db.insertReceipt at hins
    split at hins
    · cases hins
    · next hnew =>
      cases hins
      split at hcurrent
      · next current hload =>
        simp only [Bool.and_eq_true, beq_iff_eq] at hcurrent
        refine ⟨.framed ⟨⟨rfl, rfl⟩, rfl, rfl⟩ rfl, fun _ =>
          ⟨.recorded stored current hmem hid hcurrent.1.1.2 hload hcurrent.1.2 hcurrent.2
            (loadReceiptByID_eq_none hfound) ?_ rfl, _,
            List.mem_append_right _ (List.mem_singleton_self _), rfl⟩⟩
        intro r hr hdigest
        exact hnew (List.any_eq_true.2 ⟨r, hr, by simp [hdigest]⟩)
      · cases hcurrent

/-- A completion that was loaded is stored for the operation. -/
theorem loadCompletion_ok {c : CompletionRow}
    (h : loadCompletion codec operationID db = .ok (some c)) :
    c ∈ db.completions ∧ c.operationID = operationID := by
  unfold loadCompletion at h
  split at h
  · cases h
  · next row hfind =>
    split at h <;> cases h
    exact ⟨List.mem_of_find?_eq_some hfind, by simpa using List.find?_some hfind⟩

theorem complete_turns {evidence : CompletionEvidence}
    {set : ObligationSetRow} {backups : BackupEvidence}
    (h : complete codec evidence preflight set backups db = .ok (a, db')) :
    Turns codec db db' (.complete evidence preflight set backups)
      ((Call.complete evidence).Done codec db') := by
  unfold complete at h
  obtain ⟨stored, hl, h⟩ := bind_ok.1 h
  obtain ⟨hmem, hid, -⟩ := loadFound_ok hl
  split at h
  · obtain ⟨hsame, h⟩ := ensure_bind.1 h
    cases h
    split at hsame
    · next concurrent hload =>
      simp only [Bool.and_eq_true, beq_iff_eq] at hsame
      exact .unchanged ⟨concurrent, (loadCompletion_ok hload).1, hsame.2⟩
    · cases hsame
  · obtain ⟨hset, h⟩ := ensure_bind.1 h
    obtain ⟨hbackups, h⟩ := ensure_bind.1 h
    obtain ⟨db₁, hins, h⟩ := required_bind.1 h
    obtain ⟨db₂, hup, h⟩ := bind_ok.1 h
    cases h
    unfold Db.insertCompletion at hins
    split at hins
    · cases hins
    · next hnew =>
      cases hins
      obtain ⟨hs, hm⟩ := updateOperation_ok hup fun r => ⟨rfl, rfl, rfl, rfl⟩
      refine ⟨.advanced evidence.operationID .completed ⟨⟨hs.payloadTombstones,
        hs.identifierTombstones⟩, hs.records, hs.transcripts⟩ hm, fun hids => ?_⟩
      obtain ⟨hdigest, hstate, rfl⟩ := updateOperation_put hup hids hmem hid rfl
      split at hset
      · simp only [Bool.and_eq_true] at hset
        obtain ⟨-, -, hintent⟩ := sameOperationSnapshot_spec hset.1.1.1
        split at hbackups
        · next current hload =>
          simp only [Bool.and_eq_true, beq_iff_eq] at hbackups
          obtain ⟨rfl, hreferences⟩ := hbackups
          refine ⟨.completed stored _ hmem (.completed hid hdigest hintent.symm hstate) hload
            hreferences ?_ rfl, _, List.mem_append_right _ (List.mem_singleton_self _), rfl⟩
          intro c hc hcid
          exact hnew (List.any_eq_true.2 ⟨c, hc, by simp [hcid]⟩)
        · cases hbackups
      · cases hset

/-! ## Requests and steps -/

theorem query_ok {ε α : Type} {result : Except ε α} {a : α}
    (h : Request.query result db = .ok (a, db')) : result = .ok a ∧ db' = db := by
  cases result with
  | error e => cases h
  | ok b =>
    cases h
    exact ⟨rfl, rfl⟩

theorem query_of_ok {ε α : Type} {result : Except ε α} {a : α} (h : result = .ok a) :
    Request.query result db = .ok (a, db) := by
  rw [h]
  rfl

/-- What else a request that succeeds leaves, where a call needs nothing more for it. -/
theorem Turns.weaken {done : Prop} (h : Turns codec db db' request done) :
    Turns codec db db' request True :=
  ⟨h.1, fun hids => ⟨(h.2 hids).1, trivial⟩⟩

/-- **Every committed request has an effect and is a turn.** -/
theorem run_turns {r : Request} {a : r.Result} (h : r.run codec db = .ok (a, db')) :
    Turns codec db db' r True := by
  have unchanged : db' = db → Turns codec db db' r True := by
    rintro rfl
    exact .unchanged trivial
  cases r with
  | createChannel => exact createChannel_turns h
  | appendChecked => exact appendChecked_turns h
  | attachSignature => exact attachSignature_turns h
  | reserve => exact (reserve_turns h).weaken
  | bindExport => exact (bindExport_turns h).weaken
  | persistMarker => exact (persistMarker_turns h).weaken
  | attachReceiptSignature => exact (attachReceiptSignature_turns h).weaken
  | removePayload => exact (removePayload_turns h).weaken
  | bindBackupObligations => exact (bindBackupObligations_turns h).weaken
  | recordBackupReceipt => exact (recordBackupReceipt_turns h).weaken
  | complete => exact (complete_turns h).weaken
  | verifyLifecycleReceipt | verifyCustodianReceipt | verifyCompletionAudit =>
    cases h
    exact unchanged rfl
  | _ => exact unchanged (query_ok h).2

theorem run_effect {r : Request} {a : r.Result} (h : r.run codec db = .ok (a, db')) :
    Effect codec db db' r :=
  (run_turns h).1

/-- What an answered request did to the database. -/
theorem sem_effect {i : Nat} {r : Request} {ans : Except r.Err r.Result}
    (h : sem codec i r db ans db') : Effect codec db db' r := by
  rcases Attempt.cases h with rfl | ⟨a, ha⟩
  · exact .framed (.refl db') rfl
  · exact run_effect ha

/-- What every effect keeps along a run holds at its end. -/
theorem Later.of_effect {P : Db → Prop} (heff : ∀ r db db', P db → Effect codec db db' r → P db')
    {p q : Pool} (hq : Later codec p q) (hp : P p.shared) : P q.shared := by
  induction hq with
  | refl => exact hp
  | tail _ hstep ih =>
    rcases hstep.shared with hq | ⟨i, r, ans, hs⟩ | hf
    · rwa [hq]
    · exact heff r _ _ ih (sem_effect hs)
    · exact hf.elim

end

end YukhCoordination.Relay.Sqlite
