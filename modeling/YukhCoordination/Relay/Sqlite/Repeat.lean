import YukhCoordination.Relay.Sqlite.Evidence

/-!
# Repeated calls of the saga

What a lifecycle call that succeeded has left in the database stays there (`Call.Done`, `Kept`). A
repeat of the call finds it and returns the current operation, where the call accepts the state the
operation is in (`Call.RepeatableIn`): `PersistMarker`, `AttachSignature` and `RemovePayload` accept
a repeat only until the operation has gone on.
-/

namespace YukhCoordination.Relay.Sqlite

open Lifecycle Transaction Interleave

/-! ## The evidence of a removal -/

/-- The tombstones of a removed operation are the evidence that its digest is over. -/
structure Entombed (codec : Codec) (db : Db) : Prop where
  owner : ∀ x ∈ db.payloadTombstones, ∃ row ∈ db.operations,
    row.operationID = x.operationID ∧ 4 ≤ order row.state
  evidence : ∀ row ∈ db.operations, 4 ≤ order row.state → validateRemovalEvidence codec row db

theorem Entombed.empty {codec : Codec} : Entombed codec {} := ⟨by simp, by simp⟩

section
variable {codec : Codec} {v : Verdicts} {db db' : Db} {row row' : OperationRow} {request : Request}

/-- The check of the evidence reads the tombstones, the intent and the digest. -/
theorem validateRemovalEvidence_congr (ht : db'.payloadTombstones = db.payloadTombstones)
    (hi : row'.canonicalIntent = row.canonicalIntent)
    (hd : row'.payloadRemovalDigest = row.payloadRemovalDigest) :
    validateRemovalEvidence codec row' db' = validateRemovalEvidence codec row db := by
  simp only [validateRemovalEvidence, ht, hi, hd]

/-- A turn that keeps the tombstones keeps their evidence, if it removes no operation's payload. -/
theorem Entombed.same (h : Entombed codec db)
    (hrows : ∀ row ∈ db.operations, ∃ row' ∈ db'.operations, Continues row row')
    (hfrom : ∀ row' ∈ db'.operations, 4 ≤ order row'.state →
      ∃ row ∈ db.operations, 4 ≤ order row.state ∧ Continues row row')
    (ht : db'.payloadTombstones = db.payloadTombstones) : Entombed codec db' where
  owner x hx := by
    obtain ⟨row, hrow, hid, hord⟩ := h.owner x (ht ▸ hx)
    obtain ⟨row', hrow', hcont⟩ := hrows row hrow
    exact ⟨row', hrow', hcont.operationID.trans hid, hord.trans hcont.order⟩
  evidence row' hrow' hord' := by
    obtain ⟨row, hrow, hord, hcont⟩ := hfrom row' hrow' hord'
    rw [validateRemovalEvidence_congr ht hcont.canonicalIntent (hcont.removal hord)]
    exact h.evidence row hrow hord

/-- The rows after a move that removes no payload. -/
theorem Moves.removedFrom {found : OperationRow} (hfound : found ∈ db.operations)
    (hm : Moves codec request found row) (hord : order row.state ≠ 4) (hrow' : row' ∈ db.put row)
    (hlate : 4 ≤ order row'.state) : ∃ r ∈ db.operations, 4 ≤ order r.state ∧ Continues r row' := by
  rcases mem_put hrow' with rfl | ⟨hrow', -⟩
  · refine ⟨found, hfound, ?_, hm.follows.toContinues⟩
    rcases hm.follows.step with rfl | hstep <;> omega
  · exact ⟨row', hrow', hlate, .refl row'⟩

variable {intent : Intent} {preflight : OperationRow} {c : Call} {a : Operation}
  {operationID : String} {r : Request}

/-- The tombstones that a removal leaves. -/
theorem removeRecords_tombstones {removed : List RemovalRecord}
    (h : removeRecords codec intent removed db = .ok db') :
    db'.payloadTombstones = db.payloadTombstones ++ removed.map (tombstoneOf codec intent) := by
  induction removed generalizing db with
  | nil =>
    cases h
    simp
  | cons record removed ih =>
    unfold removeRecords at h
    obtain ⟨db₁, h1, h⟩ := bind_ok.1 h
    rw [ih h, (removeRecord_buries h1).payloadTombstones]
    simp

theorem pairwise_of_increasing {sequences : List Nat} (h : increasing sequences) :
    sequences.Pairwise (· ≤ ·) := by
  induction sequences with
  | nil => exact .nil
  | cons a rest ih =>
    cases rest with
    | nil => exact List.pairwise_singleton _ _
    | cons b rest =>
      simp only [increasing, Bool.and_eq_true, decide_eq_true_eq] at h
      have hrest := ih h.2
      rw [List.pairwise_cons] at hrest ⊢
      refine ⟨fun c hc => ?_, ih h.2⟩
      rcases List.mem_cons.1 hc with rfl | hc
      · exact h.1.le
      · exact h.1.le.trans (hrest.1 c hc)

/-- A removal selects its records in the order of their sequences. -/
theorem selectRemovalRecords_pairwise {removed : List RemovalRecord}
    (hvalid : Lifecycle.validateIntent intent) (h : selectRemovalRecords intent db = .ok removed) :
    removed.Pairwise fun a b => a.sequence ≤ b.sequence := by
  have htarget := validTarget_of_validateIntent hvalid
  unfold selectRemovalRecords at h
  split at h
  · cases h
    refine List.Pairwise.map _ (fun a b hab => ?_) (List.pairwise_insertionSort _ _)
    exact hab
  · next haction =>
    rw [haction] at htarget
    simp only [validTarget, Bool.and_eq_true] at htarget
    have hsequences : removed.map (·.sequence) = intent.target.sequences := by
      refine map_of_mapM_ok (fun sequence record hrecord => ?_) h
      obtain ⟨r, hfind, hr⟩ := required_bind.1 hrecord
      cases hr
      have hkeys := List.find?_some hfind
      simp only [Bool.and_eq_true, beq_iff_eq] at hkeys
      exact hkeys.2
    have hpairwise := pairwise_of_increasing htarget.1.2
    rw [← hsequences, List.pairwise_map] at hpairwise
    exact hpairwise

/-- A removal leaves the evidence of its records. -/
theorem Entombed.removed {reference : OperationReference} {removed : List RemovalRecord} {mid : Db}
    (h : Entombed codec db) (hint : Integral codec v db) (hrow : row ∈ db.operations)
    (hm : Moves codec (.removePayload reference preflight) row row')
    (hdigest : row'.payloadRemovalDigest =
      codec.removalDigest (removed.map (RemovalRecord.evidence codec)))
    (hselected : selectRemovalRecords row.canonicalIntent db = .ok removed) (hne : removed ≠ [])
    (hloop : removeRecords codec row.canonicalIntent removed db = .ok mid) :
    Entombed codec { mid with operations := db.put row' } := by
  have hsound := hint.rows row hrow
  have hcont := hm.follows
  have hstate : order row.state = 3 ∧ order row'.state = 4 := by
    cases hm with
    | removed _ _ _ _ hstate => simp [hstate, order]
  have htombstones := removeRecords_tombstones hloop
  -- No tombstone of the operation was there before.
  have hfresh : ∀ x ∈ db.payloadTombstones, x.operationID ≠ row.canonicalIntent.operationID := by
    intro x hx heq
    obtain ⟨other, hother, hid, hord⟩ := h.owner x hx
    rw [hint.eq_of_id hother hrow (hid.trans (heq.trans hsound.id.symm))] at hord
    omega
  refine ⟨fun x hx => ?_, fun r hr hord => ?_⟩
  · simp only [htombstones] at hx
    rcases List.mem_append.1 hx with hx | hx
    · obtain ⟨other, hother, hid, hord⟩ := h.owner x hx
      obtain ⟨other', hother', hcont'⟩ := hm.advances hint.toOrdered hrow hother
      exact ⟨other', hother', hcont'.operationID.trans hid, hord.trans hcont'.order⟩
    · obtain ⟨record, -, rfl⟩ := List.mem_map.1 hx
      refine ⟨row', self_mem_put hrow hcont.operationID, ?_, by omega⟩
      exact hcont.operationID.trans hsound.id
  · rcases mem_put hr with rfl | ⟨hr, hid⟩
    · have hnone : db.payloadTombstones.filter
          (·.operationID == row.canonicalIntent.operationID) = [] := by
        simpa [List.filter_eq_nil_iff] using hfresh
      have hall : (removed.map (tombstoneOf codec row.canonicalIntent)).filter
          (·.operationID == row.canonicalIntent.operationID) =
            removed.map (tombstoneOf codec row.canonicalIntent) := by
        refine List.filter_eq_self.2 fun x hx => ?_
        obtain ⟨record, -, rfl⟩ := List.mem_map.1 hx
        exact beq_self_eq_true _
      have hsorted : (removed.map (tombstoneOf codec row.canonicalIntent)).insertionSort
          (fun a b => a.sequence ≤ b.sequence) =
            removed.map (tombstoneOf codec row.canonicalIntent) := by
        refine List.Pairwise.insertionSort_eq (List.Pairwise.map _ (fun a b hab => ?_)
          (selectRemovalRecords_pairwise hsound.intent hselected))
        exact hab
      simp only [validateRemovalEvidence, hcont.canonicalIntent, htombstones, List.filter_append,
        hnone, hall, List.nil_append, hsorted, hdigest, Bool.and_eq_true, bne_iff_ne, ne_eq,
        List.map_eq_nil_iff, hne, not_false_eq_true, beq_iff_eq, true_and]
      rw [List.map_map]
      rfl
    · have hother := h.evidence r hr hord
      have hnone : (removed.map (tombstoneOf codec row.canonicalIntent)).filter
          (·.operationID == r.canonicalIntent.operationID) = [] := by
        refine List.filter_eq_nil_iff.2 fun x hx heq => ?_
        obtain ⟨record, -, rfl⟩ := List.mem_map.1 hx
        refine hid ?_
        rw [(hint.rows r hr).id, hcont.operationID, hsound.id]
        exact (beq_iff_eq.1 heq).symm
      simp only [validateRemovalEvidence, htombstones, List.filter_append, hnone,
        List.append_nil] at hother ⊢
      exact hother

/-- Every turn keeps the evidence of the removals. -/
theorem Entombed.turn (h : Entombed codec db) (hint : Integral codec v db)
    (ht : Turn codec db db' request) : Entombed codec db' := by
  have hrows := ht.continues hint.toOrdered
  cases ht with
  | framed hops hto _ _ =>
    exact h.same hrows (fun r hr hord => ⟨r, hops ▸ hr, hord, .refl r⟩) hto.payloadTombstones
  | reserved policy _ _ hops hto _ _ =>
    refine h.same hrows (fun r hr hord => ?_) hto.payloadTombstones
    rw [hops] at hr
    rcases List.mem_append.1 hr with hr | hr
    · exact ⟨r, hr, hord, .refl r⟩
    · rw [List.mem_singleton.1 hr, reservedRow] at hord
      split at hord <;> simp [order] at hord
  | moved row row' hrow hm hops hside hto _ _ =>
    refine h.same hrows (fun r hr => hm.removedFrom hrow ?_ (hops ▸ hr)) hto.payloadTombstones
    simp only [List.mem_cons, List.not_mem_nil, or_false] at hside
    omega
  | marked row row' marker hrow hm _ hops hto _ _ =>
    exact h.same hrows (fun r hr => hm.removedFrom hrow (by cases hm; simp [order]) (hops ▸ hr))
      hto.payloadTombstones
  | removed row row' removed mid hrow hm hdigest hselected hne hloop heq =>
    subst heq
    exact h.removed hint hrow hm hdigest hselected hne hloop
  | recorded _ _ _ _ _ _ _ _ _ _ heq =>
    subst heq
    exact ⟨h.owner, h.evidence⟩
  | bound row row' hrow hm _ heq | completed row row' hrow hm _ _ _ heq =>
    subst heq
    exact h.same hrows (fun r hr => hm.removedFrom hrow (by cases hm; simp [order]) hr) rfl

/-- The evidence of the removals is there in every run. -/
theorem JudgedReach.entombed
    (hremoval : ∀ records, validDigest (codec.removalDigest records)) {p : Pool}
    (hp : JudgedReach codec v p) : Integral codec v p.shared ∧ Entombed codec p.shared := by
  refine Interleave.Pool.Reach.invariant_heeds (I := fun db => Integral codec v db ∧
    Entombed codec db)
    (fun _ _ _ _ _ h => h.2) (fun c => Call.careful (v := v) c) ⟨.empty, .empty⟩ ?_
    (fun _ _ _ hf => hf.elim) hp
  rintro i r _ db ans db' ⟨hc, -⟩ h hs
  rcases hs.1.cases with rfl | ⟨a, hrun⟩
  · exact h
  · exact ⟨h.1.run hremoval hc hrun, h.2.turn h.1 (run_turn h.1.toOrdered hrun)⟩

/-! ## What stays -/

/-- What a run keeps of a database: its operations go on, and the backup evidence stays. -/
structure Kept (db db' : Db) : Prop where
  rows : ∀ row ∈ db.operations, ∃ row' ∈ db'.operations, Continues row row'
  obligationSets : db.obligationSets ⊆ db'.obligationSets
  receipts : db.receipts ⊆ db'.receipts
  completions : db.completions ⊆ db'.completions

theorem Kept.refl (db : Db) : Kept db db :=
  ⟨fun row hrow => ⟨row, hrow, .refl row⟩, List.Subset.refl _, List.Subset.refl _,
    List.Subset.refl _⟩

theorem Kept.trans {db₁ : Db} (h : Kept db db₁) (h' : Kept db₁ db') : Kept db db' where
  rows row hrow := by
    obtain ⟨row₁, hrow₁, hcont⟩ := h.rows row hrow
    obtain ⟨row', hrow', hcont'⟩ := h'.rows row₁ hrow₁
    exact ⟨row', hrow', hcont.trans hcont'⟩
  obligationSets := List.Subset.trans h.obligationSets h'.obligationSets
  receipts := List.Subset.trans h.receipts h'.receipts
  completions := List.Subset.trans h.completions h'.completions

/-- Every turn keeps what is stored. -/
theorem Turn.kept (hord : Ordered db) (ht : Turn codec db db' request) : Kept db db' := by
  have hrows := ht.continues hord
  have same (hb : SameBackups db db') : Kept db db' :=
    ⟨hrows, hb.obligationSets ▸ List.Subset.refl _, hb.receipts ▸ List.Subset.refl _,
      hb.completions ▸ List.Subset.refl _⟩
  cases ht with
  | framed _ _ hb _ | reserved _ _ _ _ _ hb _ | moved _ _ _ _ _ _ _ hb _
  | marked _ _ _ _ _ _ _ _ hb _ => exact same hb
  | removed _ _ _ _ _ _ _ _ _ hloop heq =>
    subst heq
    have hb := removeRecords_backups hloop
    exact same ⟨hb.obligationSets, hb.obligations, hb.receipts, hb.completions⟩
  | bound _ _ _ _ _ heq =>
    subst heq
    exact ⟨hrows, List.subset_append_left _ _, List.Subset.refl _, List.Subset.refl _⟩
  | recorded _ _ _ _ _ _ _ _ _ _ heq =>
    subst heq
    exact ⟨hrows, List.Subset.refl _, List.subset_append_left _ _, List.Subset.refl _⟩
  | completed _ _ _ _ _ _ _ heq =>
    subst heq
    exact ⟨hrows, List.Subset.refl _, List.Subset.refl _, List.subset_append_left _ _⟩

/-- What a call has left stays. -/
theorem Call.Done.later (h : c.Done codec db) (hk : Kept db db') : c.Done codec db' := by
  cases c with
  | reserve preparation intent =>
    obtain ⟨hvalid, row, hrow, hid, hintent⟩ := h
    obtain ⟨row', hrow', hcont⟩ := hk.rows row hrow
    exact ⟨hvalid, row', hrow', hcont.operationID.trans hid, hcont.canonicalIntent.trans hintent⟩
  | bindExport evidence =>
    obtain ⟨hvalid, row, hrow, hid, hdigest, hmode, hord, hmanifest, hcustody⟩ := h
    obtain ⟨row', hrow', hcont⟩ := hk.rows row hrow
    exact ⟨hvalid, row', hrow', hcont.operationID.trans hid, hcont.intentDigest.trans hdigest,
      hcont.canonicalIntent ▸ hmode, hord.trans hcont.order, (hcont.exports hord).1.trans hmanifest,
      (hcont.exports hord).2.trans hcustody⟩
  | persistMarker persistence =>
    obtain ⟨hvalid, row, hrow, hid, hdigest, hord, hmarker, hpreimage⟩ := h
    obtain ⟨row', hrow', hcont⟩ := hk.rows row hrow
    exact ⟨hvalid, row', hrow', hcont.operationID.trans hid, hcont.intentDigest.trans hdigest,
      hord.trans hcont.order, (hcont.marker hord).1.trans hmarker,
      (hcont.marker hord).2.trans hpreimage⟩
  | attachReceiptSignature attachment =>
    obtain ⟨hvalid, row, hrow, hid, hdigest, hord, hpreimage, hsignature⟩ := h
    obtain ⟨row', hrow', hcont⟩ := hk.rows row hrow
    exact ⟨hvalid, row', hrow', hcont.operationID.trans hid, hcont.intentDigest.trans hdigest,
      hord.trans hcont.order, (hcont.marker (by omega)).2.trans hpreimage,
      (hcont.signature hord).trans hsignature⟩
  | removePayload reference =>
    obtain ⟨hvalid, row, hrow, hid, hdigest, hord⟩ := h
    obtain ⟨row', hrow', hcont⟩ := hk.rows row hrow
    exact ⟨hvalid, row', hrow', hcont.operationID.trans hid, hcont.intentDigest.trans hdigest,
      hord.trans hcont.order⟩
  | bindBackupObligations set =>
    obtain ⟨s, hs, heq⟩ := h
    exact ⟨s, hk.obligationSets hs, heq⟩
  | recordBackupReceipt receipt =>
    obtain ⟨r, hr, heq⟩ := h
    exact ⟨r, hk.receipts hr, heq⟩
  | complete evidence =>
    obtain ⟨c, hc, heq⟩ := h
    exact ⟨c, hk.completions hc, heq⟩
  | _ => trivial

/-! ## What a call leaves -/

/-- What any request keeps. -/
theorem sem_kept {i : Nat} {ans : Except r.Err r.Result} (hord : Ordered db)
    (h : sem codec i r db ans db') : Ordered db' ∧ Kept db db' := by
  rcases h.cases with rfl | ⟨a, hrun⟩
  · exact ⟨hord, .refl _⟩
  · exact ⟨(run_effect hrun).ordered hord, (run_turn hord hrun).kept hord⟩

/-- What a program leaves if it succeeds, whatever the other calls do between its requests. -/
abbrev Leaves (codec : Codec) (i : Nat) {α : Type} (post : α → Db → Prop) (p : Proc α) (s : Db) :
    Prop :=
  p.Meets (sem codec i) Ordered Kept (fun t u => ∀ j, j ≠ i → Kept t u) post s

variable {i : Nat} {s : Db}

/-- A program keeps what an earlier call has left. -/
theorem Leaves.stable {α : Type} {ok : α → Bool} (h : c.Done codec s) (p : Proc α) :
    Leaves codec i (fun a t => ok a → c.Done codec t) p s := by
  induction p generalizing s with
  | done a => exact fun _ => h
  | call r k ih =>
    intro t hst hord ans u hs
    obtain ⟨hord', hkept⟩ := sem_kept hord hs
    exact ⟨hord', fun _ _ => hkept, ih ans ((h.later hst).later hkept)⟩

/-- What a call has left when it has returned. -/
def Call.Post (codec : Codec) (c : Call) (outcome : Outcome) (s : Db) : Prop :=
  outcome.isOk = true → c.Done codec s

/-- A program that succeeds only where an answer has shown the work of the call leaves it. -/
theorem Diligent.leaves {α : Type} {ok : α → Bool} {p : Proc α}
    (h : Diligent codec acceptAll c False ok p) :
    Leaves codec i (fun a t => ok a → c.Done codec t) p s := by
  induction p generalizing s with
  | done a => exact fun hok => (h hok).elim
  | call r k ih =>
    intro t _ hord ans u hs
    obtain ⟨hord', hkept⟩ := sem_kept hord hs
    refine ⟨hord', fun _ _ => hkept, ?_⟩
    by_cases hshows : c.Shows codec r ans
    · exact Leaves.stable (hshows i t u hord hs) _
    · exact ih ans (h.2 ans ⟨fun _ => r.accepted_acceptAll, hshows⟩)

/-- **What every call leaves.** -/
theorem Call.leaves (c : Call) : Leaves codec i (c.Post codec) (c.body codec) s := by
  by_cases hdone : ∀ t, c.Done codec t
  · exact .stable (hdone s) _
  · exact (c.diligent hdone).leaves

/-- The argument about what the calls leave. -/
def leavesRule (codec : Codec) :
    RelyGuarantee (sem codec) (fun _ _ => False) (Call.body codec) where
  inv := Ordered
  rely _ := Kept
  fresh _ _ := True
  post _ c := c.Post codec
  rely_refl _ := .refl
  rely_trans _ _ _ _ := .trans
  env_inv _ _ _ hf := hf.elim
  env_rely _ _ _ _ hf := hf.elim
  fresh_stable _ _ _ _ _ := trivial
  post_stable _ _ _ _ _ _ hpost hk hok := (hpost hok).later hk
  meets _ c _ _ _ := Call.leaves c

/-- A call that has succeeded has left its work, at every later point of the run. -/
theorem Reach.done {p : Pool} (hp : Reach codec p) {outcome : Outcome}
    (hr : p.Returned i c outcome) (hok : outcome.isOk) : c.Done codec p.shared :=
  (leavesRule codec).returned Ordered.empty (fun _ => trivial) hp hr hok

end

end YukhCoordination.Relay.Sqlite
