import YukhCoordination.Relay.Sqlite.Accounting

/-!
# The operations of a transcript

A transcript has at most one lifecycle operation ever: a reservation needs an active transcript and
no other operation that is not completed, and from the marker of an operation on its transcript is
not active. `Ordered` is that invariant, for every run.
-/

namespace YukhCoordination.Relay.Sqlite

open Lifecycle Transaction Interleave

/-- The invariant of the operations. A transcript has at most one operation ever, is inactive from
its marker on and has no tombstone before its removal. -/
structure Ordered (db : Db) : Prop extends Accounted db where
  ids : (db.operations.map (·.operationID)).Nodup
  unique : (db.operations.map (·.key)).Nodup
  transcriptKey : ∀ op ∈ db.operations, op.key = op.canonicalIntent.transcript.channelKey
  transcript : ∀ op ∈ db.operations, ∃ t ∈ db.transcripts, t.key = op.key
  inactive : ∀ op ∈ db.operations, 2 ≤ order op.state →
    ∀ t ∈ db.transcripts, t.key = op.key → t.lifecycle ≠ .active
  tombstones : ∀ x ∈ db.payloadTombstones, ∃ op ∈ db.operations, op.key = x.key ∧ 4 ≤ order op.state

theorem Ordered.empty : Ordered {} where
  toAccounted := .empty
  ids := List.nodup_nil
  unique := List.nodup_nil
  transcriptKey := by simp
  transcript := by simp
  inactive := by simp
  tombstones := by simp

section
variable {codec : Codec} {db db' : Db} {op op' : OperationRow}

/-- Two operations of one transcript are one operation. -/
theorem Ordered.eq_of_key (h : Ordered db) (hop : op ∈ db.operations) (hop' : op' ∈ db.operations)
    (hk : op.key = op'.key) : op = op' :=
  List.inj_on_of_nodup_map h.unique hop hop' hk

theorem Ordered.eq_of_id (h : Ordered db) (hop : op ∈ db.operations) (hop' : op' ∈ db.operations)
    (hk : op.operationID = op'.operationID) : op = op' :=
  List.inj_on_of_nodup_map h.ids hop hop' hk

/-- A transcript with an operation that was not removed yet has no tombstone. -/
theorem Ordered.no_tombstone (h : Ordered db) (hop : op ∈ db.operations)
    (hs : order op.state < 4) : ∀ x ∈ db.payloadTombstones, x.key ≠ op.key := by
  intro x hx hk
  obtain ⟨op', hop', hk', hs'⟩ := h.tombstones x hx
  rw [h.eq_of_key hop' hop (hk'.trans hk)] at hs'
  omega

/-! ## The rows of an update -/

variable {operationID : String} {before next : SagaState} {rows rows' : List OperationRow}
  {t : Transcript} {row : OperationRow}

/-- The rows of an `UPDATE` come from the rows before it, moved or not. -/
theorem Moved.mem (h : Moved operationID before next rows rows') (hop' : op' ∈ rows') :
    ∃ op ∈ rows, op'.operationID = op.operationID ∧ op'.key = op.key ∧
      op'.canonicalIntent = op.canonicalIntent ∧
      (op' = op ∨ op.operationID = operationID ∧ op.state = before ∧ op'.state = next) := by
  obtain ⟨digest, change, hc, hup⟩ := h
  obtain ⟨-, rfl⟩ := updateOne_eq_some hup
  obtain ⟨op, hop, rfl⟩ := List.mem_map.1 hop'
  obtain ⟨h1, h2, h3, h4⟩ := hc op
  refine ⟨op, hop, ?_⟩
  split
  · next hp =>
    simp only [Bool.and_eq_true, beq_iff_eq] at hp
    exact ⟨h1, h2, h3, .inr ⟨hp.1.1, hp.2, h4⟩⟩
  · exact ⟨rfl, rfl, rfl, .inl rfl⟩

/-- A row before an `UPDATE` that is not of the moved operation stays. -/
theorem Moved.kept (h : Moved operationID before next rows rows')
    (hop : op ∈ rows) : ∃ op' ∈ rows', op'.operationID = op.operationID ∧ op'.key = op.key ∧
      (op' = op ∨ op.state = before ∧ op'.state = next) := by
  obtain ⟨digest, change, hc, hup⟩ := h
  obtain ⟨-, rfl⟩ := updateOne_eq_some hup
  obtain ⟨h1, h2, -, h4⟩ := hc op
  refine ⟨_, List.mem_map_of_mem hop, ?_⟩
  split
  · next hp =>
    simp only [Bool.and_eq_true, beq_iff_eq] at hp
    exact ⟨h1, h2, .inr ⟨hp.2, h4⟩⟩
  · exact ⟨rfl, rfl, .inl rfl⟩

/-- An `UPDATE` that moves operations keeps the columns that identify them. -/
theorem Moved.map_eq {α : Type} (h : Moved operationID before next rows rows')
    (f : OperationRow → α)
    (hf : ∀ a b : OperationRow, a.operationID = b.operationID → a.key = b.key → f a = f b) :
    rows'.map f = rows.map f := by
  obtain ⟨digest, change, hc, hup⟩ := h
  obtain ⟨-, rfl⟩ := updateOne_eq_some hup
  rw [List.map_map]
  refine List.map_congr_left fun op _ => ?_
  simp only [Function.comp_apply]
  split
  · exact hf _ _ (hc op).1 (hc op).2.1
  · rfl

/-- The operation that an `UPDATE` was for is in its new state. -/
theorem Moved.state_eq (h : Moved operationID before next rows rows')
    (hids : (rows.map (·.operationID)).Nodup) (hop' : op' ∈ rows')
    (hid : op'.operationID = operationID) : op'.state = next := by
  obtain ⟨digest, change, hc, hup⟩ := h
  obtain ⟨hone, rfl⟩ := updateOne_eq_some hup
  obtain ⟨r, hr, hp⟩ := exists_of_countP_eq_one hone
  obtain ⟨op, hop, rfl⟩ := List.mem_map.1 hop'
  have hrid : r.operationID = operationID := by
    simp only [Bool.and_eq_true, beq_iff_eq] at hp
    exact hp.1.1
  have hopid : op.operationID = operationID := by
    rw [← hid]
    split
    · exact ((hc op).1).symm
    · rfl
  rw [List.inj_on_of_nodup_map hids hop hr (hopid.trans hrid.symm), if_pos hp]
  exact (hc r).2.2.2

theorem Advance.order_eq (h : Advance before next) : order next = order before + 1 := by
  cases h <;> rfl

/-- The moves that leave a transcript alone stay on one side of the marker and of the removal. -/
theorem Advance.side (h : Advance before next) :
    (2 ≤ order next ↔ 2 ≤ order before) ∧ (order next < 4 ↔ order before < 4) := by
  cases h <;> simp [order]

/-! ## The invariant along the effects -/

theorem Ordered.framed (h : Ordered db) (hs : SameRecords db db')
    (ho : db'.operations = db.operations) : Ordered db' where
  toAccounted := h.toAccounted.same hs
  ids := by rw [ho]; exact h.ids
  unique := by rw [ho]; exact h.unique
  transcriptKey := by rw [ho]; exact h.transcriptKey
  transcript := by rw [ho, hs.transcripts]; exact h.transcript
  inactive := by rw [ho, hs.transcripts]; exact h.inactive
  tombstones := by rw [ho, hs.payloadTombstones]; exact h.tombstones

theorem Ordered.created (h : Ordered db) (hc : Created t db db') : Ordered db' where
  toAccounted := h.toAccounted.created hc
  ids := by rw [hc.operations]; exact h.ids
  unique := by rw [hc.operations]; exact h.unique
  transcriptKey := by rw [hc.operations]; exact h.transcriptKey
  transcript op hop := by
    rw [hc.operations] at hop
    obtain ⟨t', ht', hk⟩ := h.transcript op hop
    exact ⟨t', by simp [hc.transcripts, ht'], hk⟩
  inactive op hop hord t' ht' hk := by
    rw [hc.operations] at hop
    rw [hc.transcripts] at ht'
    rcases List.mem_append.1 ht' with ht' | ht'
    · exact h.inactive op hop hord t' ht' hk
    · -- The transcript of an operation exists before the new one.
      obtain rfl : t' = t := by simpa using ht'
      obtain ⟨t₀, ht₀, hk₀⟩ := h.transcript op hop
      exact absurd (hk₀.trans hk.symm) (hc.fresh t₀ ht₀)
  tombstones := by rw [hc.operations, hc.payloadTombstones]; exact h.tombstones

theorem Ordered.appended {r : AcceptedRecord} (h : Ordered db)
    (ha : Appended codec t r db db') : Ordered db' where
  toAccounted := h.toAccounted.appended ha
  ids := by rw [ha.operations]; exact h.ids
  unique := by rw [ha.operations]; exact h.unique
  transcriptKey := by rw [ha.operations]; exact h.transcriptKey
  transcript op hop := by
    rw [ha.operations] at hop
    obtain ⟨t', ht', hk⟩ := h.transcript op hop
    exact ⟨t'.allocate r, by rw [ha.transcripts]; exact List.mem_map_of_mem ht',
      (allocate_key t').trans hk⟩
  inactive op hop hord t' ht' hk := by
    rw [ha.operations] at hop
    rw [ha.transcripts] at ht'
    obtain ⟨t₀, ht₀, rfl⟩ := List.mem_map.1 ht'
    rw [allocate_lifecycle]
    exact h.inactive op hop hord t₀ ht₀ ((allocate_key t₀).symm.trans hk)
  tombstones := by rw [ha.operations, ha.payloadTombstones]; exact h.tombstones

theorem Ordered.signed {a : Relay.SignatureAttachment} (h : Ordered db) (hs : Signed a db db') :
    Ordered db' where
  toAccounted := h.toAccounted.signed hs
  ids := by rw [hs.operations]; exact h.ids
  unique := by rw [hs.operations]; exact h.unique
  transcriptKey := by rw [hs.operations]; exact h.transcriptKey
  transcript := by rw [hs.operations, hs.transcripts]; exact h.transcript
  inactive := by rw [hs.operations, hs.transcripts]; exact h.inactive
  tombstones := by rw [hs.operations, hs.payloadTombstones]; exact h.tombstones

/-- A reservation is for a transcript without an operation. -/
theorem Ordered.no_operation_reserved (h : Ordered db)
    (hr : Reserved t row db db') : ∀ op ∈ db.operations, op.key ≠ row.key := by
  intro op hop hk
  have hdone := (hr.fresh op hop).2 hk
  exact h.inactive op hop (by simp [hdone, order]) t hr.mem (hr.key.trans hk.symm) hr.active

theorem Ordered.reserved (h : Ordered db) (hr : Reserved t row db db') : Ordered db' where
  toAccounted := h.toAccounted.same hr.toSameRecords
  ids := by
    rw [hr.operations]
    exact unique_concat h.ids fun op hop => (hr.fresh op hop).1
  unique := by
    rw [hr.operations]
    exact unique_concat h.unique fun op hop => h.no_operation_reserved hr op hop
  transcriptKey op hop := by
    rw [hr.operations] at hop
    rcases List.mem_append.1 hop with hop | hop
    · exact h.transcriptKey op hop
    · obtain rfl : op = row := by simpa using hop
      exact hr.transcriptKey
  transcript op hop := by
    rw [hr.operations] at hop
    rw [hr.transcripts]
    rcases List.mem_append.1 hop with hop | hop
    · exact h.transcript op hop
    · obtain rfl : op = row := by simpa using hop
      exact ⟨t, hr.mem, hr.key⟩
  inactive op hop hord := by
    rw [hr.operations] at hop
    rw [hr.transcripts]
    rcases List.mem_append.1 hop with hop | hop
    · exact h.inactive op hop hord
    · obtain rfl : op = row := by simpa using hop
      rcases hr.state with hs | hs <;> simp [hs, order] at hord
  tombstones x hx := by
    rw [hr.payloadTombstones] at hx
    obtain ⟨op, hop, hk⟩ := h.tombstones x hx
    exact ⟨op, by simp [hr.operations, hop], hk⟩

/-- What an `UPDATE` of operations keeps of the invariant: everything but what depends on the new
state. -/
theorem Ordered.moved (h : Ordered db)
    (hacc : Accounted db') (hm : Moved operationID before next db.operations db'.operations)
    (hord : order before ≤ order next)
    (htr : ∀ t ∈ db.transcripts, ∃ t' ∈ db'.transcripts, t'.key = t.key)
    (hin : ∀ op ∈ db'.operations, 2 ≤ order op.state →
      ∀ t ∈ db'.transcripts, t.key = op.key → t.lifecycle ≠ .active)
    (hto : ∀ x ∈ db'.payloadTombstones, x ∈ db.payloadTombstones ∨
      ∃ op ∈ db'.operations, op.key = x.key ∧ 4 ≤ order op.state) : Ordered db' where
  toAccounted := hacc
  ids := by
    rw [hm.map_eq (·.operationID) fun _ _ hid _ => hid]
    exact h.ids
  unique := by
    rw [hm.map_eq (·.key) fun _ _ _ hk => hk]
    exact h.unique
  transcriptKey op' hop' := by
    obtain ⟨op, hop, -, hk, hi, -⟩ := hm.mem hop'
    rw [hk, hi]
    exact h.transcriptKey op hop
  transcript op' hop' := by
    obtain ⟨op, hop, -, hk, -⟩ := hm.mem hop'
    obtain ⟨t, ht, htk⟩ := h.transcript op hop
    obtain ⟨t', ht', htk'⟩ := htr t ht
    exact ⟨t', ht', by rw [htk', htk, hk]⟩
  inactive := hin
  tombstones x hx := by
    rcases hto x hx with hx | hx
    · obtain ⟨op, hop, hk, hs⟩ := h.tombstones x hx
      obtain ⟨op', hop', -, hk', heq | ⟨hb, hn⟩⟩ := hm.kept hop
      · exact ⟨op', hop', hk'.trans hk, by rw [heq]; exact hs⟩
      · refine ⟨op', hop', hk'.trans hk, ?_⟩
        rw [hb] at hs
        rw [hn]
        omega
    · exact hx

/-- A row after a move that leaves the transcript alone lies on the same side of the marker and of
the removal as before it. -/
theorem Moved.side
    (h : Moved operationID before next rows rows') (ha : Advance before next) (hop' : op' ∈ rows') :
    ∃ op ∈ rows, op'.key = op.key ∧ op'.canonicalIntent = op.canonicalIntent ∧
      (2 ≤ order op'.state ↔ 2 ≤ order op.state) ∧ (order op'.state < 4 ↔ order op.state < 4) := by
  obtain ⟨op, hop, -, hk, hi, rfl | ⟨-, hb, hn⟩⟩ := h.mem hop'
  · exact ⟨op', hop, rfl, rfl, Iff.rfl, Iff.rfl⟩
  · exact ⟨op, hop, hk, hi, hb ▸ hn ▸ ha.side.1, hb ▸ hn ▸ ha.side.2⟩

theorem Ordered.advanced (h : Ordered db) (ha : Advance before next) (hs : SameRecords db db')
    (hm : Moved operationID before next db.operations db'.operations) : Ordered db' := by
  refine h.moved (h.toAccounted.same hs) hm (by rw [ha.order_eq]; omega) ?_ ?_ ?_
  · intro t ht
    exact ⟨t, by rw [hs.transcripts]; exact ht, rfl⟩
  · intro op' hop' hord t ht hk
    obtain ⟨op, hop, hk', -, h2, -⟩ := hm.side ha hop'
    rw [hs.transcripts] at ht
    exact h.inactive op hop (h2.1 hord) t ht (hk.trans hk')
  · intro x hx
    exact .inl (by rwa [hs.payloadTombstones] at hx)

/-- The transcript of a marker becomes inactive. -/
theorem Marked.inactive {marker : Marker} (h : Accounted db)
    (hm : Marked row marker db db') (ht : t ∈ db.transcripts)
    (hk : t.key = marker.transcript.channelKey) : (t.mark marker).lifecycle ≠ .active := by
  obtain ⟨hone, -⟩ := updateOne_eq_some hm.transcripts
  obtain ⟨t₀, ht₀, hp⟩ := exists_of_countP_eq_one hone
  simp only [Bool.and_eq_true, beq_iff_eq] at hp
  obtain rfl : t = t₀ := List.inj_on_of_nodup_map h.keys ht ht₀ (hk.trans hp.1.symm)
  have hact := ne_active_of_validTransition (validateMarker_spec hm.valid).1
  simpa [Transcript.mark, hp.1, hp.2] using hact

theorem Ordered.marked {marker : Marker} (h : Ordered db)
    (hm : Marked row marker db db') : Ordered db' := by
  have hrow : row.key = marker.transcript.channelKey := by
    rw [h.transcriptKey row hm.mem, hm.transcript]
  refine h.moved (h.toAccounted.marked hm) hm.operations (by simp [order]) ?_ ?_ ?_
  · intro t ht
    exact ⟨t.mark marker, by rw [hm.transcripts_eq]; exact List.mem_map_of_mem ht, mark_key t⟩
  · intro op' hop' hord t' ht' hk
    rw [hm.transcripts_eq] at ht'
    obtain ⟨t, ht, rfl⟩ := List.mem_map.1 ht'
    rw [mark_key] at hk
    by_cases htk : t.key = marker.transcript.channelKey
    · exact hm.inactive h.toAccounted ht htk
    · -- Another transcript: its operation was not moved, and it is as it was.
      obtain ⟨op, hop, -, hk', -, rfl | ⟨hid, -, -⟩⟩ := hm.operations.mem hop'
      · have : t.mark marker = t := by simp [Transcript.mark, htk]
        rw [this]
        exact h.inactive op' hop hord t ht hk
      · rw [h.eq_of_id hop hm.mem hid] at hk'
        exact absurd (hk.trans (hk'.trans hrow)) htk
  · intro x hx
    exact .inl (by rwa [hm.payloadTombstones] at hx)

/-- What the loop of a removal does as a whole: it takes records of its transcript only, those at
the selected sequences, and leaves tombstones of its transcript. -/
structure Takes (intent : Intent) (removed : List RemovalRecord) (db db' : Db) : Prop where
  transcripts : db'.transcripts = db.transcripts
  operations : db'.operations = db.operations
  records : ∀ r, r ∈ db'.records ↔ r ∈ db.records ∧ ¬ (r.channel = intent.transcript.channelKey ∧
    ∃ record ∈ removed, r.sequence = record.sequence)
  payloadTombstones : ∀ x ∈ db'.payloadTombstones, x ∈ db.payloadTombstones ∨
    x.key = intent.transcript.channelKey

theorem removeRecords_takes {intent : Intent} {removed : List RemovalRecord}
    (h : removeRecords codec intent removed db = .ok db') : Takes intent removed db db' := by
  induction removed generalizing db with
  | nil =>
    cases h
    exact ⟨rfl, rfl, by simp, fun _ hx => .inl hx⟩
  | cons record removed ih =>
    unfold removeRecords at h
    obtain ⟨db₁, h1, h⟩ := bind_ok.1 h
    have hb := removeRecord_buries h1
    have ht := ih h
    refine ⟨ht.transcripts.trans hb.transcripts, ht.operations.trans hb.operations, fun r => ?_,
      fun x hx => ?_⟩
    · rw [ht.records, hb.mem_records]
      simp only [List.mem_cons, exists_eq_or_imp]
      rw [and_assoc, ← not_or, ← and_or_left]
    · rcases ht.payloadTombstones x hx with hx | hx
      · rw [hb.payloadTombstones] at hx
        rcases List.mem_append.1 hx with hx | hx
        · exact .inl hx
        · obtain rfl : x = tombstoneOf codec intent record := by simpa using hx
          exact .inr rfl
      · exact .inr hx

/-- The operation of a removal is moved in the database before the loop. -/
theorem Removed.moved {removed : List RemovalRecord} {mid : Db}
    (hr : Removed codec row removed mid db db') :
    Moved row.operationID .receiptSigned .payloadRemoved db.operations db'.operations := by
  have hm := hr.operations
  rwa [(removeRecords_takes hr.loop).operations] at hm

theorem Ordered.removed {removed : List RemovalRecord} {mid : Db}
    (h : Ordered db) (hr : Removed codec row removed mid db db') : Ordered db' := by
  have htakes := removeRecords_takes hr.loop
  have hrow := h.transcriptKey row hr.mem
  have hm := hr.moved
  have htr : db'.transcripts = db.transcripts := hr.transcripts.trans htakes.transcripts
  have hacc : Accounted db' := (removeRecords_spec h.toAccounted
    (selects_of_selected h.toAccounted hr.selected) hr.loop).1.same hr.toSameRecords
  refine h.moved hacc hm (by simp [order]) ?_ ?_ ?_
  · intro t ht
    exact ⟨t, by rw [htr]; exact ht, rfl⟩
  · intro op' hop' hord t ht hk
    rw [htr] at ht
    obtain ⟨op, hop, -, hk', -, rfl | ⟨-, hb, -⟩⟩ := hm.mem hop'
    · exact h.inactive op' hop hord t ht hk
    · exact h.inactive op hop (by simp [hb, order]) t ht (hk.trans hk')
  · intro x hx
    rw [hr.payloadTombstones] at hx
    rcases htakes.payloadTombstones x hx with hx | hx
    · exact .inl hx
    · obtain ⟨op', hop', hid, hk, -⟩ := hm.kept hr.mem
      refine .inr ⟨op', hop', by rw [hk, hrow, hx], ?_⟩
      rw [hm.state_eq h.ids hop' hid]
      simp [order]

/-- Every effect keeps the invariant of the operations. -/
theorem Effect.ordered {request : Request} (h : Ordered db) (heff : Effect codec db db' request) :
    Ordered db' := by
  cases heff with
  | framed hs ho => exact h.framed hs ho
  | created t hc => exact h.created hc
  | appended t r _ _ ha => exact h.appended ha
  | signed a hs => exact h.signed hs
  | reserved t row _ hr => exact h.reserved hr
  | advanced _ ha hs hm => exact h.advanced ha hs hm
  | marked row marker hm => exact h.marked hm
  | removed row removed mid hr => exact h.removed hr

theorem Reach.ordered {p : Pool} (hp : Reach codec p) : Ordered p.shared :=
  Later.of_effect (fun _ _ _ h heff => heff.ordered h) hp .empty

/-- **Every committed request is a turn.** -/
theorem run_turn {r : Request} {a : r.Result} (hord : Ordered db)
    (h : r.run codec db = .ok (a, db')) : Turn codec db db' r :=
  ((run_turns h).2 hord.ids).1

end

end YukhCoordination.Relay.Sqlite
