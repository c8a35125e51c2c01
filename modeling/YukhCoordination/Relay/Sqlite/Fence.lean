import YukhCoordination.Relay.Sqlite.Operations

/-!
# The lifecycle fence

The store fences a transcript from the marker on. `Request.Fenced` is what callers have to add for a
fence from the reservation on (`lifecycle_fence`).
-/

namespace YukhCoordination.Relay.Sqlite

open Lifecycle Transaction Interleave

/-- The operation of a transcript has no marker yet. -/
def Unmarked (db : Db) (key : ChannelKey) : Prop :=
  ∃ op ∈ db.operations, op.key = key ∧ order op.state < 2

/-- What a request has to meet: an append to a transcript whose operation has no marker yet repeats
an event that is stored, and a new reservation for a whole transcript finds its records signed. -/
def Request.Fenced (db : Db) : Request → Prop
  | .appendChecked intent _ _ => Unmarked db intent.channel →
      (Sqlite.findRecord db intent.channel.tenantID intent.channel.channelID intent.eventID).isSome
  | .reserve _ intent => intent.action = .deleteTranscript →
      db.operation? intent.operationID = none →
      ∀ r ∈ db.records, r.channel = intent.transcript.channelKey → r.signature ≠ []
  | _ => True

/-- The meaning of a request that meets the fence. -/
def fencedSem (codec : Codec) : Sem port Nat Db := fun i r db ans db' =>
  sem codec i r db ans db' ∧ r.Fenced db

/-- One step of a fenced run. -/
abbrev FencedStep (codec : Codec) : Pool → Pool → Prop :=
  Interleave.Pool.Step (fencedSem codec) (fun _ _ => False) (Call.body codec)

/-- The fenced runs from a new database. -/
def FencedReach (codec : Codec) : Pool → Prop :=
  Interleave.Pool.Reach (fencedSem codec) (fun _ _ => False) (Call.body codec) {}

/-! ## The invariant -/

/-- The high-water record of an operation: the last record of its transcript is signed and has the
receipt id that the intent names, and all records are signed if the whole transcript is to go. -/
structure Sealed (db : Db) (op : OperationRow) : Prop where
  highWater : ∃ r ∈ db.records, r.channel = op.key ∧ r.sequence = db.next op.key - 1 ∧
    r.receiptID = op.canonicalIntent.highWaterReceiptReference
  signed : op.canonicalIntent.action = .deleteTranscript →
    ∀ r ∈ db.records, r.channel = op.key → r.signature ≠ []

/-- The invariant of fenced runs: until its removal, a transcript with an operation keeps the
records it was reserved with. -/
structure Guarded (db : Db) : Prop extends Ordered db where
  unremoved : ∀ op ∈ db.operations, order op.state < 4 → Sealed db op

theorem Guarded.empty : Guarded {} where
  toOrdered := .empty
  unremoved := by simp

variable {p : Pool}

section
variable {codec : Codec} {db db' : Db} {op op' : OperationRow}

/-- An operation stays sealed while the records of its transcript only gain signatures. -/
theorem Sealed.mono (h : Sealed db op) (hkey : op'.key = op.key)
    (hint : op'.canonicalIntent = op.canonicalIntent) (hnext : db'.next op.key = db.next op.key)
    {f : AcceptedRecord → AcceptedRecord} (hf : ∀ r, (f r).unsigned = r.unsigned)
    (hsig : ∀ r, r.signature ≠ [] → (f r).signature ≠ [])
    (hrec : ∀ r, r ∈ db'.records ∧ r.channel = op.key ↔
      ∃ r₀ ∈ db.records, r₀.channel = op.key ∧ f r₀ = r) : Sealed db' op' := by
  obtain ⟨⟨r, hr, hc, hs, hid⟩, hall⟩ := h
  refine ⟨⟨f r, ((hrec (f r)).2 ⟨r, hr, hc, rfl⟩).1, ?_⟩, fun ha r' hr' hc' => ?_⟩
  · have hu := (AcceptedRecord.mk.injEq ..).mp (hf r)
    rw [hkey, hint, hnext, ← hs, ← hid, ← hc]
    exact ⟨hu.1, hu.2.1, hu.2.2.2.2.2.2.2.1⟩
  · obtain ⟨r₀, hr₀, hc₀, rfl⟩ := (hrec r').1 ⟨hr', hc'.trans hkey⟩
    exact hsig r₀ (hall (hint ▸ ha) r₀ hr₀ hc₀)

theorem Sealed.same (h : Sealed db op) (hkey : op'.key = op.key)
    (hint : op'.canonicalIntent = op.canonicalIntent) (hnext : db'.next op.key = db.next op.key)
    (hrec : ∀ r : AcceptedRecord, r.channel = op.key → (r ∈ db'.records ↔ r ∈ db.records)) :
    Sealed db' op' := by
  refine h.mono hkey hint hnext (f := id) (fun _ => rfl) (fun _ hs => hs) fun r => ?_
  constructor
  · rintro ⟨hr, hc⟩
    exact ⟨r, (hrec r hc).1 hr, hc, rfl⟩
  · rintro ⟨r₀, hr₀, hc₀, rfl⟩
    exact ⟨(hrec r₀ hc₀).2 hr₀, hc₀⟩

/-! ## The invariant along the effects -/

theorem Guarded.framed (h : Guarded db) (hs : SameRecords db db')
    (ho : db'.operations = db.operations) : Guarded db' where
  toOrdered := h.toOrdered.framed hs ho
  unremoved op hop hord := by
    rw [ho] at hop
    exact (h.unremoved op hop hord).same rfl rfl (next_congr hs.transcripts _)
      fun r _ => by rw [hs.records]

variable {t : Transcript} {r : AcceptedRecord} {request : Request}

theorem Guarded.created (h : Guarded db) (hc : Created t db db') : Guarded db' where
  toOrdered := h.toOrdered.created hc
  unremoved op hop hord := by
    rw [hc.operations] at hop
    exact (h.unremoved op hop hord).same rfl rfl (hc.next_eq _) fun r _ => by rw [hc.records]

/-- A fenced append is to a transcript without an operation. -/
theorem Guarded.no_operation (h : Guarded db) (ha : Appended codec t r db db')
    (hf : ¬ Unmarked db r.channel) : ∀ op ∈ db.operations, op.key ≠ r.channel := by
  intro op hop hk
  by_cases hord : order op.state < 2
  · exact hf ⟨op, hop, hk, hord⟩
  · exact h.inactive op hop (by omega) t ha.mem (ha.key.trans hk.symm) ha.active

theorem Guarded.appended (h : Guarded db)
    (ha : Appended codec t r db db') (hf : ¬ Unmarked db r.channel) : Guarded db' where
  toOrdered := h.toOrdered.appended ha
  unremoved op hop hord := by
    rw [ha.operations] at hop
    have hne := h.no_operation ha hf op hop
    refine (h.unremoved op hop hord).same rfl rfl ?_ fun r' hc => ?_
    · rw [ha.next_eq h.toAccounted, if_neg hne]
    · have hr' : r' ≠ r.unsigned := by
        rintro rfl
        exact hne hc.symm
      simp [ha.records, hr']

theorem attach_signature {a : Relay.SignatureAttachment} (ha : a.signature ≠ [])
    (r : AcceptedRecord) (hr : r.signature ≠ []) : (attach a r).signature ≠ [] := by
  unfold attach
  split
  · exact ha
  · exact hr

theorem Guarded.signed {a : Relay.SignatureAttachment} (h : Guarded db) (hs : Signed a db db') :
    Guarded db' where
  toOrdered := h.toOrdered.signed hs
  unremoved op hop hord := by
    rw [hs.operations] at hop
    refine (h.unremoved op hop hord).mono rfl rfl (next_congr hs.transcripts _) (attach_unsigned a)
      (attach_signature hs.signature) fun r => ?_
    rw [hs.records, List.mem_map]
    constructor
    · rintro ⟨⟨r₀, hr₀, rfl⟩, hc⟩
      exact ⟨r₀, hr₀, (attach_channel a r₀).symm.trans hc, rfl⟩
    · rintro ⟨r₀, hr₀, hc, rfl⟩
      exact ⟨⟨r₀, hr₀, rfl⟩, (attach_channel a r₀).trans hc⟩

/-- The record that a reservation found at the high water. -/
theorem validateLifecycleHighWater_spec {intent : Intent} {highWater : Nat}
    (h : validateLifecycleHighWater intent highWater db) :
    ∃ r ∈ db.records, r.channel = intent.transcript.channelKey ∧ r.sequence = highWater ∧
      r.receiptID = intent.highWaterReceiptReference := by
  simp only [validateLifecycleHighWater, Bool.and_eq_true] at h
  obtain ⟨h, -⟩ := h
  split at h
  · next r hr =>
    obtain ⟨hm, hc, hs⟩ := recordAt?_eq_some hr
    simp only [Bool.and_eq_true, beq_iff_eq] at h
    exact ⟨r, hm, hc, hs, h.2⟩
  · cases h

variable {row : OperationRow}

theorem Guarded.reserved (h : Guarded db)
    (hr : Reserved t row db db') (hf : row.canonicalIntent.action = .deleteTranscript →
      ∀ r ∈ db.records, r.channel = row.key → r.signature ≠ []) : Guarded db' where
  toOrdered := h.toOrdered.reserved hr
  unremoved op hop hord := by
    have hsame : ∀ op, Sealed db op → Sealed db' op := fun op hs =>
      hs.same rfl rfl (next_congr hr.transcripts _) fun r _ => by rw [hr.records]
    rw [hr.operations] at hop
    rcases List.mem_append.1 hop with hop | hop
    · exact hsame op (h.unremoved op hop hord)
    · obtain rfl : op = row := by simpa using hop
      obtain ⟨r, hm, hc, hs, hid⟩ := validateLifecycleHighWater_spec hr.highWater
      refine hsame op ⟨⟨r, hm, hc.trans hr.transcriptKey.symm, ?_, hid⟩, hf⟩
      rw [hs, ← hr.key, next_of_mem h.keys hr.mem]

theorem Guarded.advanced {operationID : String} {before next : SagaState} (h : Guarded db)
    (ha : Advance before next) (hs : SameRecords db db')
    (hm : Moved operationID before next db.operations db'.operations) : Guarded db' where
  toOrdered := h.toOrdered.advanced ha hs hm
  unremoved op' hop' hord := by
    obtain ⟨op, hop, hk', hi, -, h4⟩ := hm.side ha hop'
    exact (h.unremoved op hop (h4.1 hord)).same hk' hi (next_congr hs.transcripts _)
      fun r _ => by rw [hs.records]

theorem Guarded.marked {marker : Marker} (h : Guarded db)
    (hm : Marked row marker db db') : Guarded db' where
  toOrdered := h.toOrdered.marked hm
  unremoved op' hop' hord := by
    obtain ⟨op, hop, -, hk', hi, hcase⟩ := hm.operations.mem hop'
    have hlt : order op.state < 4 := by
      rcases hcase with rfl | ⟨-, hb, -⟩
      · exact hord
      · simp [hb, order]
    exact (h.unremoved op hop hlt).same hk' hi (hm.next_eq _) fun r _ => by rw [hm.records]

/-! ## Removal -/

theorem Guarded.removed {removed : List RemovalRecord} {mid : Db}
    (h : Guarded db) (hr : Removed codec row removed mid db db') : Guarded db' where
  toOrdered := h.toOrdered.removed hr
  unremoved op' hop' hord := by
    have htakes := removeRecords_takes hr.loop
    have hrow := h.transcriptKey row hr.mem
    have hm := hr.moved
    obtain ⟨op, hop, -, -, -, hcase⟩ := hm.mem hop'
    rcases hcase with rfl | ⟨-, -, hn⟩
    · -- An operation that was not moved is of another transcript, which keeps its records.
      have hne : op'.key ≠ row.key := by
        intro hk
        have := h.eq_of_key hop hr.mem hk
        have hstate := hm.state_eq h.ids hop' (by rw [this])
        rw [hstate] at hord
        simp [order] at hord
      refine (h.unremoved op' hop hord).same rfl rfl
        (next_congr (hr.transcripts.trans htakes.transcripts) _) fun r hc => ?_
      rw [hr.records, htakes.records]
      rw [hrow] at hne
      simp [hc, hne]
    · rw [hn] at hord
      simp [order] at hord

/-- A removal of a whole transcript takes every record of it. -/
theorem Removed.whole {removed : List RemovalRecord} {mid : Db}
    (hr : Removed codec row removed mid db db')
    (hkey : row.key = row.canonicalIntent.transcript.channelKey)
    (ha : row.canonicalIntent.action = .deleteTranscript) :
    ∀ r, r ∈ db'.records ↔ r ∈ db.records ∧ r.channel ≠ row.key := by
  intro r
  rw [hr.records, (removeRecords_takes hr.loop).records, hkey]
  have hsel := hr.selected
  rw [selectRemovalRecords, ha] at hsel
  cases hsel
  constructor
  · rintro ⟨hm, hn⟩
    exact ⟨hm, fun hc => hn ⟨hc, RemovalRecord.of r,
      List.mem_map_of_mem (mem_recordsOf.2 ⟨hm, hc⟩), rfl⟩⟩
  · rintro ⟨hm, hn⟩
    exact ⟨hm, fun hc => hn hc.1⟩

/-! ## Fenced runs -/

/-- An append that accepts a record was for an event that was not stored. -/
theorem Appended.findRecord_eq_none (ha : Appended codec t r db db') :
    findRecord db r.channel.tenantID r.channel.channelID r.eventID = none := by
  refine List.find?_eq_none.2 fun r' hr' hp => ha.fresh r' hr' ?_
  simp only [Bool.and_eq_true, beq_iff_eq] at hp
  exact .inl ⟨hp.1.1, hp.1.2, hp.2⟩

/-- A new record is appended in a fenced run only where no operation waits for its marker. -/
theorem Appended.not_unmarked {intent : AppendIntent}
    {admission : Admit} {prepare : PrepareRecord} (ha : Appended codec t r db db')
    (hc : r.channel = intent.channel) (he : r.eventID = intent.eventID)
    (hf : (Request.appendChecked intent admission prepare).Fenced db) :
    ¬ Unmarked db r.channel := by
  intro hu
  have hsome := hf (hc ▸ hu)
  rw [← hc, ← he, ha.findRecord_eq_none] at hsome
  cases hsome

theorem Effect.guarded (h : Guarded db) (heff : Effect codec db db' request)
    (hf : request.Fenced db) : Guarded db' := by
  cases heff with
  | framed hs ho => exact h.framed hs ho
  | created t hc => exact h.created hc
  | appended t r hc he ha => exact h.appended ha (ha.not_unmarked hc he hf)
  | signed a hs => exact h.signed hs
  | reserved t row hi hr =>
    subst hi
    refine h.reserved hr fun ha r hm hc => ?_
    refine hf ha ?_ r hm (hc.trans hr.transcriptKey)
    refine List.find?_eq_none.2 fun op hop hid => (hr.fresh op hop).1 ?_
    rw [hr.operationID]
    simpa using hid
  | advanced _ ha hs hm => exact h.advanced ha hs hm
  | marked row marker hm => exact h.marked hm
  | removed row removed mid hr => exact h.removed hr

theorem FencedReach.guarded (hp : FencedReach codec p) : Guarded p.shared :=
  Interleave.Pool.Reach.invariant (I := Guarded) .empty
    (fun _ _ _ _ _ hinv hs => (sem_effect hs.1).guarded hinv hs.2) (fun _ _ _ hf => hf.elim) hp

/-- A stored record was stored before, up to its signature, or has just been appended. -/
theorem Effect.record_of (heff : Effect codec db db' request) {r : AcceptedRecord}
    (hr : r ∈ db'.records) : (∃ r₀ ∈ db.records, r₀.unsigned = r.unsigned) ∨
    ∃ t r₁ intent admission prepare, request = .appendChecked intent admission prepare ∧
      r₁.channel = intent.channel ∧ r₁.eventID = intent.eventID ∧ r = r₁.unsigned ∧
      Appended codec t r₁ db db' := by
  have same : db'.records = db.records → ∃ r₀ ∈ db.records, r₀.unsigned = r.unsigned :=
    fun hrec => ⟨r, hrec ▸ hr, rfl⟩
  cases heff with
  | framed hs => exact .inl (same hs.records)
  | created t hc => exact .inl (same hc.records)
  | appended t r₁ hc he ha =>
    rw [ha.records] at hr
    rcases List.mem_append.1 hr with hr | hr
    · exact .inl ⟨r, hr, rfl⟩
    · exact .inr ⟨t, r₁, _, _, _, rfl, hc, he, by simpa using hr, ha⟩
  | signed a hs =>
    rw [hs.records] at hr
    obtain ⟨r₀, hr₀, rfl⟩ := List.mem_map.1 hr
    exact .inl ⟨r₀, hr₀, (attach_unsigned a r₀).symm⟩
  | reserved t row _ hr => exact .inl (same hr.records)
  | advanced _ _ hs | marked row marker hs => exact .inl (same hs.records)
  | removed row removed mid hv =>
    rw [hv.records, (removeRecords_takes hv.loop).records] at hr
    exact .inl ⟨r, hr.1, rfl⟩

/-- No effect of a fenced request brings a new record into a transcript with an operation. -/
theorem Effect.no_new_record (h : Guarded db)
    (heff : Effect codec db db' request) (hf : request.Fenced db) (hop : op ∈ db.operations) :
    ∀ r ∈ db'.records, r.channel = op.key → ∃ r₀ ∈ db.records, r₀.unsigned = r.unsigned := by
  intro r hr hc
  rcases heff.record_of hr with hold | ⟨t, r₁, _, _, _, rfl, hc₁, he₁, rfl, ha⟩
  · exact hold
  · exact absurd hc.symm (h.no_operation ha (ha.not_unmarked hc₁ he₁ hf) op hop)

/-- Only a removal moves an operation from its signed receipt to its removed payload. -/
theorem Effect.removed_of_state (h : Guarded db) (heff : Effect codec db db' request)
    (hop : op ∈ db.operations) (hs : op.state = .receiptSigned) (hop' : op' ∈ db'.operations)
    (hid : op'.operationID = op.operationID) (hs' : op'.state = .payloadRemoved) :
    ∃ removed mid, Removed codec op removed mid db db' := by
  -- A row that is not moved is the operation in its old state.
  have stays : op' ∉ db.operations := by
    intro hm
    rw [h.eq_of_id hm hop hid, hs] at hs'
    cases hs'
  have moves : ∀ {id : String} {before next : SagaState},
      Moved id before next db.operations db'.operations →
      op.operationID = id ∧ before = .receiptSigned ∧ next = .payloadRemoved := by
    intro id before next hm
    obtain ⟨op₁, hop₁, hid₁, -, -, rfl | ⟨hid₂, hb, hn⟩⟩ := hm.mem hop'
    · exact absurd hop₁ stays
    · obtain rfl := h.eq_of_id hop₁ hop (hid₁.symm.trans hid)
      exact ⟨hid₂, hb.symm.trans hs, hn.symm.trans hs'⟩
  cases heff with
  | framed _ ho => exact absurd (ho ▸ hop') stays
  | created t hc => exact absurd (hc.operations ▸ hop') stays
  | appended t r _ _ ha => exact absurd (ha.operations ▸ hop') stays
  | signed a hs => exact absurd (hs.operations ▸ hop') stays
  | reserved t row _ hr =>
    rw [hr.operations] at hop'
    rcases List.mem_append.1 hop' with hm | hm
    · exact absurd hm stays
    · obtain rfl : op' = row := by simpa using hm
      exact absurd hid.symm (hr.fresh op hop).1
  | advanced _ ha _ hm =>
    obtain ⟨-, rfl, rfl⟩ := moves hm
    cases ha
  | marked row marker hm =>
    obtain ⟨-, hb, -⟩ := moves hm.operations
    cases hb
  | removed row removed mid hr =>
    obtain ⟨hid₁, -, -⟩ := moves hr.moved
    rw [h.eq_of_id hop hr.mem hid₁]
    exact ⟨removed, mid, hr⟩

/-- In a run whose requests meet the fence, no step brings a new record into a transcript with an
operation, and the step that removes a whole transcript finds in it exactly the records up to the
one whose receipt the intent names, all of them signed, and removes these and no others. -/
theorem lifecycle_fence {p q : Pool} (hp : FencedReach codec p) (hs : FencedStep codec p q) :
    ∀ op ∈ p.shared.operations, (∀ r ∈ q.shared.records, r.channel = op.key →
        ∃ r₀ ∈ p.shared.records, r₀.unsigned = r.unsigned) ∧
      (op.canonicalIntent.action = .deleteTranscript → op.state = .receiptSigned →
        ∀ op' ∈ q.shared.operations, op'.operationID = op.operationID →
          op'.state = .payloadRemoved → ∃ highWater,
          (∃ r ∈ p.shared.records, r.channel = op.key ∧ r.sequence = highWater ∧
            r.receiptID = op.canonicalIntent.highWaterReceiptReference) ∧
          (∀ sequence, (∃ r ∈ p.shared.records, r.channel = op.key ∧ r.sequence = sequence) ↔
            1 ≤ sequence ∧ sequence ≤ highWater) ∧
          (∀ r ∈ p.shared.records, r.channel = op.key → r.signature ≠ []) ∧
          ∀ r, r ∈ q.shared.records ↔ r ∈ p.shared.records ∧ r.channel ≠ op.key) := by
  have h := hp.guarded
  intro op hop
  have heff : (∃ request, Effect codec p.shared q.shared request ∧ request.Fenced p.shared) := by
    rcases hs.shared with hq | ⟨i, r, ans, hs, hf⟩ | hf
    · exact ⟨.transcript op.key, hq ▸ .framed (.refl _) rfl, trivial⟩
    · exact ⟨r, sem_effect hs, hf⟩
    · exact hf.elim
  obtain ⟨request, heff, hf⟩ := heff
  refine ⟨heff.no_new_record h hf hop, fun ha hsig op' hop' hid hrem => ?_⟩
  obtain ⟨removed, mid, hr⟩ := heff.removed_of_state h hop hsig hop' hid hrem
  have hlt : order op.state < 4 := by simp [hsig, order]
  have hseal := h.unremoved op hop hlt
  exact ⟨p.shared.next op.key - 1, hseal.highWater,
    fun _ => h.toAccounted.exists_record_iff fun x hx hk =>
      absurd hk (h.no_tombstone hop hlt x hx), hseal.signed ha,
    hr.whole (h.transcriptKey op hop) ha⟩

end

/-! ## A run that breaks the fence, and one that keeps it -/

/-- The operation of the sample run. -/
def sampleOperation : String := "00000000-0000-7000-8000-000000000001"

/-- The transcript that it deletes. -/
def sampleTranscript : TranscriptKey := ⟨"tenant", "channel", 1⟩

/-- The policy it is made under. -/
def samplePolicy : Policy where
  profile := "yukh-transcript-lifecycle-policy/v0.1"
  policyID := "policy"
  policyEpoch := 1
  policyDigest := sampleDigest
  activeRetentionMillis := 1
  eventBackupDeletionMillis := 1
  identityBackupDeletionMillis := 1
  securityAuditDeletionMillis := 1
  exportMode := .permitted
  redactionAuthorityRoleID := "redactor"
  deletionAuthorityRoleID := "deleter"
  integrityProfile := "sequence-event-receipt-operation/v0.1"
  issuedAt := "2026-01-01T00:00:00.000Z"
  activatedAt := "2026-01-01T00:00:00.000Z"
  accountablePolicyApprover := "approver"

/-- Its intent: the whole transcript up to the first receipt. -/
def sampleIntent : Intent where
  profile := "yukh-transcript-lifecycle-intent/v0.1"
  operationID := sampleOperation
  transcript := sampleTranscript
  action := .deleteTranscript
  reason := .authorizedRequest
  policyID := "policy"
  policyEpoch := 1
  policyDigest := sampleDigest
  target := ⟨.transcript, []⟩
  highWaterReceiptReference := "receipt-1"
  requestedAt := "2026-01-01T00:00:00.000Z"
  requesterRoleID := "deleter"
  authorizingAuditReceipt := "audit"
  exportMode := .permitted
  expectedBackupDeletionWindows := [⟨.event, "2026-01-02T00:00:00.000Z"⟩,
    ⟨.identity, "2026-01-02T00:00:00.000Z"⟩, ⟨.audit, "2026-01-02T00:00:00.000Z"⟩]

/-- Its marker. -/
def sampleMarker : Marker where
  profile := "yukh-transcript-lifecycle-marker/v0.1"
  operationID := sampleOperation
  intentDigest := sampleDigest
  transcript := sampleTranscript
  previousLifecycle := .active
  resultingLifecycle := .deleted
  target := ⟨.transcript, []⟩
  policyDigest := sampleDigest
  highWaterReceiptReference := "receipt-1"
  markerTime := "2026-01-01T00:00:00.000Z"
  authorizingAuditReceipt := "audit"

/-- The preimage of its receipt. -/
def samplePreimage : ReceiptPreimage where
  profile := "yukh-transcript-lifecycle-receipt-preimage/v0.1"
  receiptID := sampleOperation
  markerDigest := sampleDigest
  operationID := sampleOperation
  intentDigest := sampleDigest
  transcript := sampleTranscript
  resultingLifecycle := .deleted
  policyDigest := sampleDigest
  issuedAt := "2026-01-01T00:00:00.000Z"
  signingKeyID := "key"
  signatureAlgorithm := "ed25519"

/-- A codec that decodes its documents. -/
def fenceCodec : Codec :=
  sampleCodec (some ⟨"tenant", "channel", sampleDigest, 1, "2026-01-01T00:00:00.000Z"⟩)
    (some sampleMarker) (some samplePreimage)

/-- The row of the operation after its reservation. -/
def sampleRow : OperationRow := reservedRow fenceCodec sampleIntent samplePolicy

/-- The row of an operation after its marker. -/
def OperationRow.marked (row : OperationRow) : OperationRow :=
  { row with state := .markerPersisted, canonicalMarker := [1], canonicalReceiptPreimage := [2] }

/-- The row of an operation after its receipt was signed. -/
def OperationRow.signed (row : OperationRow) : OperationRow :=
  { row.marked with state := .receiptSigned, receiptSignature := List.replicate 64 7 }

/-- The row of the operation after its marker. -/
def markedRow : OperationRow := sampleRow.marked

/-- The row of the operation after its receipt was signed. -/
def signedRow : OperationRow := sampleRow.signed

/-- The row of the operation after its removal. -/
def removedRow : OperationRow :=
  { signedRow with state := .payloadRemoved, payloadRemovalDigest := sampleDigest }

/-- The database after the first event was signed and `later` records were appended behind it. -/
def signedDb (later : List AcceptedRecord) : Db := { createdDb with
    transcripts := [⟨sampleKey, 2 + later.length, [1], "digest", .active, .complete⟩]
    records := { sampleRecord "event-1" "receipt-1" 1 with signature := [1] } :: later }

/-- That database with the reservation. -/
def reservedDb (later : List AcceptedRecord) : Db := { signedDb later with
    policies := [⟨sampleDigest, "policy", 1, samplePolicy, 1, .permitted⟩]
    bindings := [⟨sampleKey, sampleDigest, "policy", 1, "2026-01-01T00:00:00.001Z"⟩]
    operations := [sampleRow] }

/-- That database with the marker, and with the operation at `row`. -/
def markedDb (later : List AcceptedRecord) (row : OperationRow) : Db := { reservedDb later with
    transcripts := [⟨sampleKey, 2 + later.length, [1], "digest", .deleted, .incomplete⟩]
    operations := [row] }

/-- The record of an event that is appended behind the reservation. -/
def lateRecord : AcceptedRecord := sampleRecord "event-2" "receipt-2" 2

/-- What `PersistMarker` is called with. -/
def samplePersistence : MarkerPersistence := ⟨sampleOperation, sampleDigest, [1], [2]⟩

/-- What `AttachSignature` of the lifecycle receipt is called with. -/
def sampleAttachment : Lifecycle.SignatureAttachment :=
  ⟨sampleOperation, sampleDigest, [2], List.replicate 64 7⟩

/-- What `RemovePayload` is called with. -/
def sampleReference : OperationReference := ⟨sampleOperation, sampleDigest⟩

theorem valid_sampleDigest : validDigest sampleDigest := rfl

theorem valid_removalDigest (records : List RemovalRecord) :
    validDigest (fenceCodec.removalDigest records) :=
  valid_sampleDigest

theorem valid_sampleTime : validTime "2026-01-01T00:00:00.000Z" := rfl

theorem valid_sampleIntent : Lifecycle.validateIntent sampleIntent := rfl

theorem valid_sampleReference : validateOperationReference sampleReference := rfl

theorem valid_sampleMarker : validateMarker sampleMarker := rfl

theorem valid_samplePreimage : validateReceiptPreimage samplePreimage := rfl

/-- The reserved row of the sample operation, its marker and its receipt, for a codec that decodes
them. -/
structure Documents (codec : Codec) (row : OperationRow) (marker : Marker)
    (receipt : ReceiptPreimage) : Prop where
  operationID : row.operationID = sampleOperation
  intentID : row.canonicalIntent.operationID = sampleOperation
  intentDigest : row.intentDigest = sampleDigest
  size : canonicalSize (codec.intentSize row.canonicalIntent)
  intent : Lifecycle.validateIntent row.canonicalIntent
  digest : codec.intentDigest row.canonicalIntent = row.intentDigest
  state : row.state = .exportSatisfied
  stored : validStoredLifecycle codec row
  decodeMarker : codec.decodeMarker [1] = some marker
  decodePreimage : codec.decodePreimage [2] = some receipt
  validMarker : validateMarker marker
  validReceipt : validateReceiptPreimage receipt
  agree : (marker.operationID, marker.intentDigest, receipt.operationID, receipt.intentDigest,
      receipt.markerDigest, receipt.transcript, receipt.resultingLifecycle, receipt.policyDigest) =
    (sampleOperation, sampleDigest, sampleOperation, sampleDigest, codec.markerDigest marker,
      marker.transcript, marker.resultingLifecycle, marker.policyDigest)

namespace Documents

variable {codec : Codec} {row : OperationRow} {marker : Marker} {receipt : ReceiptPreimage}
  {db db' : Db} {operation : Operation} {S : Sem port Nat Db} {n : Nat}
  (h : Documents codec row marker receipt)
include h

theorem persistence :
    validateMarkerPersistence codec samplePersistence = .ok (marker, receipt) := by
  obtain ⟨h1, h2, h3, h4, h5, h6, h7, h8⟩ := by simpa only [Prod.mk.injEq] using h.agree
  refine ensure_bind.2 ⟨valid_sampleReference, required_bind.2 ⟨marker, h.decodeMarker,
    required_bind.2 ⟨receipt, h.decodePreimage, ensure_bind.2 ⟨?_, ensure_bind.2 ⟨?_, rfl⟩⟩⟩⟩⟩
  · rw [h.validMarker, h.validReceipt, Bool.and_self]
  · simp [samplePersistence, h1, h2, h3, h4, h5, h6, h7, h8]

theorem attachment : Lifecycle.validateSignatureAttachment codec sampleAttachment = .ok () := by
  have hagree := h.agree
  simp only [Prod.mk.injEq] at hagree
  refine ensure_bind.2 ⟨?_, required_bind.2 ⟨receipt, h.decodePreimage,
    ensure_bind.2 ⟨h.validReceipt, ensure_ok.2 ?_⟩⟩⟩
  · exact (Bool.and_eq_true _ _).mpr ⟨valid_sampleReference, rfl⟩
  · simp [sampleAttachment, hagree]

/-- The only row of a database loads if it is valid. -/
theorem load {row' : OperationRow} (hdb : db.operations = [row'])
    (hid : row'.operationID = row.operationID) (hi : row'.canonicalIntent = row.canonicalIntent)
    (hd : row'.intentDigest = row.intentDigest) (hv : validStoredLifecycle codec row') :
    loadLifecycleOperation codec sampleOperation db = .ok (some row') := by
  have hfind : db.operation? sampleOperation = some row' := by
    simp [Db.operation?, hdb, hid, h.operationID]
  simp [loadLifecycleOperation, hfind, hi, hd, hv, h.size, h.intent, h.digest]

theorem load_reserved (hdb : db.operations = [row]) :
    loadLifecycleOperation codec sampleOperation db = .ok (some row) :=
  h.load hdb rfl rfl rfl h.stored

theorem validMarked : validMarkerPersistence codec row.marked := by
  have hpersistence : validateMarkerPersistence codec ⟨row.marked.canonicalIntent.operationID,
      row.marked.intentDigest, [1], [2]⟩ = .ok (marker, receipt) := by
    rw [show row.marked.canonicalIntent.operationID = sampleOperation from h.intentID,
      show row.marked.intentDigest = sampleDigest from h.intentDigest]
    exact h.persistence
  exact congrArg Except.isOk hpersistence

theorem load_marked (hdb : db.operations = [row.marked]) :
    loadLifecycleOperation codec sampleOperation db = .ok (some row.marked) := by
  have hstored := h.stored
  simp only [validStoredLifecycle, h.state, Bool.and_eq_true] at hstored
  obtain ⟨⟨⟨⟨-, -⟩, hsignature⟩, hremoval⟩, hexport⟩ := hstored
  refine h.load hdb rfl rfl rfl ?_
  exact Bool.and_eq_true_iff.2 ⟨Bool.and_eq_true_iff.2
    ⟨Bool.and_eq_true_iff.2 ⟨hexport, hsignature⟩, hremoval⟩, h.validMarked⟩

theorem load_signed (hdb : db.operations = [row.signed]) :
    loadLifecycleOperation codec sampleOperation db = .ok (some row.signed) := by
  have hstored := h.stored
  simp only [validStoredLifecycle, h.state, Bool.and_eq_true] at hstored
  obtain ⟨⟨-, hremoval⟩, hexport⟩ := hstored
  refine h.load hdb rfl rfl rfl ?_
  exact Bool.and_eq_true_iff.2 ⟨Bool.and_eq_true_iff.2
    ⟨Bool.and_eq_true_iff.2 ⟨hexport, rfl⟩, hremoval⟩, h.validMarked⟩

/-- The verifier accepts the signature of the receipt. -/
theorem verify {signature : Bytes} (hs : ∀ keyID algorithm signing signature,
      S n (.verifyLifecycleReceipt keyID algorithm signing signature) db (.ok ()) db) :
    (verifySignature codec [2] signature).Exec (S n) db (.ok ()) db := by
  unfold verifySignature
  rw [h.decodePreimage]
  dsimp only
  rw [h.validReceipt]
  exact Program.exec_ask_bind.2 ⟨.ok (), db, hs _ _ _ _, .done⟩

/-- `AttachSignature` run alone signs the receipt. -/
theorem attach (hS : ∀ (r : Request) db a db', r.run codec db = .ok (a, db') → r.Fenced db →
      S n r db (.ok a) db') (hdb : db.operations = [row.marked])
    (hrun : (Request.attachReceiptSignature sampleAttachment).run codec db = .ok (operation, db')) :
    ((Call.attachReceiptSignature sampleAttachment).body codec).Exec (S n) db
      (.operation (.ok operation)) db' := by
  refine Program.Exec.bind (b := .ok operation) (t := db') ?_ .done
  unfold LifecycleSignatureRemoval.attachSignature
  rw [h.attachment]
  refine Program.exec_ask_bind.2 ⟨.ok (some row.marked), db,
    hS _ _ _ _ (query_of_ok (h.load_marked hdb)) trivial, ?_⟩
  dsimp only
  rw [if_neg (by simp [sampleAttachment, OperationRow.marked, h.intentDigest]),
    if_neg (by simp [OperationRow.marked, alreadySigned]), if_neg (by simp [OperationRow.marked])]
  exact Program.Exec.bind (h.verify fun _ _ _ _ => hS _ _ _ _ rfl trivial)
    (Program.exec_ask_bind.2 ⟨.ok operation, db', hS _ _ _ _ hrun trivial, .done⟩)

/-- `RemovePayload` run alone comes to its transaction. -/
theorem remove (hS : ∀ (r : Request) db a db', r.run codec db = .ok (a, db') → r.Fenced db →
      S n r db (.ok a) db') (hdb : db.operations = [row.signed]) :
    (LifecycleSignatureRemoval.removePayload codec sampleReference).Leads (S n) db
      (ask (.removePayload sampleReference row.signed)) db := by
  unfold LifecycleSignatureRemoval.removePayload
  rw [if_neg (by simp [valid_sampleReference])]
  refine .ask_bind (hS _ _ _ _ (query_of_ok (h.load_signed hdb)) trivial) ?_
  dsimp only
  rw [if_neg (by simp [sampleReference, OperationRow.signed, OperationRow.marked, h.intentDigest,
    alreadySigned])]
  have hverify : (verifySignature codec [2] row.signed.receiptSignature).Exec (S n) db
    (.ok ()) db :=
    h.verify fun _ _ _ _ => hS (.verifyLifecycleReceipt _ _ _ _) _ _ _ rfl trivial
  exact hverify.leads.bind _

/-- From the reservation, fenced calls come to the step that removes the payload, and take it. -/
theorem removal (hS : ∀ i (r : Request) db a db', r.run codec db = .ok (a, db') → r.Fenced db →
      S i r db (.ok a) db') {db₀ db₁ db₂ db₃ : Db} {first second third : Operation}
    (hi : Idle n db₀ p)
    (hpersist : (Request.persistMarker samplePersistence).run codec db₀ = .ok (first, db₁))
    (hmarked : db₁.operations = [row.marked])
    (hattach : (Request.attachReceiptSignature sampleAttachment).run codec db₁ = .ok (second,
      db₂)) (hsigned : db₂.operations = [row.signed])
    (hremove : (Request.removePayload sampleReference row.signed).run codec db₂ = .ok (third,
      db₃)) :
    ∃ m q : Pool, Relation.ReflTransGen
        (Interleave.Pool.Step S (fun _ _ => False) (Call.body codec)) p m ∧
      Interleave.Pool.Step S (fun _ _ => False) (Call.body codec) m q ∧
      m.shared = db₂ ∧ Idle (n + 3) db₃ q ∧ ∀ i < n, q.thread i = p.thread i := by
  have hfirst : ((Call.persistMarker samplePersistence).body codec).Exec (S n) db₀
      (.operation (.ok first)) db₁ :=
        exec_ask (r := .persistMarker _) (hS _ _ _ _ _ hpersist trivial)
  obtain ⟨p₁, h₁, i₁, -, k₁⟩ := hi.begin hfirst.leads
  obtain ⟨p₂, h₂, i₂, -, k₂⟩ := i₁.begin (h.attach (hS _) hmarked hattach).leads
  obtain ⟨m, hm, im, ht, km⟩ := i₂.begin (c := .removePayload sampleReference)
    ((h.remove (hS _) hsigned).bind _)
  have hlast : S (n + 1 + 1) (.removePayload sampleReference row.signed) m.shared (.ok third)
    db₃ := by
    rw [im.shared]
    exact hS _ _ _ _ _ hremove trivial
  refine ⟨m, _, h₁.trans (h₂.trans hm), .run (n + 1 + 1) ht hlast, im.shared,
    ⟨rfl, fun i hn => ?_⟩, fun i hn => ?_⟩
  · exact (Function.update_of_ne (by omega) _ _).trans (im.thread i (by omega))
  · refine (Function.update_of_ne (by omega) _ _).trans ?_
    rw [km i (by omega), k₂ i (by omega), k₁ i (by omega)]

end Documents

theorem fenceDocuments : Documents fenceCodec sampleRow sampleMarker samplePreimage :=
  ⟨rfl, rfl, rfl, rfl, valid_sampleIntent, rfl, rfl, rfl, rfl, rfl, valid_sampleMarker,
    valid_samplePreimage, rfl⟩

theorem persistMarker_sample (later : List AcceptedRecord) :
    (Request.persistMarker samplePersistence).run fenceCodec (reservedDb later) =
      .ok (markedRow.operation, markedDb later markedRow) :=
  bind_ok.2 ⟨_, fenceDocuments.persistence, bind_ok.2 ⟨_,
    bind_ok.2 ⟨_, fenceDocuments.load_reserved rfl, rfl⟩, ensure_bind.2 ⟨rfl, rfl⟩⟩⟩

theorem attachReceiptSignature_sample (later : List AcceptedRecord) :
    (Request.attachReceiptSignature sampleAttachment).run fenceCodec (markedDb later markedRow) =
      .ok (signedRow.operation, markedDb later signedRow) :=
  bind_ok.2 ⟨_, bind_ok.2 ⟨_, fenceDocuments.load_marked rfl, rfl⟩, ensure_bind.2 ⟨rfl, rfl⟩⟩

theorem reserve_sample :
    (Request.reserve ⟨[samplePolicy]⟩ sampleIntent).run fenceCodec (signedDb []) =
    .ok (sampleRow.operation, reservedDb []) := by
  rfl

theorem removePayload_sample {later : List AcceptedRecord} (h : later = [] ∨ later = [lateRecord]) :
    ∃ db', (Request.removePayload sampleReference signedRow).run fenceCodec
        (markedDb later signedRow) = .ok (removedRow.operation, db') ∧
      db'.records = [] ∧ db'.operations = [removedRow] := by
  rcases h with rfl | rfl <;>
  exact ⟨_, bind_ok.2 ⟨_, bind_ok.2 ⟨_, fenceDocuments.load_signed rfl, rfl⟩, ensure_bind.2 ⟨rfl,
    ensure_bind.2 ⟨rfl, rfl⟩⟩⟩, rfl, rfl⟩

/-- A run that may commit every fenced request but a reservation leads to the signed record. -/
theorem sampleRecord_reachable {S : Sem port Nat Db} (hS : ∀ i (r : Request) db a db',
      r.run fenceCodec db = .ok (a, db') → r.Fenced db → (∀ p intent, r ≠ .reserve p intent) →
      S i r db (.ok a) db') : Reachable fenceCodec S 3 (signedDb []) := by
  have h₁ : Reachable fenceCodec S 1 createdDb :=
    Reachable.init.call (c := .createChannel sampleChannel)
      (exec_ask (r := .createChannel sampleChannel) (a := ())
        (hS _ (.createChannel sampleChannel) _ _ _ rfl trivial (by simp)))
  have h₂ : Reachable fenceCodec S 2 appendedDb :=
    h₁.call (c := .appendChecked _ _ _) (exec_ask (r := sampleAppend "event-1" "receipt-1")
      (a := (⟨.appended, sampleRecord "event-1" "receipt-1" 1⟩ : AppendResult))
      (hS _ (sampleAppend _ _) _ _ _ rfl (fun ⟨_, hm, _⟩ => absurd hm List.not_mem_nil)
        (by simp [sampleAppend])))
  exact h₂.call (c := .attachSignature ⟨sampleKey, "receipt-1", [1], [1]⟩)
    (exec_ask (r := .attachSignature _) (hS _ (.attachSignature _) _ _ _ rfl trivial (by simp)))

/-- A run that may commit every fenced request leads to the reservation. -/
theorem reservedDb_reachable {S : Sem port Nat Db} (hS : ∀ i (r : Request) db a db',
      r.run fenceCodec db = .ok (a, db') → r.Fenced db → S i r db (.ok a) db') :
    Reachable fenceCodec S 4 (reservedDb []) := by
  refine (sampleRecord_reachable fun i r db a db' h hf _ => hS i r db a db' h hf).call
    (c := .reserve ⟨[samplePolicy]⟩ sampleIntent) (exec_ask (r := .reserve _ _)
      (hS _ _ _ _ _ reserve_sample fun _ _ => ?_))
  simp [signedDb]

/-- From the reservation, fenced calls come to the step that removes the payload. -/
theorem Idle.removal {S : Sem port Nat Db} (hS : ∀ i (r : Request) db a db',
      r.run fenceCodec db = .ok (a, db') → r.Fenced db → S i r db (.ok a) db') {n : Nat}
    {later : List AcceptedRecord} (h : Idle n (reservedDb later) p)
    (hlater : later = [] ∨ later = [lateRecord]) :
    ∃ m q : Pool, Relation.ReflTransGen
        (Interleave.Pool.Step S (fun _ _ => False) (Call.body fenceCodec)) p m ∧
      Interleave.Pool.Step S (fun _ _ => False) (Call.body fenceCodec) m q ∧
      m.shared = markedDb later signedRow ∧
      q.shared.records = [] ∧ q.shared.operations = [removedRow] := by
  obtain ⟨db, hrun, hrecords, hoperations⟩ := removePayload_sample hlater
  obtain ⟨m, q, hm, hq, hshared, hi, -⟩ := fenceDocuments.removal hS h (persistMarker_sample later)
    rfl (attachReceiptSignature_sample later) rfl hrun
  exact ⟨m, q, hm, hq, hshared, by rw [hi.shared, hrecords], by rw [hi.shared, hoperations]⟩

/-- Fenced runs may commit every fenced request. -/
theorem fencedSem_ok {codec : Codec} (i : Nat) (r : Request) (db : Db) (a : r.Result) (db' : Db)
    (h : r.run codec db = .ok (a, db')) (hf : r.Fenced db) : fencedSem codec i r db (.ok a) db' :=
  ⟨.committed h, hf⟩

/-- A run of the store that breaks the fence. An event is appended behind the reservation of a whole
transcript; its record is unsigned and lies beyond the high-water receipt of the intent, and the
removal takes it with the others. -/
theorem append_behind_reservation : ∃ (p q q' : Pool) (op op' : OperationRow) (r : AcceptedRecord),
    Reach fenceCodec p ∧ Later fenceCodec p q ∧ Later fenceCodec q q' ∧
    op ∈ p.shared.operations ∧ op ∈ q.shared.operations ∧ op.state = .exportSatisfied ∧
    op.canonicalIntent.action = .deleteTranscript ∧
    r ∈ q.shared.records ∧ r.channel = op.key ∧ r.signature = [] ∧
    (∀ r₀ ∈ p.shared.records, r₀.unsigned ≠ r.unsigned) ∧
    (∀ r₀ ∈ p.shared.records, r₀.receiptID = op.canonicalIntent.highWaterReceiptReference ∧
      r₀.sequence < r.sequence) ∧
    op' ∈ q'.shared.operations ∧ op'.operationID = op.operationID ∧
    op'.state = .payloadRemoved ∧ q'.shared.records = [] := by
  have hmono : ∀ i r db ans db', fencedSem fenceCodec i r db ans db' →
      sem fenceCodec i r db ans db' := fun _ _ _ _ _ h => h.1
  obtain ⟨p, hp, hi⟩ := reservedDb_reachable fencedSem_ok
  have hx : sem fenceCodec 4 (sampleAppend "event-2" "receipt-2") (reservedDb [])
      (.ok (⟨.appended, lateRecord⟩ : AppendResult)) (reservedDb [lateRecord]) := .committed rfl
  obtain ⟨q, hq, hi'⟩ := hi.call (c := .appendChecked _ _ _)
    (exec_ask (r := sampleAppend "event-2" "receipt-2") hx)
  obtain ⟨m, q', hm, hlast, -, hrec, hop⟩ := hi'.removal fencedSem_ok (.inr rfl)
  refine ⟨p, q, q', sampleRow, removedRow, lateRecord, hp.mono hmono, hq,
    (Relation.ReflTransGen.mono (fun _ _ => .mono hmono) _ _ hm).tail (.mono hmono hlast), ?_⟩
  rw [hi.shared, hi'.shared, hop, hrec]
  decide

/-- A run that keeps it: the same deletion with no append behind its reservation. -/
theorem lifecycle_fence_removal : ∃ p q : Pool, FencedReach fenceCodec p ∧
    FencedStep fenceCodec p q ∧ signedRow ∈ p.shared.operations ∧
    removedRow ∈ q.shared.operations ∧ p.shared.records ≠ [] ∧
    ∀ r, r ∈ q.shared.records ↔ r ∈ p.shared.records ∧ r.channel ≠ signedRow.key := by
  obtain ⟨p, hp, hi⟩ := reservedDb_reachable fencedSem_ok
  obtain ⟨m, q, hm, hlast, hms, -, hop⟩ := hi.removal fencedSem_ok (.inl rfl)
  have hmem : signedRow ∈ m.shared.operations := hms ▸ List.mem_singleton_self _
  have hmem' : removedRow ∈ q.shared.operations := hop ▸ List.mem_singleton_self _
  obtain ⟨-, -, -, -, h⟩ := (lifecycle_fence (hp.trans hm) hlast signedRow hmem).2 rfl rfl
    removedRow hmem' rfl rfl
  exact ⟨m, q, hp.trans hm, hlast, hmem, hmem', hms ▸ List.cons_ne_nil _ _, h⟩

end YukhCoordination.Relay.Sqlite
