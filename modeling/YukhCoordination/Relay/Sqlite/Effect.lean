import YukhCoordination.Relay.Sqlite.Run

/-!
# What a committed transaction does

`Effect` lists what the transactions of the SQLite relay can do to the records, the transcripts, the
operations and the tombstones, with what each has checked before; the other tables are left open. An
invariant of runs is proved once for each effect.
-/

namespace YukhCoordination.Relay.Sqlite

open Lifecycle Transaction Interleave

/-! ## Effects -/

/-- Two records that the constraints of `accepted_records` keep apart: they share the event id of a
channel, the receipt id, or the sequence of a transcript. -/
def Clash (r r' : AcceptedRecord) : Prop :=
  (r.channel.tenantID = r'.channel.tenantID ∧ r.channel.channelID = r'.channel.channelID ∧
    r.eventID = r'.eventID) ∨
  r.receiptID = r'.receiptID ∨ (r.channel = r'.channel ∧ r.sequence = r'.sequence)

/-- The tombstones stay as they are. -/
structure SameTombstones (db db' : Db) : Prop where
  payloadTombstones : db'.payloadTombstones = db.payloadTombstones
  identifierTombstones : db'.identifierTombstones = db.identifierTombstones

/-- Records, transcripts and tombstones stay as they are. -/
structure SameRecords (db db' : Db) : Prop extends SameTombstones db db' where
  records : db'.records = db.records
  transcripts : db'.transcripts = db.transcripts

/-- A new transcript, in a channel that has none of its epoch. -/
structure Created (t : Transcript) (db db' : Db) : Prop extends SameTombstones db db' where
  fresh : ∀ t' ∈ db.transcripts, t'.key ≠ t.key
  active : t.lifecycle = .active
  next : t.nextSequence = 1
  records : db'.records = db.records
  transcripts : db'.transcripts = db.transcripts ++ [t]
  operations : db'.operations = db.operations

/-- The transcript after the sequence of a record was allocated in it. -/
def Transcript.allocate (r : AcceptedRecord) (t : Transcript) : Transcript :=
  if t.key == r.channel && t.nextSequence == r.sequence then
    { t with nextSequence := t.nextSequence + 1 } else t

theorem allocate_key {r : AcceptedRecord} (t : Transcript) : (t.allocate r).key = t.key := by
  unfold Transcript.allocate
  split <;> rfl

theorem allocate_lifecycle {r : AcceptedRecord} (t : Transcript) :
    (t.allocate r).lifecycle = t.lifecycle := by
  unfold Transcript.allocate
  split <;> rfl

theorem allocate_metadata {r : AcceptedRecord} (t : Transcript) :
    (t.allocate r).canonicalMetadata = t.canonicalMetadata := by
  unfold Transcript.allocate
  split <;> rfl

/-- A record accepted at the next sequence of an active transcript, with identifiers that are
neither in use nor tombstoned. -/
structure Appended (codec : Codec) (t : Transcript) (r : AcceptedRecord) (db db' : Db) : Prop
    extends SameTombstones db db' where
  mem : t ∈ db.transcripts
  key : t.key = r.channel
  active : t.lifecycle = .active
  next : t.nextSequence = r.sequence
  pos : 0 < r.sequence
  bound : r.sequence < maxInt64
  event : db.tombstoned r.channel.tenantID r.channel.channelID .event
    (codec.identifierDigest .event r.eventID) = false
  receipt : db.receiptTombstoned (codec.identifierDigest .receipt r.receiptID) = false
  fresh : ∀ r' ∈ db.records, ¬ Clash r' r
  records : db'.records = db.records ++ [r.unsigned]
  transcripts : db'.transcripts = db.transcripts.map (Transcript.allocate r)
  operations : db'.operations = db.operations

/-- The record after a signature was attached to the receipt it has. -/
def attach (a : Relay.SignatureAttachment) (r : AcceptedRecord) : AcceptedRecord :=
  if r.channel == a.channel && r.receiptID == a.receiptID && r.signature == [] then
    { r with signature := a.signature } else r

/-- A signature attached to a record that had none. -/
structure Signed (a : Relay.SignatureAttachment) (db db' : Db) : Prop
    extends SameTombstones db db' where
  signature : a.signature ≠ []
  records : db'.records = db.records.map (attach a)
  transcripts : db'.transcripts = db.transcripts
  operations : db'.operations = db.operations

/-- A new operation, for an active transcript with the high-water record that the intent names and
with no other operation that is not completed. -/
structure Reserved (t : Transcript) (row : OperationRow) (db db' : Db) : Prop
    extends SameRecords db db' where
  valid : Lifecycle.validateIntent row.canonicalIntent
  mem : t ∈ db.transcripts
  key : t.key = row.key
  active : t.lifecycle = .active
  next : 1 < t.nextSequence
  highWater : validateLifecycleHighWater row.canonicalIntent (t.nextSequence - 1) db
  operationID : row.operationID = row.canonicalIntent.operationID
  transcriptKey : row.key = row.canonicalIntent.transcript.channelKey
  state : row.state = .reserved ∨ row.state = .exportSatisfied
  fresh : ∀ r ∈ db.operations, r.operationID ≠ row.operationID ∧
    (r.key = row.key → r.state = .completed)
  operations : db'.operations = db.operations ++ [row]

/-- An `UPDATE` that moves one operation from the state `before` to the state `next` and keeps what
identifies it. -/
def Moved (operationID : String) (before next : SagaState) (rows rows' : List OperationRow) :
    Prop :=
  ∃ (intentDigest : String) (change : OperationRow → OperationRow),
    (∀ r, (change r).operationID = r.operationID ∧ (change r).key = r.key ∧
      (change r).canonicalIntent = r.canonicalIntent ∧ (change r).state = next) ∧
    updateOne (fun r : OperationRow => r.operationID == operationID &&
      r.intentDigest == intentDigest && r.state == before) change rows = some rows'

/-- The moves of the saga that leave records, transcripts and tombstones alone. -/
inductive Advance : SagaState → SagaState → Prop
  | exported : Advance .reserved .exportSatisfied
  | signed : Advance .markerPersisted .receiptSigned
  | bound : Advance .payloadRemoved .backupsPending
  | completed : Advance .backupsPending .completed

/-- The marker of an operation: its transcript leaves its lifecycle for a later one. -/
structure Marked (row : OperationRow) (marker : Marker) (db db' : Db) : Prop
    extends SameTombstones db db' where
  mem : row ∈ db.operations
  transcript : marker.transcript = row.canonicalIntent.transcript
  valid : validateMarker marker
  records : db'.records = db.records
  transcripts : updateOne (fun t : Transcript => t.key == marker.transcript.channelKey &&
      t.lifecycle == marker.previousLifecycle)
    (fun t => { t with lifecycle := marker.resultingLifecycle, completeness := .incomplete })
    db.transcripts = some db'.transcripts
  operations : Moved row.operationID .exportSatisfied .markerPersisted db.operations db'.operations

/-- The removal of an operation: the loop over the selected records leads to `mid`. -/
structure Removed (codec : Codec) (row : OperationRow) (removed : List RemovalRecord)
    (mid db db' : Db) : Prop extends SameRecords mid db' where
  mem : row ∈ db.operations
  state : row.state = .receiptSigned
  valid : Lifecycle.validateIntent row.canonicalIntent
  selected : selectRemovalRecords row.canonicalIntent db = .ok removed
  loop : removeRecords codec row.canonicalIntent removed db = .ok mid
  operations : Moved row.operationID .receiptSigned .payloadRemoved mid.operations db'.operations

/-- What the committed transaction of a request does. Only an append adds a record, and only a
reservation adds an operation. -/
inductive Effect (codec : Codec) (db db' : Db) : Request → Prop
  | framed {r : Request} : SameRecords db db' → db'.operations = db.operations →
      Effect codec db db' r
  | created {r : Request} (t : Transcript) : Created t db db' → Effect codec db db' r
  | appended {intent : AppendIntent} {admission : Admit} {prepare : PrepareRecord} (t : Transcript)
      (record : AcceptedRecord) : record.channel = intent.channel →
      record.eventID = intent.eventID → Appended codec t record db db' →
      Effect codec db db' (.appendChecked intent admission prepare)
  | signed {r : Request} (a : Relay.SignatureAttachment) : Signed a db db' → Effect codec db db' r
  | reserved {preparation : LifecyclePreparation} {intent : Intent} (t : Transcript)
      (row : OperationRow) : row.canonicalIntent = intent → Reserved t row db db' →
      Effect codec db db' (.reserve preparation intent)
  | advanced {r : Request} {before next : SagaState} (operationID : String) :
      Advance before next → SameRecords db db' →
      Moved operationID before next db.operations db'.operations → Effect codec db db' r
  | marked {r : Request} (row : OperationRow) (marker : Marker) : Marked row marker db db' →
      Effect codec db db' r
  | removed {r : Request} (row : OperationRow) (removed : List RemovalRecord) (mid : Db) :
      Removed codec row removed mid db db' → Effect codec db db' r

theorem SameRecords.refl (db : Db) : SameRecords db db := ⟨⟨rfl, rfl⟩, rfl, rfl⟩

/-! ## The relay store -/

section
variable {codec : Codec} {db db' : Db} {request : Request}

variable {channel : Channel} {intent : AppendIntent} {admission : Admit} {prepare : PrepareRecord}
  {operationID : String} {row preflight : OperationRow} {a : Operation}

/-- An identity insert touches no other table. -/
theorem bindIdentity_ok (h : bindIdentity channel db = .ok db') :
    ∃ identities, db' = { db with identities := identities } := by
  unfold bindIdentity at h
  split at h
  · obtain ⟨-, h⟩ := ensure_bind.1 h
    cases h
    exact ⟨_, rfl⟩
  · obtain ⟨-, h⟩ := ensure_bind.1 h
    have h := required_ok.1 h
    unfold Db.insertIdentity at h
    split at h <;> cases h
    exact ⟨_, rfl⟩

/-- A query by key finds no row exactly when every row has another key. -/
theorem transcript?_eq_none {key : ChannelKey} :
    db.transcript? key = none ↔ ∀ t ∈ db.transcripts, t.key ≠ key := by
  simp [Db.transcript?]

theorem transcript?_eq_some {key : ChannelKey} {t : Transcript}
    (h : db.transcript? key = some t) : t ∈ db.transcripts ∧ t.key = key :=
  ⟨List.mem_of_find?_eq_some h, by simpa using List.find?_some h⟩

/-- A channel that is created has a new transcript, or its transcript existed. -/
theorem createChannel_cases {a : Unit} (h : createChannel channel db = .ok (a, db')) : ∃ identities,
      db' = { db with identities := identities } ∨ ∃ t, Created t db db' ∧
        db' = { db with identities := identities, transcripts := db.transcripts ++ [t] } := by
  unfold createChannel at h
  obtain ⟨hv, h⟩ := ensure_bind.1 h
  obtain ⟨db₁, hb, h⟩ := bind_ok.1 h
  obtain ⟨identities, rfl⟩ := bindIdentity_ok hb
  refine ⟨identities, ?_⟩
  split at h
  · next hn =>
    rw [transcript?_eq_none] at hn
    cases h
    simp only [validateChannel, Bool.and_eq_true, beq_iff_eq] at hv
    exact .inr ⟨_,
      { fresh := hn, active := hv.2, next := rfl, records := rfl, operations := rfl,
        transcripts := rfl, payloadTombstones := rfl, identifierTombstones := rfl }, rfl⟩
  · obtain ⟨_, -, h⟩ := bind_ok.1 h
    obtain ⟨-, h⟩ := ensure_bind.1 h
    cases h
    exact .inl rfl

/-- The constraints of `accepted_records` that an insert has checked. -/
theorem insertRecord_eq_some {row : AcceptedRecord} (h : db.insertRecord row = some db') :
    0 < row.sequence ∧ (∀ r ∈ db.records, ¬ Clash r row) ∧
      db' = { db with records := db.records ++ [row.unsigned] } := by
  unfold Db.insertRecord at h
  split at h
  · cases h
  · next hc =>
    cases h
    simp only [Bool.or_eq_true, beq_iff_eq, decide_eq_true_eq, List.any_eq_true, Bool.and_eq_true,
      not_or, not_exists, not_and] at hc
    refine ⟨by omega, fun r hr hcl => ?_, rfl⟩
    have hne := hc.2 r hr
    rcases hcl with ⟨h1, h2, h3⟩ | h | ⟨h1, h2⟩
    · exact hne.1.1 ⟨h1, h2⟩ h3
    · exact hne.1.2 h
    · exact hne.2 h1 h2

/-- A record that an append commits is the prepared one, appended to its transcript. -/
theorem appendRecord_ok {t : Transcript} {a : AppendResult}
    (ht : db.transcript? intent.channel = some t) (hactive : t.lifecycle = .active)
    (hevent : db.tombstoned intent.channel.tenantID intent.channel.channelID .event
      (codec.identifierDigest .event intent.eventID) = false)
    (h : appendRecord codec intent admission prepare t db = .ok (a, db')) :
    a.outcome = .appended ∧
      prepare t.nextSequence (codec.eventDigest intent.canonicalEvent) = .ok a.record ∧
      a.record.channel = intent.channel ∧ a.record.eventID = intent.eventID ∧
      a.record.canonicalEvent = intent.canonicalEvent ∧
      db' = { db with records := db'.records, transcripts := db'.transcripts } ∧
      Appended codec t a.record db db' := by
  unfold appendRecord at h
  obtain ⟨_, -, h⟩ := bind_ok.1 h
  obtain ⟨r, hprep, h⟩ := bind_ok.1 h
  obtain ⟨hp, h⟩ := ensure_bind.1 h
  obtain ⟨hreceipt, h⟩ := ensure_bind.1 h
  obtain ⟨db₁, hins, h⟩ := required_bind.1 h
  obtain ⟨hbound, h⟩ := ensure_bind.1 h
  obtain ⟨transcripts, hup, h⟩ := required_bind.1 h
  cases h
  obtain ⟨htm, htk⟩ := transcript?_eq_some ht
  obtain ⟨hc, hs, he, hce, -⟩ := validatePreparedRecord_spec hp
  obtain ⟨hpos, hfresh, rfl⟩ := insertRecord_eq_some hins
  obtain ⟨-, rfl⟩ := updateOne_eq_some hup
  refine ⟨rfl, hprep, hc, he, hce, rfl,
    { mem := htm, key := htk.trans hc.symm, active := hactive, next := hs.symm,
      pos := hpos, bound := ?_, event := ?_, receipt := by simpa using hreceipt, fresh := hfresh,
      records := rfl, transcripts := ?_, operations := rfl, payloadTombstones := rfl,
      identifierTombstones := rfl }⟩
  · rw [hs]
    exact of_decide_eq_true hbound
  · rw [hc, he]
    exact hevent
  · refine List.map_congr_left fun t' _ => ?_
    simp only [Transcript.allocate, hc, hs]

/-- An append that succeeds finds its event or appends it. -/
theorem appendChecked_cases
    {a : AppendResult} (h : appendChecked codec intent admission prepare db = .ok (a, db')) :
    (a.outcome = .duplicate ∧ db' = db ∧ a.record ∈ db.records ∧
      a.record.channel = intent.channel ∧ a.record.eventID = intent.eventID ∧
      a.record.canonicalEvent = intent.canonicalEvent) ∨
    (a.outcome = .appended ∧ a.record.channel = intent.channel ∧
      a.record.eventID = intent.eventID ∧ a.record.canonicalEvent = intent.canonicalEvent ∧
      ∃ t, prepare t.nextSequence (codec.eventDigest intent.canonicalEvent) = .ok a.record ∧
        db' = { db with records := db'.records, transcripts := db'.transcripts } ∧
        Appended codec t a.record db db') := by
  unfold appendChecked at h
  obtain ⟨-, h⟩ := ensure_bind.1 h
  obtain ⟨t, ht, h⟩ := required_bind.1 h
  obtain ⟨hactive, h⟩ := ensure_bind.1 h
  obtain ⟨hevent, h⟩ := ensure_bind.1 h
  split at h
  · next existing hf =>
    obtain ⟨hsame, h⟩ := ensure_bind.1 h
    cases h
    have hp := List.find?_some hf
    simp only [Bool.and_eq_true, beq_iff_eq] at hp hsame
    exact .inl ⟨rfl, rfl, List.mem_of_find?_eq_some hf, hsame.1, hp.2, hsame.2⟩
  · obtain ⟨ho, hprep, hc, he, hce, hdb, happ⟩ :=
      appendRecord_ok ht (by simpa using hactive) (by simpa using hevent) h
    exact .inr ⟨ho, hc, he, hce, t, hprep, hdb, happ⟩

/-- An attachment that succeeds returns the stored record with that receipt, signed. -/
theorem attachSignature_cases {attachment : Relay.SignatureAttachment} {a : AcceptedRecord}
    (h : attachSignature attachment db = .ok (a, db')) :
    a ∈ db'.records ∧ a.signature ≠ [] ∧ a.channel = attachment.channel ∧
      a.receiptID = attachment.receiptID ∧
      (db' = db ∨ db' = { db with records := db'.records } ∧ Signed attachment db db') := by
  unfold attachSignature at h
  obtain ⟨hv, h⟩ := ensure_bind.1 h
  obtain ⟨r, hr, h⟩ := required_bind.1 h
  obtain ⟨-, h⟩ := ensure_bind.1 h
  have hmem : r ∈ db.records := List.mem_of_find?_eq_some hr
  have hfound := List.find?_some hr
  simp only [Bool.and_eq_true, beq_iff_eq] at hfound
  split at h
  · next hs =>
    obtain ⟨-, h⟩ := ensure_bind.1 h
    cases h
    exact ⟨hmem, hs, hfound.1, hfound.2, .inl rfl⟩
  · next hs =>
    obtain ⟨records, hup, h⟩ := required_bind.1 h
    cases h
    obtain ⟨-, rfl⟩ := updateOne_eq_some hup
    simp only [Relay.validateSignatureAttachment, Bool.and_eq_true, bne_iff_ne, ne_eq] at hv
    refine ⟨List.mem_map.2 ⟨r, hmem, ?_⟩, hv.2, hfound.1, hfound.2, .inr ⟨rfl,
      { signature := hv.2, records := rfl, transcripts := rfl, operations := rfl,
        payloadTombstones := rfl, identifierTombstones := rfl }⟩⟩
    rw [if_pos (by simp [hfound, not_not.1 hs])]

/-! ## The lifecycle capabilities -/

/-- A loaded operation is a stored row with a valid intent. -/
theorem loadLifecycleOperation_eq_some
    (h : loadLifecycleOperation codec operationID db = .ok (some row)) :
    row ∈ db.operations ∧ row.operationID = operationID ∧
      Lifecycle.validateIntent row.canonicalIntent ∧
      codec.intentDigest row.canonicalIntent = row.intentDigest ∧
      validStoredLifecycle codec row ∧ canonicalSize (codec.intentSize row.canonicalIntent) := by
  unfold loadLifecycleOperation at h
  split at h
  · cases h
  · next hf =>
    split at h
    · next hc =>
      cases h
      simp only [Bool.and_eq_true, beq_iff_eq] at hc
      exact ⟨List.mem_of_find?_eq_some hf, by simpa using List.find?_some hf, hc.1.1.2, hc.1.2,
        hc.2, hc.1.1.1⟩
    · cases h

theorem loadFound_ok (h : loadFound codec operationID db = .ok row) :
    row ∈ db.operations ∧ row.operationID = operationID ∧
      Lifecycle.validateIntent row.canonicalIntent ∧
      codec.intentDigest row.canonicalIntent = row.intentDigest ∧
      validStoredLifecycle codec row ∧ canonicalSize (codec.intentSize row.canonicalIntent) := by
  unfold loadFound at h
  obtain ⟨found, hl, h⟩ := bind_ok.1 h
  cases required_ok.1 h
  exact loadLifecycleOperation_eq_some hl

theorem updateOperation_ok {intentDigest : String} {before next : SagaState}
    {change : OperationRow → OperationRow}
    (h : updateOperation operationID intentDigest before change db = .ok db')
    (hc : ∀ r, (change r).operationID = r.operationID ∧ (change r).key = r.key ∧
      (change r).canonicalIntent = r.canonicalIntent ∧ (change r).state = next) :
    SameRecords db db' ∧ Moved operationID before next db.operations db'.operations := by
  unfold updateOperation at h
  obtain ⟨operations, hup, h⟩ := required_bind.1 h
  cases h
  exact ⟨⟨⟨rfl, rfl⟩, rfl, rfl⟩, intentDigest, change, hc, hup⟩

/-- The constraints of `lifecycle_operations` that an insert has checked. -/
theorem insertOperation_eq_some (hrow : row.state ≠ .completed)
    (h : db.insertOperation row = some db') :
    (∀ r ∈ db.operations, r.operationID ≠ row.operationID ∧
      (r.key = row.key → r.state = .completed)) ∧
      db' = { db with operations := db.operations ++ [row] } := by
  unfold Db.insertOperation at h
  split at h
  · cases h
  · next hc =>
    cases h
    simp only [List.any_eq_true, Bool.or_eq_true, beq_iff_eq, Bool.and_eq_true, bne_iff_ne,
      not_exists, not_and, not_or, ne_eq, Decidable.not_not] at hc
    refine ⟨fun r hr => ⟨(hc r hr).1, fun hk => ?_⟩, rfl⟩
    by_contra hs
    exact hrow ((hc r hr).2 ⟨hk, hs⟩)

end

end YukhCoordination.Relay.Sqlite
