import Mathlib.Data.List.Pairwise
import YukhCoordination.Relay.Sqlite.Saga

/-!
# Sequences and identifiers of accepted records

Each sequence that a transcript has allocated is held by one accepted record or by one payload
tombstone, and what holds it stays: a record is stored until its removal, and its tombstone is for
its event (`sequence_accounting`). Its event id and its receipt id are never accepted again, stored
or removed (`identifiers_not_reused`).

`Accounted` is the invariant over one database and `Settled` follows one record through the
databases of a run; a removal is followed round by round (`Buries`).
-/

namespace YukhCoordination.Relay.Sqlite

open Lifecycle Transaction Interleave

/-! ## Counting what holds a sequence -/

/-- The number of accepted records at a sequence of a transcript. -/
def Db.recordsAt (db : Db) (key : ChannelKey) (sequence : Nat) : Nat :=
  db.records.countP fun r => r.channel == key && r.sequence == sequence

/-- The number of payload tombstones at a sequence of a transcript. -/
def Db.tombstonesAt (db : Db) (key : ChannelKey) (sequence : Nat) : Nat :=
  db.payloadTombstones.countP fun x => x.key == key && x.sequence == sequence

/-- The next sequence of a transcript; a transcript that does not exist would start at 1. -/
def Db.next (db : Db) (key : ChannelKey) : Nat := ((db.transcript? key).map (·.nextSequence)).getD 1

/-- The invariant of the records, transcripts and tombstones. -/
structure Accounted (db : Db) : Prop where
  keys : (db.transcripts.map (·.key)).Nodup
  distinct : db.records.Pairwise fun r r' => ¬ Clash r r'
  held : ∀ key sequence, db.recordsAt key sequence + db.tombstonesAt key sequence =
    if 0 < sequence ∧ sequence < db.next key then 1 else 0

section
variable {codec : Codec} {db db' : Db} {r r' : AcceptedRecord}

theorem Clash.symm (h : Clash r r') : Clash r' r := by
  rcases h with ⟨h1, h2, h3⟩ | h | ⟨h1, h2⟩
  · exact .inl ⟨h1.symm, h2.symm, h3.symm⟩
  · exact .inr (.inl h.symm)
  · exact .inr (.inr ⟨h1.symm, h2.symm⟩)

/-- Stored records that the constraints keep apart are the same record. -/
theorem Accounted.eq_of_clash (h : Accounted db) (hr : r ∈ db.records) (hr' : r' ∈ db.records)
    (hc : Clash r r') : r = r' := by
  have : Std.Symm fun r r' => ¬ Clash r r' := ⟨fun _ _ hn hc => hn hc.symm⟩
  by_contra hne
  exact h.distinct.forall hr hr' hne hc

variable {t : Transcript} {x : PayloadTombstone} {marker : Marker} {row : OperationRow}
  {intent : Intent} {record : RemovalRecord} {removed : List RemovalRecord} {key : ChannelKey}
  {request : Request} {p q : Pool}

/-- The query by key finds the transcript with that key. -/
theorem transcript?_of_mem (h : (db.transcripts.map (·.key)).Nodup)
    (ht : t ∈ db.transcripts) : db.transcript? t.key = some t := by
  cases hf : db.transcript? t.key with
  | none => exact absurd rfl (transcript?_eq_none.1 hf t ht)
  | some t' =>
    obtain ⟨hm, hk⟩ := transcript?_eq_some hf
    rw [List.inj_on_of_nodup_map h hm ht hk]

theorem next_of_mem (h : (db.transcripts.map (·.key)).Nodup)
    (ht : t ∈ db.transcripts) : db.next t.key = t.nextSequence := by
  simp [Db.next, transcript?_of_mem h ht]

theorem next_congr (h : db'.transcripts = db.transcripts) (key : ChannelKey) :
    db'.next key = db.next key := by
  simp [Db.next, Db.transcript?, h]

/-- A change of the transcripts that keeps their keys changes what the query finds. -/
theorem transcript?_map {f : Transcript → Transcript} (hf : ∀ t, (f t).key = t.key)
    (h : db'.transcripts = db.transcripts.map f) (key : ChannelKey) :
    db'.transcript? key = (db.transcript? key).map f := by
  have hp : ((fun t : Transcript => t.key == key) ∘ f) = fun t => t.key == key := by
    funext t
    simp [hf]
  rw [Db.transcript?, h, List.find?_map, hp, Db.transcript?]

theorem keys_map {f : Transcript → Transcript} (hf : ∀ t, (f t).key = t.key)
    (h : db'.transcripts = db.transcripts.map f) :
    db'.transcripts.map (·.key) = db.transcripts.map (·.key) := by
  rw [h, List.map_map]
  exact List.map_congr_left fun t _ => hf t

theorem recordsAt_congr (h : db'.records = db.records) (key : ChannelKey) (sequence : Nat) :
    db'.recordsAt key sequence = db.recordsAt key sequence := by
  simp [Db.recordsAt, h]

theorem SameTombstones.tombstonesAt (h : SameTombstones db db') (key : ChannelKey)
    (sequence : Nat) : db'.tombstonesAt key sequence = db.tombstonesAt key sequence := by
  simp [Db.tombstonesAt, h.payloadTombstones]

theorem recordsAt_pos (hr : r ∈ db.records) : 0 < db.recordsAt r.channel r.sequence :=
  List.countP_pos_iff.2 ⟨r, hr, by simp⟩

theorem tombstonesAt_pos (hx : x ∈ db.payloadTombstones) : 0 < db.tombstonesAt x.key x.sequence :=
  List.countP_pos_iff.2 ⟨x, hx, by simp⟩

/-! ## The invariant along the effects -/

theorem Accounted.empty : Accounted {} where
  keys := List.nodup_nil
  distinct := .nil
  held key sequence := by
    have : ¬ (0 < sequence ∧ sequence < 1) := by omega
    simpa [Db.recordsAt, Db.tombstonesAt, Db.next, Db.transcript?] using this

theorem Accounted.same (h : Accounted db) (hs : SameRecords db db') : Accounted db' where
  keys := by rw [hs.transcripts]; exact h.keys
  distinct := by rw [hs.records]; exact h.distinct
  held key sequence := by
    rw [recordsAt_congr hs.records, hs.tombstonesAt, next_congr hs.transcripts, h.held]

/-- A new transcript starts where one that does not exist would. -/
theorem Created.next_eq (hc : Created t db db') (key : ChannelKey) :
    db'.next key = db.next key := by
  rw [Db.next, Db.next, Db.transcript?, hc.transcripts, List.find?_append, ← Db.transcript?]
  cases hk : db.transcript? key with
  | some t' => rfl
  | none => by_cases htk : t.key = key <;> simp [htk, hc.next]

theorem Accounted.created (h : Accounted db) (hc : Created t db db') : Accounted db' where
  keys := by
    rw [hc.transcripts, List.map_append, List.nodup_append]
    refine ⟨h.keys, by simp, ?_⟩
    intro key hk key' hk'
    obtain ⟨t', ht', rfl⟩ := List.mem_map.1 hk
    obtain rfl : key' = t.key := by simpa using hk'
    exact hc.fresh t' ht'
  distinct := by rw [hc.records]; exact h.distinct
  held key sequence := by
    rw [recordsAt_congr hc.records, hc.tombstonesAt, hc.next_eq, h.held]

/-- An append moves the next sequence of its transcript, and no other. -/
theorem Appended.next_eq (h : Accounted db) (ha : Appended codec t r db db') (key : ChannelKey) :
    db'.next key = if key = r.channel then r.sequence + 1 else db.next key := by
  rw [Db.next, transcript?_map allocate_key ha.transcripts]
  split
  · next hk =>
    rw [hk, ← ha.key, transcript?_of_mem h.keys ha.mem]
    simp [Transcript.allocate, ha.key, ha.next]
  · next hk =>
    cases hf : db.transcript? key with
    | none => simp [Db.next, hf]
    | some t' =>
      have hk' : t'.key ≠ r.channel := (transcript?_eq_some hf).2 ▸ hk
      simp [Db.next, hf, Transcript.allocate, hk']

theorem Accounted.appended (h : Accounted db) (ha : Appended codec t r db db') : Accounted db' where
  keys := by rw [keys_map allocate_key ha.transcripts]; exact h.keys
  distinct := by
    rw [ha.records, List.pairwise_append]
    refine ⟨h.distinct, List.pairwise_singleton _ _, fun r' hr' x hx => ?_⟩
    obtain rfl : x = r.unsigned := by simpa using hx
    exact ha.fresh r' hr'
  held key sequence := by
    have hcount : db'.recordsAt key sequence = db.recordsAt key sequence +
        if r.channel = key ∧ r.sequence = sequence then 1 else 0 := by
      simp [Db.recordsAt, ha.records, List.countP_append, List.countP_singleton]
    have hnext : db.next r.channel = r.sequence := by
      rw [← ha.key, next_of_mem h.keys ha.mem, ha.next]
    have hheld := h.held key sequence
    rw [hcount, ha.tombstonesAt, ha.next_eq h key]
    have hpos := ha.pos
    by_cases hk : key = r.channel
    · subst hk
      rw [hnext] at hheld
      simp only [if_true, true_and]
      split at hheld <;> split <;> split <;> omega
    · have hk' : ¬ (r.channel = key ∧ r.sequence = sequence) := fun hh => hk hh.1.symm
      rw [if_neg hk, if_neg hk']
      exact hheld

@[simp] theorem attach_unsigned (a : Relay.SignatureAttachment) (r : AcceptedRecord) :
    (attach a r).unsigned = r.unsigned := by
  unfold attach
  split <;> rfl

/-- What a record keeps when only its signature changes. -/
theorem Clash.of_unsigned {r₁ r₁' : AcceptedRecord} (h : r.unsigned = r'.unsigned)
    (h₁ : r₁.unsigned = r₁'.unsigned) (hc : Clash r r₁) : Clash r' r₁' := by
  have hr := (AcceptedRecord.mk.injEq ..).mp h
  have hr₁ := (AcceptedRecord.mk.injEq ..).mp h₁
  unfold Clash at hc ⊢
  simp_all

theorem attach_channel (a : Relay.SignatureAttachment) (r : AcceptedRecord) :
    (attach a r).channel = r.channel := congrArg (·.channel) (attach_unsigned a r)

theorem attach_sequence (a : Relay.SignatureAttachment) (r : AcceptedRecord) :
    (attach a r).sequence = r.sequence := congrArg (·.sequence) (attach_unsigned a r)

theorem Accounted.signed {a : Relay.SignatureAttachment} (h : Accounted db) (hs : Signed a db db') :
    Accounted db' where
  keys := by rw [hs.transcripts]; exact h.keys
  distinct := by
    rw [hs.records, List.pairwise_map]
    refine h.distinct.imp fun {r r'} hne hc => hne (hc.of_unsigned ?_ ?_) <;> simp
  held key sequence := by
    have hcount : db'.recordsAt key sequence = db.recordsAt key sequence := by
      simp [Db.recordsAt, hs.records, List.countP_map, Function.comp_def, attach_channel,
        attach_sequence]
    rw [hcount, hs.tombstonesAt, next_congr hs.transcripts, h.held]

/-- The transcript after the marker of its operation. -/
def Transcript.mark (marker : Marker) (t : Transcript) : Transcript :=
  if t.key == marker.transcript.channelKey && t.lifecycle == marker.previousLifecycle then
    { t with lifecycle := marker.resultingLifecycle, completeness := .incomplete } else t

theorem mark_key (t : Transcript) : (t.mark marker).key = t.key := by
  unfold Transcript.mark
  split <;> rfl

theorem Marked.transcripts_eq (hm : Marked row marker db db') :
    db'.transcripts = db.transcripts.map (Transcript.mark marker) :=
  (updateOne_eq_some hm.transcripts).2

/-- A marker moves no next sequence. -/
theorem Marked.next_eq (hm : Marked row marker db db')
    (key : ChannelKey) : db'.next key = db.next key := by
  rw [Db.next, transcript?_map mark_key hm.transcripts_eq, Db.next]
  cases db.transcript? key with
  | none => rfl
  | some t =>
    simp only [Option.map_some, Option.getD_some, Transcript.mark]
    split <;> rfl

theorem Accounted.marked (h : Accounted db) (hm : Marked row marker db db') : Accounted db' where
  keys := by rw [keys_map mark_key hm.transcripts_eq]; exact h.keys
  distinct := by rw [hm.records]; exact h.distinct
  held key sequence := by
    rw [recordsAt_congr hm.records, hm.tombstonesAt, hm.next_eq, h.held]

/-! ## A removal, round by round -/

/-- The payload tombstone of a removed record. -/
def tombstoneOf (codec : Codec) (intent : Intent) (record : RemovalRecord) : PayloadTombstone :=
  ⟨intent.operationID, intent.transcript.channelKey, record.sequence,
    codec.identifierDigest .event record.eventID, record.eventDigest,
    codec.identifierDigest .receipt record.receiptID⟩

/-- One round of a removal: the one record at a sequence gives way to its tombstones. -/
structure Buries (codec : Codec) (intent : Intent) (record : RemovalRecord) (db db' : Db) :
    Prop where
  found : db.recordsAt intent.transcript.channelKey record.sequence = 1
  records : db'.records = db.records.filter fun r =>
    !(r.channel == intent.transcript.channelKey && r.sequence == record.sequence)
  transcripts : db'.transcripts = db.transcripts
  operations : db'.operations = db.operations
  payloadTombstones :
    db'.payloadTombstones = db.payloadTombstones ++ [tombstoneOf codec intent record]
  identifierTombstones : db'.identifierTombstones = db.identifierTombstones ++
    [⟨intent.transcript.tenantID, intent.transcript.channelID, .event,
      codec.identifierDigest .event record.eventID, intent.operationID⟩,
    ⟨intent.transcript.tenantID, intent.transcript.channelID, .receipt,
      codec.identifierDigest .receipt record.receiptID, intent.operationID⟩]

theorem Buries.mem_records
    (hb : Buries codec intent record db db') : r ∈ db'.records ↔ r ∈ db.records ∧
      ¬ (r.channel = intent.transcript.channelKey ∧ r.sequence = record.sequence) := by
  rw [hb.records, List.mem_filter, Bool.not_eq_true', ← Bool.not_eq_true, Bool.and_eq_true,
    beq_iff_eq, beq_iff_eq]

theorem insertIdentifierTombstone_eq_some {row : IdentifierTombstone}
    (h : db.insertIdentifierTombstone row = some db') :
    db' = { db with identifierTombstones := db.identifierTombstones ++ [row] } := by
  unfold Db.insertIdentifierTombstone at h
  split at h
  · cases h
  · cases h
    rfl

theorem removeRecord_buries
    (h : removeRecord codec intent record db = .ok db') : Buries codec intent record db db' := by
  unfold removeRecord at h
  obtain ⟨db₁, he, h⟩ := bind_ok.1 h
  obtain ⟨records, hd, h⟩ := required_bind.1 h
  cases h
  unfold insertRemovalEvidence at he
  obtain ⟨db₂, hp, he⟩ := required_bind.1 he
  obtain ⟨db₃, hi, he⟩ := required_bind.1 he
  have hi' := required_ok.1 he
  unfold Db.insertPayloadTombstone at hp
  split at hp
  · cases hp
  · cases hp
    cases insertIdentifierTombstone_eq_some hi
    cases insertIdentifierTombstone_eq_some hi'
    obtain ⟨hc, hf⟩ := deleteOne_eq_some hd
    exact ⟨hc, hf, rfl, rfl, rfl, by simp⟩

theorem Accounted.buries (h : Accounted db)
    (hb : Buries codec intent record db db') : Accounted db' where
  keys := by rw [hb.transcripts]; exact h.keys
  distinct := by
    rw [hb.records]
    exact h.distinct.filter _
  held key sequence := by
    have hrec := countP_filter_not
      (fun r : AcceptedRecord => r.channel == intent.transcript.channelKey &&
        r.sequence == record.sequence)
      (fun r => r.channel == key && r.sequence == sequence) db.records
    rw [← hb.records, ← Db.recordsAt, ← Db.recordsAt] at hrec
    have htomb : db'.tombstonesAt key sequence = db.tombstonesAt key sequence +
        if intent.transcript.channelKey = key ∧ record.sequence = sequence then 1 else 0 := by
      simp [Db.tombstonesAt, hb.payloadTombstones, List.countP_append, List.countP_singleton,
        tombstoneOf]
    have hheld := h.held key sequence
    rw [next_congr hb.transcripts, ← hheld, htomb]
    by_cases hk : intent.transcript.channelKey = key ∧ record.sequence = sequence
    · obtain ⟨rfl, rfl⟩ := hk
      simp only [Bool.and_self] at hrec
      have hone := hb.found
      rw [Db.recordsAt] at hone
      simp only [and_self, if_true]
      omega
    · have hzero : db.records.countP (fun r => (r.channel == key && r.sequence == sequence) &&
          (r.channel == intent.transcript.channelKey && r.sequence == record.sequence)) = 0 := by
        refine List.countP_eq_zero.2 fun r _ hr => hk ?_
        simp only [Bool.and_eq_true, beq_iff_eq] at hr
        exact ⟨hr.2.1.symm.trans hr.1.1, hr.2.2.symm.trans hr.1.2⟩
      rw [if_neg hk]
      omega

/-! ## Following one record -/

/-- The record is stored, up to its signature. -/
def Stored (db : Db) (r : AcceptedRecord) : Prop := ∃ r' ∈ db.records, r'.unsigned = r.unsigned

/-- The record has left its tombstones. -/
structure Buried (codec : Codec) (db : Db) (r : AcceptedRecord) : Prop where
  payload : ∃ x ∈ db.payloadTombstones, x.key = r.channel ∧ x.sequence = r.sequence ∧
    x.eventIDDigest = codec.identifierDigest .event r.eventID
  event : db.tombstoned r.channel.tenantID r.channel.channelID .event
    (codec.identifierDigest .event r.eventID)
  receipt : db.receiptTombstoned (codec.identifierDigest .receipt r.receiptID)

/-- What becomes of an accepted record: it is stored, or it has left its tombstones and no stored
record shares its event id, its receipt id or its place. -/
def Settled (codec : Codec) (db : Db) (r : AcceptedRecord) : Prop :=
  Stored db r ∨ Buried codec db r ∧ ∀ r' ∈ db.records, ¬ Clash r' r

theorem Buried.mono (h : Buried codec db r)
    (hp : ∀ x ∈ db.payloadTombstones, x ∈ db'.payloadTombstones)
    (hi : ∀ x ∈ db.identifierTombstones, x ∈ db'.identifierTombstones) : Buried codec db' r := by
  obtain ⟨⟨x, hx, hxr⟩, he, hr⟩ := h
  simp only [Db.tombstoned, Db.receiptTombstoned, List.any_eq_true] at he hr
  obtain ⟨e, hem, he⟩ := he
  obtain ⟨c, hcm, hc⟩ := hr
  refine ⟨⟨x, hp x hx, hxr⟩, ?_, ?_⟩ <;> simp only [Db.tombstoned, Db.receiptTombstoned,
    List.any_eq_true]
  · exact ⟨e, hi e hem, he⟩
  · exact ⟨c, hi c hcm, hc⟩

/-- An effect that keeps the tombstones and neither drops a record nor adds one keeps a record
settled. -/
theorem Settled.map {f : AcceptedRecord → AcceptedRecord} (hf : ∀ r, (f r).unsigned = r.unsigned)
    (h : Settled codec db r) (hs : SameTombstones db db') (hr : db'.records = db.records.map f) :
    Settled codec db' r := by
  rcases h with ⟨r', hr', hu⟩ | ⟨hb, hn⟩
  · exact .inl ⟨f r', by rw [hr]; exact List.mem_map_of_mem hr', (hf r').trans hu⟩
  · refine .inr ⟨hb.mono (by simp [hs.payloadTombstones]) (by simp [hs.identifierTombstones]),
      fun r' hr' hc => ?_⟩
    rw [hr] at hr'
    obtain ⟨r₁, hr₁, rfl⟩ := List.mem_map.1 hr'
    exact hn r₁ hr₁ (hc.of_unsigned (hf r₁) rfl)

theorem Settled.same (h : Settled codec db r) (hs : SameTombstones db db')
    (hr : db'.records = db.records) : Settled codec db' r :=
  h.map (f := id) (fun _ => rfl) hs (by simpa using hr)

theorem Settled.appended {r₀ : AcceptedRecord} (hacc : Accounted db)
    (h : Settled codec db r) (ha : Appended codec t r₀ db db') : Settled codec db' r := by
  rcases h with ⟨r', hr', hu⟩ | ⟨hb, hn⟩
  · exact .inl ⟨r', by simp [ha.records, hr'], hu⟩
  · refine .inr ⟨hb.mono (by simp [ha.payloadTombstones]) (by simp [ha.identifierTombstones]),
      fun r' hr' hc => ?_⟩
    rw [ha.records] at hr'
    rcases List.mem_append.1 hr' with hr' | hr'
    · exact hn r' hr' hc
    · obtain rfl : r' = r₀.unsigned := by simpa using hr'
      rcases hc with ⟨h1, h2, h3⟩ | h1 | ⟨h1, h2⟩
      · have := hb.event
        rw [← h1, ← h2, ← h3] at this
        exact absurd this (by simp [ha.event])
      · have := hb.receipt
        rw [← h1] at this
        exact absurd this (by simp [ha.receipt])
      · -- The place of a tombstone lies before the next sequence, which is that of the new record.
        obtain ⟨x, hx, hk, hs, -⟩ := hb.payload
        have hheld := hacc.held x.key x.sequence
        have hpos := tombstonesAt_pos hx
        have hnext : db.next x.key = r₀.sequence := by
          rw [hk, ← h1, AcceptedRecord.unsigned_channel, ← ha.key, next_of_mem hacc.keys ha.mem,
            ha.next]
        have hs' : x.sequence = r₀.sequence := hs.trans h2.symm
        rw [hnext] at hheld
        split at hheld <;> omega

/-- The columns that a removal selected are those of the record at their place. -/
def Selects (intent : Intent) (db : Db) (record : RemovalRecord) : Prop :=
  ∀ r ∈ db.records, r.channel = intent.transcript.channelKey → r.sequence = record.sequence →
    RemovalRecord.of r = record

theorem Settled.buries (hacc : Accounted db) (hsel : Selects intent db record)
    (h : Settled codec db r) (hb : Buries codec intent record db db') : Settled codec db' r := by
  have hp : ∀ x ∈ db.payloadTombstones, x ∈ db'.payloadTombstones := fun x hx => by
    simp [hb.payloadTombstones, hx]
  have hi : ∀ x ∈ db.identifierTombstones, x ∈ db'.identifierTombstones := fun x hx => by
    simp [hb.identifierTombstones, hx]
  rcases h with ⟨r', hr', hu⟩ | ⟨hbur, hn⟩
  · by_cases hat : r'.channel = intent.transcript.channelKey ∧ r'.sequence = record.sequence
    · -- The record is the one of this round: it leaves its tombstones, and others differ from it.
      obtain ⟨hch, hseq⟩ := hat
      have hof : RemovalRecord.of r' = record := hsel r' hr' hch hseq
      refine .inr ⟨?_, fun r₁ hr₁ hc => ?_⟩
      · have hr := (AcceptedRecord.mk.injEq ..).mp hu
        obtain ⟨hr1, hr2, hr3, -, -, -, -, hr4, -⟩ := hr
        subst hof
        refine ⟨⟨tombstoneOf codec intent (RemovalRecord.of r'), by simp [hb.payloadTombstones],
          ?_, hr2, ?_⟩, ?_, ?_⟩
        · rw [← hr1, hch]
          rfl
        · rw [← hr3]
          rfl
        · simp [Db.tombstoned, hb.identifierTombstones, ← hr1, ← hr3, hch, RemovalRecord.of,
            TranscriptKey.channelKey]
        · simp [Db.receiptTombstoned, hb.identifierTombstones, ← hr4, RemovalRecord.of]
      · obtain ⟨hm, hne⟩ := hb.mem_records.1 hr₁
        have hc' : Clash r₁ r' := hc.of_unsigned rfl hu.symm
        rw [hacc.eq_of_clash hm hr' hc'] at hne
        exact hne ⟨hch, hseq⟩
    · exact .inl ⟨r', hb.mem_records.2 ⟨hr', hat⟩, hu⟩
  · exact .inr ⟨hbur.mono hp hi, fun r' hr' => hn r' (hb.mem_records.1 hr').1⟩

/-- The loop of a removal keeps the accounts and every record settled, and only adds tombstones. -/
theorem removeRecords_spec (hacc : Accounted db)
    (hsel : ∀ record ∈ removed, Selects intent db record)
    (h : removeRecords codec intent removed db = .ok db') :
    Accounted db' ∧ (∀ r, Settled codec db r → Settled codec db' r) ∧
      ∀ x ∈ db.payloadTombstones, x ∈ db'.payloadTombstones := by
  induction removed generalizing db with
  | nil =>
    cases h
    exact ⟨hacc, fun _ hr => hr, fun _ hx => hx⟩
  | cons record removed ih =>
    unfold removeRecords at h
    obtain ⟨db₁, h1, h⟩ := bind_ok.1 h
    have hb := removeRecord_buries h1
    have hsel₁ : ∀ record ∈ removed, Selects intent db₁ record := by
      intro rec hrec r hr
      exact hsel rec (List.mem_cons_of_mem _ hrec) r (hb.mem_records.1 hr).1
    obtain ⟨hacc', hset', hx'⟩ := ih (hacc.buries hb) hsel₁ h
    refine ⟨hacc', fun r hr => hset' r (hr.buries hacc (hsel record List.mem_cons_self) hb),
      fun x hx => hx' x ?_⟩
    simp [hb.payloadTombstones, hx]

theorem recordAt?_eq_some {sequence : Nat} (h : db.recordAt? key sequence = some r) :
    r ∈ db.records ∧ r.channel = key ∧ r.sequence = sequence := by
  have hp := List.find?_some h
  simp only [Bool.and_eq_true, beq_iff_eq] at hp
  exact ⟨List.mem_of_find?_eq_some h, hp⟩

theorem mem_recordsOf : r ∈ db.recordsOf key ↔ r ∈ db.records ∧ r.channel = key := by
  simp [Db.recordsOf]

/-- A removal selects columns of stored records of its transcript. -/
theorem selectRemovalRecords_mem
    (h : selectRemovalRecords intent db = .ok removed) : ∀ record ∈ removed, ∃ r ∈ db.records,
      r.channel = intent.transcript.channelKey ∧ RemovalRecord.of r = record := by
  intro record hrec
  unfold selectRemovalRecords at h
  split at h
  · cases h
    obtain ⟨r, hr, rfl⟩ := List.mem_map.1 hrec
    exact ⟨r, (mem_recordsOf.1 hr).1, (mem_recordsOf.1 hr).2, rfl⟩
  · obtain ⟨sequence, -, hs⟩ := mem_of_mapM_ok h record hrec
    obtain ⟨r, hr, hs⟩ := required_bind.1 hs
    cases hs
    obtain ⟨hm, hc, -⟩ := recordAt?_eq_some hr
    exact ⟨r, hm, hc, rfl⟩

theorem selects_of_selected (hacc : Accounted db)
    (h : selectRemovalRecords intent db = .ok removed) :
    ∀ record ∈ removed, Selects intent db record := by
  intro record hrec r hr hch hseq
  obtain ⟨r₁, hr₁, hch₁, rfl⟩ := selectRemovalRecords_mem h record hrec
  rw [hacc.eq_of_clash hr hr₁ (.inr (.inr ⟨hch.trans hch₁.symm, hseq⟩))]

/-! ## Every effect -/

theorem Effect.accounted (hacc : Accounted db)
    (h : Effect codec db db' request) : Accounted db' := by
  cases h with
  | framed hs => exact hacc.same hs
  | created t hc => exact hacc.created hc
  | appended t r _ _ ha => exact hacc.appended ha
  | signed a hs => exact hacc.signed hs
  | reserved t row _ hr => exact hacc.same hr.toSameRecords
  | advanced _ _ hs => exact hacc.same hs
  | marked row marker hm => exact hacc.marked hm
  | removed row removed mid hr =>
    exact (removeRecords_spec hacc (selects_of_selected hacc hr.selected) hr.loop).1.same
      hr.toSameRecords

theorem Effect.settled (hacc : Accounted db)
    (h : Effect codec db db' request) (hr : Settled codec db r) : Settled codec db' r := by
  cases h with
  | framed hs => exact hr.same hs.toSameTombstones hs.records
  | created t hc => exact hr.same hc.toSameTombstones hc.records
  | appended t r _ _ ha => exact hr.appended hacc ha
  | signed a hs => exact hr.map (attach_unsigned a) hs.toSameTombstones hs.records
  | reserved t row _ hv => exact hr.same hv.toSameTombstones hv.records
  | advanced _ _ hs | marked row marker hs => exact hr.same hs.toSameTombstones hs.records
  | removed row removed mid hv =>
    have hloop := removeRecords_spec hacc (selects_of_selected hacc hv.selected) hv.loop
    exact (hloop.2.1 r hr).same hv.toSameTombstones hv.records

/-- No effect drops a payload tombstone. -/
theorem Effect.payloadTombstones (hacc : Accounted db) (h : Effect codec db db' request)
    (hx : x ∈ db.payloadTombstones) : x ∈ db'.payloadTombstones := by
  cases h with
  | framed hs => rwa [hs.payloadTombstones]
  | created t hc => rwa [hc.payloadTombstones]
  | appended t r _ _ ha => rwa [ha.payloadTombstones]
  | signed a hs => rwa [hs.payloadTombstones]
  | reserved t row _ hv => rwa [hv.payloadTombstones]
  | advanced _ _ hs | marked row marker hs => rwa [hs.payloadTombstones]
  | removed row removed mid hv =>
    rw [hv.payloadTombstones]
    exact (removeRecords_spec hacc (selects_of_selected hacc hv.selected) hv.loop).2.2 x hx

/-! ## Runs -/

theorem Reach.accounted (hp : Reach codec p) : Accounted p.shared :=
  Later.of_effect (fun _ _ _ hacc heff => heff.accounted hacc) hp .empty

theorem Later.reach (hp : Reach codec p) (hq : Later codec p q) : Reach codec q :=
  Relation.ReflTransGen.trans hp hq

/-- A record that was accepted stays settled. -/
theorem Later.settled (hp : Reach codec p) (hq : Later codec p q)
    (hr : r ∈ p.shared.records) : Settled codec q.shared r := by
  have h : Accounted q.shared ∧ Settled codec q.shared r :=
    hq.of_effect (P := fun db => Accounted db ∧ Settled codec db r)
      (fun _ _ _ hinv heff => ⟨heff.accounted hinv.1, heff.settled hinv.1 hinv.2⟩)
      ⟨hp.accounted, .inl ⟨r, hr, rfl⟩⟩
  exact h.2

theorem Later.payloadTombstones (hp : Reach codec p) (hq : Later codec p q)
    (hx : x ∈ p.shared.payloadTombstones) : x ∈ q.shared.payloadTombstones := by
  have h : Accounted q.shared ∧ x ∈ q.shared.payloadTombstones :=
    hq.of_effect (P := fun db => Accounted db ∧ x ∈ db.payloadTombstones)
      (fun _ _ _ hinv heff => ⟨heff.accounted hinv.1, heff.payloadTombstones hinv.1 hinv.2⟩)
      ⟨hp.accounted, hx⟩
  exact h.2

/-- A place that holds a tombstone holds no record. -/
theorem Accounted.no_record (h : Accounted db) (hx : x ∈ db.payloadTombstones)
    (hr : r ∈ db.records) : ¬ (r.channel = x.key ∧ r.sequence = x.sequence) := by
  rintro ⟨hk, hs⟩
  have hheld := h.held x.key x.sequence
  have hr := recordsAt_pos hr
  have hx := tombstonesAt_pos hx
  rw [hk, hs] at hr
  split at hheld <;> omega

/-- A place holds at most one tombstone. -/
theorem Accounted.eq_tombstone (h : Accounted db) {x' : PayloadTombstone}
    (hx : x ∈ db.payloadTombstones) (hx' : x' ∈ db.payloadTombstones) (hk : x'.key = x.key)
    (hs : x'.sequence = x.sequence) : x' = x := by
  have hheld := h.held x.key x.sequence
  refine eq_of_countP_le_one (p := fun y => y.key == x.key && y.sequence == x.sequence)
    ?_ hx' hx (by simp [hk, hs]) (by simp)
  rw [← Db.tombstonesAt]
  split at hheld <;> omega

/-- An allocated sequence without a tombstone is that of a record. -/
theorem Accounted.exists_record_iff (h : Accounted db) {sequence : Nat}
    (hx : ∀ x ∈ db.payloadTombstones, x.key = key → x.sequence ≠ sequence) :
    (∃ r ∈ db.records, r.channel = key ∧ r.sequence = sequence) ↔
      1 ≤ sequence ∧ sequence ≤ db.next key - 1 := by
  have hzero : db.tombstonesAt key sequence = 0 := by
    refine List.countP_eq_zero.2 fun x hm hp => ?_
    simp only [Bool.and_eq_true, beq_iff_eq] at hp
    exact hx x hm hp.1 hp.2
  have hheld := h.held key sequence
  constructor
  · rintro ⟨r, hr, rfl, rfl⟩
    have := recordsAt_pos hr
    split at hheld <;> omega
  · intro hb
    rw [if_pos (by omega), hzero] at hheld
    have hpos : 0 < db.recordsAt key sequence := by omega
    obtain ⟨r, hr, hp⟩ := List.countP_pos_iff.1 hpos
    simp only [Bool.and_eq_true, beq_iff_eq] at hp
    exact ⟨r, hr, hp⟩

/-- The records of a transcript are read in the strict order of their sequences. -/
theorem Accounted.pairwise_recordsOf (h : Accounted db) (key : ChannelKey) :
    ((db.recordsOf key).map (·.sequence)).Pairwise (· < ·) := by
  have hsorted : (db.recordsOf key).Pairwise fun r r' => r.sequence ≤ r'.sequence :=
    List.pairwise_insertionSort _ _
  have hdistinct : (db.recordsOf key).Pairwise fun r r' => ¬ Clash r r' :=
    ((List.perm_insertionSort _ _).pairwise_iff fun hn hc => hn hc.symm).2 (h.distinct.filter _)
  refine List.pairwise_map.2 ((hsorted.and hdistinct).imp_of_mem fun hr hr' hboth => ?_)
  refine lt_of_le_of_ne hboth.1 fun heq => hboth.2 (.inr (.inr ⟨?_, heq⟩))
  exact (mem_recordsOf.1 hr).2.trans (mem_recordsOf.1 hr').2.symm

/-- In every database that a run reaches, each of the sequences that a transcript has allocated is
held by one record or one tombstone of it and no other sequence is held; and along every
continuation of the run, a record found later at the place of a record is that record, a tombstone
found there is for its event, and a tombstone stays and its place is never given to a record. -/
theorem sequence_accounting {p q : Pool} (hp : Reach codec p) (hq : Later codec p q) :
    ∀ t ∈ p.shared.transcripts,
      (∀ sequence, p.shared.recordsAt t.key sequence + p.shared.tombstonesAt t.key sequence =
        if 1 ≤ sequence ∧ sequence ≤ t.nextSequence - 1 then 1 else 0) ∧
      (∀ r ∈ p.shared.records, r.channel = t.key →
        (∀ r' ∈ q.shared.records, r'.channel = r.channel → r'.sequence = r.sequence →
          r'.unsigned = r.unsigned) ∧
        ∀ x ∈ q.shared.payloadTombstones, x.key = r.channel → x.sequence = r.sequence →
          x.eventIDDigest = codec.identifierDigest .event r.eventID) ∧
      ∀ x ∈ p.shared.payloadTombstones, x.key = t.key → x ∈ q.shared.payloadTombstones ∧
        ∀ r' ∈ q.shared.records, ¬ (r'.channel = x.key ∧ r'.sequence = x.sequence) := by
  have hacc := hp.accounted
  have hacc' := (Later.reach hp hq).accounted
  intro t ht
  refine ⟨fun sequence => ?_, fun r hr _ => ?_, fun x hx _ => ?_⟩
  · rw [hacc.held, next_of_mem hacc.keys ht]
    have hiff : (0 < sequence ∧ sequence < t.nextSequence) ↔
        (1 ≤ sequence ∧ sequence ≤ t.nextSequence - 1) := by omega
    simp only [hiff]
  · rcases Later.settled hp hq hr with ⟨r₁, hr₁, hu⟩ | ⟨hb, hn⟩
    · have hr := (AcceptedRecord.mk.injEq ..).mp hu
      obtain ⟨hch, hseq, -⟩ := hr
      refine ⟨fun r' hr' hc hs => ?_, fun x hx hc hs => ?_⟩
      · rw [hacc'.eq_of_clash hr' hr₁ (.inr (.inr ⟨hc.trans hch.symm, hs.trans hseq.symm⟩)), hu]
      · exact absurd ⟨hch.trans hc.symm, hseq.trans hs.symm⟩ (hacc'.no_record hx hr₁)
    · obtain ⟨x₁, hx₁, hk₁, hs₁, he₁⟩ := hb.payload
      refine ⟨fun r' hr' hc hs => absurd (.inr (.inr ⟨hc, hs⟩)) (hn r' hr'), fun x hx hc hs => ?_⟩
      rw [hacc'.eq_tombstone hx₁ hx (hc.trans hk₁.symm) (hs.trans hs₁.symm), he₁]
  · have hx' := Later.payloadTombstones hp hq hx
    exact ⟨hx', fun r' hr' => hacc'.no_record hx' hr'⟩

/-- A run that creates a channel and appends an event, and goes on with another one. -/
theorem appendedDb_later : ∃ p q : Pool, Reach (sampleCodec none none none) p ∧
    p.shared = appendedDb ∧ Later (sampleCodec none none none) p q ∧
    q.shared.records = [sampleRecord "event-1" "receipt-1" 1,
      sampleRecord "event-2" "receipt-2" 2] := by
  obtain ⟨p, hp, hi⟩ := appendedDb_reachable none none none
  have hrun : (sampleAppend "event-2" "receipt-2").run (sampleCodec none none none) appendedDb =
      .ok ((⟨.appended, sampleRecord "event-2" "receipt-2" 2⟩ : AppendResult), _) := rfl
  obtain ⟨q, hq, hi'⟩ := hi.call (c := .appendChecked _ _ _)
    (exec_ask (S := sem _) (r := sampleAppend "event-2" "receipt-2") (.committed hrun))
  exact ⟨p, q, hp, hi.shared, hq, by rw [hi'.shared]; rfl⟩

/-- The first sequence is held, and stays with its event. -/
theorem sequence_accounting_appended : ∃ p q : Pool, Reach (sampleCodec none none none) p ∧
    Later (sampleCodec none none none) p q ∧ q.shared.records.length = 2 ∧
    p.shared.recordsAt sampleKey 1 + p.shared.tombstonesAt sampleKey 1 = 1 ∧
    ∀ r' ∈ q.shared.records, r'.channel = sampleKey → r'.sequence = 1 →
      r'.unsigned = (sampleRecord "event-1" "receipt-1" 1).unsigned := by
  obtain ⟨p, q, hp, hdb, hq, hrecords⟩ := appendedDb_later
  have ht : (⟨sampleKey, 2, [1], "digest", .active, .complete⟩ : Transcript) ∈
      p.shared.transcripts := by
    rw [hdb]
    exact List.mem_singleton_self _
  have hr : sampleRecord "event-1" "receipt-1" 1 ∈ p.shared.records := by
    rw [hdb]
    exact List.mem_singleton_self _
  obtain ⟨hheld, hkept, -⟩ := sequence_accounting hp hq _ ht
  exact ⟨p, q, hp, hq, by rw [hrecords]; rfl, hheld 1, (hkept _ hr rfl).1⟩

/-! ## Identifiers -/

/-- The records share the event id of a channel, whatever their epochs, or the receipt id. -/
def SharesIdentifier (r r' : AcceptedRecord) : Prop :=
  (r.channel.tenantID = r'.channel.tenantID ∧ r.channel.channelID = r'.channel.channelID ∧
    r.eventID = r'.eventID) ∨ r.receiptID = r'.receiptID

theorem SharesIdentifier.clash (h : SharesIdentifier r r') : Clash r r' := h.imp_right .inl

/-- Once a record was accepted, a record stored later with its event id in its channel, in any
epoch, or with its receipt id is that record up to its signature, and no later append accepts a
record with either identifier, whether or not the first one has been removed. -/
theorem identifiers_not_reused {p q : Pool} (hp : Reach codec p) (hq : Later codec p q) :
    ∀ r ∈ p.shared.records,
      (∀ r' ∈ q.shared.records, SharesIdentifier r' r → r'.unsigned = r.unsigned) ∧
      ∀ intent admission prepare r' db',
        appendChecked codec intent admission prepare q.shared = .ok (⟨.appended, r'⟩, db') →
          ¬ SharesIdentifier r' r := by
  have hacc := (Later.reach hp hq).accounted
  intro r hr
  have hset := Later.settled hp hq hr
  refine ⟨fun r' hr' hsh => ?_, fun intent admission prepare r' db' h hsh => ?_⟩
  · rcases hset with ⟨r₁, hr₁, hu⟩ | ⟨-, hn⟩
    · rw [hacc.eq_of_clash hr' hr₁ (hsh.clash.of_unsigned rfl hu.symm), hu]
    · exact absurd hsh.clash (hn r' hr')
  · rcases appendChecked_cases h with ⟨ho, -⟩ | ⟨-, -, -, -, t, -, -, happ⟩
    · cases ho
    · rcases hset with ⟨r₁, hr₁, hu⟩ | ⟨hb, -⟩
      · exact happ.fresh r₁ hr₁ (hsh.clash.of_unsigned rfl hu.symm).symm
      · rcases hsh with ⟨h1, h2, h3⟩ | h1
        · have := happ.event
          rw [h1, h2, h3, hb.event] at this
          cases this
        · have := happ.receipt
          rw [h1, hb.receipt] at this
          cases this

/-- After the append of another event, a record with the identifiers of the first is refused. -/
theorem identifiers_not_reused_appended : ∃ p q : Pool, Reach (sampleCodec none none none) p ∧
    Later (sampleCodec none none none) p q ∧ q.shared.records.length = 2 ∧
    sampleRecord "event-1" "receipt-1" 1 ∈ p.shared.records ∧
    ∀ intent admission prepare r' db', appendChecked (sampleCodec none none none) intent admission
      prepare q.shared = .ok (⟨.appended, r'⟩, db') →
      ¬ SharesIdentifier r' (sampleRecord "event-1" "receipt-1" 1) := by
  obtain ⟨p, q, hp, hdb, hq, hrecords⟩ := appendedDb_later
  have hr : sampleRecord "event-1" "receipt-1" 1 ∈ p.shared.records := by
    rw [hdb]
    exact List.mem_singleton_self _
  exact ⟨p, q, hp, hq, by rw [hrecords]; rfl, hr, (identifiers_not_reused hp hq _ hr).2⟩

end

end YukhCoordination.Relay.Sqlite
