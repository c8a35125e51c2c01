import YukhCoordination.Relay.Service.Replay
import YukhCoordination.Relay.Sqlite.Integrity

/-!
# Reads and removals

`Store.Read` reads the lifecycle of the transcript, the boundary of its redaction and the records by
separate statements. Where no removal from the transcript commits between the first of them and the
return, the records are consecutive, all of them are still stored and none lies behind a removed one
(`read_stops_at_removal`). A redaction that commits after the lifecycle was read as active is passed
over (`read_beyond_removal`).
-/

namespace YukhCoordination.Relay.Sqlite

open Lifecycle Transaction Interleave

/-! ## The last statement -/

section
variable {codec : Codec} {db db' : Db} {key : ChannelKey} {after cutoff limit : Nat}

/-- The records between a cursor and a cutoff before which nothing was removed are consecutive. -/
theorem Accounted.readBetween_consecutive (h : Accounted db)
    (hfree : ∀ x ∈ db.payloadTombstones, x.key = key → cutoff ≤ x.sequence) :
    (readBetween db key after cutoff limit).map (·.sequence) =
      List.range' (after + 1) (readBetween db key after cutoff limit).length := by
  have hall : ((db.recordsOf key).filter fun r =>
      after < r.sequence && r.sequence < cutoff).map (·.sequence) =
      List.range' (after + 1) (min cutoff (db.next key) - (after + 1)) := by
    refine eq_range'_of_pairwise ((h.pairwise_recordsOf key).sublist
      (List.filter_sublist.map _)) fun n => ?_
    constructor
    · intro hn
      obtain ⟨r, hr, rfl⟩ := List.mem_map.1 hn
      obtain ⟨hr, hbounds⟩ := List.mem_filter.1 hr
      simp only [Bool.and_eq_true, decide_eq_true_eq] at hbounds
      obtain ⟨hr, hkey⟩ := mem_recordsOf.1 hr
      have hnext := (h.exists_record_iff fun x hx hk heq => by
        have := hfree x hx hk
        omega).1 ⟨r, hr, hkey, rfl⟩
      omega
    · intro hn
      obtain ⟨r, hr, hkey, rfl⟩ : ∃ r ∈ db.records, r.channel = key ∧ r.sequence = n :=
        (h.exists_record_iff fun x hx hk heq => by
          have := hfree x hx hk
          omega).2 (by omega)
      refine List.mem_map.2 ⟨r, List.mem_filter.2 ⟨mem_recordsOf.2 ⟨hr, hkey⟩, ?_⟩, rfl⟩
      simp only [Bool.and_eq_true, decide_eq_true_eq]
      omega
  unfold readBetween
  rw [List.map_take, hall, List.length_take, ← List.length_map (f := (·.sequence)), hall,
    List.length_range']
  exact take_range'

end

/-! ## The admission view -/

/-- The sequences of a run stay below the largest that the column holds. -/
theorem Reach.sequence_lt {codec : Codec} {p : Pool} (hp : Reach codec p) :
    ∀ r ∈ p.shared.records, r.sequence < maxInt64 := by
  refine Later.of_effect (P := fun db => ∀ r ∈ db.records, r.sequence < maxInt64)
    (fun request db db' h heff r hr => ?_) hp fun r hr => nomatch hr
  rcases heff.record_of hr with ⟨r₀, hr₀, hu⟩ | ⟨t, r₁, _, _, _, -, -, -, rfl, ha⟩
  · have hseq : r₀.unsigned.sequence = r.unsigned.sequence := by rw [hu]
    exact hseq ▸ h r₀ hr₀
  · exact ha.bound

/-- What the admission check of a run reads is the transcript, in pages. -/
theorem Reach.reads {codec : Codec} {p : Pool} (hp : Reach codec p) (key : ChannelKey) :
    Service.Reads (admissionView p.shared key) (p.shared.recordsOf key) := by
  intro after limit hafter hone hle
  have hmax : after ≤ maxInt64 := by
    rcases hafter with rfl | ⟨r, hr, rfl⟩
    · exact Nat.zero_le _
    · exact (hp.sequence_lt r (mem_recordsOf.1 hr).1).le
  exact if_neg (by simp only [Bool.or_eq_true, decide_eq_true_eq]; omega)

/-! ## Reads without a removal -/

/-- The request does not remove from the transcript. -/
def Request.Spares (key : ChannelKey) (db : Db) : Request → Prop
  | .removePayload reference _ =>
    ∀ row ∈ db.operations, row.operationID = reference.operationID → row.key ≠ key
  | _ => True

/-- The meaning of a request of which no removal from the transcript commits. One that is rolled
back or finds the payload removed already changes nothing. -/
def sparingSem (codec : Codec) (key : ChannelKey) : Sem port Nat Db := fun i r db ans db' =>
  sem codec i r db ans db' ∧ (db' ≠ db → r.Spares key db)

/-- A run without a removal from the transcript leads from `p` to `q`. -/
def SparingLater (codec : Codec) (key : ChannelKey) : Pool → Pool → Prop := Relation.ReflTransGen
    (Interleave.Pool.Step (sparingSem codec key) (fun _ _ => False) (Call.body codec))

/-- What a read that stops at removals returns: consecutive records behind the cursor that are
still stored, all of them before the first removed one. -/
structure Consecutive (db : Db) (key : ChannelKey) (after limit : Nat)
    (records : List AcceptedRecord) : Prop where
  sequences : records.map (·.sequence) = List.range' (after + 1) records.length
  length : records.length ≤ limit
  stored : ∀ r ∈ records, r.channel = key ∧ Stored db r
  before : ∀ r ∈ records, ∀ x ∈ db.payloadTombstones, x.key = key → r.sequence < x.sequence

/-- What happens to a transcript while nothing is removed from it. -/
structure Spared (key : ChannelKey) (db db' : Db) : Prop where
  tombstones : ∀ x ∈ db'.payloadTombstones, x.key = key → x ∈ db.payloadTombstones
  stored : ∀ r : AcceptedRecord, r.channel = key → Stored db r → Stored db' r

section
variable {codec : Codec} {db db' : Db} {key : ChannelKey} {after cutoff limit : Nat}
  {request : Request} {records : List AcceptedRecord}

theorem Spared.refl (key : ChannelKey) (db : Db) : Spared key db db :=
  ⟨fun _ hx _ => hx, fun _ _ hr => hr⟩

theorem Spared.trans {db₁ : Db} (h : Spared key db db₁) (h' : Spared key db₁ db') :
    Spared key db db' where
  tombstones x hx hkey := h.tombstones x (h'.tombstones x hx hkey) hkey
  stored r hr hstored := h'.stored r hr (h.stored r hr hstored)

theorem Consecutive.nil (db : Db) (key : ChannelKey) (after limit : Nat) :
    Consecutive db key after limit [] :=
  ⟨rfl, Nat.zero_le _, by simp, by simp⟩

theorem Consecutive.spared (h : Consecutive db key after limit records) (hs : Spared key db db') :
    Consecutive db' key after limit records where
  sequences := h.sequences
  length := h.length
  stored r hr := ⟨(h.stored r hr).1, hs.stored r (h.stored r hr).1 (h.stored r hr).2⟩
  before r hr x hx hkey := h.before r hr x (hs.tombstones x hx hkey) hkey

/-- A turn that spares the transcript adds no tombstone to it. -/
theorem Turn.tombstones_spared (hord : Ordered db) (hspares : request.Spares key db)
    (ht : Turn codec db db' request) :
    ∀ x ∈ db'.payloadTombstones, x.key = key → x ∈ db.payloadTombstones := by
  intro x hx hkey
  cases ht with
  | framed _ hs | reserved _ _ _ _ hs | moved _ _ _ _ _ _ hs | marked _ _ _ _ _ _ _ hs =>
    rwa [← hs.payloadTombstones]
  | removed row row' removed mid hrow hm _ _ _ hloop heq =>
    subst heq
    rcases (removeRecords_takes hloop).payloadTombstones x hx with hold | hnew
    · exact hold
    · cases hm with
      | removed _ hid =>
        exact absurd ((hord.transcriptKey row hrow).trans (hnew.symm.trans hkey))
          (hspares row hrow hid)
  | bound _ _ _ _ _ heq | completed _ _ _ _ _ _ _ heq | recorded _ _ _ _ _ _ _ _ _ _ heq =>
    subst heq
    exact hx

/-- A request that spares the transcript keeps its records. -/
theorem spared_of_run (hord : Ordered db) (hspares : request.Spares key db) {a : request.Result}
    (h : request.run codec db = .ok (a, db')) : Spared key db db' := by
  have htombstones := (run_turn hord h).tombstones_spared hord hspares
  refine ⟨htombstones, fun r hkey ⟨r', hr', hsame⟩ => ?_⟩
  have hkey' : r'.channel = key := (congrArg (·.channel) hsame).trans hkey
  rcases (run_effect h).settled hord.toAccounted (.inl ⟨r', hr', rfl⟩) with hstored | ⟨hburied, -⟩
  · obtain ⟨r₁, hr₁, hsame₁⟩ := hstored
    exact ⟨r₁, hr₁, hsame₁.trans hsame⟩
  · obtain ⟨x, hx, hxkey, hxseq, -⟩ := hburied.payload
    exact absurd ⟨hxkey.symm, hxseq.symm⟩ (hord.toAccounted.no_record
      (htombstones x hx (hxkey.trans hkey')) hr')

theorem sparingSem.spared {i : Nat} {ans : Except request.Err request.Result} (hord : Ordered db)
    (h : sparingSem codec key i request db ans db') : Ordered db' ∧ Spared key db db' := by
  rcases Attempt.cases h.1 with rfl | ⟨a, hrun⟩
  · exact ⟨hord, .refl key _⟩
  · refine ⟨(run_effect hrun).ordered hord, ?_⟩
    by_cases hsame : db' = db
    · exact hsame ▸ .refl key _
    · exact spared_of_run hord (h.2 hsame) hrun

/-- The records that the last statement of a read returns. -/
theorem Ordered.consecutive (h : Ordered db)
    (hfree : ∀ x ∈ db.payloadTombstones, x.key = key → cutoff ≤ x.sequence) :
    Consecutive db key after limit (readBetween db key after cutoff limit) := by
  have hmem : ∀ r ∈ readBetween db key after cutoff limit,
      r ∈ db.records ∧ r.channel = key ∧ r.sequence < cutoff := by
    intro r hr
    obtain ⟨hr, hbounds⟩ := List.mem_filter.1 (List.mem_of_mem_take hr)
    simp only [Bool.and_eq_true, decide_eq_true_eq] at hbounds
    exact ⟨(mem_recordsOf.1 hr).1, (mem_recordsOf.1 hr).2, hbounds.2⟩
  exact ⟨h.toAccounted.readBetween_consecutive hfree, List.length_take_le _ _,
    fun r hr => ⟨(hmem r hr).2.1, r, (hmem r hr).1, rfl⟩,
    fun r hr x hx hkey => lt_of_lt_of_le (hmem r hr).2.2 (hfree x hx hkey)⟩

/-- An active transcript has no tombstone. -/
theorem Ordered.no_tombstone_of_active (h : Ordered db) {t : Transcript}
    (ht : db.transcript? key = some t) (hactive : t.lifecycle = .active) :
    ∀ x ∈ db.payloadTombstones, x.key ≠ key := by
  intro x hx hkey
  obtain ⟨op, hop, hopkey, hstate⟩ := h.tombstones x hx
  obtain ⟨ht, htkey⟩ := transcript?_eq_some ht
  exact h.inactive op hop (by omega) t ht (htkey.trans (hkey.symm.trans hopkey.symm)) hactive

/-- The boundary of a redaction is the first removed sequence. -/
theorem redactionBoundary_le {boundary : Nat} (h : redactionBoundary db key = some boundary) :
    ∀ x ∈ db.payloadTombstones, x.key = key → boundary ≤ x.sequence := by
  intro x hx hkey
  refine (List.min?_eq_some_iff.1 h).2 _ (List.mem_map.2 ⟨x, List.mem_filter.2 ⟨hx, ?_⟩, rfl⟩)
  simp [hkey]

/-- The last statement of a read, asked where nothing before the cutoff was removed. -/
theorem meets_readBetween {i : Nat}
    (hfree : ∀ x ∈ db.payloadTombstones, x.key = key → cutoff ≤ x.sequence) :
    (ask (.readBetween key after cutoff limit) : Proc
      (Except Relay.Error (List AcceptedRecord))).Meets
      (sparingSem codec key i) Ordered (Spared key) (fun _ _ => True)
      (fun result db => ∀ records, result = .ok records → Consecutive db key after limit records)
      db := by
  intro db₁ hs₁ hord₁ ans db₂ hsem
  refine ⟨(sparingSem.spared hord₁ hsem).1, trivial, fun records hans => ?_⟩
  subst hans
  have hrun : (Request.readBetween key after cutoff limit).run codec db₁ = .ok (records, db₂) :=
    Attempt.ok hsem.1
  obtain ⟨hrecords, rfl⟩ := query_ok hrun
  cases hrecords
  exact hord₁.consecutive fun x hx hkey => hfree x (hs₁.tombstones x hx hkey) hkey

/-- A read that nothing is removed under returns consecutive records. -/
theorem meets_read {i : Nat} :
    (Store.read key after limit).Meets (sparingSem codec key i) Ordered (Spared key)
      (fun _ _ => True)
      (fun result db => ∀ records, result = .ok records → Consecutive db key after limit records)
      db := by
  unfold Store.read
  split
  · exact fun _ h => by cases h
  split
  · rintro _ ⟨⟩
    exact .nil _ _ _ _
  refine Program.meets_ask_bind.2 fun db₁ hs₁ hord₁ ans db₂ hsem => ?_
  refine ⟨(sparingSem.spared hord₁ hsem).1, trivial, ?_⟩
  rcases ans with err | _ | t
  · exact fun _ h => by cases h
  · exact fun _ h => by cases h
  have hrun : (Request.transcript key).run codec db₁ = .ok (some t, db₂) := Attempt.ok hsem.1
  obtain ⟨ht, rfl⟩ := query_ok hrun
  have ht := Except.ok.inj ht
  dsimp only
  split
  · rintro _ ⟨⟩
    exact .nil _ _ _ _
  · next hactive =>
    exact meets_readBetween fun x hx hkey =>
      absurd hkey (hord₁.no_tombstone_of_active ht hactive x hx)
  · refine Program.meets_ask_bind.2 fun db₃ hs₃ hord₃ ans db₄ hsem => ?_
    refine ⟨(sparingSem.spared hord₃ hsem).1, trivial, ?_⟩
    rcases ans with err | _ | boundary
    · exact fun _ h => by cases h
    · rintro _ ⟨⟩
      exact .nil _ _ _ _
    · have hrun : (Request.redactionBoundary key).run codec db₃ = .ok (some boundary, db₄) :=
        Attempt.ok hsem.1
      obtain ⟨hboundary, rfl⟩ := query_ok hrun
      exact meets_readBetween (redactionBoundary_le (Except.ok.inj hboundary))

/-- **A read stops at removals** where no removal from its transcript commits between its start and
its return: it returns consecutive records from behind the cursor, all of them still stored and
none behind a removed one. -/
theorem read_stops_at_removal {p q : Pool} {i : Nat} (hp : Reach codec p)
    (hi : p.thread i = some (.read key after limit, (Call.read key after limit).body codec))
    (hq : SparingLater codec key p q)
    (hr : q.Returned i (.read key after limit) (.records (.ok records))) :
    Consecutive q.shared key after limit records := by
  have hmeets : ((Call.read key after limit).body codec).Meets (sparingSem codec key i) Ordered
      (Spared key) (fun _ _ => True) (fun outcome db => ∀ records,
        outcome = .records (.ok records) → Consecutive db key after limit records) p.shared := by
    refine Program.meets_bind.2 (meets_read.mono_post fun result db h records heq => ?_)
    cases heq
    exact h records rfl
  obtain ⟨-, db, program, hthread, hs, hm⟩ := Interleave.Pool.follow (Spared.refl key)
    (fun _ _ _ => Spared.trans) (fun _ _ _ _ _ hord hs => sparingSem.spared hord hs)
    (fun _ _ _ hf => hf.elim) hp.ordered hi hmeets hq
  rw [Interleave.Pool.Returned, hthread] at hr
  cases hr
  exact (hm records rfl).spared hs

end

/-! ## A read across a redaction, and one without -/

/-- An intent that redacts the first of two events. -/
def redactIntent : Intent := { sampleIntent with
    action := .redactTranscript
    target := ⟨.sequences, [1]⟩
    highWaterReceiptReference := "receipt-2" }

/-- Its marker. -/
def redactMarker : Marker := { sampleMarker with
    resultingLifecycle := .redacted
    target := ⟨.sequences, [1]⟩
    highWaterReceiptReference := "receipt-2" }

/-- The preimage of its receipt. -/
def redactPreimage : ReceiptPreimage := { samplePreimage with resultingLifecycle := .redacted }

/-- A codec that decodes its documents. -/
def redactCodec : Codec :=
  sampleCodec (some ⟨"tenant", "channel", sampleDigest, 1, "2026-01-01T00:00:00.000Z"⟩)
    (some redactMarker) (some redactPreimage)

/-- The row of the operation after its reservation. -/
def redactRow : OperationRow := reservedRow redactCodec redactIntent samplePolicy

/-- The row of the operation after its marker. -/
def redactMarked : OperationRow := { redactRow with
    state := .markerPersisted, canonicalMarker := [1], canonicalReceiptPreimage := [2] }

/-- The row of the operation after its receipt was signed. -/
def redactSigned : OperationRow :=
  { redactMarked with state := .receiptSigned, receiptSignature := List.replicate 64 7 }

/-- The database with two signed events. -/
def pairDb : Db := signedDb [{ lateRecord with signature := [1] }]

/-- That database with the operation at `row`, while the transcript is in the given lifecycle. -/
def redactDb (lifecycle : Relay.Lifecycle) (completeness : Completeness) (row : OperationRow) :
    Db :=
  { pairDb with
    transcripts := [⟨sampleKey, 3, [1], "digest", lifecycle, completeness⟩]
    policies := [⟨sampleDigest, "policy", 1, samplePolicy, 1, .permitted⟩]
    bindings := [⟨sampleKey, sampleDigest, "policy", 1, "2026-01-01T00:00:00.001Z"⟩]
    operations := [row] }

/-- That database after the first event was removed. -/
def redactedDb : Db := { redactDb .redacted .incomplete
      { redactSigned with state := .payloadRemoved, payloadRemovalDigest := sampleDigest } with
    records := [{ lateRecord with signature := [1] }]
    payloadTombstones := [⟨sampleOperation, sampleKey, 1, "event-1", sampleDigest, "receipt-1"⟩]
    identifierTombstones := [⟨"tenant", "channel", .event, "event-1", sampleOperation⟩,
      ⟨"tenant", "channel", .receipt, "receipt-1", sampleOperation⟩] }

theorem redactDocuments : Documents redactCodec redactRow redactMarker redactPreimage :=
  ⟨rfl, rfl, rfl, rfl, by rfl, rfl, rfl, rfl, rfl, rfl, by rfl, by rfl, rfl⟩

theorem persistMarker_redact : (Request.persistMarker samplePersistence).run redactCodec
    (redactDb .active .complete redactRow) =
      .ok (redactMarked.operation, redactDb .redacted .incomplete redactMarked) :=
  bind_ok.2 ⟨_, redactDocuments.persistence, bind_ok.2 ⟨_,
    bind_ok.2 ⟨_, redactDocuments.load_reserved rfl, rfl⟩, ensure_bind.2 ⟨rfl, rfl⟩⟩⟩

theorem attachReceiptSignature_redact :
    (Request.attachReceiptSignature sampleAttachment).run redactCodec
      (redactDb .redacted .incomplete redactMarked) =
      .ok (redactSigned.operation, redactDb .redacted .incomplete redactSigned) :=
  bind_ok.2 ⟨_, bind_ok.2 ⟨_, redactDocuments.load_marked rfl, rfl⟩, ensure_bind.2 ⟨rfl, rfl⟩⟩

theorem removePayload_redact : (Request.removePayload sampleReference redactSigned).run redactCodec
      (redactDb .redacted .incomplete redactSigned) =
      .ok ({ redactSigned.operation with state := .payloadRemoved }, redactedDb) :=
  bind_ok.2 ⟨_, bind_ok.2 ⟨_, redactDocuments.load_signed rfl, rfl⟩, ensure_bind.2 ⟨rfl,
    ensure_bind.2 ⟨rfl, rfl⟩⟩⟩

/-- A run leads to two signed events. -/
theorem pairDb_reachable : Reachable redactCodec (sem redactCodec) 5 pairDb := by
  have h₃ : Reachable redactCodec (sem redactCodec) 3 (signedDb []) :=
    ((createdDb_reachable _ _ _).call (c := .appendChecked _ _ _)
      (exec_ask (r := sampleAppend "event-1" "receipt-1")
        (a := (⟨.appended, sampleRecord "event-1" "receipt-1" 1⟩ : AppendResult))
        (.committed rfl))).call (c := .attachSignature ⟨sampleKey, "receipt-1", [1], [1]⟩)
      (exec_ask (r := .attachSignature _) (.committed rfl))
  exact (h₃.call (c := .appendChecked _ _ _) (exec_ask (r := sampleAppend "event-2" "receipt-2")
      (a := (⟨.appended, lateRecord⟩ : AppendResult)) (.committed rfl))).call
        (c := .attachSignature ⟨sampleKey, "receipt-2", [1], [1]⟩)
      (exec_ask (r := .attachSignature _) (.committed rfl))

/-- What is left of a read of an active transcript once its lifecycle was read. -/
theorem read_leads {S : Sem port Nat Db} {n : Nat}
    (h : S n (.transcript sampleKey) pairDb (.ok (pairDb.transcript? sampleKey)) pairDb) :
    ((Call.read sampleKey 0 10).body redactCodec).Leads (S n) pairDb
      (do return .records (← ask (.readBetween sampleKey 0 maxInt64 10))) pairDb :=
  .call h .refl

/-- From two signed events, the calls that redact the first one. -/
theorem Idle.redact {n : Nat} {p : Pool} (h : Idle n pairDb p) :
    ∃ q, Later redactCodec p q ∧ Idle (n + 4) redactedDb q ∧ ∀ i < n, q.thread i = p.thread i := by
  have hreserve : ((Call.reserve ⟨[samplePolicy]⟩ redactIntent).body redactCodec).Exec
      (sem redactCodec n) pairDb (.operation (.ok redactRow.operation))
      (redactDb .active .complete redactRow) :=
    exec_ask (r := .reserve _ _) (.committed rfl)
  obtain ⟨p₁, h₁, i₁, -, k₁⟩ := h.begin hreserve.leads
  obtain ⟨m, q, hm, hq, -, hi, hthreads⟩ := redactDocuments.removal (S := sem redactCodec)
    (fun _ _ _ _ _ hrun _ => .committed hrun) i₁ persistMarker_redact rfl
    attachReceiptSignature_redact rfl removePayload_redact
  refine ⟨q, h₁.trans (hm.tail hq), by rwa [Nat.add_assoc] at hi, fun i hn => ?_⟩
  rw [hthreads i (by omega), k₁ i (by omega)]

/-- `Read` passes over a redaction that commits behind the back of its first statement: it returns
the second event and not the first one. -/
theorem read_beyond_removal : ¬ ∀ (codec : Codec) (p q : Pool) (i : Nat) (key : ChannelKey)
    (after limit : Nat) (records : List AcceptedRecord), Reach codec p →
    p.thread i = some (.read key after limit, (Call.read key after limit).body codec) →
    Later codec p q → q.Returned i (.read key after limit) (.records (.ok records)) →
    Consecutive q.shared key after limit records := by
  intro h
  obtain ⟨p, hp, hi⟩ := pairDb_reachable
  obtain ⟨p₁, h₁, i₁, ht₁, -⟩ := hi.begin (S := sem redactCodec) (c := .read sampleKey 0 10) .refl
  obtain ⟨p₂, h₂, i₂, ht₂, -⟩ := i₁.resume (S := sem redactCodec) ht₁
    (read_leads (Attempt.committed rfl))
  obtain ⟨p₃, h₃, i₃, hthread⟩ := i₂.redact
  have hlast : sem redactCodec 5 (.readBetween sampleKey 0 maxInt64 10) redactedDb
      (.ok [{ lateRecord with signature := [1] }]) redactedDb := .committed rfl
  obtain ⟨q, h₄, -, hreturned, -⟩ := i₃.resume (S := sem redactCodec)
    ((hthread 5 (by omega)).trans ht₂) (.ask_bind hlast .refl)
  have hread := (h redactCodec p₁ q 5 sampleKey 0 10 _ (hp.trans h₁) ht₁
    (h₂.trans (h₃.trans h₄)) hreturned).sequences
  exact absurd hread (by decide)

/-- A statement that only reads spares every transcript. -/
theorem sparingSem_query {n : Nat} {r : Request} {db : Db} {a : r.Result} {key : ChannelKey}
    (h : r.run redactCodec db = .ok (a, db)) : sparingSem redactCodec key n r db (.ok a) db :=
  ⟨.committed h, fun hne => absurd rfl hne⟩

/-- The next thread can read, and nothing is removed meanwhile. -/
theorem Idle.reads {n : Nat} {db : Db} {p : Pool} {records : List AcceptedRecord}
    (h : Idle n db p) (hp : Reach redactCodec p)
    (hl : ((Call.read sampleKey 0 10).body redactCodec).Leads (sparingSem redactCodec sampleKey n)
      db (return .records (.ok records)) db) :
    ∃ p' q, Reach redactCodec p' ∧ p'.thread n = some (.read sampleKey 0 10,
        (Call.read sampleKey 0 10).body redactCodec) ∧ SparingLater redactCodec sampleKey p' q ∧
      q.shared = db ∧ q.Returned n (.read sampleKey 0 10) (.records (.ok records)) := by
  obtain ⟨p', h', i', ht', -⟩ := h.begin (S := sem redactCodec) (c := .read sampleKey 0 10) .refl
  obtain ⟨q, hq, iq, hreturned, -⟩ := i'.resume ht' hl
  exact ⟨p', q, hp.trans h', ht', hq, iq.shared, hreturned⟩

/-- A read returns both events. After the redaction of the first, one returns none of them, though
the second is stored. -/
theorem read_stops_at_removal_sample : ∃ q q' : Pool,
    q.Returned 5 (.read sampleKey 0 10) (.records (.ok pairDb.records)) ∧
    Consecutive q.shared sampleKey 0 10 pairDb.records ∧ q'.shared = redactedDb ∧
    q'.Returned 9 (.read sampleKey 0 10) (.records (.ok [])) ∧
    Consecutive q'.shared sampleKey 0 10 [] := by
  obtain ⟨p, hp, hi⟩ := pairDb_reachable
  obtain ⟨p₁, q₁, hp₁, ht₁, hq₁, -, hr₁⟩ := hi.reads hp
    ((read_leads (sparingSem_query rfl)).trans (.ask_bind (sparingSem_query rfl) .refl))
  obtain ⟨p₂, hp₂, hi₂, -⟩ := hi.redact
  obtain ⟨p₃, q₃, hp₃, ht₃, hq₃, hdb, hr₃⟩ := hi₂.reads (hp.trans hp₂)
    (.call (sparingSem_query rfl) (.ask_bind (sparingSem_query rfl)
      (.ask_bind (sparingSem_query rfl) .refl)))
  exact ⟨q₁, q₃, hr₁, read_stops_at_removal hp₁ ht₁ hq₁ hr₁, hdb, hr₃,
    read_stops_at_removal hp₃ ht₃ hq₃ hr₃⟩

end YukhCoordination.Relay.Sqlite
