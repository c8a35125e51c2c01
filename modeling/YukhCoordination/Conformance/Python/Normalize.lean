import Mathlib.Data.List.Pairwise
import YukhCoordination.Conformance.Python.Replay
import YukhCoordination.Relay.Service.Claims

/-!
# The order of the records

Neither the order of the records nor an exact repetition matters (`replay_order_insensitive`).
-/

namespace YukhCoordination.Conformance.Python

open Relay Relay.Protocol Relay.Service Transaction

section
variable {format : Format}

/-! ## Observing -/

/-- The records can be in one transcript: an event has one document and one receipt, and a sequence
belongs to one event. -/
structure Compatible (a b : Record format) : Prop where
  event : a.id = b.id → a.event.bytes = b.event.bytes ∧ a.receipt.bytes = b.receipt.bytes
  sequence : a.sequence = b.sequence → a.id = b.id

/-- The checks of `observe` on a record alone. -/
def Fits (record : Record format) : Prop :=
  1 ≤ record.sequence ∧ interoperable record.receipt.value = true

/-- The record has the event and the receipt of the other. -/
def SameContent (a b : Record format) : Prop :=
  a.event.bytes = b.event.bytes ∧ a.receipt.bytes = b.receipt.bytes

theorem SameContent.id {a b : Record format} (h : SameContent a b) : a.id = b.id :=
  congrArg (·.value.id) (Encoded.eq_of_bytes h.1)

theorem SameContent.sequence {a b : Record format} (h : SameContent a b) :
    a.sequence = b.sequence := congrArg (·.value.sequence) (Encoded.eq_of_bytes h.2)

/-- What the first loop of `run` holds of the records that it has seen. -/
structure Sees (seen : List (Record format)) (o : Observed format) : Prop where
  events : ∀ id bytes, o.observedEvents.get? id = some bytes ↔
    ∃ r ∈ seen, r.id = id ∧ (r.event.bytes, r.receipt.bytes) = bytes
  sequences : ∀ n id, o.observedSequences.get? n = some id ↔ ∃ r ∈ seen, r.sequence = n ∧ r.id = id
  subset : ∀ r ∈ o.normalized, r ∈ seen
  covers : ∀ r ∈ seen, ∃ r' ∈ o.normalized, SameContent r' r
  ids : (o.normalized.map (·.id)).Nodup
  distinct : (o.normalized.map (·.sequence)).Nodup
  unverified : o.unverifiedReceipt = seen.any (!·.receiptVerified)

theorem Sees.nil : Sees ([] : List (Record format)) {} where
  events id bytes := by simp
  sequences n id := by simp
  subset r hr := absurd hr List.not_mem_nil
  covers r hr := absurd hr List.not_mem_nil
  ids := List.nodup_nil
  distinct := List.nodup_nil
  unverified := List.any_nil.symm

variable {seen : List (Record format)} {o o' : Observed format} {record : Record format}

theorem Sees.event_none (h : Sees seen o) {id : String} :
    o.observedEvents.get? id = none ↔ ∀ r ∈ seen, r.id ≠ id := by
  rw [Option.eq_none_iff_forall_ne_some]
  constructor
  · intro hnone r hr hid
    exact hnone _ ((h.events id _).2 ⟨r, hr, hid, rfl⟩)
  · intro hall bytes hget
    obtain ⟨r, hr, hid, -⟩ := (h.events id bytes).1 hget
    exact hall r hr hid

theorem Sees.sequence_none (h : Sees seen o) {n : Nat} :
    o.observedSequences.get? n = none ↔ ∀ r ∈ seen, r.sequence ≠ n := by
  rw [Option.eq_none_iff_forall_ne_some]
  constructor
  · intro hnone r hr hn
    exact hnone _ ((h.sequences n _).2 ⟨r, hr, hn, rfl⟩)
  · intro hall id hget
    obtain ⟨r, hr, hn, -⟩ := (h.sequences n id).1 hget
    exact hall r hr hn

/-- A record with the content of one that was seen is compatible with all that were seen. -/
theorem Sees.compatible (h : Sees seen o) {r : Record format} (hr : r ∈ seen)
    (hsame : SameContent r record) : ∀ other ∈ seen, Compatible other record := by
  intro other ho
  constructor
  · intro hid
    have hget := (h.events record.id _).2 ⟨r, hr, hsame.id, rfl⟩
    have hget' := (h.events record.id _).2 ⟨other, ho, hid, rfl⟩
    obtain ⟨hevent, hreceipt⟩ := Prod.mk.inj (Option.some.inj (hget'.symm.trans hget))
    exact ⟨hevent.trans hsame.1, hreceipt.trans hsame.2⟩
  · intro hseq
    have hget := (h.sequences record.sequence _).2 ⟨r, hr, hsame.sequence, rfl⟩
    have hget' := (h.sequences record.sequence _).2 ⟨other, ho, hseq, rfl⟩
    exact (Option.some.inj (hget'.symm.trans hget)).trans hsame.id

/-- The flag of the records that are not verified. -/
def Observed.flag (o : Observed format) (record : Record format) : Observed format :=
  { o with unverifiedReceipt := o.unverifiedReceipt || !record.receiptVerified }

/-- The record is the first with its event. -/
def Observed.add (o : Observed format) (record : Record format) : Observed format :=
  { o.flag record with
    observedEvents := o.observedEvents.set record.id (record.event.bytes, record.receipt.bytes)
    observedSequences := o.observedSequences.set record.sequence record.id
    normalized := o.normalized ++ [record] }

/-- A step of the first loop: the record repeats one that was seen, or has a new event and a new
sequence. -/
theorem Sees.observe_ok (h : Sees seen o) : observe o record = .ok o' ↔ Fits record ∧
    ((∃ r ∈ seen, SameContent r record) ∧ o' = o.flag record ∨
      (∀ r ∈ seen, r.id ≠ record.id ∧ r.sequence ≠ record.sequence) ∧ o' = o.add record) := by
  unfold observe Fits
  rw [ensure_bind, ensure_bind, decide_eq_true_iff, and_assoc]
  refine and_congr_right fun _ => and_congr_right fun _ => ?_
  unfold observeEvent
  cases hget : o.observedEvents.get? record.id with
  | some prior =>
    obtain ⟨r, hr, hid, rfl⟩ := (h.events _ _).1 hget
    have hold : ¬ ∀ r ∈ seen, r.id ≠ record.id ∧ r.sequence ≠ record.sequence :=
      fun hall => (hall r hr).1 hid
    simp only [hold, false_and, or_false]
    split
    · next hne =>
      refine iff_of_false nofun ?_
      rintro ⟨⟨r', hr', hsame⟩, -⟩
      exact hne ((h.compatible hr' hsame r hr).event hid).1
    · split
      · next hne =>
        refine iff_of_false nofun ?_
        rintro ⟨⟨r', hr', hsame⟩, -⟩
        exact hne ((h.compatible hr' hsame r hr).event hid).2
      · next hevent hreceipt =>
        rw [Except.ok.injEq, eq_comm, and_iff_right ⟨r, hr, not_not.1 hevent, not_not.1 hreceipt⟩]
        rfl
  | none =>
    have hnew := h.event_none.1 hget
    have hfirst : ¬ ∃ r ∈ seen, SameContent r record := by
      rintro ⟨r, hr, hsame⟩
      exact hnew r hr hsame.id
    simp only [hfirst, false_and, false_or]
    cases hseq : o.observedSequences.get? record.sequence with
    | some id =>
      obtain ⟨r, hr, hn, -⟩ := (h.sequences _ _).1 hseq
      exact iff_of_false nofun fun hall => (hall.1 r hr).2 hn
    | none =>
      have hunused := h.sequence_none.1 hseq
      rw [and_iff_right fun r hr => ⟨hnew r hr, hunused r hr⟩]
      exact ⟨fun heq => (Except.ok.inj heq).symm, fun heq => heq ▸ rfl⟩

theorem Sees.observes (h : Sees seen o) : (∃ o', observe o record = .ok o') ↔
    Fits record ∧ ∀ other ∈ seen, Compatible other record := by
  simp only [h.observe_ok, exists_and_left]
  refine and_congr_right fun _ => ?_
  rw [exists_or]
  simp only [exists_and_left, exists_eq, and_true]
  constructor
  · rintro (⟨r, hr, hsame⟩ | hnew)
    · exact h.compatible hr hsame
    · exact fun other ho => ⟨fun hid => absurd hid (hnew other ho).1,
        fun hseq => absurd hseq (hnew other ho).2⟩
  · intro hall
    by_cases hex : ∃ r ∈ seen, r.id = record.id
    · obtain ⟨r, hr, hid⟩ := hex
      exact .inl ⟨r, hr, (hall r hr).event hid⟩
    · refine .inr fun r hr => ?_
      have hne : r.id ≠ record.id := fun hid => hex ⟨r, hr, hid⟩
      exact ⟨hne, fun hseq => hne ((hall r hr).sequence hseq)⟩

/-- One more record. -/
theorem Sees.step (h : Sees seen o) (hstep : observe o record = .ok o') :
    Sees (seen ++ [record]) o' := by
  have hflag : (o.flag record).unverifiedReceipt = (seen ++ [record]).any (!·.receiptVerified) := by
    rw [List.any_append, List.any_cons, List.any_nil, Bool.or_false, ← h.unverified]
    rfl
  obtain ⟨-, ⟨⟨r, hr, hsame⟩, rfl⟩ | ⟨hnew, rfl⟩⟩ := h.observe_ok.1 hstep
  · refine ⟨fun id bytes => (h.events id bytes).trans ?_, fun n id => (h.sequences n id).trans ?_,
      fun r' hr' => List.mem_append_left _ (h.subset r' hr'), ?_, h.ids, h.distinct, hflag⟩
    · simp only [List.mem_append, List.mem_singleton, or_and_right, exists_or, exists_eq_left]
      refine (or_iff_left_of_imp ?_).symm
      rintro ⟨hid, hbytes⟩
      exact ⟨r, hr, hsame.id.trans hid, by rw [hsame.1, hsame.2, hbytes]⟩
    · simp only [List.mem_append, List.mem_singleton, or_and_right, exists_or, exists_eq_left]
      refine (or_iff_left_of_imp ?_).symm
      rintro ⟨hn, hid⟩
      exact ⟨r, hr, hsame.sequence.trans hn, hsame.id.trans hid⟩
    · intro r' hr'
      rcases List.mem_append.1 hr' with hr' | hr'
      · exact h.covers r' hr'
      · obtain ⟨r'', hr'', hsame'⟩ := h.covers r hr
        rw [List.mem_singleton.1 hr']
        exact ⟨r'', hr'', hsame'.1.trans hsame.1, hsame'.2.trans hsame.2⟩
  · refine ⟨fun id bytes => ?_, fun n id => ?_, fun r' hr' => ?_, fun r' hr' => ?_,
      unique_concat h.ids fun r hr => (hnew r (h.subset r hr)).1,
      unique_concat h.distinct fun r hr => (hnew r (h.subset r hr)).2, hflag⟩
    · simp only [Observed.add, Dict.get?_set, List.mem_append, List.mem_singleton, or_and_right,
        exists_or, exists_eq_left]
      split
      · next hid =>
        subst hid
        rw [or_iff_right]
        · simp [eq_comm]
        · rintro ⟨r, hr, hid, -⟩
          exact (hnew r hr).1 hid
      · next hid => simp [h.events, Ne.symm hid]
    · simp only [Observed.add, Dict.get?_set, List.mem_append, List.mem_singleton, or_and_right,
        exists_or, exists_eq_left]
      split
      · next hn =>
        subst hn
        rw [or_iff_right]
        · simp [eq_comm]
        · rintro ⟨r, hr, hn, -⟩
          exact (hnew r hr).2 hn
      · next hn => simp [h.sequences, Ne.symm hn]
    · rcases List.mem_append.1 hr' with hr' | hr'
      · exact List.mem_append_left _ (h.subset r' hr')
      · exact List.mem_append_right _ hr'
    · rcases List.mem_append.1 hr' with hr' | hr'
      · obtain ⟨r'', hr'', hsame⟩ := h.covers r' hr'
        exact ⟨r'', List.mem_append_left _ hr'', hsame⟩
      · exact ⟨r', List.mem_append_right _ hr', rfl, rfl⟩

theorem sees_of_ok {records : List (Record format)} (h : records.foldlM observe {} = .ok o) :
    Sees records o := by
  have hsees := foldlM_ok_rows (I := Sees) (fun _ _ _ _ hs hstep => hs.step hstep) Sees.nil h
  rwa [List.nil_append] at hsees

/-- **What the checks decide.** The first loop accepts records that fit and are compatible with each
other. -/
theorem observe_accepts {records : List (Record format)} :
    (∃ o : Observed format, records.foldlM observe {} = .ok o) ↔
      (∀ r ∈ records, Fits r) ∧ ∀ a ∈ records, ∀ b ∈ records, Compatible a b := by
  refine (foldlM_checks (f := observe) (I := Sees) (fun _ _ _ hs => hs.observes)
    (fun _ _ _ _ hs hstep => hs.step hstep) Sees.nil).trans (and_congr_right fun _ => ?_)
  rw [and_iff_left (fun _ h => absurd h List.not_mem_nil)]
  have hsymm : Std.Symm (@Compatible format) :=
    ⟨fun a b h => ⟨fun hid => ⟨(h.event hid.symm).1.symm, (h.event hid.symm).2.symm⟩,
      fun hseq => (h.sequence hseq.symm).symm⟩⟩
  constructor
  · intro hpair a ha b hb
    exact hpair.forall_of_forall (fun _ _ => ⟨fun _ => ⟨rfl, rfl⟩, fun _ => rfl⟩) ha hb
  · intro hall
    exact List.pairwise_of_forall_mem_list hall

/-! ## Verification is not looked at again -/

/-- The record as if its receipt had been verified. -/
def forget (record : Record format) : Record format := { record with receiptVerified := true }

theorem forget_eq {a b : Record format} (h : SameContent a b) : forget a = forget b :=
  Record.ext h.1 h.2 rfl

/-- The engine as if all receipts had been verified. -/
def Engine.forget (e : Engine format) : Engine format :=
  { e with events := e.events.map fun _ record => Python.forget record }

variable {doc : Document format} {e : Engine format} {event : Event}

theorem get?_forget (id : String) : e.forget.events.get? id = (e.events.get? id).map forget :=
  Dict.get?_map ..

theorem validateBinding_forget : validateBinding doc e.forget.events (forget record) =
    validateBinding doc e.events record := by
  have hcause : validateCausation e.forget.events (forget record).event.value =
      validateCausation e.events record.event.value := by
    unfold validateCausation
    simp only [get?_forget, required_map_bind]
    rfl
  unfold validateBinding
  simp only [hcause]
  rfl

theorem applyClaim_forget {work : String} {sequence : Nat} :
    applyClaim e.forget event work sequence =
      (applyClaim e event work sequence).map Engine.forget := by
  unfold applyClaim
  simp only [map_bind_eq]
  rfl

theorem applyLifecycle_forget {work : String} {sequence : Nat} :
    applyLifecycle e.forget event work sequence =
      (applyLifecycle e event work sequence).map Engine.forget := by
  unfold applyLifecycle
  simp only [map_bind_eq]
  cases event.type <;> simp only [map_bind_eq] <;> rfl

theorem applyAccept_forget {receipt : ReceiptDocument} :
    applyAccept e.forget event receipt = (applyAccept e event receipt).map Engine.forget := by
  unfold applyAccept
  simp only [map_bind_eq]
  rfl

theorem applyReference_forget :
    applyReference e.forget event = (applyReference e event).map Engine.forget := by
  have hget (id : Option String) :
      id.bind e.forget.events.get? = (id.bind e.events.get?).map forget := by
    cases id with
    | none => rfl
    | some id => exact get?_forget id
  unfold applyReference
  simp only [map_bind_eq, hget, required_map_bind]
  rfl

theorem applyKind_forget {receipt : ReceiptDocument} {work : String} :
    applyKind e.forget event receipt work = (applyKind e event receipt work).map Engine.forget := by
  unfold applyKind
  split
  · exact applyClaim_forget
  · exact applyLifecycle_forget
  · exact applyLifecycle_forget
  · exact applyLifecycle_forget
  · exact applyAccept_forget
  · exact applyReference_forget
  · exact applyReference_forget
  · exact applyReference_forget
  all_goals rfl

/-- The engine with the record among its events. -/
def Engine.enter (e : Engine format) (record : Record format) : Engine format := { e with
    events := e.events.set record.id record
    sequenceRecords := e.sequenceRecords.set record.sequence record.id }

theorem replayRecord_eq : replayRecord doc e record = (do
    validateBinding doc e.events record
    if doc.highWaterSequence < record.sequence then return e
    else apply (e.enter record) record) := rfl

theorem enter_forget : e.forget.enter (forget record) = (e.enter record).forget := by
  simp only [Engine.enter, Engine.forget, Dict.map_set]
  rfl

theorem apply_forget : apply e.forget (forget record) = (apply e record).map Engine.forget := by
  unfold apply
  by_cases hm : record.event.value.type.isMembership = true
  · simp only [forget, hm, if_true]
    rfl
  · simp only [forget, hm, Bool.false_eq_true, if_false, map_bind_eq]
    congr 1
    funext work
    exact applyKind_forget (e := { e with workHistory := e.workHistory.insert work })

/-- The engine does not look at the verification of a receipt. -/
theorem replayRecord_forget : replayRecord doc e.forget (forget record) =
    (replayRecord doc e record).map Engine.forget := by
  rw [replayRecord_eq, replayRecord_eq, validateBinding_forget, map_bind_eq]
  congr 1
  funext _
  by_cases hw : doc.highWaterSequence < record.sequence
  · rw [if_pos hw, if_pos (show doc.highWaterSequence < (forget record).sequence from hw)]
    rfl
  · rw [if_neg hw, if_neg (show ¬ doc.highWaterSequence < (forget record).sequence from hw),
      enter_forget]
    exact apply_forget

theorem foldlM_forget {records : List (Record format)} :
    (records.map forget).foldlM (replayRecord doc) e.forget =
      (records.foldlM (replayRecord doc) e).map Engine.forget := by
  induction records generalizing e with
  | nil => rfl
  | cons record records ih =>
    rw [List.map_cons, List.foldlM_cons, List.foldlM_cons, replayRecord_forget, map_bind_eq]
    cases replayRecord doc e record with
    | error code => rfl
    | ok e' => exact ih

theorem project_forget {reasons : Reasons} {work : String} :
    project doc e.forget reasons work = project doc e reasons work := by
  have hdiag : acceptedDiagnostics e.forget work = acceptedDiagnostics e work := by
    unfold acceptedDiagnostics
    simp only [get?_forget]
    congr 1
    refine List.filter_congr fun entry _ => ?_
    cases e.events.get? entry.1 <;> rfl
  unfold project
  rw [hdiag]
  rfl

/-! ## The order of the records -/

theorem before_total (a b : Record format) : before a b ∨ before b a := by
  unfold before
  rcases Nat.lt_trichotomy a.sequence b.sequence with hlt | heq | hgt
  · exact .inl (.inl hlt)
  · rcases List.le_total a.event.bytes b.event.bytes with hle | hle
    · exact .inl (.inr ⟨heq, hle⟩)
    · exact .inr (.inr ⟨heq.symm, hle⟩)
  · exact .inr (.inl hgt)

theorem before_trans {a b c : Record format} (hab : before a b) (hbc : before b c) :
    before a c := by
  unfold before at *
  rcases hab with hab | ⟨hab, hle⟩ <;> rcases hbc with hbc | ⟨hbc, hle'⟩
  · exact .inl (by omega)
  · exact .inl (by omega)
  · exact .inl (by omega)
  · exact .inr ⟨by omega, List.le_trans hle hle'⟩

/-- The normalized records are in strict order of their sequences. -/
theorem Sees.sorted (h : Sees seen o) :
    (o.normalized.insertionSort before).Pairwise fun a b => a.sequence < b.sequence := by
  have : Std.Total (@before format) := ⟨before_total⟩
  have : IsTrans (Record format) before := ⟨fun _ _ _ => before_trans⟩
  have hsorted := List.pairwise_insertionSort before o.normalized
  have hdistinct : (o.normalized.insertionSort before).Pairwise fun a b =>
      a.sequence ≠ b.sequence :=
    List.pairwise_map.1 ((List.perm_insertionSort before o.normalized).map _ |>.nodup_iff.2
      h.distinct)
  refine (hsorted.and hdistinct).imp fun {a b} hab => ?_
  rcases hab.1 with hlt | ⟨heq, -⟩
  · exact hlt
  · exact absurd heq hab.2

/-- **The normal form.** The sorted records are determined by the set of records, apart from the
verification of their receipts. -/
theorem Sees.sorted_eq {seen' : List (Record format)} (h : Sees seen o) (h' : Sees seen' o')
    (hmem : ∀ r, r ∈ seen ↔ r ∈ seen') :
    (o.normalized.insertionSort before).map forget =
      (o'.normalized.insertionSort before).map forget := by
  have hsub {seen seen' : List (Record format)} {o o' : Observed format} (h : Sees seen o)
      (h' : Sees seen' o') (hmem : ∀ r, r ∈ seen → r ∈ seen') {r : Record format}
      (hr : r ∈ (o.normalized.insertionSort before).map forget) :
      r ∈ (o'.normalized.insertionSort before).map forget := by
    obtain ⟨a, ha, rfl⟩ := List.mem_map.1 hr
    rw [List.mem_insertionSort] at ha
    obtain ⟨b, hb, hsame⟩ := h'.covers a (hmem a (h.subset a ha))
    exact List.mem_map.2 ⟨b, (List.mem_insertionSort _).2 hb, forget_eq hsame⟩
  have hpair {seen : List (Record format)} {o : Observed format} (h : Sees seen o) :
      ((o.normalized.insertionSort before).map forget).Pairwise fun a b =>
        a.sequence < b.sequence := List.pairwise_map.2 h.sorted
  refine eq_of_pairwise_key (hpair h) (hpair h') fun r => ⟨?_, ?_⟩
  · exact hsub h h' fun r hr => (hmem r).1 hr
  · exact hsub h' h fun r hr => (hmem r).2 hr

/-- A sequence after the high-water was seen. -/
theorem Sees.after_highWater (h : Sees seen o) (highWater : Nat) :
    o.observedSequences.entries.any (highWater < ·.1) =
      seen.any fun r => highWater < r.sequence := by
  rw [Bool.eq_iff_iff, List.any_eq_true, List.any_eq_true]
  constructor
  · rintro ⟨entry, hmem, hlt⟩
    obtain ⟨r, hr, hn, -⟩ := (h.sequences entry.1 entry.2).1 (Dict.get?_eq_some.2 hmem)
    exact ⟨r, hr, hn ▸ hlt⟩
  · rintro ⟨r, hr, hlt⟩
    exact ⟨(r.sequence, r.id),
      Dict.get?_eq_some.1 ((h.sequences r.sequence r.id).2 ⟨r, hr, rfl, rfl⟩), hlt⟩

theorem any_congr_mem {records records' : List (Record format)} {p : Record format → Bool}
    (hmem : ∀ r, r ∈ records ↔ r ∈ records') : records.any p = records'.any p := by
  rw [Bool.eq_iff_iff, List.any_eq_true, List.any_eq_true]
  simp only [hmem]

/-- The reasons depend on the set of records only. -/
theorem Sees.reasons_eq {seen' : List (Record format)} (h : Sees seen o) (h' : Sees seen' o')
    (hmem : ∀ r, r ∈ seen ↔ r ∈ seen') {e' : Engine format}
    (he : e'.sequenceRecords = e.sequenceRecords) : reasons doc o' e' = reasons doc o e := by
  unfold reasons
  rw [h.unverified, h'.unverified, any_congr_mem hmem, h.after_highWater, h'.after_highWater,
    any_congr_mem hmem, he]

theorem replay_of_mem_iff {records : List (Record format)}
    (hmem : ∀ r, r ∈ records ↔ r ∈ doc.records) {result : List Projection × Reasons}
    (h : replay doc = .ok result) : replay { doc with records } = .ok result := by
  unfold replay at h
  obtain ⟨run, hrun, h⟩ := bind_ok.1 h
  obtain ⟨projections, hproject, h⟩ := bind_ok.1 h
  obtain rfl := pure_ok.1 h
  unfold replayRecords at hrun
  obtain ⟨⟨⟩, hdoc, hrun⟩ := bind_ok.1 hrun
  obtain ⟨o, hobserve, hrun⟩ := bind_ok.1 hrun
  obtain ⟨e, hreplay, hrun⟩ := bind_ok.1 hrun
  obtain rfl := pure_ok.1 hrun
  have hsees := sees_of_ok hobserve
  -- The changed document is observed, and its normal form is the same.
  obtain ⟨hfits, hcompatible⟩ := observe_accepts.1 ⟨o, hobserve⟩
  obtain ⟨o', hobserve'⟩ : ∃ o : Observed format, records.foldlM observe {} = .ok o :=
    observe_accepts.2 ⟨fun r hr => hfits r ((hmem r).1 hr),
      fun a ha b hb => hcompatible a ((hmem a).1 ha) b ((hmem b).1 hb)⟩
  have hsees' := sees_of_ok hobserve'
  have hsorted := hsees'.sorted_eq hsees hmem
  have hforget : ((o'.normalized.insertionSort before).map forget).foldlM (replayRecord doc)
      (Engine.forget {}) =
        ((o'.normalized.insertionSort before).foldlM (replayRecord doc) {}).map Engine.forget :=
    foldlM_forget
  rw [hsorted, foldlM_forget, hreplay] at hforget
  obtain ⟨e', hreplay', heq⟩ := map_ok.1 hforget.symm
  have hproject' (work : String) (reasons : Reasons) :
      project doc e' reasons work = project doc e reasons work := by
    rw [← project_forget, heq, project_forget]
  have hsequences : e'.forget.sequenceRecords = e.forget.sequenceRecords := by rw [heq]
  have hworks : e'.forget.workHistory = e.forget.workHistory := by rw [heq]
  have hreasons : reasons doc o' e' = reasons doc o e :=
    hsees.reasons_eq hsees' (fun r => (hmem r).symm) hsequences
  have hrun' : replayRecords { doc with records } = .ok (o', e') :=
    bind_ok.2 ⟨(), hdoc, bind_ok.2 ⟨o', hobserve', bind_ok.2 ⟨e', hreplay', rfl⟩⟩⟩
  have hprojects : (sorted e'.workHistory).mapM (project doc e' (reasons doc o' e')) =
      .ok projections := by
    rw [show e'.workHistory = e.workHistory from hworks, hreasons,
      show project doc e' (reasons doc o e) = project doc e (reasons doc o e) from
        funext fun work => hproject' work _]
    exact hproject
  refine bind_ok.2 ⟨(o', e'), hrun', bind_ok.2 ⟨projections, hprojects, pure_ok.2 ?_⟩⟩
  exact congrArg (Prod.mk projections) hreasons

/-- **The order of the records does not matter.** A document with the same records, in any order and
any of them repeated, is accepted if the document is, and gives the same projections and reasons. -/
theorem replay_order_insensitive {records : List (Record format)}
    (hmem : ∀ r, r ∈ records ↔ r ∈ doc.records) :
    (replay { doc with records }).toOption = (replay doc).toOption := by
  refine Option.ext fun result => ?_
  have hok {x : Except ErrorCode (List Projection × Reasons)} :
      x.toOption = some result ↔ x = .ok result := by
    cases x <;> simp [Except.toOption]
  rw [hok, hok]
  exact ⟨@replay_of_mem_iff format { doc with records } doc.records (fun r => (hmem r).symm) result,
    replay_of_mem_iff hmem⟩

end

/-! ### A transcript with a handoff -/

/-- The receipt of the event at an index. -/
def sampleReceipt (n : UInt8) (event : Event) (participantInstanceID : String) :
    ReceiptDocument where
  specVersion := "0.1"
  receiptVersion := ""
  receiptID := ""
  eventID := event.id
  tenantID := "tenant"
  channelID := "channel"
  channelURI := event.channel
  principalID := ""
  participantID := event.participantID
  participantInstanceID
  sessionEpoch := 1
  cursor := ""
  transcriptEpoch := 1
  sequence := n.toNat + 1
  acceptedAt := ""
  eventDigest := ""
  channelMetadataDigest := ""
  aclPolicyVersion := ""
  aclPolicyDigest := ""
  aclDecisionReceiptID := ""
  appendOutcome := "appended"
  keyID := ""
  signatureAlgorithm := "ed25519"

/-- The format in which the canonical bytes of an event and of its receipt are its index. -/
def sampleFormat (codec : Codec) : Format := { codec with
    decodeReceipt := fun bytes => bytes.head?.bind fun n => (codec.decodeEvent [n]).map fun event =>
      sampleReceipt n event (codec.participantInstanceID [n])
    eventDigest := fun _ => ""
    content := fun _ => ""
    uuid5 := id }

/-- The record of the event at an index. -/
def sampleRecord? (codec : Codec) (n : UInt8) : Option (Record (sampleFormat codec)) :=
  match h : codec.decodeEvent [n] with
  | none => none
  | some event =>
    some ⟨⟨[n], event, h⟩, ⟨[n], sampleReceipt n event (codec.participantInstanceID [n]),
      by simp [sampleFormat, h]⟩, true⟩

/-- The document of a complete transcript with the events at the given indices. -/
def sampleDocument (codec : Codec) (indices : List UInt8) : Document (sampleFormat codec) where
  tenantID := "tenant"
  channelID := "channel"
  channelURI := "channel"
  transcriptEpoch := 1
  declaredCompleteness := .complete
  lifecycle := .active
  originSequence := 1
  highWaterSequence := indices.length
  highWaterReceiptVerified := true
  records := indices.filterMap (sampleRecord? codec)

/-- The transcript of a handoff, read backwards and with its last record repeated. -/
theorem replay_order_insensitive_handoff :
    (replay (sampleDocument progressedCodec [0, 1, 2, 3])).toOption.isSome = true ∧
      (replay { sampleDocument progressedCodec [0, 1, 2, 3] with
          records := [3, 2, 1, 0, 3].filterMap (sampleRecord? progressedCodec) }).toOption =
        (replay (sampleDocument progressedCodec [0, 1, 2, 3])).toOption := by
  refine ⟨by decide, replay_order_insensitive fun r => ?_⟩
  simp only [sampleDocument, List.mem_filterMap, List.mem_cons, List.not_mem_nil, or_false]
  constructor <;> rintro ⟨n, hn, hr⟩ <;> exact ⟨n, by tauto, hr⟩

end YukhCoordination.Conformance.Python
