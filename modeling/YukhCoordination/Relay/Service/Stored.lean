import YukhCoordination.Relay.Service.Application
import YukhCoordination.Relay.Service.Handoff

/-!
# Replaying what the application has stored

`Validate` reads participants back from the receipts, and its replay never fails
(`stored_replay_succeeds`).
-/

namespace YukhCoordination.Relay.Service

open Protocol Transaction

/-! ## Transcripts of the application -/

/-- The transcripts that `Append` builds: each event was validated against the records before it,
for the participant instance of the admitted request, and then prepared as a record. The store gives
each record a later sequence and refuses an event id that it has. -/
inductive Published (codec : Codec) (documents : Documents) : List AcceptedRecord → Prop
  | nil : Published codec documents []
  | snoc {records : List AcceptedRecord} {record : AcceptedRecord} {view : AdmissionView}
      {fuel sequence : Nat} {digest : String} {selection : SigningSelection} (a : Admission) :
      Published codec documents records → Reads view records →
      codec.decodeEvent a.canonical = some a.event →
      validate codec fuel view a.canonical a.admitted.identity.participantInstanceID =
        some (.ok ()) →
      a.prepare documents sequence digest selection = .ok record →
      (∀ r ∈ records, r.sequence < sequence) →
      (∀ r ∈ records, r.eventID ≠ a.event.id) →
      Published codec documents (records ++ [record])

/-- A receipt that was written is read back with its participant instance. -/
def ReadsBack (codec : Codec) (documents : Documents) : Prop :=
  ∀ document bytes, documents.receipt document = some bytes →
    codec.participantInstanceID bytes = document.participantInstanceID

section
variable {codec : Codec} {documents : Documents} {records : List AcceptedRecord}
  {record : AcceptedRecord} {sequence : Nat} {digest : String} {selection : SigningSelection}

/-- A prepared record keeps the event, and the participant instance in its receipt. -/
structure Prepared (codec : Codec) (a : Admission) (sequence : Nat) (record : AcceptedRecord) :
    Prop where
  place : record.sequence = sequence
  positive : 0 < record.sequence
  eventID : record.eventID = a.event.id
  canonical : record.canonicalEvent = a.canonical
  participant : codec.participantInstanceID record.unsignedReceiptPreimage =
    a.admitted.identity.participantInstanceID

theorem prepare_ok (hback : ReadsBack codec documents) {a : Admission}
    (h : a.prepare documents sequence digest selection = .ok record) :
    Prepared codec a sequence record := by
  unfold Admission.prepare at h
  obtain ⟨hseq, h⟩ := ensure_bind.1 h
  obtain ⟨preimage, hpre, h⟩ := required_bind.1 h
  obtain ⟨authenticated, -, h⟩ := required_bind.1 h
  cases h
  simp only [Bool.and_eq_true, bne_iff_ne, ne_eq] at hseq
  exact ⟨rfl, Nat.pos_of_ne_zero hseq.1, rfl, rfl, hback _ _ hpre⟩

/-- The entry of a prepared record. -/
theorem Prepared.entry {a : Admission} (h : Prepared codec a sequence record)
    (hdecode : codec.decodeEvent a.canonical = some a.event) :
    Entry.of codec record = some ⟨.of a.event, a.admitted.identity.participantInstanceID⟩ := by
  rw [Entry.of, h.canonical, hdecode, h.participant]
  rfl

/-- The record of each entry of a transcript of the application has the id of its event. -/
theorem Published.eventID (hback : ReadsBack codec documents)
    (h : Published codec documents records) :
    ∀ r ∈ records, 0 < r.sequence ∧ ∀ e, Entry.of codec r = some e → e.event.id = r.eventID := by
  induction h with
  | nil => simp
  | snoc a _ _ hdecode _ hprepare _ _ ih =>
    have hrecord := prepare_ok hback hprepare
    intro r hr
    rcases List.mem_append.1 hr with hr | hr
    · exact ih r hr
    · rw [List.mem_singleton.1 hr]
      refine ⟨hrecord.positive, fun e he => ?_⟩
      rw [hrecord.entry hdecode] at he
      cases he
      exact hrecord.eventID.symm

/-- What the application stores is admitted. -/
theorem Published.admitted (hback : ReadsBack codec documents)
    (h : Published codec documents records) : Admitted codec records := by
  induction h with
  | nil => exact .nil
  | snoc a hpub hreads hdecode hvalid hprepare hseq hfresh ih =>
    have hrecord := prepare_ok hback hprepare
    refine .snoc ih hreads (hrecord.entry hdecode) (hrecord.canonical ▸ hvalid) ?_ ?_
    · intro r hr
      rw [hrecord.place]
      exact ⟨(hpub.eventID hback r hr).1, hseq r hr⟩
    · intro r hr e he
      rw [(hpub.eventID hback r hr).2 e he]
      exact hfresh r hr

/-! ## Validating against them -/

/-- What `Validate` answers of a candidate if the stored records are replayed to a state. -/
def judge (codec : Codec) (state : TranscriptState) (canonical : Bytes) (participant : String) :
    Except Relay.Error Unit :=
  if participant = "" then .error .invalidArgument
  else validateCandidate codec state canonical participant

/-- The replay of an admitted transcript succeeds, in pages of any size. -/
theorem Admitted.replayPagesBy (h : Admitted codec records)
    (hpositive : ∀ r ∈ records, 0 < r.sequence) :
    ∃ s, ∀ size view fuel, 1 ≤ size → size ≤ 1000 → Reads view records →
      records.length < size * fuel →
      Service.replayPagesBy codec size view fuel {} 0 = some (.ok s) := by
  obtain ⟨es, s, hes, hs⟩ := h.admits
  refine ⟨s, fun size view fuel hone hsize hreads hfuel => ?_⟩
  have hall : records.filter (fun r => 0 < r.sequence) = records :=
    List.filter_eq_self.2 fun r hr => by simpa using hpositive r hr
  have hsome : (Service.replayPagesBy codec size view fuel {} 0).isSome :=
    replayPagesBy_isSome hone hsize hreads h.sorted (.inl rfl) (by rwa [hall])
  obtain ⟨result, hresult⟩ := Option.isSome_iff_exists.1 hsome
  rw [hresult, replayPagesBy_some hone hsize hreads h.sorted (.inl rfl) hresult, hall,
    hs.replayPage hes]

/-- **Replaying stored records never fails.** For every transcript that the application has built
there is one state, such that every later `Validate` replays the stored records to this state and
answers for its candidate what this state gives, with pages of a thousand records as with pages of
any other size that the view allows. -/
theorem stored_replay_succeeds (hback : ReadsBack codec documents)
    (h : Published codec documents records) :
    ∃ s, (∀ size view fuel, 1 ≤ size → size ≤ 1000 → Reads view records →
        records.length < size * fuel →
        replayPagesBy codec size view fuel {} 0 = some (.ok s) ∧
        ∀ canonical participant, validateBy codec size fuel view canonical participant =
          some (judge codec s canonical participant)) ∧
      ∀ view fuel, Reads view records → records.length < 1000 * fuel →
        ∀ canonical participant, validate codec fuel view canonical participant =
          some (judge codec s canonical participant) := by
  obtain ⟨s, hs⟩ := (h.admitted hback).replayPagesBy fun r hr => (h.eventID hback r hr).1
  have hby : ∀ size view fuel, 1 ≤ size → size ≤ 1000 → Reads view records →
      records.length < size * fuel → ∀ canonical participant,
      validateBy codec size fuel view canonical participant =
        some (judge codec s canonical participant) := by
    intro size view fuel hone hsize hreads hfuel canonical participant
    unfold validateBy judge
    rw [hs size view fuel hone hsize hreads hfuel]
    split <;> rfl
  refine ⟨s, fun size view fuel hone hsize hreads hfuel =>
    ⟨hs size view fuel hone hsize hreads hfuel, hby size view fuel hone hsize hreads hfuel⟩,
    fun view fuel hreads hfuel => hby 1000 view fuel (by omega) le_rfl hreads hfuel⟩

end

/-! ### A handoff that the application has stored -/

/-- Receipts that keep which of the two participants of the sample published. -/
def sampleDocuments : Documents where
  receipt document :=
    if document.participantInstanceID = "p" then some [0]
    else if document.participantInstanceID = "q" then some [2] else none
  authenticated _ := some []

/-- The admission of an event of the sample. -/
def sampleAdmission (n : Nat) (event : Event) : Admission where
  admitted :=
    { identity := ⟨"tenant", "principal", if n < 2 then "p" else "q", 1⟩
      channel := ⟨"tenant", "channel", "1"⟩
      authorizationBinding := []
      aclPolicyVersion := ""
      aclPolicyDigest := ""
      aclDecisionReceiptID := "" }
  channelURI := "channel"
  metadata := ⟨"tenant", "channel", "channel", "", "", ""⟩
  epoch := 1
  event := event
  canonical := [UInt8.ofNat n]
  receiptID := ""
  acceptedAt := ""

/-- The record that it is stored as. -/
def sampleStored (n : Nat) : AcceptedRecord :=
  { Service.sampleRecord n with unsignedReceiptPreimage := [if n < 2 then 0 else 2] }

theorem sampleStored_validate : ∀ n < 4, ∃ event,
    sampleHandoffCodec.decodeEvent [UInt8.ofNat n] = some event ∧
    (sampleAdmission n event).prepare sampleDocuments (n + 1) "" ⟨"", ""⟩ = .ok (sampleStored n) ∧
    (∀ m < n, (sampleStored m).eventID ≠ event.id) ∧
    validate sampleHandoffCodec 1 (viewOf ((List.range n).map sampleStored)) [UInt8.ofNat n]
      (if n < 2 then "p" else "q") = some (.ok ()) := by
  decide

theorem sampleStored_published (n : Nat) (hn : n ≤ 4) :
    Published sampleHandoffCodec sampleDocuments ((List.range n).map sampleStored) := by
  induction n with
  | zero => exact .nil
  | succ n ih =>
    obtain ⟨event, hdecode, hprepare, hfresh, hvalid⟩ := sampleStored_validate n (by omega)
    rw [List.range_succ, List.map_append]
    refine .snoc (sampleAdmission n event) (ih (by omega)) (fun _ _ _ _ _ => rfl) hdecode hvalid
      hprepare ?_ ?_
    · intro r hr
      obtain ⟨m, hm, rfl⟩ := List.mem_map.1 hr
      simpa [sampleStored, sampleRecord] using hm
    · intro r hr
      obtain ⟨m, hm, rfl⟩ := List.mem_map.1 hr
      exact hfresh m (List.mem_range.1 hm)

theorem sampleDocuments_readsBack : ReadsBack sampleHandoffCodec sampleDocuments := by
  intro document bytes h
  unfold sampleDocuments at h
  dsimp only at h
  split at h
  · next hp =>
    cases h
    exact hp.symm
  · split at h
    · next hq =>
      cases h
      exact hq.symm
    · cases h

/-- The stored handoff replays in pages of three records. -/
theorem stored_replay_succeeds_handoff : ∃ s,
    replayPagesBy sampleHandoffCodec 3 (viewOf ((List.range 4).map sampleStored)) 2 {} 0 =
      some (.ok s) := by
  obtain ⟨s, hs⟩ :=
    stored_replay_succeeds sampleDocuments_readsBack (sampleStored_published 4 (by omega))
  exact ⟨s, (hs.1 3 (viewOf _) 2 (by omega) (by omega) (fun _ _ _ _ _ => rfl) (by decide)).1⟩

end YukhCoordination.Relay.Service
