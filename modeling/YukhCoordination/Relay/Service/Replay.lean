import YukhCoordination.Relay.Service.Transition

/-!
# Replaying an admitted transcript

A transcript is admitted when each of its events was admitted by `Validate` against the records
before it. `Validate` reads these records page by page and applies them without the checks that it
makes of a candidate; here it is shown that it comes to the state that the events led to when they
were admitted (`Admitted.admits`), so that an admitted transcript is a run of `apply`.
-/

namespace YukhCoordination.Relay.Service

open Protocol Transaction

/-! ## Runs of `apply` -/

/-- An event of a transcript with the participant instance that published it. -/
structure Entry where
  event : TransitionEvent
  participant : String
  deriving DecidableEq, Repr

/-- The entry of a record. -/
def Entry.of (codec : Codec) (record : AcceptedRecord) : Option Entry :=
  (codec.decodeEvent record.canonicalEvent).map fun event =>
    ⟨.of event, codec.participantInstanceID record.unsignedReceiptPreimage⟩

/-- The state with an event recorded. -/
def TranscriptState.record (s : TranscriptState) (event : TransitionEvent) : TranscriptState :=
  { s with events := s.events.set event.id event }

/-- The entries were admitted one after the other and lead to the state. -/
inductive Admits (codec : Codec) : List Entry → TranscriptState → Prop
  | nil : Admits codec [] {}
  | snoc {es : List Entry} {s s' : TranscriptState} {e : Entry} : Admits codec es s →
      (∀ e' ∈ es, e'.event.id ≠ e.event.id) → e.participant ≠ "" →
      apply codec s e.event e.participant true true = .ok s' → Admits codec (es ++ [e]) s'

section
variable {codec : Codec} {s s' : TranscriptState} {event : TransitionEvent} {participant : String}

theorem apply_eq {enforce candidate : Bool} :
    apply codec s event participant enforce candidate = .ok s' ↔
      checkCausation s event = .ok () ∧ ∃ s₁, applyKind codec s event participant enforce = .ok s₁ ∧
        s' = if candidate then s₁.record event else s₁ := by
  unfold apply
  rw [bind_ok]
  constructor
  · rintro ⟨u, hc, h⟩
    obtain ⟨s₁, hk, h⟩ := bind_ok.1 h
    cases h
    exact ⟨hc, s₁, hk, rfl⟩
  · rintro ⟨hc, s₁, hk, rfl⟩
    exact ⟨(), hc, bind_ok.2 ⟨s₁, hk, rfl⟩⟩

/-- What the switch accepts of a candidate it accepts of a stored event. -/
theorem applyKind_stored (h : applyKind codec s event participant true = .ok s') :
    applyKind codec s event participant false = .ok s' := by
  unfold applyKind at h ⊢
  split at h <;> try exact h
  all_goals
    unfold applyLifecycle at h ⊢
    obtain ⟨claim, hget, h⟩ := required_bind.1 h
    obtain ⟨hc, h⟩ := ensure_bind.1 h
    refine required_bind.2 ⟨claim, hget, ensure_bind.2 ⟨hc, ?_⟩⟩
    split at h <;> try exact h
    obtain ⟨hlimit, h⟩ := ensure_bind.1 h
    obtain ⟨-, h⟩ := ensure_bind.1 h
    exact ensure_bind.2 ⟨hlimit, ensure_bind.2 ⟨rfl, h⟩⟩

/-- Applying an admitted event again as a stored one leads to the same state. -/
theorem apply_stored (h : apply codec s event participant true true = .ok s') :
    ∃ s₁, apply codec s event participant false false = .ok s₁ ∧ s' = s₁.record event := by
  obtain ⟨hc, s₁, hk, rfl⟩ := apply_eq.1 h
  exact ⟨s₁, apply_eq.2 ⟨hc, s₁, applyKind_stored hk, rfl⟩, rfl⟩

end

/-! ## Pages -/

/-- The view reads the given records after a sequence of theirs, in pages. -/
def Reads (view : AdmissionView) (records : List AcceptedRecord) : Prop :=
  ∀ after limit, after = 0 ∨ (∃ r ∈ records, r.sequence = after) → 1 ≤ limit → limit ≤ 1000 →
    view.read after limit = .ok ((records.filter fun r => after < r.sequence).take limit)

section
variable {codec : Codec} {view : AdmissionView} {records : List AcceptedRecord}

theorem replayPage_append (page rest : List AcceptedRecord) (state : TranscriptState)
    (after : Nat) : replayPage codec (page ++ rest) state after =
      (replayPage codec page state after).bind fun r => replayPage codec rest r.1 r.2 := by
  induction page generalizing state after with
  | nil => rfl
  | cons record page ih =>
    simp only [List.cons_append, replayPage]
    split
    · rfl
    · split
      · rfl
      · exact ih _ _

variable {state : TranscriptState} {after size : Nat}

/-- A page that was replayed ends at the sequence of its last record. -/
theorem replayPage_after {page : List AcceptedRecord} {state' : TranscriptState}
    {after' : Nat} (h : replayPage codec page state after = .ok (state', after')) :
    after' = (page.getLast?.map (·.sequence)).getD after := by
  induction page generalizing state after with
  | nil =>
    cases h
    rfl
  | cons record page ih =>
    simp only [replayPage] at h
    split at h
    · cases h
    · split at h
      · cases h
      · rw [ih h]
        cases page <;> simp [List.getLast?_cons]

/-- The records behind a page of a sorted list are those it left. -/
theorem filter_behind_page (hsorted : records.Pairwise (·.sequence < ·.sequence)) {limit : Nat}
    {page : List AcceptedRecord} {last : AcceptedRecord}
    (hpage : records.take limit = page ++ [last]) :
    records.filter (fun r => last.sequence < r.sequence) = records.drop limit := by
  have hsplit := List.take_append_drop limit records
  rw [hpage] at hsplit
  rw [← hsplit] at hsorted
  obtain ⟨hleft, -, hcross⟩ := List.pairwise_append.1 hsorted
  conv_lhs => rw [← hsplit]
  rw [List.filter_append, List.filter_eq_nil_iff.2, List.nil_append, List.filter_eq_self.2]
  · intro r hr
    simpa using hcross last (by simp) r hr
  · intro r hr
    rcases List.mem_append.1 hr with hr | hr
    · simpa using Nat.le_of_lt ((List.pairwise_append.1 hleft).2.2 r hr last (by simp))
    · simp [List.mem_singleton.1 hr]

/-- A later filter by sequence makes an earlier one superfluous. -/
theorem filter_after_filter {later : Nat} (h : after ≤ later) :
    (records.filter fun r => after < r.sequence).filter (fun r => later < r.sequence) =
      records.filter fun r => later < r.sequence := by
  rw [List.filter_filter]
  refine List.filter_congr fun r _ => ?_
  rw [Bool.eq_iff_iff, Bool.and_eq_true, decide_eq_true_iff, decide_eq_true_iff]
  exact ⟨And.left, fun hl => ⟨hl, Nat.lt_of_le_of_lt h hl⟩⟩

/-- A full page ends at a record, and the records behind it are those it left. -/
theorem replayPage_full (hsorted : records.Pairwise (·.sequence < ·.sequence))
    {state' : TranscriptState} {after' : Nat} (hsize : 1 ≤ size)
    (hpage : replayPage codec ((records.filter fun r => after < r.sequence).take size) state after =
      .ok (state', after'))
    (hfull : ¬ ((records.filter fun r => after < r.sequence).take size).length < size) :
    (∃ r ∈ records, r.sequence = after') ∧ records.filter (fun r => after' < r.sequence) =
      (records.filter fun r => after < r.sequence).drop size := by
  have hne : (records.filter fun r => after < r.sequence).take size ≠ [] := by
    intro hnil
    rw [hnil, List.length_nil] at hfull
    omega
  obtain ⟨page, last, hlast⟩ := (List.eq_nil_or_concat' _).resolve_left hne
  have htake : last ∈ (records.filter fun r => after < r.sequence).take size := by simp [hlast]
  have hmem := List.mem_filter.1 (List.mem_of_mem_take htake)
  have hlt : after < last.sequence := by simpa using hmem.2
  obtain rfl : after' = last.sequence := by simpa [hlast] using replayPage_after hpage
  refine ⟨⟨last, hmem.1, rfl⟩, ?_⟩
  rw [← filter_after_filter (Nat.le_of_lt hlt), filter_behind_page (hsorted.filter _) hlast]

/-- The loop over the pages replays every record, if it returns. -/
theorem replayPagesBy_some (hone : 1 ≤ size) (hsize : size ≤ 1000) (hreads : Reads view records)
    (hsorted : records.Pairwise (·.sequence < ·.sequence)) {fuel : Nat}
    (hafter : after = 0 ∨ ∃ r ∈ records, r.sequence = after)
    {result : Except Relay.Error TranscriptState}
    (h : replayPagesBy codec size view fuel state after = some result) :
    result = (replayPage codec (records.filter fun r => after < r.sequence) state after).map
      (·.1) := by
  induction fuel generalizing state after with
  | zero => cases h
  | succ fuel ih =>
    simp only [replayPagesBy, hreads after size hafter hone hsize] at h
    rw [← List.take_append_drop size (records.filter fun r => after < r.sequence),
      replayPage_append]
    cases hpage : replayPage codec ((records.filter fun r => after < r.sequence).take size) state
        after with
    | error err =>
      rw [hpage] at h
      cases h
      rfl
    | ok r =>
      obtain ⟨state', after'⟩ := r
      rw [hpage] at h
      simp only at h
      split at h
      · next hlt =>
        cases h
        rw [List.drop_eq_nil_of_le (by simp at hlt; omega)]
        rfl
      · next hge =>
        obtain ⟨hmem, hrest⟩ := replayPage_full hsorted hone hpage hge
        rw [ih (.inr hmem) h, hrest]
        rfl

/-- The loop over the pages returns if it may read more pages than there are. -/
theorem replayPagesBy_isSome (hone : 1 ≤ size) (hsize : size ≤ 1000) (hreads : Reads view records)
    (hsorted : records.Pairwise (·.sequence < ·.sequence)) {fuel : Nat}
    (hafter : after = 0 ∨ ∃ r ∈ records, r.sequence = after)
    (hfuel : (records.filter fun r => after < r.sequence).length < size * fuel) :
    (replayPagesBy codec size view fuel state after).isSome := by
  induction fuel generalizing state after with
  | zero => omega
  | succ fuel ih =>
    simp only [replayPagesBy, hreads after size hafter hone hsize]
    split
    · rfl
    · next state' after' hpage =>
      split
      · rfl
      · next hge =>
        obtain ⟨hmem, hrest⟩ := replayPage_full hsorted hone hpage hge
        refine ih (.inr hmem) ?_
        rw [Nat.mul_succ] at hfuel
        rw [List.length_take] at hge
        rw [hrest, List.length_drop]
        omega

end

/-! ## Admitted transcripts -/

/-- A transcript each of whose events `Validate` admitted against the records before it. Sequences
increase and no event id comes twice: the store sees to both. -/
inductive Admitted (codec : Codec) : List AcceptedRecord → Prop
  | nil : Admitted codec []
  | snoc {records : List AcceptedRecord} {record : AcceptedRecord} {view : AdmissionView}
      {fuel : Nat} {e : Entry} : Admitted codec records → Reads view records →
      Entry.of codec record = some e →
      validate codec fuel view record.canonicalEvent e.participant = some (.ok ()) →
      (∀ r ∈ records, 0 < r.sequence ∧ r.sequence < record.sequence) →
      (∀ r ∈ records, ∀ e', Entry.of codec r = some e' → e'.event.id ≠ e.event.id) →
      Admitted codec (records ++ [record])

/-- The entries of a transcript. -/
abbrev Entries (codec : Codec) (records : List AcceptedRecord) (es : List Entry) : Prop :=
  records.map (Entry.of codec) = es.map some

section
variable {codec : Codec} {records : List AcceptedRecord} {es : List Entry}

theorem Admitted.sorted (h : Admitted codec records) :
    records.Pairwise (·.sequence < ·.sequence) := by
  induction h with
  | nil => exact .nil
  | snoc _ _ _ _ hseq _ ih =>
    refine List.pairwise_append.2 ⟨ih, List.pairwise_singleton _ _, fun r hr r' hr' => ?_⟩
    obtain rfl := List.mem_singleton.1 hr'
    exact (hseq r hr).2

theorem Entry.of_eq_some {record : AcceptedRecord} {e : Entry}
    (h : Entry.of codec record = some e) : ∃ event,
      codec.decodeEvent record.canonicalEvent = some event ∧ e.event = .of event ∧
      e.participant = codec.participantInstanceID record.unsignedReceiptPreimage := by
  obtain ⟨event, hd, rfl⟩ := Option.map_eq_some_iff.1 h
  exact ⟨event, hd, rfl, rfl⟩

/-- A replay of a transcript comes to the state that its entries lead to. -/
theorem Admits.replayPage {s : TranscriptState} (h : Admits codec es s)
    (hes : Entries codec records es) (after : Nat) :
    (Service.replayPage codec records {} after).map (·.1) = .ok s := by
  induction h generalizing records with
  | nil =>
    rw [List.map_eq_nil_iff.1 hes]
    rfl
  | @snoc es s s' e _ _ _ happly ih =>
    rw [Entries, List.map_append] at hes
    obtain ⟨before, last, rfl, hbefore, hlast⟩ := List.map_eq_append_iff.1 hes
    obtain ⟨record, rfl, hrecord⟩ := List.map_eq_singleton_iff.1 hlast
    obtain ⟨event, hdecode, hevent, hparticipant⟩ := Entry.of_eq_some hrecord
    obtain ⟨s₁, hstored, rfl⟩ := apply_stored happly
    rw [hevent, hparticipant] at hstored
    have hb := ih hbefore
    rw [replayPage_append]
    cases hr : Service.replayPage codec before {} after with
    | error err =>
      rw [hr] at hb
      cases hb
    | ok r =>
      rw [hr] at hb
      obtain rfl : r.1 = s := Except.ok.inj hb
      simp only [Except.bind, Service.replayPage, hdecode, hstored, hevent]
      rfl

/-- An admitted transcript is a run of `apply`. -/
theorem Admitted.admits (h : Admitted codec records) :
    ∃ es s, Entries codec records es ∧ Admits codec es s := by
  induction h with
  | nil => exact ⟨[], {}, rfl, .nil⟩
  | @snoc records record view fuel e hadm hreads hentry hvalid hseq hfresh ih =>
    obtain ⟨es, s, hes, hs⟩ := ih
    obtain ⟨event, hdecode, hevent, -⟩ := Entry.of_eq_some hentry
    unfold validate validateBy at hvalid
    split at hvalid
    · cases hvalid
    · next hparticipant =>
      obtain ⟨replayed, hreplayed, hresult⟩ := Option.map_eq_some_iff.1 hvalid
      have hall : records.filter (fun r => 0 < r.sequence) = records :=
        List.filter_eq_self.2 fun r hr => by simpa using (hseq r hr).1
      have hstate := replayPagesBy_some (by omega) le_rfl hreads hadm.sorted (.inl rfl) hreplayed
      rw [hall, hs.replayPage hes] at hstate
      subst hstate
      simp only [bind, Except.bind, validateCandidate, hdecode, required] at hresult
      split at hresult
      · cases hresult
      · next s' happly =>
        rw [← hevent] at happly
        refine ⟨es ++ [e], s', ?_, hs.snoc (fun e' he' => ?_) hparticipant happly⟩
        · rw [Entries, List.map_append, List.map_append, hes, List.map_singleton,
            List.map_singleton, hentry]
        · have hmem : some e' ∈ records.map (Entry.of codec) := by
            rw [hes]
            exact List.mem_map_of_mem he'
          obtain ⟨r, hr, he⟩ := List.mem_map.1 hmem
          exact hfresh r hr e' he

end

end YukhCoordination.Relay.Service
