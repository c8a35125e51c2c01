import YukhCoordination.Relay.Lifecycle.Time
import YukhCoordination.Relay.Sqlite.Repeat

/-!
# Retention deadlines

`Reserve` binds a deadline to the transcript of an operation: the creation time in the metadata of
the channel plus the active retention of the policy, added as nanoseconds in 64 bits. A preparation
holds only policies whose retention fits (`newLifecyclePreparation_ok`), and a deadline that does
not parse is refused, so the sum neither wraps nor leaves the years that a text can hold.
-/

namespace YukhCoordination.Relay.Sqlite

open Lifecycle Transaction Interleave

/-! ## The sum -/

section
variable {codec : Codec}

/-- The policies that `NewLifecyclePreparation` admits. -/
def Policy.Admitted (codec : Codec) (policy : Policy) : Prop :=
  validatePolicy codec policy = true ∧ policy.activeRetentionMillis ≤ maxSQLiteRetentionMillis

theorem closePolicies_ok {closed policies result : List Policy}
    (hclosed : ∀ policy ∈ closed, Policy.Admitted codec policy)
    (h : closePolicies codec closed policies = .ok result) :
    ∀ policy ∈ result, Policy.Admitted codec policy := by
  induction policies generalizing closed with
  | nil =>
    cases h
    exact hclosed
  | cons policy policies ih =>
    unfold closePolicies at h
    obtain ⟨hvalid, h⟩ := ensure_bind.1 h
    simp only [Bool.and_eq_true, decide_eq_true_eq] at hvalid
    split at h
    · obtain ⟨-, h⟩ := ensure_bind.1 h
      exact ih hclosed h
    · refine ih (fun other ho => ?_) h
      rcases List.mem_append.1 ho with ho | ho
      · exact hclosed other ho
      · rw [List.mem_singleton.1 ho]
        exact hvalid

/-- Every policy of a preparation was validated, and its retention fits into nanoseconds. -/
theorem newLifecyclePreparation_ok {policies : List Policy} {preparation : LifecyclePreparation}
    (h : newLifecyclePreparation codec policies = .ok preparation) :
    ∀ policy ∈ preparation.policies, Policy.Admitted codec policy := by
  unfold newLifecyclePreparation at h
  obtain ⟨-, h⟩ := ensure_bind.1 h
  obtain ⟨closed, hclosed, h⟩ := bind_ok.1 h
  cases h
  exact closePolicies_ok (fun _ hmem => absurd hmem List.not_mem_nil) hclosed

/-- A retention that fits is the same duration in nanoseconds. -/
theorem millisDuration_eq {millis : Nat} (h : millis ≤ maxSQLiteRetentionMillis) :
    millisDuration millis = millis * 1000000 := by
  unfold maxSQLiteRetentionMillis maxInt64 at h
  unfold millisDuration
  rw [Int.bmod_eq_of_le] <;> omega

/-- The deadline is the creation time plus the retention. -/
theorem retentionDeadline_ok {metadata : ChannelMetadata} {policy : Policy} {deadline : String}
    (hfits : policy.activeRetentionMillis ≤ maxSQLiteRetentionMillis)
    (h : retentionDeadline metadata policy = .ok deadline) :
    ∃ createdAt, parseTime metadata.createdAt = some createdAt ∧
      deadline = formatTime (createdAt + policy.activeRetentionMillis) ∧
      parseTime deadline = some (createdAt + policy.activeRetentionMillis) := by
  unfold retentionDeadline at h
  obtain ⟨createdAt, hcreated, h⟩ := required_bind.1 h
  obtain ⟨hparses, h⟩ := ensure_bind.1 h
  have hdeadline := pure_ok.1 h
  have hsum : (createdAt * 1000000 + millisDuration policy.activeRetentionMillis) / 1000000 =
      createdAt + policy.activeRetentionMillis := by
    rw [millisDuration_eq hfits]
    omega
  rw [hsum] at hparses hdeadline
  obtain ⟨hlow, hhigh⟩ := yearOf_of_parseTime hparses
  rw [← hdeadline]
  exact ⟨createdAt, hcreated, rfl, parseTime_formatTime hlow hhigh⟩

end

/-! ## Runs -/

/-- A reservation is made with a preparation that was constructed. -/
def Request.Prepared (codec : Codec) : Request → Prop
  | .reserve preparation _ => ∃ policies, newLifecyclePreparation codec policies = .ok preparation
  | _ => True

/-- The meaning of a request whose capability was constructed. -/
def preparedSem (codec : Codec) : Sem port Nat Db := fun i r db ans db' =>
  sem codec i r db ans db' ∧ r.Prepared codec

/-- The runs whose capabilities were constructed. -/
def PreparedReach (codec : Codec) : Pool → Prop :=
  Interleave.Pool.Reach (preparedSem codec) (fun _ _ => False) (Call.body codec) {}

/-- The retention that is stored for an operation: its transcript has one deadline, which is the
creation time of the channel plus the active retention of the valid policy that the operation was
made under, and so is later than the creation time. -/
structure Retained (codec : Codec) (db : Db) (row : OperationRow) (t : Transcript)
    (created : ChannelMetadata) (instant : Int) (known : PolicyRow) (bound : PolicyBinding) :
    Prop where
  transcript : t ∈ db.transcripts ∧ t.key = row.key
  metadata : codec.channelMetadata t.canonicalMetadata = some created
  createdAt : parseTime created.createdAt = some instant
  policy : known ∈ db.policies ∧ known.policyDigest = row.canonicalIntent.policyDigest
  valid : validatePolicy codec known.canonicalPolicy
  binding : bound ∈ db.bindings ∧ bound.key = row.key ∧
    bound.policyDigest = row.canonicalIntent.policyDigest
  unique : ∀ other ∈ db.bindings, other.key = row.key → other = bound
  deadline : parseTime bound.retentionDeadline =
    some (instant + known.canonicalPolicy.activeRetentionMillis)
  later : instant < instant + known.canonicalPolicy.activeRetentionMillis

/-- A retention is stored for the operation. -/
def Retention (codec : Codec) (db : Db) (row : OperationRow) : Prop :=
  ∃ t created instant known bound, Retained codec db row t created instant known bound

/-- The invariant of the retention deadlines. -/
structure Retaining (codec : Codec) (db : Db) : Prop extends Ordered db where
  bindings : (db.bindings.map (·.key)).Nodup
  rows : ∀ row ∈ db.operations, Retention codec db row

section
variable {codec : Codec} {db db' : Db} {row row' : OperationRow} {request : Request}

theorem Retaining.empty : Retaining codec {} where
  toOrdered := .empty
  bindings := List.nodup_nil
  rows := by simp

/-- A valid policy retains for some time. -/
theorem pos_of_validatePolicy {policy : Policy} (h : validatePolicy codec policy) :
    0 < policy.activeRetentionMillis := by
  simp only [validatePolicy, validPolicyFields, positive, Bool.and_eq_true, decide_eq_true_eq] at h
  omega

/-- What is stored for an operation stays where its tables only grow. -/
theorem Retention.later (h : Retention codec db row) (hnodup : (db'.bindings.map (·.key)).Nodup)
    (hpolicies : db.policies ⊆ db'.policies) (hbindings : db.bindings ⊆ db'.bindings)
    (hmetadata : ∀ t ∈ db.transcripts, ∃ t' ∈ db'.transcripts,
      t'.key = t.key ∧ t'.canonicalMetadata = t.canonicalMetadata)
    (hcont : Continues row row') : Retention codec db' row' := by
  obtain ⟨t, created, instant, known, bound, hret⟩ := h
  obtain ⟨t', ht', hkey, hsame⟩ := hmetadata t hret.transcript.1
  have hbound := hbindings hret.binding.1
  have hboundKey : bound.key = row'.key := hret.binding.2.1.trans hcont.key.symm
  refine ⟨t', created, instant, known, bound,
    { transcript := ⟨ht', hkey.trans (hret.transcript.2.trans hcont.key.symm)⟩
      metadata := hsame ▸ hret.metadata
      createdAt := hret.createdAt
      policy := ⟨hpolicies hret.policy.1, hcont.canonicalIntent ▸ hret.policy.2⟩
      valid := hret.valid
      binding := ⟨hbound, hboundKey, hcont.canonicalIntent ▸ hret.binding.2.2⟩
      unique := fun other ho hother => ?_
      deadline := hret.deadline
      later := hret.later }⟩
  exact List.inj_on_of_nodup_map hnodup ho hbound (hother.trans hboundKey.symm)

/-- A turn that adds no operation keeps the deadlines. -/
theorem Retaining.same (h : Retaining codec db) (hord : Ordered db') (hs : SameRetention db db')
    (hfrom : ∀ row' ∈ db'.operations, ∃ row ∈ db.operations, Follows row row') :
    Retaining codec db' := by
  have hnodup : (db'.bindings.map (·.key)).Nodup := by
    rw [hs.bindings]
    exact h.bindings
  refine ⟨hord, hnodup, fun row' hrow' => ?_⟩
  obtain ⟨row, hrow, hfollows⟩ := hfrom row' hrow'
  exact (h.rows row hrow).later hnodup (hs.policies ▸ List.Subset.refl _)
    (hs.bindings ▸ List.Subset.refl _) hs.metadata hfollows.toContinues

/-- What a reservation under a constructed capability stores. -/
theorem Retains.retention {preparation : LifecyclePreparation} {intent : Intent} {policy : Policy}
    (h : Retains codec preparation intent policy db db')
    (hprep : ∃ policies, newLifecyclePreparation codec policies = .ok preparation)
    (hnodup : (db'.bindings.map (·.key)).Nodup) :
    Retention codec db' (reservedRow codec intent policy) := by
  obtain ⟨policies, hprep⟩ := hprep
  obtain ⟨hvalid, hfits⟩ := newLifecyclePreparation_ok hprep policy h.known
  obtain ⟨t, ht, hkey, created, deadline, hmetadata, hdeadline, hbound⟩ := h.deadline
  obtain ⟨instant, hinstant, -, hparses⟩ := retentionDeadline_ok hfits hdeadline
  refine ⟨t, created, instant, _, _,
    { transcript := ⟨h.transcripts ▸ ht, hkey⟩
      metadata := hmetadata
      createdAt := hinstant
      policy := ⟨h.policy, h.digest⟩
      valid := hvalid
      binding := ⟨hbound, rfl, rfl⟩
      unique := fun other ho hother => List.inj_on_of_nodup_map hnodup ho hbound hother
      deadline := hparses
      later := ?_ }⟩
  have hpos := pos_of_validatePolicy hvalid
  change instant < instant + (policy.activeRetentionMillis : Int)
  omega

/-- A turn of a constructed capability keeps the deadlines. -/
theorem Retaining.turn (h : Retaining codec db) (hord : Ordered db')
    (hprep : request.Prepared codec) (ht : Turn codec db db' request) : Retaining codec db' := by
  cases ht with
  | framed hops _ _ _ hs =>
    exact h.same hord hs fun row hrow => ⟨row, hops ▸ hrow, .refl row⟩
  | reserved policy _ _ hops _ _ _ hret =>
    have hnodup := hret.unique h.bindings
    refine ⟨hord, hnodup, fun row hrow => ?_⟩
    rw [hops] at hrow
    rcases List.mem_append.1 hrow with hrow | hrow
    · exact (h.rows row hrow).later hnodup hret.policies hret.bindings
        (fun t ht => ⟨t, hret.transcripts ▸ ht, rfl, rfl⟩) (.refl row)
    · rw [List.mem_singleton.1 hrow]
      exact hret.retention hprep hnodup
  | moved _ _ hfound hm hops _ _ _ _ hs | marked _ _ _ hfound hm _ hops _ _ _ hs =>
    exact h.same hord hs fun row hrow => hm.comes hfound (hops ▸ hrow)
  | removed _ _ _ _ hfound hm _ _ _ hloop heq =>
    subst heq
    obtain ⟨records, payloads, identifiers, rfl⟩ := removeRecords_frame hloop
    exact h.same hord (.of_eq rfl rfl rfl) fun _ => hm.comes hfound
  | recorded _ _ _ _ _ _ _ _ _ _ heq =>
    subst heq
    exact h.same hord (.of_eq rfl rfl rfl) fun row hrow => ⟨row, hrow, .refl row⟩
  | bound _ _ hfound hm _ heq | completed _ _ hfound hm _ _ _ heq =>
    subst heq
    exact h.same hord (.of_eq rfl rfl rfl) fun _ => hm.comes hfound

theorem PreparedReach.retaining {p : Pool} (hp : PreparedReach codec p) :
    Retaining codec p.shared := by
  refine Interleave.Pool.Reach.invariant Retaining.empty ?_ (fun _ _ _ hf => hf.elim) hp
  intro i r db ans db' h ⟨hs, hprep⟩
  rcases Attempt.cases hs with rfl | ⟨a, hrun⟩
  · exact h
  · exact h.turn ((run_effect hrun).ordered h.toOrdered) hprep (run_turn h.toOrdered hrun)

/-- **A reservation stores the creation time plus the active retention.** In every run whose
capabilities were constructed, every operation has its retention stored, and so has the operation of
every reservation that succeeded. -/
theorem reserve_retention {p : Pool} (hp : PreparedReach codec p) :
    (∀ row ∈ p.shared.operations, Retention codec p.shared row) ∧
    ∀ i preparation intent outcome, p.Returned i (.reserve preparation intent) outcome →
      outcome.isOk = true → ∃ row ∈ p.shared.operations, row.operationID = intent.operationID ∧
        row.canonicalIntent = intent ∧ Retention codec p.shared row := by
  have hrows := hp.retaining.rows
  refine ⟨hrows, fun i preparation intent outcome hreturned hok => ?_⟩
  have hreach : Reach codec p := hp.mono fun _ _ _ _ _ h => h.1
  obtain ⟨-, row, hrow, hid, hintent⟩ := hreach.done hreturned hok
  exact ⟨row, hrow, hid, hintent, hrows row hrow⟩

end

theorem prepared_samplePolicy :
    newLifecyclePreparation fenceCodec [samplePolicy] = .ok ⟨[samplePolicy]⟩ := by
  rfl

theorem preparedSem_of_run (i : Nat) (r : Request) (db : Db) (a : r.Result) (db' : Db)
    (h : r.run fenceCodec db = .ok (a, db')) (_ : r.Fenced db)
    (hr : ∀ p intent, r ≠ .reserve p intent) : preparedSem fenceCodec i r db (.ok a) db' := by
  refine ⟨.committed h, ?_⟩
  cases r with
  | reserve preparation intent => exact absurd rfl (hr preparation intent)
  | _ => trivial

/-- The reservation of the sample operation. -/
theorem reserve_retention_sample : ∃ p : Pool, PreparedReach fenceCodec p ∧
    p.Returned 3 (.reserve ⟨[samplePolicy]⟩ sampleIntent) (.operation (.ok sampleRow.operation)) ∧
    ∃ row ∈ p.shared.operations, row.canonicalIntent = sampleIntent ∧
      Retention fenceCodec p.shared row := by
  obtain ⟨p, hp, hi⟩ := sampleRecord_reachable preparedSem_of_run
  obtain ⟨q, hq, -, hreturned, -⟩ := hi.exec (S := preparedSem fenceCodec)
    (c := .reserve ⟨[samplePolicy]⟩ sampleIntent)
    (exec_ask (r := .reserve _ _) ⟨.committed reserve_sample, _, prepared_samplePolicy⟩)
  obtain ⟨row, hrow, -, hintent, hret⟩ :=
    (reserve_retention (hp.trans hq)).2 3 _ _ _ hreturned rfl
  exact ⟨q, hp.trans hq, hreturned, row, hrow, hintent, hret⟩

end YukhCoordination.Relay.Sqlite
