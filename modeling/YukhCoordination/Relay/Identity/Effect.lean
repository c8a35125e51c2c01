import YukhCoordination.Relay.Identity.Sessions

/-!
# What a call can do to the registry

`Ran` says what the transaction of each call commits (`run_ran`). So one call of the registry
changes its fence in one of a few ways (`FenceEffect`), never lowers the high-water of its clock,
changes the stored proofs only by the reservation of a proof that is not stored and by the cleanup
of rows whose retention the high-water has passed (`ProofEffect`), and changes the sessions as
`SessionEffect` says.
-/

namespace YukhCoordination.Relay.Identity

open Lifecycle Transaction
open Coordination (Time Duration second millisecond)
open Audit (Digest)

/-! ## Statements -/

section
variable {db db' db'' : Db}

/-- The sessions have been advanced, and nothing else has changed. -/
structure Moved (op : Operation) (db db' : Db) : Prop where
  advanced : Advanced op db db'
  rest : db' = { db with sessions := db'.sessions }

variable {op : Operation}

theorem Moved.refl : Moved op db db := ⟨.of_eq rfl, rfl⟩

theorem Moved.trans (h : Moved op db db') (h' : Moved op db' db'') : Moved op db db'' :=
  ⟨h.advanced.trans h'.advanced, h'.rest.trans (by rw [h.rest])⟩

/-- `UPDATE sessions` with a change that is a step of each row that it selects. -/
theorem updateSessions_moved {p : Session → Bool} {f : Session → Session} {rows : Nat}
    (h : db.updateSessions p f = .ok (rows, db'))
    (hstep : ∀ row ∈ db.sessions, p row → Session.Step op row (f row)) : Moved op db db' := by
  refine ⟨updateSessions_advanced h hstep, ?_⟩
  obtain ⟨-, h⟩ := ensure_bind.1 h
  cases h
  rfl

theorem expireSession_moved {nowMS : Int} {row : Session}
    (h : expireSession nowMS db row = .ok db') : Moved op db db' := by
  obtain ⟨⟨rows, db₁⟩, hupdate, h⟩ := bind_ok.1 h
  cases h
  refine updateSessions_moved hupdate fun row _ hp => .expired ?_
  simp only [Bool.and_eq_true, beq_iff_eq] at hp
  exact hp.1.2

theorem insertSession_ok {row : Session} (h : db.insertSession row = .ok db') :
    db' = { db with sessions := db.sessions ++ [row] } := by
  obtain ⟨-, h⟩ := ensure_bind.1 h
  cases h
  rfl

theorem allocateEpoch_rest {tenant principal : String} {epoch : Nat}
    (h : allocateEpoch db tenant principal = .ok (epoch, db')) :
    db' = { db with principalEpochs := db'.principalEpochs } := by
  obtain ⟨-, h⟩ := ensure_bind.1 h
  cases h
  rfl

/-- A reserved proof was not stored, and is stored now. -/
theorem reserveProof_ok {thumbprint : Digest} {jti participant : String} {purpose : ProofPurpose}
    {issuedAt : Time} (h : reserveProof db thumbprint jti purpose issuedAt participant = .ok db') :
    (∀ row ∈ db.proofReplays, (row.jwkThumbprint, row.proofJTI) ≠ (thumbprint, jti)) ∧
      db' = { db with proofReplays :=
        db.proofReplays ++ [proofRow thumbprint jti purpose issuedAt participant] } := by
  obtain ⟨-, h⟩ := ensure_bind.1 h
  obtain ⟨-, h⟩ := ensure_bind.1 h
  obtain ⟨hnew, h⟩ := ensure_bind.1 h
  obtain ⟨-, h⟩ := ensure_bind.1 h
  cases h
  exact ⟨fun row hrow => bne_iff_ne.1 (List.all_eq_true.1 hnew row hrow), rfl⟩

theorem stageFloor_rest {manifestReference : String} {floor : EpochFloor}
    {state state' : List (String × String) × Db}
    (h : stageFloor manifestReference state floor = .ok state') :
    state'.2 = { state.2 with restoreEpochFloors := state'.2.restoreEpochFloors } := by
  obtain ⟨-, h⟩ := ensure_bind.1 h
  obtain ⟨-, h⟩ := ensure_bind.1 h
  obtain ⟨-, h⟩ := ensure_bind.1 h
  obtain ⟨-, h⟩ := ensure_bind.1 h
  cases h
  rfl

/-! ## The clock -/

/-- The database in which the clock has been observed at `nowMS`. -/
def Db.observe (db : Db) (nowMS : Int) : Db :=
  { db with metadata := { db.metadata with wallHighWaterMS := nowMS } }

/-- The database with the clock fence. -/
def Db.fenceClock (db : Db) : Db :=
  { db with metadata := { db.metadata with fenceState := .clockFenced } }

theorem unixMillis_some {value : Time} {ms : Int} (h : unixMillis value = some ms) :
    ms = unixMilli value := by
  unfold unixMillis at h
  split at h
  · exact (Option.some.inj h).symm
  · cases h

theorem unixMillis_range {value : Time} {ms : Int} (h : unixMillis value = some ms) :
    0 ≤ ms ∧ ms ≤ maxJSONSafeInt := by
  unfold unixMillis at h
  split at h
  · next hrange =>
    cases h
    simpa using hrange
  · cases h

theorem le_startupMetadata {restored : Bool} {nowMS : Int} {metadata : Metadata} :
    metadata.wallHighWaterMS ≤ (startupMetadata restored nowMS metadata).wallHighWaterMS := by
  unfold startupMetadata
  split
  · exact le_refl _
  · split
    · exact le_refl _
    · split
      · next hlt => exact hlt.le
      · exact le_refl _

/-- `observeClock` succeeds only in an admitted registry. It fences the clock, or it goes on with
the later one of the reading and the high-water. -/
theorem observeClock_ok {now : Time} {observed : Except RegistryError Int}
    (h : observeClock now db = .ok (observed, db')) : db.metadata.fenceState = .admitted ∧
      ((observed = .error .clockRollback ∧ db' = db.fenceClock) ∨
        (observed = .ok (max db.metadata.wallHighWaterMS (unixMilli now)) ∧
          db' = db.observe (max db.metadata.wallHighWaterMS (unixMilli now)))) := by
  obtain ⟨nowMS, hnow, h⟩ := required_bind.1 h
  obtain ⟨hfence, h⟩ := ensure_bind.1 h
  obtain rfl := unixMillis_some hnow
  refine ⟨by simpa using hfence, ?_⟩
  split at h
  · cases h
    exact .inl ⟨rfl, rfl⟩
  · split at h
    · next hlt =>
      cases h
      rw [max_eq_right hlt.le]
      exact .inr ⟨rfl, rfl⟩
    · next hle =>
      cases h
      rw [max_eq_left (not_lt.1 hle)]
      exact .inr ⟨rfl, rfl⟩

/-- What a transaction that observes the clock commits. -/
theorem withClock_ok {α : Type} {now : Time} {body : Int → Db → Except RegistryError (α × Db)}
    {answer : Except RegistryError α} (h : withClock now db body = .ok (answer, db')) :
    db.metadata.fenceState = .admitted ∧ ((answer = .error .clockRollback ∧ db' = db.fenceClock) ∨
        ∃ nowMS a, nowMS = max db.metadata.wallHighWaterMS (unixMilli now) ∧ answer = .ok a ∧
          body nowMS (db.observe nowMS) = .ok (a, db')) := by
  obtain ⟨⟨observed, db₁⟩, hclock, h⟩ := bind_ok.1 h
  obtain ⟨hfence, ⟨rfl, rfl⟩ | ⟨rfl, rfl⟩⟩ := observeClock_ok hclock
  · cases h
    exact ⟨hfence, .inl ⟨rfl, rfl⟩⟩
  · obtain ⟨⟨a, db₂⟩, hbody, h⟩ := bind_ok.1 h
    cases h
    exact ⟨hfence, .inr ⟨_, a, rfl, rfl, hbody⟩⟩

theorem withoutClock_ok {α : Type} {result : Except RegistryError (α × Db)}
    {answer : Except RegistryError α} (h : withoutClock result = .ok (answer, db')) :
    ∃ a, answer = .ok a ∧ result = .ok (a, db') := by
  obtain ⟨⟨a, db₁⟩, hresult, h⟩ := bind_ok.1 h
  cases h
  exact ⟨a, rfl, hresult⟩

end

/-! ## The proofs that calls reserve -/

/-- The proof that a call reserves: its key thumbprint, its `jti` and its `iat`. -/
def Operation.proof? : Operation → Option (Digest × String × Time)
  | .reserveBootstrap request =>
    some (request.session.dpopThumbprint, request.proofJTI, request.proofIAT)
  | .authenticate request => some (request.dpopThumbprint, request.proofJTI, request.proofIAT)
  | _ => none

/-- The last instant of the retention of a proof. -/
def retainUntil (issuedAt : Time) : Int :=
  unixMilli (issuedAt.toUTC.add (proofPastWindow + millisecond))

/-- What a call can do to the stored proofs. -/
inductive ProofEffect (db db' : Db) : (op : Operation) → Except RegistryError op.Answer → Prop
  | kept {op : Operation} {answer : Except RegistryError op.Answer} :
      (op.proof?.isSome → ∃ e, answer = .error e) → db'.proofReplays = db.proofReplays →
      ProofEffect db db' op answer
  | reserved {op : Operation} {a : op.Answer} {thumbprint : Digest} {jti : String} {issuedAt : Time}
      {row : ProofReplay} : op.proof? = some (thumbprint, jti, issuedAt) →
      (row.jwkThumbprint, row.proofJTI) = (thumbprint, jti) →
      row.retainUntilMS = retainUntil issuedAt →
      (∀ other ∈ db.proofReplays, (other.jwkThumbprint, other.proofJTI) ≠ (thumbprint, jti)) →
      db'.proofReplays = db.proofReplays ++ [row] → ProofEffect db db' op (.ok a)
  | cleaned {answer : Except RegistryError Nat} : (∀ row ∈ db.proofReplays, row ∈ db'.proofReplays ∨
        row.retainUntilMS < db'.metadata.wallHighWaterMS) →
      ProofEffect db db' .cleanupProofs answer

/-- Every floor is staged under the manifest, and every principal has a floor. -/
def StagedUnder (manifestReference : String) (db : Db) : Prop :=
  ∀ row ∈ db.principalEpochs, ∃ floor ∈ db.restoreEpochFloors, floor.tenantID = row.tenantID ∧
    floor.principalID = row.principalID ∧ floor.recoveryReference = manifestReference

/-- What a call can do to the fence. -/
inductive FenceEffect (now : Time) (db db' : Db) : Operation → Prop
  | kept {op : Operation} : db'.metadata.fenceState = db.metadata.fenceState →
      FenceEffect now db db' op
  | observed {op : Operation} : db.metadata.fenceState = .admitted →
      db'.metadata.fenceState = .clockFenced → FenceEffect now db db' op
  | restored : db'.metadata.fenceState = .restoreFenced → FenceEffect now db db' (.startup true)
  | started : unixMilli now < db.metadata.wallHighWaterMS - clockToleranceMS →
      db'.metadata.fenceState = .clockFenced → FenceEffect now db db' (.startup false)
  | completed {databaseID manifestReference auditReceipt : String} :
      db.metadata.fenceState = .restoreFenced → StagedUnder manifestReference db →
      db'.metadata.fenceState = .admitted →
      FenceEffect now db db' (.completeRestore databaseID manifestReference auditReceipt)
  | recovered {recoveredAt : Time} {receipt : String} : db.metadata.fenceState = .clockFenced →
      db'.metadata.fenceState = .admitted →
      FenceEffect now db db' (.recoverClock recoveredAt receipt)

/-- The effect of a call: on the fence, on the high-water and on the stored proofs. -/
structure Effect (now : Time) (db db' : Db) (op : Operation)
    (answer : Except RegistryError op.Answer) : Prop where
  fence : FenceEffect now db db' op
  highWater : db.metadata.wallHighWaterMS ≤ db'.metadata.wallHighWaterMS
  proofs : ProofEffect db db' op answer

/-! ## The calls -/

/-- The call reserves no proof and stages no floor. -/
def Operation.quiet : Operation → Bool
  | .reserveBootstrap _ | .authenticate _ | .stageRestoreFloors .. => false
  | _ => true

/-- A transaction has observed the clock, and goes on with `nowMS`. -/
structure Observed (now : Time) (db : Db) (nowMS : Int) : Prop where
  admitted : db.metadata.fenceState = .admitted
  readable : unixMilli now ≤ maxJSONSafeInt
  reading : nowMS = max db.metadata.wallHighWaterMS (unixMilli now)

/-- What the transaction of a call commits. -/
inductive Ran (now : Time) (db : Db) : (op : Operation) → Except RegistryError op.Answer → Db → Prop
  | read {op : Operation} {answer : Except RegistryError op.Answer} : op.quiet →
      Ran now db op answer db
  | fenced {op : Operation} : db.metadata.fenceState = .admitted →
      Ran now db op (.error .clockRollback) db.fenceClock
  | sessions {op : Operation} {answer : Except RegistryError op.Answer} {nowMS : Int} {db' : Db} :
      op.quiet → Observed now db nowMS → Moved op (db.observe nowMS) db' →
      Ran now db op answer db'
  | startup {restored : Bool} {answer : Except RegistryError Unit} {nowMS : Int} {db' : Db} :
      unixMillis now = some nowMS →
      Moved (.startup restored)
        { db with metadata := startupMetadata restored nowMS db.metadata } db' →
      Ran now db (.startup restored) answer db'
  | reserveBootstrap {request : BootstrapReservation} {nowMS : Int} {epoch : Nat}
      {session : PendingSession} {db₁ db₂ db' : Db} : Observed now db nowMS →
      validateBootstrap request → session = { request.session with sessionEpoch := epoch } →
      allocateEpoch (db.observe nowMS) session.tenantID session.principalID = .ok (epoch, db₁) →
      db₁.insertSession (pendingRow session) = .ok db₂ →
      reserveProof db₂ session.dpopThumbprint request.proofJTI .bootstrap request.proofIAT
        session.participantInstanceID = .ok db' →
      Ran now db (.reserveBootstrap request) (.ok session) db'
  | authenticate {request : AuthenticationReservation} {a : ActiveSession} {nowMS : Int}
      {participant : String} {db' : Db} : Observed now db nowMS →
      reserveProof (db.observe nowMS) request.dpopThumbprint request.proofJTI .authentication
        request.proofIAT participant = .ok db' → Ran now db (.authenticate request) (.ok a) db'
  | stageRestoreFloors {databaseID manifestReference : String} {wallHighWater : Time}
      {floors : List EpochFloor} {answer : Except RegistryError Unit}
      {seen : List (String × String)} {highWaterMS : Int} {db₁ : Db} :
      unixMillis wallHighWater = some highWaterMS →
      floors.foldlM (stageFloor manifestReference) ([], db) = .ok (seen, db₁) →
      Ran now db (.stageRestoreFloors databaseID manifestReference wallHighWater floors) answer
        (db₁.observe (max db₁.metadata.wallHighWaterMS highWaterMS))
  | completeRestore {databaseID manifestReference auditReceipt : String}
      {answer : Except RegistryError Unit} : db.metadata.fenceState = .restoreFenced →
      StagedUnder manifestReference db →
      Ran now db (.completeRestore databaseID manifestReference auditReceipt) answer
        { db with metadata := { db.metadata with
          fenceState := .admitted, fenceReceipt := some auditReceipt } }
  | recoverClock {recoveredAt : Time} {receipt : String} {answer : Except RegistryError Unit}
      {recoveredMS : Int} : unixMillis recoveredAt = some recoveredMS →
      db.metadata.fenceState = .clockFenced → db.metadata.wallHighWaterMS ≤ recoveredMS →
      Ran now db (.recoverClock recoveredAt receipt) answer { db with metadata := { db.metadata with
          wallHighWaterMS := recoveredMS, fenceState := .admitted, fenceReceipt := some receipt } }
  | cleanupProofs {answer : Except RegistryError Nat} {nowMS : Int} : Observed now db nowMS →
      Ran now db .cleanupProofs answer { db.observe nowMS with
        proofReplays := db.proofReplays.filter (!(lapsedProofs nowMS db.proofReplays).contains ·) }

section
variable {now : Time} {db db' : Db} {op : Operation} {answer : Except RegistryError op.Answer}

/-- A call that observes the clock first. -/
theorem withClock_ran {body : Int → Db → Except RegistryError (op.Answer × Db)}
    (hbody : ∀ nowMS a, Observed now db nowMS → body nowMS (db.observe nowMS) = .ok (a, db') →
      Ran now db op (.ok a) db') (h : withClock now db body = .ok (answer, db')) :
    Ran now db op answer db' := by
  have hnow : unixMilli now ≤ maxJSONSafeInt := by
    obtain ⟨observed, hclock, -⟩ := bind_ok.1 h
    obtain ⟨nowMS, hnow, -⟩ := required_bind.1 hclock
    exact unixMillis_some hnow ▸ (unixMillis_range hnow).2
  obtain ⟨hfence, ⟨rfl, rfl⟩ | ⟨nowMS, a, hreading, rfl, hrun⟩⟩ := withClock_ok h
  · exact .fenced hfence
  · exact hbody nowMS a ⟨hfence, hnow, hreading⟩ hrun

/-- **What a call commits.** -/
theorem run_ran (h : op.run now db = .ok (answer, db')) : Ran now db op answer db' := by
  cases op with
  | startup restored =>
    obtain ⟨⟨⟩, -, h⟩ := withoutClock_ok h
    obtain ⟨nowMS, hnow, h⟩ := required_bind.1 h
    obtain ⟨⟨rows, db₁⟩, hupdate, h⟩ := bind_ok.1 h
    obtain ⟨-, h⟩ := ensure_bind.1 h
    cases h
    exact .startup hnow (updateSessions_moved hupdate fun row _ hp =>
      .abandoned (by simpa using hp))
  | status =>
    obtain ⟨a, -, h⟩ := withoutClock_ok h
    cases h
    exact .read rfl
  | recoverySnapshot =>
    obtain ⟨a, -, h⟩ := withoutClock_ok h
    obtain ⟨-, h⟩ := ensure_bind.1 h
    obtain ⟨-, h⟩ := ensure_bind.1 h
    cases h
    exact .read rfl
  | reserveBootstrap request =>
    obtain ⟨hvalid, h⟩ := ensure_bind.1 h
    refine withClock_ran (fun nowMS a hclock h => ?_) h
    obtain ⟨-, h⟩ := ensure_bind.1 h
    obtain ⟨-, h⟩ := ensure_bind.1 h
    obtain ⟨⟨epoch, db₁⟩, hepoch, h⟩ := bind_ok.1 h
    obtain ⟨db₂, hinsert, h⟩ := bind_ok.1 h
    obtain ⟨db₃, hreserve, h⟩ := bind_ok.1 h
    cases h
    exact .reserveBootstrap hclock hvalid rfl hepoch hinsert hreserve
  | activateBootstrap operationID receipt =>
    obtain ⟨-, h⟩ := ensure_bind.1 h
    refine withClock_ran (fun nowMS a hclock h => ?_) h
    obtain ⟨⟨rows, db₁⟩, hupdate, h⟩ := bind_ok.1 h
    obtain ⟨-, -, h⟩ := bind_ok.1 h
    obtain ⟨session, -, h⟩ := bind_ok.1 h
    cases h
    refine .sessions rfl hclock (updateSessions_moved hupdate fun row _ hp => ?_)
    simp only [Bool.and_eq_true, beq_iff_eq] at hp
    exact .activated receipt (by rw [hp.1.1]) hp.1.2
  | authenticate request =>
    obtain ⟨-, h⟩ := ensure_bind.1 h
    refine withClock_ran (fun nowMS a hclock h => ?_) h
    obtain ⟨row, -, h⟩ := required_bind.1 h
    obtain ⟨-, h⟩ := ensure_bind.1 h
    obtain ⟨db₁, hreserve, h⟩ := bind_ok.1 h
    cases h
    exact .authenticate hclock hreserve
  | revoke request =>
    obtain ⟨-, h⟩ := ensure_bind.1 h
    refine withClock_ran (fun nowMS a hclock h => ?_) h
    obtain ⟨⟨rows, db₁⟩, hupdate, h⟩ := bind_ok.1 h
    obtain ⟨-, -, h⟩ := bind_ok.1 h
    cases h
    refine .sessions rfl hclock
      (updateSessions_moved hupdate fun row _ hp => .revoked nowMS request ?_)
    simp only [Bool.and_eq_true, beq_iff_eq] at hp
    exact hp.1.2
  | isActive key =>
    obtain ⟨-, h⟩ := ensure_bind.1 h
    refine withClock_ran (fun nowMS a hclock h => ?_) h
    obtain ⟨row, -, h⟩ := required_bind.1 h
    split at h
    · obtain ⟨⟨rows, db₁⟩, hupdate, h⟩ := bind_ok.1 h
      cases h
      refine .sessions rfl hclock (updateSessions_moved hupdate fun row _ hp => .expired ?_)
      simp only [Bool.and_eq_true, beq_iff_eq] at hp
      exact hp.2
    · cases h
      exact .sessions rfl hclock .refl
  | stageRestoreFloors databaseID manifestReference wallHighWater floors =>
    obtain ⟨⟨⟩, -, h⟩ := withoutClock_ok h
    obtain ⟨highWaterMS, hhigh, h⟩ := required_bind.1 h
    obtain ⟨-, h⟩ := ensure_bind.1 h
    obtain ⟨-, h⟩ := ensure_bind.1 h
    obtain ⟨-, h⟩ := ensure_bind.1 h
    obtain ⟨nowMS, -, h⟩ := required_bind.1 h
    obtain ⟨-, h⟩ := ensure_bind.1 h
    obtain ⟨⟨seen, db₁⟩, hstage, h⟩ := bind_ok.1 h
    obtain ⟨-, h⟩ := ensure_bind.1 h
    obtain ⟨-, h⟩ := ensure_bind.1 h
    cases h
    exact .stageRestoreFloors hhigh hstage
  | completeRestore databaseID manifestReference auditReceipt =>
    obtain ⟨⟨⟩, -, h⟩ := withoutClock_ok h
    obtain ⟨-, h⟩ := ensure_bind.1 h
    obtain ⟨-, h⟩ := ensure_bind.1 h
    split at h
    · cases h
      exact .read rfl
    · obtain ⟨hfence, h⟩ := ensure_bind.1 h
      obtain ⟨hstaged, h⟩ := ensure_bind.1 h
      cases h
      simp only [Bool.and_eq_true, List.all_eq_true, beq_iff_eq] at hfence hstaged
      refine .completeRestore hfence fun row hrow => ?_
      obtain ⟨floor, hfloor⟩ := Option.isSome_iff_exists.1 (hstaged.1 row hrow)
      have hmem := List.mem_of_find?_eq_some hfloor
      have hkey := List.find?_some hfloor
      simp only [Bool.and_eq_true, beq_iff_eq] at hkey
      exact ⟨floor, hmem, hkey.1, hkey.2, hstaged.2 floor hmem⟩
  | recoverClock recoveredAt receipt =>
    obtain ⟨⟨⟩, -, h⟩ := withoutClock_ok h
    obtain ⟨recoveredMS, hrecovered, h⟩ := required_bind.1 h
    obtain ⟨-, h⟩ := ensure_bind.1 h
    obtain ⟨hfence, h⟩ := ensure_bind.1 h
    cases h
    simp only [Bool.and_eq_true, beq_iff_eq, decide_eq_true_eq] at hfence
    exact .recoverClock hrecovered hfence.1 hfence.2
  | cleanupProofs =>
    refine withClock_ran (fun nowMS a hclock h => ?_) h
    cases h
    exact .cleanupProofs hclock
  | expireDue =>
    refine withClock_ran (fun nowMS a hclock h => ?_) h
    obtain ⟨db₁, hdue, h⟩ := bind_ok.1 h
    cases h
    exact .sessions rfl hclock (foldlM_ok_invariant
      (fun _ _ _ hs hrow => Moved.trans hs (expireSession_moved hrow)) .refl hdue)

theorem Observed.le {nowMS : Int} (h : Observed now db nowMS) :
    db.metadata.wallHighWaterMS ≤ (db.observe nowMS).metadata.wallHighWaterMS :=
  (le_max_left _ _).trans_eq h.reading.symm

theorem Operation.proof?_of_quiet (h : op.quiet) : op.proof? = none := by
  cases op <;> first | rfl | cases h

/-- The floors that a restore stages are all that it writes before the metadata. -/
theorem stageFloors_rest {manifestReference : String} {floors : List EpochFloor}
    {seen : List (String × String)}
    (h : floors.foldlM (stageFloor manifestReference) ([], db) = .ok (seen, db')) :
    db' = { db with restoreEpochFloors := db'.restoreEpochFloors } :=
  foldlM_ok_invariant
    (I := fun state => state.2 = { db with restoreEpochFloors := state.2.restoreEpochFloors })
    (fun _ _ _ hs hfloor => (stageFloor_rest hfloor).trans (by rw [hs])) rfl h

/-- **The effect of a call.** -/
theorem run_effect (h : op.run now db = .ok (answer, db')) : Effect now db db' op answer := by
  have hran := run_ran h
  cases hran with
  | read hquiet =>
    have hproof := Operation.proof?_of_quiet hquiet
    exact ⟨.kept rfl, le_refl _, .kept (by simp [hproof]) rfl⟩
  | fenced hfence => exact ⟨.observed hfence rfl, le_refl _, .kept (fun _ => ⟨_, rfl⟩) rfl⟩
  | sessions hquiet hclock hmoved =>
    have hproof := Operation.proof?_of_quiet hquiet
    rw [hmoved.rest]
    exact ⟨.kept rfl, hclock.le, .kept (by simp [hproof]) rfl⟩
  | @startup restored _ nowMS _ hnow hmoved =>
    rw [hmoved.rest]
    refine ⟨?_, ?_, .kept (by simp [Operation.proof?]) rfl⟩
    · obtain rfl := unixMillis_some hnow
      cases restored with
      | true => exact .restored rfl
      | false =>
        by_cases hlt : unixMilli now < db.metadata.wallHighWaterMS - clockToleranceMS
        · exact .started hlt (by simp [startupMetadata, hlt])
        · refine .kept ?_
          simp only [startupMetadata, if_neg hlt, Bool.false_eq_true, if_false]
          split <;> rfl
    · exact le_startupMetadata
  | reserveBootstrap hclock _ hsession hepoch hinsert hreserve =>
    subst hsession
    obtain ⟨hnew, rfl⟩ := reserveProof_ok hreserve
    obtain rfl := insertSession_ok hinsert
    rw [allocateEpoch_rest hepoch] at hnew ⊢
    exact ⟨.kept rfl, hclock.le, .reserved rfl rfl rfl hnew rfl⟩
  | authenticate hclock hreserve =>
    obtain ⟨hnew, rfl⟩ := reserveProof_ok hreserve
    exact ⟨.kept rfl, hclock.le, .reserved rfl rfl rfl hnew rfl⟩
  | stageRestoreFloors _ hstage =>
    rw [stageFloors_rest hstage]
    exact ⟨.kept rfl, le_max_left _ _, .kept (by simp [Operation.proof?]) rfl⟩
  | completeRestore hfence hstaged =>
    exact ⟨.completed hfence hstaged rfl, le_refl _, .kept (by simp [Operation.proof?]) rfl⟩
  | recoverClock _ hfence hle =>
    exact ⟨.recovered hfence rfl, hle, .kept (by simp [Operation.proof?]) rfl⟩
  | @cleanupProofs _ nowMS hclock =>
    refine ⟨.kept rfl, hclock.le, .cleaned fun row hrow => ?_⟩
    by_cases hlapsed : row ∈ lapsedProofs nowMS db.proofReplays
    · have hmem := List.mem_of_mem_take hlapsed
      rw [List.mem_insertionSort, List.mem_filter, decide_eq_true_eq] at hmem
      exact .inr hmem.2
    · refine .inl (List.mem_filter.2 ⟨hrow, ?_⟩)
      rw [Bool.not_eq_true', ← Bool.not_eq_true, List.contains_iff_mem]
      exact hlapsed

/-- **The effect of a call on the sessions.** -/
theorem run_sessions (h : op.run now db = .ok (answer, db')) : SessionEffect op db db' := by
  have hran := run_ran h
  cases hran with
  | read | fenced | completeRestore | recoverClock | cleanupProofs => exact .of_eq rfl
  | sessions _ _ hmoved => exact .advanced ((Advanced.of_eq rfl).trans hmoved.advanced)
  | startup _ hmoved => exact .advanced ((Advanced.of_eq rfl).trans hmoved.advanced)
  | reserveBootstrap _ _ _ hepoch hinsert hreserve =>
    obtain ⟨-, rfl⟩ := reserveProof_ok hreserve
    refine (insertSession_effect hinsert).congr ?_ rfl
    rw [allocateEpoch_rest hepoch]
    rfl
  | authenticate _ hreserve =>
    obtain ⟨-, rfl⟩ := reserveProof_ok hreserve
    exact .of_eq rfl
  | stageRestoreFloors _ hstage =>
    rw [stageFloors_rest hstage]
    exact .of_eq rfl

end

end YukhCoordination.Relay.Identity
