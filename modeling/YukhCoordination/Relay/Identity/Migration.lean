import YukhCoordination.Relay.Identity.Registry

/-!
# Migration of the identity schema

The step of `migrate` from version 1, which leaves a revoked session that `startup` refuses
(`openVersion1_revoked`).
-/

namespace YukhCoordination.Relay.Identity

open Transaction
open Coordination (Time)
open Audit (Digest)

/-- A row of `sessions` in version 1. -/
structure SessionV1 where
  tenantID : String
  principalID : String
  participantInstanceID : String
  sessionEpoch : Nat
  tokenDigest : Digest
  dpopThumbprint : Digest
  issuedAtMS : Int
  expiresAtMS : Int
  state : SessionState
  bootstrapOperationID : String
  activationReceipt : Option String
  revokedAtMS : Option Int
  revocationReason : Option String
  revocationAuthority : Option String

/-- A database of version 1. In `restore_epoch_floors` the recovery reference is called
`checkpoint_receipt`. -/
structure DbV1 where
  metadata : Metadata
  principalEpochs : List PrincipalEpoch
  sessions : List SessionV1
  proofReplays : List ProofReplay
  restoreEpochFloors : List RestoreEpochFloor

/-- `ALTER TABLE sessions ADD COLUMN revocation_operation_id`. -/
def SessionV1.addColumn (row : SessionV1) : Session := { row with revocationOperationID := none }

/-- The checks of a row of `sessions` in version 1: those of version 2 but for the added column. -/
def SessionV1.check (row : SessionV1) : Bool := row.addColumn.check

/-- `migrate`, from version 1. -/
def migrate (db : DbV1) : Db := { db with sessions := db.sessions.map SessionV1.addColumn }

/-- `open` of a database of version 1: `migrate`, and `startup`. -/
def openVersion1 (restored : Bool) (now : Time) (db : DbV1) : Except RegistryError (Unit × Db) :=
  startup restored now (migrate db)

/-- A row as a restart leaves it. -/
def Session.restarted (row : Session) : Session :=
  if row.state == .pending then { row with state := .abandoned } else row

/-- A pending session that passes the checks of its row also passes them as an abandoned one. -/
theorem Session.check_abandoned {row : Session} (h : row.check) (hp : row.state = .pending) :
    { row with state := .abandoned : Session }.check := by
  unfold Session.check at h ⊢
  rw [hp] at h
  exact h

/-- What `startup` does to a database whose rows pass their checks and record every revocation. -/
theorem startup_of_check {restored : Bool} {now : Time} {nowMS : Int} {db : Db}
    (hnow : unixMillis now = some nowMS) (hcheck : ∀ row ∈ db.sessions, row.check)
    (hrevoked : ∀ row ∈ db.sessions, (row.state == .revoked) = row.revocationOperationID.isSome) :
    startup restored now db = .ok ((), { db with
      metadata := startupMetadata restored nowMS db.metadata
      sessions := db.sessions.map Session.restarted }) := by
  refine required_bind.2 ⟨nowMS, hnow, bind_ok.2 ⟨(_, _), ensure_bind.2 ⟨?_, rfl⟩,
    ensure_bind.2 ⟨?_, rfl⟩⟩⟩
  · refine List.all_eq_true.2 fun row hrow => ?_
    by_cases hp : row.state = .pending
    · rw [Session.check_abandoned (hcheck row hrow) hp, Bool.or_true]
    · simp [hp]
  · simp only [List.all_map, List.all_eq_true]
    intro row hrow
    have h := hrevoked row hrow
    by_cases hp : row.state = .pending
    · rw [hp] at h
      simp [hp, ← h]
    · simp [hp, h]

/-- A database of version 1 whose sessions pass the checks of their table and have not been revoked
opens, at every valid reading of the clock. Its sessions, epochs, proofs and floors are as they
were, except that a pending session is abandoned. -/
theorem openVersion1_admits {db : DbV1} (hcheck : ∀ row ∈ db.sessions, row.check = true)
    (hrevoked : ∀ row ∈ db.sessions, row.state ≠ .revoked) (restored : Bool) {now : Time}
    {nowMS : Int} (hnow : unixMillis now = some nowMS) :
    ∃ db', openVersion1 restored now db = .ok ((), db') ∧
      db'.sessions = db.sessions.map (fun row => row.addColumn.restarted) ∧
      db'.principalEpochs = db.principalEpochs ∧ db'.proofReplays = db.proofReplays ∧
      db'.restoreEpochFloors = db.restoreEpochFloors ∧
      db'.metadata = startupMetadata restored nowMS db.metadata := by
  refine ⟨_, startup_of_check hnow (fun row hrow => ?_) fun row hrow => ?_, ?_, rfl, rfl, rfl, rfl⟩
  · obtain ⟨old, hold, rfl⟩ := List.mem_map.1 hrow
    exact hcheck old hold
  · obtain ⟨old, hold, rfl⟩ := List.mem_map.1 hrow
    simpa [SessionV1.addColumn] using hrevoked old hold
  · simp [migrate]

/-- A row of version 1 in a state. -/
def sessionV1 (state : SessionState) (revoked : Option String) : SessionV1 where
  tenantID := "t"
  principalID := Audit.encodeDigest .zero
  participantInstanceID := "01980000-0000-7000-8000-000000000000"
  sessionEpoch := 1
  tokenDigest := .zero
  dpopThumbprint := .zero
  issuedAtMS := 0
  expiresAtMS := 900000
  state := state
  bootstrapOperationID := "01980000-0000-7000-8000-000000000000"
  activationReceipt := some "r"
  revokedAtMS := revoked.map fun _ => 1
  revocationReason := revoked
  revocationAuthority := revoked

/-- A database of version 1 with one session. -/
def registryV1 (row : SessionV1) : DbV1 :=
  ⟨⟨"01980000-0000-7000-8000-000000000000", 0, .admitted, none⟩, [], [row], [], []⟩

/-- A database of version 1 with an active session opens. -/
theorem openVersion1_admits_active : ∃ db',
    openVersion1 false ⟨0, true⟩ (registryV1 (sessionV1 .active none)) = .ok ((), db') := by
  obtain ⟨db', h, -⟩ := @openVersion1_admits (registryV1 (sessionV1 .active none))
    (by simp only [registryV1, List.forall_mem_singleton]; rfl)
    (by simp only [registryV1, List.forall_mem_singleton]; exact SessionState.noConfusion) false
    ⟨0, true⟩ 0 rfl
  exact ⟨db', h⟩

/-- A database of version 1 with a revoked session that passes the checks of its table does not
open. -/
theorem openVersion1_revoked : ¬ ∀ (db : DbV1) (now : Time),
    (∀ row ∈ db.sessions, row.check = true) → (unixMillis now).isSome →
      ∃ db', openVersion1 false now db = .ok ((), db') := by
  intro opens
  obtain ⟨db', h⟩ := opens (registryV1 (sessionV1 .revoked (some "r"))) ⟨0, true⟩
    (by simp only [registryV1, List.forall_mem_singleton]; rfl) rfl
  cases h

end YukhCoordination.Relay.Identity
