import YukhCoordination.Relay.Audit.Sqlite.Ledger

/-!
# The SQLite identity registry

The model of `internal/relay/identity/sqlite/registry.go`. A call is one transaction at a clock
reading `now`, and may commit beside an error. Session watchers are left out.
-/

namespace YukhCoordination.Relay.Identity

open Lifecycle Transaction
open Coordination (Time Duration second millisecond)
open Audit (Digest)

/-! ## The contract -/

/-- The errors of the registry. -/
inductive RegistryError where
  | invalid
  | unavailable
  | proofReplay
  | sessionNotFound
  | sessionConflict
  | fenced
  | clockRollback
  | epochExhausted
  deriving DecidableEq, Repr

/-- `SessionState`. -/
inductive SessionState where
  | pending
  | active
  | revoked
  | expired
  | abandoned
  deriving DecidableEq, Repr

/-- `ProofPurpose`. -/
inductive ProofPurpose where
  | bootstrap
  | authentication
  deriving DecidableEq, Repr

/-- `SessionKey`. -/
structure SessionKey where
  tenantID : String
  participantInstanceID : String
  sessionEpoch : Nat
  deriving DecidableEq, Repr

/-- `PendingSession`. -/
structure PendingSession where
  tenantID : String
  principalID : String
  participantInstanceID : String
  sessionEpoch : Nat
  tokenDigest : Digest
  dpopThumbprint : Digest
  issuedAt : Time
  expiresAt : Time
  bootstrapOperationID : String
  deriving DecidableEq, Repr

/-- `ActiveSession`. -/
structure ActiveSession where
  tenantID : String
  principalID : String
  participantInstanceID : String
  sessionEpoch : Nat
  dpopThumbprint : Digest
  expiresAt : Time
  deriving DecidableEq, Repr

/-- `BootstrapReservation`. -/
structure BootstrapReservation where
  session : PendingSession
  proofJTI : String
  proofIAT : Time
  deriving DecidableEq, Repr

/-- `AuthenticationReservation`. -/
structure AuthenticationReservation where
  tokenDigest : Digest
  dpopThumbprint : Digest
  proofJTI : String
  proofIAT : Time
  deriving DecidableEq, Repr

/-- `Revocation`. -/
structure Revocation where
  operationID : String
  key : SessionKey
  reason : String
  authorityReceipt : String
  deriving DecidableEq, Repr

/-- `EpochFloor`. -/
structure EpochFloor where
  tenantID : String
  principalID : String
  epoch : Nat
  deriving DecidableEq, Repr

/-! ## Tables -/

/-- The values of `fence_state`. -/
inductive FenceState where
  | admitted
  | restoreFenced
  | clockFenced
  deriving DecidableEq, Repr

/-- The row of `identity_metadata`. -/
structure Metadata where
  databaseID : String
  wallHighWaterMS : Int
  fenceState : FenceState
  fenceReceipt : Option String
  deriving DecidableEq, Repr

/-- A row of `principal_epochs`. -/
structure PrincipalEpoch where
  tenantID : String
  principalID : String
  lastEpoch : Nat
  deriving DecidableEq, Repr

/-- A row of `sessions`. -/
structure Session where
  tenantID : String
  principalID : String
  participantInstanceID : String
  sessionEpoch : Nat
  tokenDigest : Digest
  dpopThumbprint : Digest
  issuedAtMS : Int
  expiresAtMS : Int
  state : SessionState
  bootstrapOperationID : String
  activationReceipt : Option String
  revokedAtMS : Option Int
  revocationReason : Option String
  revocationAuthority : Option String
  revocationOperationID : Option String
  deriving DecidableEq, Repr

/-- A row of `proof_replays`. -/
structure ProofReplay where
  jwkThumbprint : Digest
  proofJTI : String
  purpose : ProofPurpose
  issuedAtMS : Int
  retainUntilMS : Int
  participantInstanceID : String
  deriving DecidableEq, Repr

/-- A row of `restore_epoch_floors`. -/
structure RestoreEpochFloor where
  tenantID : String
  principalID : String
  epochFloor : Nat
  recoveryReference : String
  deriving DecidableEq, Repr

/-- The database of the registry. -/
structure Db where
  metadata : Metadata
  principalEpochs : List PrincipalEpoch
  sessions : List Session
  proofReplays : List ProofReplay
  restoreEpochFloors : List RestoreEpochFloor
  deriving DecidableEq, Repr

/-- `RegistryStatus`. The schema version is that of the code. -/
structure RegistryStatus where
  databaseID : String
  fenceState : FenceState
  wallHighWater : Time
  deriving DecidableEq, Repr

/-- `RecoverySnapshot`. -/
structure RecoverySnapshot where
  databaseID : String
  wallHighWater : Time
  epochFloors : List EpochFloor
  deriving DecidableEq, Repr

/-! ## Validation -/

/-- `maxJSONSafeInt`. -/
def maxJSONSafeInt : Nat := 9007199254740991

/-- `clockTolerance`, in milliseconds. -/
def clockToleranceMS : Int := 5000

/-- `proofPastWindow`. -/
def proofPastWindow : Duration := 60 * second

/-- `cleanupBatch`. -/
def cleanupBatch : Nat := 256

/-- `t.UnixMilli()`. -/
def unixMilli (value : Time) : Int := value.unixNano / millisecond

/-- `time.UnixMilli(ms).UTC()`. -/
def ofUnixMilli (ms : Int) : Time := ⟨ms * millisecond, true⟩

/-- `unixMillis`. -/
def unixMillis (value : Time) : Option Int :=
  if 0 ≤ unixMilli value && unixMilli value ≤ maxJSONSafeInt then some (unixMilli value) else none

/-- `validTime`. -/
def validTime (value : Time) : Bool :=
  (unixMillis value).isSome && value.unixNano % millisecond == 0

/-- `base64URL`. -/
def base64URL (value : String) : Bool :=
  value.toList.all fun c => isLower c || isUpper c || isDigit c || c == '-' || c == '_'

/-- `validTenant`. -/
def validTenant (value : String) : Bool := Audit.tenantPattern value

/-- `validDigestText`. -/
def validDigestText (value : String) : Bool := value.toList.length == 43 && base64URL value

/-- `closedText`: `^[a-z0-9][a-z0-9._:-]{0,127}$`. -/
def closedText (value : String) : Bool := matchesName (fun c => isLower c || isDigit c)
    (fun c => isLower c || isDigit c || c == '.' || c == '_' || c == ':' || c == '-') 127 value

/-- `referenceText`. -/
def referenceText (value : String) : Bool := Audit.validReference value

/-- `validUUID`: a text that `uuid.Parse` reads and that is its own canonical form. -/
def validUUID (value : String) : Bool :=
  value.toList.length == 36 && value.toList.zipIdx.all fun (c, index) =>
    if index == 8 || index == 13 || index == 18 || index == 23 then c == '-' else isHex c

/-- `validProof`. -/
def validProof (jti : String) (issuedAt : Time) : Bool :=
  16 ≤ jti.toList.length && jti.toList.length ≤ 128 && base64URL jti && validTime issuedAt

/-- `validSessionKey`. -/
def validSessionKey (key : SessionKey) : Bool :=
  validTenant key.tenantID && validUUIDv7 key.participantInstanceID && 0 < key.sessionEpoch &&
    key.sessionEpoch ≤ maxJSONSafeInt

/-- `validateBootstrap`. -/
def validateBootstrap (request : BootstrapReservation) : Bool :=
  let s := request.session
  validTenant s.tenantID && validDigestText s.principalID && validUUIDv7 s.participantInstanceID &&
    s.sessionEpoch == 0 && s.tokenDigest != Digest.zero && s.dpopThumbprint != Digest.zero &&
    validUUIDv7 s.bootstrapOperationID && validTime s.issuedAt && validTime s.expiresAt &&
    s.expiresAt.after s.issuedAt && validProof request.proofJTI request.proofIAT

/-! ## Statements -/

/-- The check of a column for a reference: 1 to 256 characters of the pattern. -/
def referenceColumn (value : String) : Bool :=
  1 ≤ value.toList.length && value.toList.length ≤ 256 && value.toList.all fun c =>
    isUpper c || isLower c || isDigit c || c == '.' || c == '_' || c == ':' || c == '/' || c == '-'

/-- The check of the column for the reason of a revocation. -/
def reasonColumn (value : String) : Bool :=
  1 ≤ value.toList.length && value.toList.length ≤ 128 && value.toList.all fun c =>
    isLower c || isDigit c || c == '.' || c == '_' || c == ':' || c == '-'

/-- The checks of a row of `sessions`. -/
def Session.check (row : Session) : Bool :=
  validTenant row.tenantID && validDigestText row.principalID &&
    Audit.Sqlite.uuidGlob row.participantInstanceID &&
    0 < row.sessionEpoch && row.sessionEpoch ≤ maxJSONSafeInt &&
    0 ≤ row.issuedAtMS && row.issuedAtMS ≤ maxJSONSafeInt &&
    row.issuedAtMS < row.expiresAtMS && row.expiresAtMS ≤ maxJSONSafeInt &&
    Audit.Sqlite.uuidGlob row.bootstrapOperationID &&
    row.activationReceipt.all referenceColumn &&
    row.revokedAtMS.all (fun at_ => row.issuedAtMS ≤ at_ && at_ ≤ maxJSONSafeInt) &&
    row.revocationReason.all reasonColumn && row.revocationAuthority.all referenceColumn &&
    row.revocationOperationID.all Audit.Sqlite.uuidGlob &&
    match row.state with
    | .pending | .abandoned => row.activationReceipt.isNone && row.revokedAtMS.isNone &&
      row.revocationReason.isNone && row.revocationAuthority.isNone
    | .active | .expired => row.activationReceipt.isSome && row.revokedAtMS.isNone &&
      row.revocationReason.isNone && row.revocationAuthority.isNone
    | .revoked => row.activationReceipt.isSome && row.revokedAtMS.isSome &&
      row.revocationReason.isSome && row.revocationAuthority.isSome

/-- `INSERT INTO sessions`. -/
def Db.insertSession (db : Db) (row : Session) : Except RegistryError Db := do
  ensure (row.check && db.sessions.all fun other =>
    other.participantInstanceID != row.participantInstanceID &&
      other.tokenDigest != row.tokenDigest &&
      other.bootstrapOperationID != row.bootstrapOperationID &&
      (other.tenantID, other.principalID, other.sessionEpoch) !=
        (row.tenantID, row.principalID, row.sessionEpoch)) .unavailable
  return { db with sessions := db.sessions ++ [row] }

/-- `UPDATE sessions`: the number of rows it has changed, and the database. -/
def Db.updateSessions (db : Db) (p : Session → Bool) (f : Session → Session) :
    Except RegistryError (Nat × Db) := do
  ensure (db.sessions.all fun row => !p row || (f row).check) .unavailable
  return (db.sessions.countP p,
    { db with sessions := db.sessions.map fun row => if p row then f row else row })

/-- The session of a key. -/
def Session.hasKey (row : Session) (key : SessionKey) : Bool :=
  row.tenantID == key.tenantID && row.participantInstanceID == key.participantInstanceID &&
    row.sessionEpoch == key.sessionEpoch

/-- `hasSessionCollision`. -/
def hasSessionCollision (db : Db) (session : PendingSession) : Bool :=
  db.sessions.any fun row => row.participantInstanceID == session.participantInstanceID ||
    row.tokenDigest == session.tokenDigest ||
    row.bootstrapOperationID == session.bootstrapOperationID

/-- What a session's row tells a caller. -/
def Session.active (row : Session) : ActiveSession :=
  ⟨row.tenantID, row.principalID, row.participantInstanceID, row.sessionEpoch, row.dpopThumbprint,
    ofUnixMilli row.expiresAtMS⟩

/-- `activeByOperation`. -/
def activeByOperation (db : Db) (operationID : String) : Except RegistryError ActiveSession := do
  let row ← required (db.sessions.find? fun row =>
    row.bootstrapOperationID == operationID && row.state == .active) .unavailable
  return row.active

/-- The last epoch of a principal, or zero. -/
def Db.lastEpoch (db : Db) (tenant principal : String) : Nat :=
  ((db.principalEpochs.find? fun row => row.tenantID == tenant && row.principalID == principal).map
    (·.lastEpoch)).getD 0

/-- The row of a principal's floor. -/
def Db.floor? (db : Db) (tenant principal : String) : Option RestoreEpochFloor :=
  db.restoreEpochFloors.find? fun row => row.tenantID == tenant && row.principalID == principal

/-- `allocateEpoch`. -/
def allocateEpoch (db : Db) (tenant principal : String) : Except RegistryError (Nat × Db) := do
  let floor := ((db.floor? tenant principal).map (·.epochFloor)).getD 0
  let current := max (db.lastEpoch tenant principal) floor
  ensure (current < maxJSONSafeInt) .epochExhausted
  let row : PrincipalEpoch := ⟨tenant, principal, current + 1⟩
  let same (other : PrincipalEpoch) := other.tenantID == tenant && other.principalID == principal
  let rows := if db.principalEpochs.any same
    then db.principalEpochs.map fun other => if same other then row else other
    else db.principalEpochs ++ [row]
  return (current + 1, { db with principalEpochs := rows })

/-- The row that `reserveProof` inserts. -/
def proofRow (thumbprint : Digest) (jti : String) (purpose : ProofPurpose) (issuedAt : Time)
    (participant : String) : ProofReplay where
  jwkThumbprint := thumbprint
  proofJTI := jti
  purpose := purpose
  issuedAtMS := unixMilli issuedAt
  retainUntilMS := unixMilli (issuedAt.toUTC.add (proofPastWindow + millisecond))
  participantInstanceID := participant

/-- `reserveProof`. The checks of the row that `validProof` does not make come before the primary
key, and the foreign key comes after it. -/
def reserveProof (db : Db) (thumbprint : Digest) (jti : String) (purpose : ProofPurpose)
    (issuedAt : Time) (participant : String) : Except RegistryError Db := do
  ensure (validProof jti issuedAt && thumbprint != Digest.zero) .invalid
  let row := proofRow thumbprint jti purpose issuedAt participant
  ensure (row.retainUntilMS ≤ maxJSONSafeInt && Audit.Sqlite.uuidGlob participant) .unavailable
  ensure (db.proofReplays.all fun other =>
    (other.jwkThumbprint, other.proofJTI) != (thumbprint, jti)) .proofReplay
  ensure (db.sessions.any (·.participantInstanceID == participant)) .unavailable
  return { db with proofReplays := db.proofReplays ++ [row] }

/-! ## The clock -/

/-- What a transaction commits: the answer to the caller, and the database. -/
abbrev Committed (α : Type) := Except RegistryError α × Db

/-- `observeClock`. -/
def observeClock (now : Time) (db : Db) : Except RegistryError (Committed Int) := do
  let nowMS ← required (unixMillis now) .unavailable
  ensure (db.metadata.fenceState == .admitted) .fenced
  if nowMS < db.metadata.wallHighWaterMS - clockToleranceMS then
    return (.error .clockRollback,
      { db with metadata := { db.metadata with fenceState := .clockFenced } })
  else if db.metadata.wallHighWaterMS < nowMS then
    return (.ok nowMS, { db with metadata := { db.metadata with wallHighWaterMS := nowMS } })
  else
    return (.ok db.metadata.wallHighWaterMS, db)

section
variable {α : Type}

/-- A transaction that observes the clock first. `finishClockFailure` commits the fence of a clock
that has gone back. -/
def withClock (now : Time) (db : Db) (body : Int → Db → Except RegistryError (α × Db)) :
    Except RegistryError (Committed α) := do
  match ← observeClock now db with
  | (.error e, db) => return (.error e, db)
  | (.ok nowMS, db) =>
    let (answer, db) ← body nowMS db
    return (.ok answer, db)

/-- A transaction that does not observe the clock. -/
def withoutClock (result : Except RegistryError (α × Db)) : Except RegistryError (Committed α) := do
  let (answer, db) ← result
  return (.ok answer, db)

end

/-! ## The calls -/

/-- The database after the first migration: `uuid.NewV7` has made its ID. -/
def created (databaseID : String) (nowMS : Int) : Db :=
  ⟨⟨databaseID, nowMS, .admitted, none⟩, [], [], [], []⟩

/-- The part of `startup` that sets the fence and the high-water. -/
def startupMetadata (restored : Bool) (nowMS : Int) (metadata : Metadata) : Metadata :=
  if restored then { metadata with fenceState := .restoreFenced, fenceReceipt := none }
  else if nowMS < metadata.wallHighWaterMS - clockToleranceMS then
    { metadata with fenceState := .clockFenced, fenceReceipt := none }
  else if metadata.wallHighWaterMS < nowMS then { metadata with wallHighWaterMS := nowMS }
  else metadata

/-- `startup`: `Open` and `OpenRestored` of a database. -/
def startup (restored : Bool) (now : Time) (db : Db) : Except RegistryError (Unit × Db) := do
  let nowMS ← required (unixMillis now) .unavailable
  let db := { db with metadata := startupMetadata restored nowMS db.metadata }
  let (_, db) ← db.updateSessions (·.state == .pending) fun row => { row with state := .abandoned }
  ensure (db.sessions.all fun row =>
    (row.state == .revoked) == row.revocationOperationID.isSome) .unavailable
  return ((), db)

/-- `Status`. -/
def status (db : Db) : RegistryStatus :=
  ⟨db.metadata.databaseID, db.metadata.fenceState, ofUnixMilli db.metadata.wallHighWaterMS⟩

/-- The rows that bound epochs, as floors. -/
def Db.epochEntries (db : Db) : List EpochFloor :=
  (db.principalEpochs.map fun row => ⟨row.tenantID, row.principalID, row.lastEpoch⟩) ++
    db.restoreEpochFloors.map fun row => ⟨row.tenantID, row.principalID, row.epochFloor⟩

/-- The epochs and the floors of the principals, one for each principal, in their order. -/
def Db.epochFloors (db : Db) : List EpochFloor :=
  let rows := db.epochEntries
  let keys := (rows.map fun row => (row.tenantID, row.principalID)).dedup.insertionSort
    fun a b => a.1 < b.1 ∨ (a.1 = b.1 ∧ a.2 ≤ b.2)
  keys.map fun (tenant, principal) => ⟨tenant, principal,
    ((rows.filter fun row => row.tenantID == tenant && row.principalID == principal).map
      (·.epoch)).foldl max 0⟩

/-- `RecoverySnapshot`. -/
def recoverySnapshot (db : Db) : Except RegistryError (RecoverySnapshot × Db) := do
  ensure (db.metadata.fenceState == .admitted) .fenced
  ensure (db.epochFloors.length ≤ 100000) .unavailable
  return (⟨db.metadata.databaseID, ofUnixMilli db.metadata.wallHighWaterMS, db.epochFloors⟩, db)

/-- The row that `ReserveBootstrap` inserts. -/
def pendingRow (session : PendingSession) : Session where
  tenantID := session.tenantID
  principalID := session.principalID
  participantInstanceID := session.participantInstanceID
  sessionEpoch := session.sessionEpoch
  tokenDigest := session.tokenDigest
  dpopThumbprint := session.dpopThumbprint
  issuedAtMS := unixMilli session.issuedAt
  expiresAtMS := unixMilli session.expiresAt
  state := .pending
  bootstrapOperationID := session.bootstrapOperationID
  activationReceipt := none
  revokedAtMS := none
  revocationReason := none
  revocationAuthority := none
  revocationOperationID := none

/-- `ReserveBootstrap`. -/
def reserveBootstrap (request : BootstrapReservation) (now : Time) (db : Db) :
    Except RegistryError (Committed PendingSession) := do
  ensure (validateBootstrap request) .invalid
  withClock now db fun nowMS db => do
    ensure (nowMS < unixMilli request.session.expiresAt) .invalid
    ensure (!hasSessionCollision db request.session) .sessionConflict
    let (epoch, db) ← allocateEpoch db request.session.tenantID request.session.principalID
    let session := { request.session with sessionEpoch := epoch }
    let db ← db.insertSession (pendingRow session)
    let db ← reserveProof db session.dpopThumbprint request.proofJTI .bootstrap request.proofIAT
      session.participantInstanceID
    return (session, db)

/-- A statement that changes one row; otherwise the call has to be the retry of one that did. -/
def unlessOne (rows : Nat) (retry : Except RegistryError Unit) : Except RegistryError Unit :=
  if rows = 1 then .ok () else retry

/-- Whether `ActivateBootstrap` has been called before with this receipt. -/
def alreadyActivated (operationID receipt : String) (db : Db) : Except RegistryError Unit := do
  let row ← required (db.sessions.find? (·.bootstrapOperationID == operationID)) .sessionConflict
  ensure (row.state == .active && row.activationReceipt.getD "" == receipt) .sessionConflict

/-- `ActivateBootstrap`. -/
def activateBootstrap (operationID receipt : String) (now : Time) (db : Db) :
    Except RegistryError (Committed ActiveSession) := do
  ensure (validUUIDv7 operationID && referenceText receipt) .invalid
  withClock now db fun nowMS db => do
    let (rows, db) ← db.updateSessions
      (fun row => row.bootstrapOperationID == operationID && row.state == .pending &&
        nowMS < row.expiresAtMS)
      fun row => { row with state := .active, activationReceipt := some receipt }
    unlessOne rows (alreadyActivated operationID receipt db)
    let session ← activeByOperation db operationID
    return (session, db)

/-- `Authenticate`. -/
def authenticate (request : AuthenticationReservation) (now : Time) (db : Db) :
    Except RegistryError (Committed ActiveSession) := do
  ensure (validProof request.proofJTI request.proofIAT && request.tokenDigest != Digest.zero &&
    request.dpopThumbprint != Digest.zero) .invalid
  withClock now db fun nowMS db => do
    let row ← required (db.sessions.find? fun row => row.tokenDigest == request.tokenDigest &&
      row.state == .active && nowMS < row.expiresAtMS) .sessionNotFound
    ensure (row.dpopThumbprint == request.dpopThumbprint) .sessionNotFound
    let db ← reserveProof db request.dpopThumbprint request.proofJTI .authentication
      request.proofIAT row.participantInstanceID
    return (row.active, db)

/-- Whether `Revoke` has been called before with this request. -/
def alreadyRevoked (request : Revocation) (db : Db) : Except RegistryError Unit := do
  let row ← required (db.sessions.find? (·.hasKey request.key)) .sessionConflict
  ensure (row.state == .revoked && row.revocationReason.getD "" == request.reason &&
    row.revocationAuthority.getD "" == request.authorityReceipt &&
    row.revocationOperationID.getD "" == request.operationID) .sessionConflict

/-- `Revoke`. -/
def revoke (request : Revocation) (now : Time) (db : Db) :
    Except RegistryError (Committed Unit) := do
  ensure (validUUID request.operationID && validSessionKey request.key &&
    closedText request.reason && referenceText request.authorityReceipt) .invalid
  withClock now db fun nowMS db => do
    let (rows, db) ← db.updateSessions
      (fun row => row.hasKey request.key && row.state == .active && nowMS < row.expiresAtMS)
      fun row => { row with
        state := .revoked, revokedAtMS := some nowMS, revocationReason := some request.reason,
        revocationAuthority := some request.authorityReceipt,
        revocationOperationID := some request.operationID }
    unlessOne rows (alreadyRevoked request db)
    return ((), db)

/-- `IsActive`. -/
def isActive (key : SessionKey) (now : Time) (db : Db) : Except RegistryError (Committed Bool) := do
  ensure (validSessionKey key) .invalid
  withClock now db fun nowMS db => do
    let row ← required (db.sessions.find? (·.hasKey key)) .sessionNotFound
    if row.state == .active && row.expiresAtMS ≤ nowMS then
      let (_, db) ← db.updateSessions (fun row => row.hasKey key && row.state == .active)
        fun row => { row with state := .expired }
      return (false, db)
    else
      return (row.state == .active, db)

/-- `INSERT INTO restore_epoch_floors` with the update of a row that is there. The checks of the
table are those that `StageRestoreFloors` makes before. -/
def Db.upsertFloor (db : Db) (row : RestoreEpochFloor) : Db :=
  let same (other : RestoreEpochFloor) :=
    other.tenantID == row.tenantID && other.principalID == row.principalID
  { db with restoreEpochFloors := if db.restoreEpochFloors.any same
      then db.restoreEpochFloors.map fun other => if same other then row else other
      else db.restoreEpochFloors ++ [row] }

/-- One floor of `StageRestoreFloors`: the principals seen so far, and the database. -/
def stageFloor (manifestReference : String) (state : List (String × String) × Db)
    (floor : EpochFloor) : Except RegistryError (List (String × String) × Db) := do
  let (seen, db) := state
  ensure (validTenant floor.tenantID && validDigestText floor.principalID && floor.epoch != 0 &&
    floor.epoch ≤ maxJSONSafeInt) .invalid
  ensure (!seen.contains (floor.tenantID, floor.principalID)) .invalid
  ensure (db.lastEpoch floor.tenantID floor.principalID ≤ floor.epoch) .invalid
  ensure ((db.floor? floor.tenantID floor.principalID).all (·.epochFloor ≤ floor.epoch)) .invalid
  return ((floor.tenantID, floor.principalID) :: seen,
    db.upsertFloor ⟨floor.tenantID, floor.principalID, floor.epoch, manifestReference⟩)

/-- `StageRestoreFloors`. -/
def stageRestoreFloors (databaseID manifestReference : String) (wallHighWater : Time)
    (floors : List EpochFloor) (now : Time) (db : Db) : Except RegistryError (Unit × Db) := do
  let highWaterMS ← required (unixMillis wallHighWater) .invalid
  ensure (validUUID databaseID && referenceText manifestReference && floors.length ≤ 100000)
    .invalid
  ensure (db.metadata.databaseID == databaseID && db.metadata.fenceState == .restoreFenced) .fenced
  ensure (db.metadata.wallHighWaterMS ≤ highWaterMS) .invalid
  let nowMS ← required (unixMillis now) .clockRollback
  ensure (highWaterMS - clockToleranceMS ≤ nowMS) .clockRollback
  let (seen, db) ← floors.foldlM (stageFloor manifestReference) ([], db)
  ensure (db.principalEpochs.all fun row => seen.contains (row.tenantID, row.principalID)) .invalid
  ensure (db.restoreEpochFloors.all (·.recoveryReference == manifestReference)) .invalid
  return ((), { db with metadata := { db.metadata with
    wallHighWaterMS := max db.metadata.wallHighWaterMS highWaterMS } })

/-- `CompleteRestore`. -/
def completeRestore (databaseID manifestReference auditReceipt : String) (db : Db) :
    Except RegistryError (Unit × Db) := do
  ensure (validUUID databaseID && referenceText manifestReference && referenceText auditReceipt)
    .invalid
  ensure (db.metadata.databaseID == databaseID) .unavailable
  if db.metadata.fenceState == .admitted && db.metadata.fenceReceipt == some auditReceipt then
    return ((), db)
  ensure (db.metadata.fenceState == .restoreFenced) .fenced
  ensure (db.principalEpochs.all (fun row => (db.floor? row.tenantID row.principalID).isSome) &&
    db.restoreEpochFloors.all (·.recoveryReference == manifestReference)) .invalid
  return ((), { db with metadata := { db.metadata with
    fenceState := .admitted, fenceReceipt := some auditReceipt } })

/-- `RecoverClock`. -/
def recoverClock (recoveredAt : Time) (receipt : String) (db : Db) :
    Except RegistryError (Unit × Db) := do
  let recoveredMS ← required (unixMillis recoveredAt) .invalid
  ensure (recoveredAt.unixNano % millisecond == 0 && referenceText receipt) .invalid
  ensure (db.metadata.fenceState == .clockFenced && db.metadata.wallHighWaterMS ≤ recoveredMS)
    .fenced
  return ((), { db with metadata := { db.metadata with
    wallHighWaterMS := recoveredMS, fenceState := .admitted, fenceReceipt := some receipt } })

/-- The rows that `CleanupProofs` deletes. -/
def lapsedProofs (nowMS : Int) (proofs : List ProofReplay) : List ProofReplay :=
  ((proofs.filter (·.retainUntilMS < nowMS)).insertionSort
    fun a b => a.retainUntilMS ≤ b.retainUntilMS).take cleanupBatch

/-- `CleanupProofs`: the number of rows it has deleted. -/
def cleanupProofs (now : Time) (db : Db) : Except RegistryError (Committed Nat) :=
  withClock now db fun nowMS db =>
    let lapsed := lapsedProofs nowMS db.proofReplays
    .ok (lapsed.length, { db with proofReplays := db.proofReplays.filter (!lapsed.contains ·) })

/-- The update of one session by `expireDue`. -/
def expireSession (nowMS : Int) (db : Db) (row : Session) : Except RegistryError Db := do
  let key : SessionKey := ⟨row.tenantID, row.participantInstanceID, row.sessionEpoch⟩
  let (_, db) ← db.updateSessions
    (fun other => other.hasKey key && other.state == .active && other.expiresAtMS ≤ nowMS)
    fun other => { other with state := .expired }
  return db

/-- `expireDue`, the transaction of the background expiry. -/
def expireDue (now : Time) (db : Db) : Except RegistryError (Committed Unit) :=
  withClock now db fun nowMS db => do
    let due := ((db.sessions.filter fun row => row.state == .active && row.expiresAtMS ≤ nowMS)
      |>.insertionSort fun a b => a.expiresAtMS ≤ b.expiresAtMS).take cleanupBatch
    let db ← due.foldlM (expireSession nowMS) db
    return ((), db)

/-- The calls of the registry. -/
inductive Operation where
  | startup (restored : Bool)
  | status
  | recoverySnapshot
  | reserveBootstrap (request : BootstrapReservation)
  | activateBootstrap (operationID receipt : String)
  | authenticate (request : AuthenticationReservation)
  | revoke (request : Revocation)
  | isActive (key : SessionKey)
  | stageRestoreFloors (databaseID manifestReference : String) (wallHighWater : Time)
      (floors : List EpochFloor)
  | completeRestore (databaseID manifestReference auditReceipt : String)
  | recoverClock (recoveredAt : Time) (receipt : String)
  | cleanupProofs
  | expireDue
  deriving DecidableEq, Repr

/-- A call, and what it reads from the clock. -/
structure Call where
  op : Operation
  now : Time
  deriving DecidableEq, Repr

/-- What a call answers. -/
abbrev Operation.Answer : Operation → Type
  | .startup _ => Unit
  | .status => RegistryStatus
  | .recoverySnapshot => RecoverySnapshot
  | .reserveBootstrap _ => PendingSession
  | .activateBootstrap .. => ActiveSession
  | .authenticate _ => ActiveSession
  | .revoke _ => Unit
  | .isActive _ => Bool
  | .stageRestoreFloors .. => Unit
  | .completeRestore .. => Unit
  | .recoverClock .. => Unit
  | .cleanupProofs => Nat
  | .expireDue => Unit

/-- The transaction of a call that reads `now` from the clock. -/
def Operation.run (now : Time) : (op : Operation) → Db → Except RegistryError (Committed op.Answer)
  | .startup restored, db => withoutClock (Identity.startup restored now db)
  | .status, db => withoutClock (.ok (Identity.status db, db))
  | .recoverySnapshot, db => withoutClock (Identity.recoverySnapshot db)
  | .reserveBootstrap request, db => Identity.reserveBootstrap request now db
  | .activateBootstrap operationID receipt, db =>
    Identity.activateBootstrap operationID receipt now db
  | .authenticate request, db => Identity.authenticate request now db
  | .revoke request, db => Identity.revoke request now db
  | .isActive key, db => Identity.isActive key now db
  | .stageRestoreFloors databaseID manifestReference wallHighWater floors, db =>
    withoutClock (Identity.stageRestoreFloors databaseID manifestReference wallHighWater floors
      now db)
  | .completeRestore databaseID manifestReference auditReceipt, db =>
    withoutClock (Identity.completeRestore databaseID manifestReference auditReceipt db)
  | .recoverClock recoveredAt receipt, db =>
    withoutClock (Identity.recoverClock recoveredAt receipt db)
  | .cleanupProofs, db => Identity.cleanupProofs now db
  | .expireDue, db => Identity.expireDue now db

end YukhCoordination.Relay.Identity
