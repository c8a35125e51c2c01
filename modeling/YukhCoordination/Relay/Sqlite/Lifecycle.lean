import YukhCoordination.Relay.Lifecycle.Validation
import YukhCoordination.Relay.Sqlite.Store

/-!
# Preparation of lifecycle operations

The model of `internal/relay/sqlite/lifecycle.go`: reserving an operation for a transcript, binding
its export evidence and persisting its marker. Each is one immediate transaction. A stored intent is
the typed value that `CanonicalIntent` encoded, so equal canonical bytes are equal intents.
-/

namespace YukhCoordination.Relay.Sqlite

open Lifecycle Transaction

/-- `maxSQLiteRetentionMillis`. -/
def maxSQLiteRetentionMillis : Nat := maxInt64 / 1000000

/-- `LifecyclePreparation`: the retention policies that were verified offline, by their digest. -/
structure LifecyclePreparation where
  policies : List Policy
  deriving DecidableEq, Repr

/-- The loop of `NewLifecyclePreparation`, which fills the map `closed`. -/
def closePolicies (codec : Codec) : List Policy → List Policy → Except Lifecycle.Error (List Policy)
  | closed, [] => .ok closed
  | closed, policy :: policies => do
    ensure (validatePolicy codec policy && policy.activeRetentionMillis ≤ maxSQLiteRetentionMillis)
      .invalidContract
    match closed.find? (·.policyDigest == policy.policyDigest) with
    | some existing =>
      ensure (existing == policy) .conflict
      closePolicies codec closed policies
    | none => closePolicies codec (closed ++ [policy]) policies

/-- `NewLifecyclePreparation`. -/
def newLifecyclePreparation (codec : Codec) (policies : List Policy) :
    Except Lifecycle.Error LifecyclePreparation := do
  ensure (policies != []) .invalidContract
  return ⟨← closePolicies codec [] policies⟩

/-! ## Stored operations -/

/-- The operation of a row. -/
def OperationRow.operation (row : OperationRow) : Operation :=
  ⟨row.canonicalIntent, row.intentDigest, row.state, row.canonicalMarker,
    row.canonicalReceiptPreimage, row.receiptSignature⟩

/-- `validLifecycleDigest`. -/
def validLifecycleDigest (value : String) : Bool := validDigest value

/-- `validMarkerPersistence`. -/
def validMarkerPersistence (codec : Codec) (row : OperationRow) : Bool :=
  (validateMarkerPersistence codec ⟨row.canonicalIntent.operationID, row.intentDigest,
    row.canonicalMarker, row.canonicalReceiptPreimage⟩).isOk

/-- The `validExport` of `validStoredLifecycle`: bound evidence when the export is required, none
otherwise. -/
def validStoredExport (row : OperationRow) : Bool :=
  match row.canonicalIntent.exportMode with
  | .required =>
    row.exportManifestDigest != "" && row.exportCustodyReceiptDigest != "" &&
      validateExportEvidence ⟨row.canonicalIntent.operationID, row.intentDigest,
        row.exportManifestDigest, row.exportCustodyReceiptDigest⟩
  | _ => row.exportManifestDigest == "" && row.exportCustodyReceiptDigest == ""

/-- `validStoredLifecycle`. -/
def validStoredLifecycle (codec : Codec) (row : OperationRow) : Bool :=
  let noMarker := row.canonicalMarker == [] && row.canonicalReceiptPreimage == [] &&
    row.receiptSignature == [] && row.payloadRemovalDigest == ""
  match row.state with
  | .reserved => noMarker && row.canonicalIntent.exportMode == .required &&
      row.exportManifestDigest == "" && row.exportCustodyReceiptDigest == ""
  | .exportSatisfied => noMarker && validStoredExport row
  | .markerPersisted => validStoredExport row && row.receiptSignature == [] &&
      row.payloadRemovalDigest == "" && validMarkerPersistence codec row
  | .receiptSigned => validStoredExport row && row.receiptSignature.length == 64 &&
      row.payloadRemovalDigest == "" && validMarkerPersistence codec row
  | .payloadRemoved | .backupsPending | .completed => validStoredExport row &&
      row.receiptSignature.length == 64 && validLifecycleDigest row.payloadRemovalDigest &&
      validMarkerPersistence codec row

/-- `loadLifecycleOperation`: no row, or a row whose stored material is coherent. -/
def loadLifecycleOperation (codec : Codec) (operationID : String) (db : Db) :
    Except Lifecycle.Error (Option OperationRow) :=
  match db.operation? operationID with
  | none => .ok none
  | some row =>
    if canonicalSize (codec.intentSize row.canonicalIntent) &&
        Lifecycle.validateIntent row.canonicalIntent &&
        codec.intentDigest row.canonicalIntent == row.intentDigest &&
        validStoredLifecycle codec row then .ok (some row)
    else .error .unavailable

/-- `loadLifecycleOperation` where the operation must exist, as `closedFound` reports it. -/
def loadFound (codec : Codec) (operationID : String) (db : Db) :
    Except Lifecycle.Error OperationRow := do
  required (← loadLifecycleOperation codec operationID db) .invalidContract

/-- An `UPDATE` of the operation in one state, which must change exactly one row. -/
def updateOperation (operationID intentDigest : String) (state : SagaState)
    (change : OperationRow → OperationRow) (db : Db) : Except Lifecycle.Error Db := do
  let operations ← required (updateOne
    (fun r : OperationRow => r.operationID == operationID && r.intentDigest == intentDigest &&
      r.state == state) change db.operations) .unavailable
  return { db with operations }

/-! ## Reserve -/

/-- `persistLifecyclePolicy`. -/
def persistLifecyclePolicy (policy : Policy) (db : Db) : Except Lifecycle.Error Db :=
  let row : PolicyRow := ⟨policy.policyDigest, policy.policyID, policy.policyEpoch, policy,
    policy.activeRetentionMillis, policy.exportMode⟩
  match db.policies.find? (·.policyDigest == policy.policyDigest) with
  | none => .ok { db with policies := db.policies ++ [row] }
  | some existing => if existing = row then .ok db else .error .conflict

/-- `persistTranscriptPolicyBinding`. -/
def persistTranscriptPolicyBinding (intent : Intent) (deadline : String) (db : Db) :
    Except Lifecycle.Error Db :=
  let row : PolicyBinding := ⟨intent.transcript.channelKey, intent.policyDigest, intent.policyID,
    intent.policyEpoch, deadline⟩
  match db.bindings.find? (·.key == row.key) with
  | none => .ok { db with bindings := db.bindings ++ [row] }
  | some existing => if existing = row then .ok db else .error .conflict

/-- `validateLifecycleHighWater`: the last record is the signed one that the intent names, and each
target is a signed record up to it. -/
def validateLifecycleHighWater (intent : Intent) (highWater : Nat) (db : Db) : Bool :=
  let key := intent.transcript.channelKey
  (match db.recordAt? key highWater with
    | some record =>
      record.signature != [] && record.receiptID == intent.highWaterReceiptReference
    | none => false) &&
  intent.target.sequences.all fun sequence => sequence ≤ highWater &&
      match db.recordAt? key sequence with
      | some record => record.signature != []
      | none => false

/-- `time.Duration(millis) * time.Millisecond`: nanoseconds as a signed 64-bit integer. -/
def millisDuration (millis : Nat) : Int := Int.bmod (millis * 1000000) (2 ^ 64)

/-- The retention deadline that `Reserve` binds: the creation time plus the active retention. `Add`
counts nanoseconds and `Format` drops what is below a millisecond. -/
def retentionDeadline (metadata : ChannelMetadata) (policy : Policy) :
    Except Lifecycle.Error String := do
  let createdAt ← required (parseTime metadata.createdAt) .invalidContract
  let deadline := formatTime
    ((createdAt * 1000000 + millisDuration policy.activeRetentionMillis) / 1000000)
  ensure (parseTime deadline).isSome .invalidContract
  return deadline

/-- The checks of `Reserve` on the transcript it is for. -/
def reservable (codec : Codec) (intent : Intent) (policy : Policy) (transcript : Transcript) :
    Except Lifecycle.Error ChannelMetadata := do
  let metadata ← required (codec.channelMetadata transcript.canonicalMetadata) .conflict
  ensure (metadata.tenantID == intent.transcript.tenantID &&
    metadata.channelID == intent.transcript.channelID &&
    metadata.retentionPolicyDigest == policy.policyDigest &&
    metadata.retentionEpoch == policy.policyEpoch && transcript.lifecycle == .active &&
    transcript.completeness == .complete && transcript.nextSequence > 1) .conflict
  return metadata

/-- The row that `Reserve` inserts. -/
def reservedRow (codec : Codec) (intent : Intent) (policy : Policy) : OperationRow where
  operationID := intent.operationID
  intentDigest := codec.intentDigest intent
  canonicalIntent := intent
  key := intent.transcript.channelKey
  policyDigest := intent.policyDigest
  requestedAt := intent.requestedAt
  state := if policy.exportMode = .required then .reserved else .exportSatisfied
  exportManifestDigest := ""
  exportCustodyReceiptDigest := ""
  canonicalMarker := []
  canonicalReceiptPreimage := []
  receiptSignature := []
  payloadRemovalDigest := ""

/-- The part of `LifecyclePreparation.Reserve` that reserves a new operation. -/
def reserveNew (codec : Codec) (preparation : LifecyclePreparation) (intent : Intent) (db : Db) :
    Except Lifecycle.Error (Operation × Db) := do
  let policy ← required (preparation.policies.find? (·.policyDigest == intent.policyDigest))
    .conflict
  ensure (policy.policyID == intent.policyID && policy.policyEpoch == intent.policyEpoch &&
    policy.exportMode == intent.exportMode) .conflict
  let transcript ← required (db.transcript? intent.transcript.channelKey) .invalidContract
  let metadata ← reservable codec intent policy transcript
  ensure (validateLifecycleHighWater intent (transcript.nextSequence - 1) db) .conflict
  ensure (validatePolicy codec policy) .invalidContract
  let deadline ← retentionDeadline metadata policy
  let db ← persistLifecyclePolicy policy db
  let db ← persistTranscriptPolicyBinding intent deadline db
  let row := reservedRow codec intent policy
  let db ← required (db.insertOperation row) .conflict
  return (row.operation, db)

/-- `LifecyclePreparation.Reserve`. -/
def reserve (codec : Codec) (preparation : LifecyclePreparation) (intent : Intent) (db : Db) :
    Except Lifecycle.Error (Operation × Db) := do
  let intentDigest ← canonicalIntent codec intent
  match ← loadLifecycleOperation codec intent.operationID db with
  | some existing =>
    ensure (existing.intentDigest == intentDigest && existing.canonicalIntent == intent) .conflict
    return (existing.operation, db)
  | none => reserveNew codec preparation intent db

/-! ## Export evidence and marker -/

/-- `LifecyclePreparation.BindExport`. -/
def bindExport (codec : Codec) (evidence : ExportEvidence) (db : Db) :
    Except Lifecycle.Error (Operation × Db) := do
  ensure (validateExportEvidence evidence) .invalidContract
  let stored ← loadFound codec evidence.operationID db
  ensure (stored.intentDigest == evidence.intentDigest &&
    stored.canonicalIntent.exportMode == .required) .conflict
  if stored.exportManifestDigest ≠ "" ∨ stored.exportCustodyReceiptDigest ≠ "" then
    ensure (stored.exportManifestDigest == evidence.manifestDigest &&
      stored.exportCustodyReceiptDigest == evidence.custodyReceiptDigest) .conflict
    return (stored.operation, db)
  else
    ensure (stored.state == .reserved) .conflict
    let db ← updateOperation evidence.operationID evidence.intentDigest .reserved (fun r =>
      { r with exportManifestDigest := evidence.manifestDigest,
               exportCustodyReceiptDigest := evidence.custodyReceiptDigest,
               state := .exportSatisfied }) db
    return ({ stored.operation with state := .exportSatisfied }, db)

/-- `markerMatchesIntent`. -/
def markerMatchesIntent (marker : Marker) (intent : Intent) : Bool :=
  marker.operationID == intent.operationID && marker.transcript == intent.transcript &&
    marker.policyDigest == intent.policyDigest &&
    marker.highWaterReceiptReference == intent.highWaterReceiptReference &&
    marker.authorizingAuditReceipt == intent.authorizingAuditReceipt &&
    marker.target.kind == intent.target.kind && marker.target.sequences == intent.target.sequences

/-- `LifecyclePreparation.PersistMarker`: the lifecycle of the transcript and the state of the
operation change in one transaction. -/
def persistMarker (codec : Codec) (persistence : MarkerPersistence) (db : Db) :
    Except Lifecycle.Error (Operation × Db) := do
  let (marker, _) ← validateMarkerPersistence codec persistence
  let stored ← loadFound codec persistence.operationID db
  ensure (stored.intentDigest == persistence.intentDigest &&
    markerMatchesIntent marker stored.canonicalIntent) .conflict
  if stored.state = .markerPersisted then
    ensure (stored.canonicalMarker == persistence.canonicalMarker &&
      stored.canonicalReceiptPreimage == persistence.canonicalPreimage) .conflict
    return (stored.operation, db)
  else
    ensure (stored.state == .exportSatisfied) .conflict
    let transcripts ← required (updateOne
      (fun t : Transcript => t.key == marker.transcript.channelKey &&
        t.lifecycle == marker.previousLifecycle)
      (fun t => { t with lifecycle := marker.resultingLifecycle, completeness := .incomplete })
      db.transcripts) .conflict
    let db ← updateOperation persistence.operationID persistence.intentDigest .exportSatisfied
      (fun r => { r with canonicalMarker := persistence.canonicalMarker,
                         canonicalReceiptPreimage := persistence.canonicalPreimage,
                         state := .markerPersisted }) { db with transcripts }
    return ({ stored.operation with
      state := .markerPersisted, marker := persistence.canonicalMarker,
      receipt := persistence.canonicalPreimage }, db)

end YukhCoordination.Relay.Sqlite
