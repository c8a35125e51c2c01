import YukhCoordination.Relay.Sqlite.Lifecycle

/-!
# Signed receipts and removal of payload

The model of `internal/relay/sqlite/removal.go`. `AttachSignature` and `RemovePayload` read the
operation and call the verifier before their transaction, which reads the operation again; what is
here are the two transactions and the checks around them, and `Run` puts them together. The
transaction of a removal moves records one by one: each leaves a payload tombstone at its sequence
and a tombstone for each of its two identifiers.
-/

namespace YukhCoordination.Relay.Sqlite

open Lifecycle Transaction

/-! ## Receipt signatures -/

/-- Whether a signature was attached before: the states in which a repeated attachment is
accepted. -/
def alreadySigned (state : SagaState) : Bool := state == .receiptSigned || state == .payloadRemoved

/-- The transaction of `LifecycleSignatureRemoval.AttachSignature`. -/
def attachReceiptSignature (codec : Codec) (attachment : Lifecycle.SignatureAttachment) (db : Db) :
    Except Lifecycle.Error (Operation × Db) := do
  let stored ← loadFound codec attachment.operationID db
  ensure (stored.intentDigest == attachment.intentDigest &&
    stored.canonicalReceiptPreimage == attachment.receiptPreimage) .conflict
  if stored.state ≠ .markerPersisted then
    ensure (alreadySigned stored.state && stored.receiptSignature == attachment.signature) .conflict
    return (stored.operation, db)
  else
    let db ← updateOperation attachment.operationID attachment.intentDigest .markerPersisted
      (fun r => { r with receiptSignature := attachment.signature, state := .receiptSigned }) db
    return ({ stored.operation with
      state := .receiptSigned, signature := attachment.signature }, db)

/-! ## Removal -/

/-- The columns of a record that a removal reads. -/
def RemovalRecord.of (record : AcceptedRecord) : RemovalRecord :=
  ⟨record.sequence, record.eventID, record.eventDigest, record.receiptID⟩

/-- `selectRemovalRecords`: the whole transcript, or the records at the sequences of the target. -/
def selectRemovalRecords (intent : Intent) (db : Db) :
    Except Lifecycle.Error (List RemovalRecord) :=
  match intent.action with
  | .deleteTranscript =>
    .ok ((db.recordsOf intent.transcript.channelKey).map RemovalRecord.of)
  | .redactTranscript =>
    intent.target.sequences.mapM fun sequence => do
      return RemovalRecord.of (← required
        (db.recordAt? intent.transcript.channelKey sequence) .conflict)

/-- `insertRemovalEvidence`. -/
def insertRemovalEvidence (codec : Codec) (operationID : String) (transcript : TranscriptKey)
    (record : RemovalRecord) (db : Db) : Except Lifecycle.Error Db := do
  let eventID := codec.identifierDigest .event record.eventID
  let receiptID := codec.identifierDigest .receipt record.receiptID
  let db ← required (db.insertPayloadTombstone ⟨operationID, transcript.channelKey,
    record.sequence, eventID, record.eventDigest, receiptID⟩) .unavailable
  let db ← required (db.insertIdentifierTombstone ⟨transcript.tenantID, transcript.channelID,
    .event, eventID, operationID⟩) .unavailable
  required (db.insertIdentifierTombstone ⟨transcript.tenantID, transcript.channelID, .receipt,
    receiptID, operationID⟩) .unavailable

/-- One round of the loop of `RemovePayload`. -/
def removeRecord (codec : Codec) (intent : Intent) (record : RemovalRecord) (db : Db) :
    Except Lifecycle.Error Db := do
  let db ← insertRemovalEvidence codec intent.operationID intent.transcript record db
  let records ← required (deleteOne (fun r : AcceptedRecord =>
    r.channel == intent.transcript.channelKey && r.sequence == record.sequence) db.records)
    .unavailable
  return { db with records }

/-- The loop of `RemovePayload`. -/
def removeRecords (codec : Codec) (intent : Intent) :
    List RemovalRecord → Db → Except Lifecycle.Error Db
  | [], db => .ok db
  | record :: removed, db => do
    removeRecords codec intent removed (← removeRecord codec intent record db)

/-- The evidence of a removed record: its identifiers are digests. -/
def RemovalRecord.evidence (codec : Codec) (record : RemovalRecord) : RemovalRecord := { record with
    eventID := codec.identifierDigest .event record.eventID
    receiptID := codec.identifierDigest .receipt record.receiptID }

/-- `validateRemovalEvidence`. -/
def validateRemovalEvidence (codec : Codec) (stored : OperationRow) (db : Db) : Bool :=
  let rows := (db.payloadTombstones.filter
    (·.operationID == stored.canonicalIntent.operationID)).insertionSort
      fun r r' => r.sequence ≤ r'.sequence
  rows != [] && codec.removalDigest (rows.map fun r =>
    ⟨r.sequence, r.eventIDDigest, r.eventDigest, r.receiptIDDigest⟩) == stored.payloadRemovalDigest

/-- The transaction of `LifecycleSignatureRemoval.RemovePayload`; `preflight` is the operation whose
signature was verified before it. -/
def removePayload (codec : Codec) (reference : OperationReference) (preflight : OperationRow)
    (db : Db) : Except Lifecycle.Error (Operation × Db) := do
  let stored ← loadFound codec reference.operationID db
  ensure (stored.intentDigest == reference.intentDigest) .conflict
  ensure (stored.receiptSignature == preflight.receiptSignature &&
    stored.canonicalReceiptPreimage == preflight.canonicalReceiptPreimage) .conflict
  if stored.state = .payloadRemoved then
    ensure (validateRemovalEvidence codec stored db) .unavailable
    return (stored.operation, db)
  else
    ensure (stored.state == .receiptSigned) .conflict
    let removed ← selectRemovalRecords stored.canonicalIntent db
    ensure (removed != []) .conflict
    let db ← removeRecords codec stored.canonicalIntent removed db
    let digest := codec.removalDigest (removed.map (RemovalRecord.evidence codec))
    let db ← updateOperation reference.operationID reference.intentDigest .receiptSigned
      (fun r => { r with payloadRemovalDigest := digest, state := .payloadRemoved }) db
    return ({ stored.operation with state := .payloadRemoved }, db)

end YukhCoordination.Relay.Sqlite
