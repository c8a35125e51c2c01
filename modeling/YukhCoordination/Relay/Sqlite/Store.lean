import YukhCoordination.Relay.Sqlite.Schema

/-!
# The SQLite relay store

The transactions and queries of `internal/relay/sqlite/store.go`. `CreateChannel`, `AppendChecked`
and `AttachSignature` each run in one immediate transaction, so each is a function from the database
to an error or to a result with the database it commits; a statement that fails for any other reason
rolls the transaction back, which is part of the meaning of a transaction and not of these
functions. `Lookup` and `Read` are separate statements outside a transaction; their queries are
here.
-/

namespace YukhCoordination.Relay.Sqlite

open Lifecycle Transaction

/-- `lookupChannel`. -/
def lookupChannel (db : Db) (key : ChannelKey) : Except Relay.Error Channel := do
  let transcript ← required (db.transcript? key) .channelNotFound
  let identity ← required
    (db.identities.find? fun r => r.tenantID == key.tenantID && r.channelID == key.channelID)
    .channelNotFound
  let channel : Channel := ⟨key, identity.uri, transcript.canonicalMetadata,
    transcript.metadataDigest, transcript.lifecycle⟩
  ensure (validateChannel channel) .channelNotFound
  return channel

/-- The identity part of `CreateChannel`: the channel is bound to its URI, and the URI of a tenant
to its channel. -/
def bindIdentity (channel : Channel) (db : Db) : Except Relay.Error Db :=
  match db.identities.find? fun r =>
      r.tenantID == channel.key.tenantID && r.channelID == channel.key.channelID with
  | some identity => do
    ensure (identity.uri == channel.uri) .channelConflict
    return db
  | none => do
    ensure (!db.identities.any fun r =>
      r.tenantID == channel.key.tenantID && r.uri == channel.uri) .channelConflict
    required (db.insertIdentity ⟨channel.key.tenantID, channel.key.channelID, channel.uri⟩) .other

/-- `Store.CreateChannel`. -/
def createChannel (channel : Channel) (db : Db) : Except Relay.Error (Unit × Db) := do
  ensure (validateChannel channel) .invalidArgument
  let db ← bindIdentity channel db
  match db.transcript? channel.key with
  | none =>
    -- `INSERT … ON CONFLICT DO NOTHING` inserts: `next_sequence` has its default.
    return ((), { db with transcripts := db.transcripts ++
      [⟨channel.key, 1, channel.canonicalMetadata, channel.metadataDigest, channel.lifecycle,
        .complete⟩] })
  | some _ =>
    let existing ← lookupChannel db channel.key
    ensure (sameChannel existing channel) .channelConflict
    return ((), db)

/-- `findRecord`: by the event id of a channel, whatever the epoch. -/
def findRecord (db : Db) (tenantID channelID eventID : String) : Option AcceptedRecord :=
  db.records.find? fun r =>
    r.channel.tenantID == tenantID && r.channel.channelID == channelID && r.eventID == eventID

/-- `findReceipt`. -/
def findReceipt (db : Db) (key : ChannelKey) (receiptID : String) : Option AcceptedRecord :=
  db.records.find? fun r => r.channel == key && r.receiptID == receiptID

/-- The first `limit` records of a transcript after a sequence. -/
def readAfter (db : Db) (key : ChannelKey) (after limit : Nat) : List AcceptedRecord :=
  ((db.recordsOf key).filter fun r => after < r.sequence).take limit

/-- `sqliteAdmissionView`. -/
def admissionView (db : Db) (key : ChannelKey) : AdmissionView where
  lookup eventID :=
    match findRecord db key.tenantID key.channelID eventID with
    | some record => if record.channel = key then .ok record else .error .eventNotFound
    | none => .error .eventNotFound
  read after limit :=
    if limit < 1 || limit > 1000 || after > maxInt64 then .error .invalidArgument
    else .ok (readAfter db key after limit)

/-- The part of `Store.AppendChecked` that commits a new record. -/
def appendRecord (codec : Codec) (intent : AppendIntent) (admission : Admit)
    (prepare : PrepareRecord) (transcript : Transcript) (db : Db) :
      Except Relay.Error (AppendResult × Db) := do
  admission (admissionView db intent.channel)
  let sequence := transcript.nextSequence
  let digest := codec.eventDigest intent.canonicalEvent
  let record ← prepare sequence digest
  ensure (validatePreparedRecord intent sequence digest record) .invalidArgument
  ensure (!db.receiptTombstoned (codec.identifierDigest .receipt record.receiptID))
    .transitionConflict
  let db ← required (db.insertRecord record) .other
  -- The largest `INTEGER` has no successor: the update fails.
  ensure (sequence < maxInt64) .other
  let transcripts ← required (updateOne
    (fun t : Transcript => t.key == intent.channel && t.nextSequence == sequence)
    (fun t => { t with nextSequence := t.nextSequence + 1 }) db.transcripts) .other
  return (⟨.appended, record⟩, { db with transcripts })

/-- `Store.AppendChecked`. -/
def appendChecked (codec : Codec) (intent : AppendIntent) (admission : Admit)
    (prepare : PrepareRecord) (db : Db) : Except Relay.Error (AppendResult × Db) := do
  ensure (Relay.validateIntent intent) .invalidArgument
  let transcript ← required (db.transcript? intent.channel) .channelNotFound
  ensure (transcript.lifecycle == .active) .transitionConflict
  ensure (!db.tombstoned intent.channel.tenantID intent.channel.channelID .event
    (codec.identifierDigest .event intent.eventID)) .eventIDCollision
  match findRecord db intent.channel.tenantID intent.channel.channelID intent.eventID with
  | some existing =>
    ensure (existing.channel == intent.channel && existing.canonicalEvent == intent.canonicalEvent)
      .eventIDCollision
    return (⟨.duplicate, existing⟩, db)
  | none => appendRecord codec intent admission prepare transcript db

/-- `Store.AttachSignature`. -/
def attachSignature (attachment : Relay.SignatureAttachment) (db : Db) :
    Except Relay.Error (AcceptedRecord × Db) := do
  ensure (Relay.validateSignatureAttachment attachment) .invalidArgument
  let record ← required (findReceipt db attachment.channel attachment.receiptID) .receiptNotFound
  ensure (record.unsignedReceiptPreimage == attachment.unsignedReceiptPreimage) .signatureCollision
  if record.signature ≠ [] then
    ensure (record.signature == attachment.signature) .signatureCollision
    return (record, db)
  else
    let records ← required (updateOne (fun r : AcceptedRecord => r.channel == attachment.channel &&
        r.receiptID == attachment.receiptID && r.signature == [])
      (fun r => { r with signature := attachment.signature }) db.records) .other
    return ({ record with signature := attachment.signature }, { db with records })

/-- The sequence from which `Store.Read` stops: the first removed one of a redacted transcript. No
tombstone at all hides everything. -/
def redactionBoundary (db : Db) (key : ChannelKey) : Option Nat :=
  ((db.payloadTombstones.filter (·.key == key)).map (·.sequence)).min?

/-- The last query of `Store.Read`. -/
def readBetween (db : Db) (key : ChannelKey) (after cutoff limit : Nat) : List AcceptedRecord :=
  ((db.recordsOf key).filter fun r => after < r.sequence && r.sequence < cutoff).take limit

end YukhCoordination.Relay.Sqlite
