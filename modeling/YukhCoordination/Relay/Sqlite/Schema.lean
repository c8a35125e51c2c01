import Mathlib.Data.List.Sort
import YukhCoordination.Lib.Transaction
import YukhCoordination.Relay.Lifecycle.Types

/-!
# The tables of the SQLite relay database

The schema of `internal/relay/sqlite/store.go`. An insert checks the constraints of its table;
foreign keys are left out, and a `NULL` column is the empty text.
-/

namespace YukhCoordination.Relay.Sqlite

open Lifecycle

/-- `math.MaxInt64`. -/
def maxInt64 : Nat := 2 ^ 63 - 1

/-- A row of `channel_identities`. -/
structure ChannelIdentity where
  tenantID : String
  channelID : String
  uri : String
  deriving DecidableEq, Repr

/-- The `completeness` of a transcript. -/
inductive Completeness where
  | complete
  | incomplete
  deriving DecidableEq, Repr

/-- A row of `transcripts`. -/
structure Transcript where
  key : ChannelKey
  nextSequence : Nat
  canonicalMetadata : Bytes
  metadataDigest : String
  lifecycle : Relay.Lifecycle
  completeness : Completeness
  deriving DecidableEq, Repr

/-- A row of `lifecycle_policies`. -/
structure PolicyRow where
  policyDigest : String
  policyID : String
  policyEpoch : Nat
  canonicalPolicy : Policy
  activeRetentionMillis : Nat
  exportMode : ExportMode
  deriving DecidableEq, Repr

/-- A row of `transcript_policy_bindings`. -/
structure PolicyBinding where
  key : ChannelKey
  policyDigest : String
  policyID : String
  policyEpoch : Nat
  retentionDeadline : String
  deriving DecidableEq, Repr

/-- A row of `lifecycle_operations`. -/
structure OperationRow where
  operationID : String
  intentDigest : String
  canonicalIntent : Intent
  key : ChannelKey
  policyDigest : String
  requestedAt : String
  state : SagaState
  exportManifestDigest : String
  exportCustodyReceiptDigest : String
  canonicalMarker : Bytes
  canonicalReceiptPreimage : Bytes
  receiptSignature : Bytes
  payloadRemovalDigest : String
  deriving DecidableEq, Repr

/-- A row of `lifecycle_payload_tombstones`. -/
structure PayloadTombstone where
  operationID : String
  key : ChannelKey
  sequence : Nat
  eventIDDigest : String
  eventDigest : String
  receiptIDDigest : String
  deriving DecidableEq, Repr

/-- A row of `lifecycle_identifier_tombstones`. -/
structure IdentifierTombstone where
  tenantID : String
  channelID : String
  kind : IdentifierKind
  digest : String
  operationID : String
  deriving DecidableEq, Repr

/-- A row of `lifecycle_backup_obligation_sets`. -/
structure ObligationSetRow where
  operationID : String
  setDigest : String
  canonicalSet : BackupObligationSet
  deriving DecidableEq, Repr

/-- A row of `lifecycle_backup_obligations`. -/
structure ObligationRow where
  operationID : String
  domain : BackupDomain
  obligationDigest : String
  canonicalObligation : BackupObligation
  deadline : String
  bindingKind : BackupBindingKind
  bindingDigest : String
  deriving DecidableEq, Repr

/-- A row of `lifecycle_backup_receipts`. -/
structure ReceiptRow where
  receiptID : String
  receiptDigest : String
  operationID : String
  domain : BackupDomain
  canonicalReceipt : CustodianReceipt
  evidenceTime : String
  outcome : BackupOutcome
  deriving DecidableEq, Repr

/-- A row of `lifecycle_completions`. -/
structure CompletionRow where
  operationID : String
  completionDigest : String
  canonicalCompletion : CompletionEvidence
  completedAt : String
  deriving DecidableEq, Repr

/-- The relay database. A row of `accepted_records` is the record itself. -/
structure Db where
  identities : List ChannelIdentity := []
  transcripts : List Transcript := []
  records : List AcceptedRecord := []
  policies : List PolicyRow := []
  bindings : List PolicyBinding := []
  operations : List OperationRow := []
  payloadTombstones : List PayloadTombstone := []
  identifierTombstones : List IdentifierTombstone := []
  obligationSets : List ObligationSetRow := []
  obligations : List ObligationRow := []
  receipts : List ReceiptRow := []
  completions : List CompletionRow := []
  deriving DecidableEq, Repr

namespace Db

/-! ## Inserts -/

/-- `INSERT INTO channel_identities`: one row for a channel, one for a URI of a tenant. -/
def insertIdentity (db : Db) (row : ChannelIdentity) : Option Db :=
  if db.identities.any fun r => r.tenantID == row.tenantID &&
      (r.channelID == row.channelID || r.uri == row.uri) then none
  else some { db with identities := db.identities ++ [row] }

/-- `INSERT INTO accepted_records`: one row for an event of a channel, one for a receipt id, one for
a sequence of a transcript. The signature stays `NULL`. -/
def insertRecord (db : Db) (row : AcceptedRecord) : Option Db :=
  if row.sequence == 0 || row.sequence > maxInt64 || db.records.any fun r =>
      (r.channel.tenantID == row.channel.tenantID && r.channel.channelID == row.channel.channelID &&
        r.eventID == row.eventID) ||
      r.receiptID == row.receiptID || (r.channel == row.channel && r.sequence == row.sequence)
  then none
  else some { db with records := db.records ++ [row.unsigned] }

/-- `INSERT INTO lifecycle_operations`: one row for an operation id, and one operation of a
transcript that is not completed (`lifecycle_one_active_operation`). -/
def insertOperation (db : Db) (row : OperationRow) : Option Db :=
  if db.operations.any fun r => r.operationID == row.operationID ||
      (r.key == row.key && r.state != .completed && row.state != .completed) then none
  else some { db with operations := db.operations ++ [row] }

/-- `INSERT INTO lifecycle_payload_tombstones`. -/
def insertPayloadTombstone (db : Db) (row : PayloadTombstone) : Option Db :=
  if row.sequence == 0 || db.payloadTombstones.any fun r =>
      r.operationID == row.operationID && r.sequence == row.sequence then none
  else some { db with payloadTombstones := db.payloadTombstones ++ [row] }

/-- `INSERT INTO lifecycle_identifier_tombstones`: one row for an identifier of a channel, and one
for a receipt id anywhere (`lifecycle_receipt_identifier_nonreuse`). -/
def insertIdentifierTombstone (db : Db) (row : IdentifierTombstone) : Option Db :=
  if db.identifierTombstones.any fun r => r.kind == row.kind && r.digest == row.digest &&
      ((r.tenantID == row.tenantID && r.channelID == row.channelID) || row.kind == .receipt)
  then none
  else some { db with identifierTombstones := db.identifierTombstones ++ [row] }

/-- `INSERT INTO lifecycle_backup_obligation_sets`. -/
def insertObligationSet (db : Db) (row : ObligationSetRow) : Option Db :=
  if db.obligationSets.any fun r => r.operationID == row.operationID || r.setDigest == row.setDigest
  then none
  else some { db with obligationSets := db.obligationSets ++ [row] }

/-- `INSERT INTO lifecycle_backup_obligations`. -/
def insertObligation (db : Db) (row : ObligationRow) : Option Db :=
  if db.obligations.any fun r => (r.operationID == row.operationID && r.domain == row.domain) ||
      r.obligationDigest == row.obligationDigest then none
  else some { db with obligations := db.obligations ++ [row] }

/-- `INSERT INTO lifecycle_backup_receipts`. -/
def insertReceipt (db : Db) (row : ReceiptRow) : Option Db :=
  if db.receipts.any fun r => r.receiptID == row.receiptID || r.receiptDigest == row.receiptDigest
  then none
  else some { db with receipts := db.receipts ++ [row] }

/-- `INSERT INTO lifecycle_completions`. -/
def insertCompletion (db : Db) (row : CompletionRow) : Option Db :=
  if db.completions.any fun r =>
      r.operationID == row.operationID || r.completionDigest == row.completionDigest then none
  else some { db with completions := db.completions ++ [row] }

/-! ## Queries -/

/-- The transcript with the given key. -/
def transcript? (db : Db) (key : ChannelKey) : Option Transcript :=
  db.transcripts.find? (·.key == key)

/-- The records of a transcript in the order of their sequences. -/
def recordsOf (db : Db) (key : ChannelKey) : List AcceptedRecord :=
  (db.records.filter (·.channel == key)).insertionSort fun r r' => r.sequence ≤ r'.sequence

/-- The record of a transcript with the given sequence. -/
def recordAt? (db : Db) (key : ChannelKey) (sequence : Nat) : Option AcceptedRecord :=
  db.records.find? fun r => r.channel == key && r.sequence == sequence

/-- The operation row with the given id. -/
def operation? (db : Db) (operationID : String) : Option OperationRow :=
  db.operations.find? (·.operationID == operationID)

/-- Whether the identifier of that digest is tombstoned in the channel. -/
def tombstoned (db : Db) (tenantID channelID : String) (kind : IdentifierKind) (digest : String) :
    Bool :=
  db.identifierTombstones.any fun r => r.tenantID == tenantID && r.channelID == channelID &&
    r.kind == kind && r.digest == digest

/-- Whether the receipt id of that digest is tombstoned in any channel. -/
def receiptTombstoned (db : Db) (digest : String) : Bool :=
  db.identifierTombstones.any fun r => r.kind == .receipt && r.digest == digest

end Db

end YukhCoordination.Relay.Sqlite
