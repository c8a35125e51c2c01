import YukhCoordination.Lib.Program
import YukhCoordination.Relay.Sqlite.Backup

/-!
# Runs of the SQLite relay

Every call of the relay store and of the three lifecycle capabilities is a program whose requests
are the transactions and single statements it makes of the database, and the answers it asks of the
verifiers. Any number of calls run over one database and interleave between their requests.

A request may be acknowledged, fail at any of its statements and be rolled back, or commit while its
caller is told that it failed (`Attempt`). A verifier may answer anything. A process that stops is a
thread that makes no further request.
-/

namespace YukhCoordination.Relay.Sqlite

open Lifecycle Transaction Interleave

/-! ## The port -/

/-- The atomic requests of the calls. -/
inductive Request where
  | createChannel (channel : Channel)
  | lookupChannel (key : ChannelKey)
  | appendChecked (intent : AppendIntent) (admission : Admit) (prepare : PrepareRecord)
  | attachSignature (attachment : Relay.SignatureAttachment)
  | transcript (key : ChannelKey)
  | findRecord (tenantID channelID eventID : String)
  | redactionBoundary (key : ChannelKey)
  | readBetween (key : ChannelKey) (after cutoff limit : Nat)
  | reserve (preparation : LifecyclePreparation) (intent : Intent)
  | bindExport (evidence : ExportEvidence)
  | persistMarker (persistence : MarkerPersistence)
  | loadOperation (operationID : String)
  | verifyLifecycleReceipt (keyID algorithm : String) (signing signature : Bytes)
  | attachReceiptSignature (attachment : Lifecycle.SignatureAttachment)
  | removePayload (reference : OperationReference) (preflight : OperationRow)
  | loadObligationSet (operationID : String)
  | loadObligation (operationID : String) (domain : BackupDomain)
  | loadReceiptByID (receiptID : String)
  | loadCompletion (operationID : String)
  | loadBackupEvidence (operationID : String)
  | verifyCustodianReceipt (keyID algorithm : String) (signing : Bytes) (signature : String)
  | verifyCompletionAudit (evidence : CompletionEvidence)
  | bindBackupObligations (set : BackupObligationSet) (preflight : OperationRow)
  | recordBackupReceipt (receipt : CustodianReceipt) (preflight : OperationRow)
      (obligation : ObligationRow)
  | complete (evidence : CompletionEvidence) (preflight : OperationRow) (set : ObligationSetRow)
      (backups : BackupEvidence)

namespace Request

/-- The errors of a request: those of the relay port or those of the lifecycle port. -/
abbrev Err : Request → Type
  | .createChannel _ | .lookupChannel _ | .appendChecked _ _ _ | .attachSignature _
  | .transcript _ | .findRecord _ _ _ | .redactionBoundary _ | .readBetween _ _ _ _ => Relay.Error
  | _ => Lifecycle.Error

/-- The result of a request that is acknowledged. -/
abbrev Result : Request → Type
  | .createChannel _ => Unit
  | .lookupChannel _ => Channel
  | .appendChecked _ _ _ => AppendResult
  | .attachSignature _ => AcceptedRecord
  | .transcript _ => Option Transcript
  | .findRecord _ _ _ => Option AcceptedRecord
  | .redactionBoundary _ => Option Nat
  | .readBetween _ _ _ _ => List AcceptedRecord
  | .loadOperation _ => Option OperationRow
  | .loadObligationSet _ => Option ObligationSetRow
  | .loadObligation _ _ => ObligationRow
  | .loadReceiptByID _ => Option ReceiptRow
  | .loadCompletion _ => Option CompletionRow
  | .loadBackupEvidence _ => BackupEvidence
  | .verifyLifecycleReceipt _ _ _ _ | .verifyCustodianReceipt _ _ _ _
  | .verifyCompletionAudit _ => Unit
  | .reserve _ _ | .bindExport _ | .persistMarker _ | .attachReceiptSignature _
  | .removePayload _ _ | .bindBackupObligations _ _ | .recordBackupReceipt _ _ _
  | .complete _ _ _ _ => Operation

/-- A query: a transaction that changes nothing. -/
def query {ε α : Type} (result : Except ε α) (db : Db) : Except ε (α × Db) := result.map (·, db)

/-- What a request computes of the database when each of its statements succeeds. -/
def run (codec : Codec) : (r : Request) → Db → Except r.Err (r.Result × Db)
  | .createChannel channel, db => Sqlite.createChannel channel db
  | .lookupChannel key, db => query (Sqlite.lookupChannel db key) db
  | .appendChecked intent admission prepare, db =>
    Sqlite.appendChecked codec intent admission prepare db
  | .attachSignature attachment, db => Sqlite.attachSignature attachment db
  | .transcript key, db => query (.ok (db.transcript? key)) db
  | .findRecord tenantID channelID eventID, db =>
    query (.ok (Sqlite.findRecord db tenantID channelID eventID)) db
  | .redactionBoundary key, db => query (.ok (Sqlite.redactionBoundary db key)) db
  | .readBetween key after cutoff limit, db =>
    query (.ok (Sqlite.readBetween db key after cutoff limit)) db
  | .reserve preparation intent, db => Sqlite.reserve codec preparation intent db
  | .bindExport evidence, db => Sqlite.bindExport codec evidence db
  | .persistMarker persistence, db => Sqlite.persistMarker codec persistence db
  | .loadOperation operationID, db =>
    query (Sqlite.loadLifecycleOperation codec operationID db) db
  | .verifyLifecycleReceipt _ _ _ _, db => .ok ((), db)
  | .attachReceiptSignature attachment, db => Sqlite.attachReceiptSignature codec attachment db
  | .removePayload reference preflight, db => Sqlite.removePayload codec reference preflight db
  | .loadObligationSet operationID, db => query (Sqlite.loadObligationSet codec operationID db) db
  | .loadObligation operationID domain, db =>
    query (Sqlite.loadObligation codec operationID domain db) db
  | .loadReceiptByID receiptID, db => query (Sqlite.loadReceiptByID codec receiptID db) db
  | .loadCompletion operationID, db => query (Sqlite.loadCompletion codec operationID db) db
  | .loadBackupEvidence operationID, db =>
    query (Sqlite.loadBackupEvidence codec operationID db) db
  | .verifyCustodianReceipt _ _ _ _, db => .ok ((), db)
  | .verifyCompletionAudit _, db => .ok ((), db)
  | .bindBackupObligations set preflight, db =>
    Sqlite.bindBackupObligations codec set preflight db
  | .recordBackupReceipt receipt preflight obligation, db =>
    Sqlite.recordBackupReceipt codec receipt preflight obligation db
  | .complete evidence preflight set backups, db =>
    Sqlite.complete codec evidence preflight set backups db

end Request

/-- The port of the SQLite relay. -/
abbrev port : Port := ⟨Request, fun r => Except r.Err r.Result⟩

/-- A program of the SQLite relay. -/
abbrev Proc := Program port

/-- A request with its answer. -/
abbrev ask (r : Request) : Proc (Except r.Err r.Result) := Program.ask (P := port) r

/-! ## The calls -/

/-- `Store.LookupChannel`. -/
def Store.lookupChannel (key : ChannelKey) : Proc (Except Relay.Error Channel) :=
  if !key.complete then return .error .invalidArgument
  else ask (.lookupChannel key)

/-- `Store.Lookup`. -/
def Store.lookup (key : ChannelKey) (eventID : String) : Proc (Except Relay.Error AcceptedRecord) :=
  if !key.complete || eventID == "" then return .error .invalidArgument
  else do
    match ← ask (.transcript key) with
    | .error err => return .error err
    | .ok none => return .error .channelNotFound
    | .ok (some _) =>
      match ← ask (.findRecord key.tenantID key.channelID eventID) with
      | .error err => return .error err
      | .ok none => return .error .eventNotFound
      | .ok (some record) => return .ok record

/-- `Store.Read`. -/
def Store.read (key : ChannelKey) (after limit : Nat) :
    Proc (Except Relay.Error (List AcceptedRecord)) :=
  if !key.complete || limit < 1 || limit > 1000 then return .error .invalidArgument
  else if after > maxInt64 then return .ok []
  else do
    match ← ask (.transcript key) with
    | .error err => return .error err
    | .ok none => return .error .channelNotFound
    | .ok (some transcript) =>
      match transcript.lifecycle with
      | .deleted => return .ok []
      | .active => ask (.readBetween key after maxInt64 limit)
      | .redacted =>
        match ← ask (.redactionBoundary key) with
        | .error err => return .error err
        | .ok none => return .ok []
        | .ok (some cutoff) => ask (.readBetween key after cutoff limit)

section
variable (codec : Codec)

/-- `LifecycleSignatureRemoval.verifyStoredSignature`, for a signature of the preimage. -/
def verifySignature (preimage signature : Bytes) : Proc (Except Lifecycle.Error Unit) :=
  match codec.decodePreimage preimage with
  | none => return .error .unavailable
  | some receipt =>
    if !validateReceiptPreimage receipt then return .error .unavailable
    else do
      match ← ask (.verifyLifecycleReceipt receipt.signingKeyID receipt.signatureAlgorithm
          (codec.receiptSigning receipt) signature) with
      | .ok () => return .ok ()
      | .error _ => return .error .unavailable

/-- `LifecycleSignatureRemoval.AttachSignature`. -/
def LifecycleSignatureRemoval.attachSignature (attachment : Lifecycle.SignatureAttachment) :
    Proc (Except Lifecycle.Error Operation) :=
  match Lifecycle.validateSignatureAttachment codec attachment with
  | .error err => return .error err
  | .ok () => do
    match ← ask (.loadOperation attachment.operationID) with
    | .error err => return .error err
    | .ok none => return .error .invalidContract
    | .ok (some stored) =>
      if stored.intentDigest != attachment.intentDigest ||
          stored.canonicalReceiptPreimage != attachment.receiptPreimage then
        return .error .conflict
      else if alreadySigned stored.state then
        if stored.receiptSignature != attachment.signature then return .error .conflict
        else
          match ← verifySignature codec stored.canonicalReceiptPreimage stored.receiptSignature with
          | .error err => return .error err
          | .ok () => return .ok stored.operation
      else if stored.state != .markerPersisted then return .error .conflict
      else
        match ← verifySignature codec stored.canonicalReceiptPreimage attachment.signature with
        | .error err => return .error err
        | .ok () => ask (.attachReceiptSignature attachment)

/-- `LifecycleSignatureRemoval.RemovePayload`. -/
def LifecycleSignatureRemoval.removePayload (reference : OperationReference) :
    Proc (Except Lifecycle.Error Operation) :=
  if !validateOperationReference reference then return .error .invalidContract
  else do
    match ← ask (.loadOperation reference.operationID) with
    | .error err => return .error err
    | .ok none => return .error .invalidContract
    | .ok (some preflight) =>
      if preflight.intentDigest != reference.intentDigest || !alreadySigned preflight.state then
        return .error .conflict
      else
        match ← verifySignature codec preflight.canonicalReceiptPreimage
            preflight.receiptSignature with
        | .error err => return .error err
        | .ok () => ask (.removePayload reference preflight)

/-- `LifecycleBackupCompletion.BindBackupObligations`. -/
def LifecycleBackupCompletion.bindBackupObligations (set : BackupObligationSet) :
    Proc (Except Lifecycle.Error Operation) :=
  match canonicalBackupObligationSet codec set with
  | .error err => return .error err
  | .ok setDigest => do
    match ← ask (.loadOperation set.operationID) with
    | .error err => return .error err
    | .ok none => return .error .invalidContract
    | .ok (some preflight) =>
      match validateObligationSetIntent set preflight.canonicalIntent preflight.intentDigest with
      | .error err => return .error err
      | .ok () =>
        match ← ask (.loadObligationSet set.operationID) with
        | .error _ => return .error .unavailable
        | .ok (some existing) => repeated existing setDigest
        | .ok none =>
          if preflight.state != .payloadRemoved then return .error .conflict
          else ask (.bindBackupObligations set preflight)
where
  /-- A set that is already bound is accepted again if it is the same one. -/
  repeated (existing : ObligationSetRow) (setDigest : String) :
      Proc (Except Lifecycle.Error Operation) :=
    if existing.canonicalSet != set || existing.setDigest != setDigest then
      return .error .conflict
    else do
      match ← ask (.loadBackupEvidence set.operationID) with
      | .error _ => return .error .unavailable
      | .ok evidence =>
        if !obligationsMatchSet set evidence.obligations then return .error .unavailable
        else
          match ← ask (.loadOperation set.operationID) with
          | .error err => return .error err
          | .ok none => return .error .invalidContract
          | .ok (some current) =>
            if current.state != .backupsPending && current.state != .completed then
              return .error .unavailable
            else return .ok current.operation

/-- `lifecycle.ValidateCustodianReceiptSignature` over the port. -/
def verifyCustodian : CustodianVerifier Proc := fun keyID algorithm signing signature =>
  ask (.verifyCustodianReceipt keyID algorithm signing signature)

/-- The current operation, as a call that changes nothing returns it. -/
def currentOperation (operationID : String) : Proc (Except Lifecycle.Error OperationRow) := do
  match ← ask (.loadOperation operationID) with
  | .error err => return .error err
  | .ok none => return .error .invalidContract
  | .ok (some current) => return .ok current

/-- `LifecycleBackupCompletion.RecordBackupReceipt`. -/
def LifecycleBackupCompletion.recordBackupReceipt (receipt : CustodianReceipt) :
    Proc (Except Lifecycle.Error Operation) :=
  match canonicalCustodianReceipt codec receipt with
  | .error err => return .error err
  | .ok (digest, _) => do
    match ← currentOperation receipt.operationID with
    | .error err => return .error err
    | .ok preflight =>
      if preflight.intentDigest != receipt.intentDigest ||
          (preflight.state != .backupsPending && preflight.state != .completed) then
        return .error .conflict
      else
        match ← ask (.loadObligation receipt.operationID receipt.domain) with
        | .error _ => return .error .unavailable
        | .ok obligation =>
          if !(validateReceiptObligation receipt obligation.canonicalObligation
              obligation.obligationDigest).isOk then
            return .error .conflict
          else
            match ← validateCustodianReceiptSignature codec verifyCustodian receipt with
            | .error err => return .error err
            | .ok () => store digest preflight obligation
where
  /-- The last part of the call: a stored receipt is compared, a new one is recorded. -/
  store (digest : String) (preflight : OperationRow) (obligation : ObligationRow) :
      Proc (Except Lifecycle.Error Operation) := do
    match ← ask (.loadReceiptByID receipt.receiptID) with
    | .error _ => return .error .unavailable
    | .ok (some existing) =>
      if existing.receiptDigest != digest || existing.canonicalReceipt != receipt then
        return .error .conflict
      else
        match ← currentOperation receipt.operationID with
        | .error err => return .error err
        | .ok current => return .ok current.operation
    | .ok none =>
      if preflight.state != .backupsPending then return .error .conflict
      else ask (.recordBackupReceipt receipt preflight obligation)

/-- `LifecycleBackupCompletion.Complete`. -/
def LifecycleBackupCompletion.complete (evidence : CompletionEvidence) :
    Proc (Except Lifecycle.Error Operation) :=
  match canonicalCompletionEvidence codec evidence with
  | .error err => return .error err
  | .ok digest => do
    match ← currentOperation evidence.operationID with
    | .error err => return .error err
    | .ok preflight =>
      if preflight.intentDigest != evidence.intentDigest ||
          preflight.canonicalIntent.policyDigest != evidence.policyDigest ||
          (preflight.state != .backupsPending && preflight.state != .completed) then
        return .error .conflict
      else
        match ← ask (.loadObligationSet evidence.operationID) with
        | .error _ | .ok none => return .error .unavailable
        | .ok (some set) =>
          match ← ask (.loadBackupEvidence evidence.operationID) with
          | .error _ => return .error .unavailable
          | .ok backups =>
            match ← validateCompletionAgainst codec verifyCustodian evidence backups.obligations
                backups.receipts with
            | .error err => return .error err
            | .ok () => store digest preflight set backups
where
  /-- The last part of the call: the audit evidence is verified, a stored completion is compared, a
  new one is recorded. -/
  store (digest : String) (preflight : OperationRow) (set : ObligationSetRow)
      (backups : BackupEvidence) : Proc (Except Lifecycle.Error Operation) := do
    match ← ask (.verifyCompletionAudit evidence) with
    | .error .unavailable => return .error .unavailable
    | .error _ => return .error .invalidContract
    | .ok () =>
      match ← ask (.loadCompletion evidence.operationID) with
      | .error _ => return .error .unavailable
      | .ok (some existing) =>
        if existing.completionDigest != digest || existing.canonicalCompletion != evidence then
          return .error .conflict
        else
          match ← currentOperation evidence.operationID with
          | .error err => return .error err
          | .ok current =>
            if current.state != .completed then return .error .unavailable
            else return .ok current.operation
      | .ok none => ask (.complete evidence preflight set backups)

end

/-! ## Runs -/

/-- A call of the relay store or of a lifecycle capability. The policies are those the process was
started with. -/
inductive Call where
  | createChannel (channel : Channel)
  | lookupChannel (key : ChannelKey)
  | lookup (key : ChannelKey) (eventID : String)
  | read (key : ChannelKey) (after limit : Nat)
  | appendChecked (intent : AppendIntent) (admission : Admit) (prepare : PrepareRecord)
  | attachSignature (attachment : Relay.SignatureAttachment)
  | reserve (preparation : LifecyclePreparation) (intent : Intent)
  | bindExport (evidence : ExportEvidence)
  | persistMarker (persistence : MarkerPersistence)
  | attachReceiptSignature (attachment : Lifecycle.SignatureAttachment)
  | removePayload (reference : OperationReference)
  | bindBackupObligations (set : BackupObligationSet)
  | recordBackupReceipt (receipt : CustodianReceipt)
  | complete (evidence : CompletionEvidence)

/-- What a call returns. -/
inductive Outcome where
  | unit (result : Except Relay.Error Unit)
  | channel (result : Except Relay.Error Channel)
  | record (result : Except Relay.Error AcceptedRecord)
  | records (result : Except Relay.Error (List AcceptedRecord))
  | appended (result : Except Relay.Error AppendResult)
  | operation (result : Except Lifecycle.Error Operation)

/-- The program of a call. -/
def Call.body (codec : Codec) : Call → Proc Outcome
  | .createChannel channel => do return .unit (← ask (.createChannel channel))
  | .lookupChannel key => do return .channel (← Store.lookupChannel key)
  | .lookup key eventID => do return .record (← Store.lookup key eventID)
  | .read key after limit => do return .records (← Store.read key after limit)
  | .appendChecked intent admission prepare => do
    return .appended (← ask (.appendChecked intent admission prepare))
  | .attachSignature attachment => do return .record (← ask (.attachSignature attachment))
  | .reserve preparation intent => do return .operation (← ask (.reserve preparation intent))
  | .bindExport evidence => do return .operation (← ask (.bindExport evidence))
  | .persistMarker persistence => do return .operation (← ask (.persistMarker persistence))
  | .attachReceiptSignature attachment => do
    return .operation (← LifecycleSignatureRemoval.attachSignature codec attachment)
  | .removePayload reference => do
    return .operation (← LifecycleSignatureRemoval.removePayload codec reference)
  | .bindBackupObligations set => do
    return .operation (← LifecycleBackupCompletion.bindBackupObligations codec set)
  | .recordBackupReceipt receipt => do
    return .operation (← LifecycleBackupCompletion.recordBackupReceipt codec receipt)
  | .complete evidence => do
    return .operation (← LifecycleBackupCompletion.complete codec evidence)

/-- The meaning of a request: its transaction is attempted. -/
def sem (codec : Codec) : Sem port Nat Db := fun _ r db ans db' => Attempt (r.run codec) db ans db'

/-- Calls over one database. -/
abbrev Pool := Interleave.Pool port Nat Call Outcome Db

/-- One step of a run. -/
abbrev Step (codec : Codec) : Pool → Pool → Prop :=
  Interleave.Pool.Step (sem codec) (fun _ _ => False) (Call.body codec)

/-- The runs from a new database. -/
def Reach (codec : Codec) : Pool → Prop :=
  Interleave.Pool.Reach (sem codec) (fun _ _ => False) (Call.body codec) {}

/-- `Later codec p q`: a run leads from `p` to `q`. -/
def Later (codec : Codec) : Pool → Pool → Prop := Relation.ReflTransGen (Step codec)

/-! ## Running calls one after the other -/

/-- The pool has the database `db` and has started no thread from `n` on. -/
structure Idle (n : Nat) (db : Db) (p : Pool) : Prop where
  shared : p.shared = db
  thread : ∀ i, n ≤ i → p.thread i = none

theorem Idle.init : Idle 0 {} (Interleave.Pool.init {}) := ⟨rfl, fun _ _ => rfl⟩

variable {S : Sem port Nat Db} {n : Nat} {db db' : Db} {p : Pool} {c : Call} {a : Outcome}

/-- The next thread can start a call and go on with it; the other threads stay where they are. -/
theorem Idle.begin {codec : Codec} (h : Idle n db p) {program : Proc Outcome}
    (hl : (c.body codec).Leads (S n) db program db') :
    ∃ q, Relation.ReflTransGen
        (Interleave.Pool.Step S (fun _ _ => False) (Call.body codec)) p q ∧ Idle (n + 1) db' q ∧
      q.thread n = some (c, program) ∧ ∀ i, i ≠ n → q.thread i = p.thread i := by
  obtain ⟨rfl, hn⟩ := h
  refine ⟨_, Interleave.Pool.Step.begin (hn n le_rfl) hl, ⟨rfl, fun i hi => ?_⟩,
    Function.update_self _ _ _, fun i hne => Function.update_of_ne hne _ _⟩
  have hne : i ≠ n := by omega
  simpa [Function.update_of_ne hne] using hn i (by omega)

/-- A started thread can go on with its call; the other threads stay where they are. -/
theorem Idle.resume {codec : Codec} {i : Nat} (h : Idle n db p) {program program' : Proc Outcome}
    (hi : p.thread i = some (c, program)) (hl : program.Leads (S i) db program' db') :
    ∃ q, Relation.ReflTransGen
        (Interleave.Pool.Step S (fun _ _ => False) (Call.body codec)) p q ∧ Idle n db' q ∧
      q.thread i = some (c, program') ∧ ∀ j, j ≠ i → q.thread j = p.thread j := by
  obtain ⟨rfl, hn⟩ := h
  refine ⟨_, Interleave.Pool.Step.resume hi hl, ⟨rfl, fun j hj => ?_⟩,
    Function.update_self _ _ _, fun j hne => Function.update_of_ne hne _ _⟩
  have hne : j ≠ i := by
    rintro rfl
    rw [hn j hj] at hi
    cases hi
  exact (Function.update_of_ne hne _ _).trans (hn j hj)

/-- The next thread can run a call to its end; the calls that have returned stay returned. -/
theorem Idle.exec {codec : Codec} (h : Idle n db p) (hx : (c.body codec).Exec (S n) db a db') :
    ∃ q, Relation.ReflTransGen
        (Interleave.Pool.Step S (fun _ _ => False) (Call.body codec)) p q ∧ Idle (n + 1) db' q ∧
      q.Returned n c a ∧ ∀ i c' a', p.Returned i c' a' → q.Returned i c' a' := by
  obtain ⟨q, hq, hi, hreturned, hthreads⟩ := h.begin hx.leads
  refine ⟨q, hq, hi, hreturned, fun i c' a' hr => ?_⟩
  have hne : i ≠ n := by
    rintro rfl
    rw [Interleave.Pool.Returned, h.thread i le_rfl] at hr
    cases hr
  exact (hthreads i hne).trans hr

/-- The next thread can run a call to its end. -/
theorem Idle.call {codec : Codec} (h : Idle n db p) (hx : (c.body codec).Exec (S n) db a db') :
    ∃ q, Relation.ReflTransGen
      (Interleave.Pool.Step S (fun _ _ => False) (Call.body codec)) p q ∧ Idle (n + 1) db' q := by
  obtain ⟨q, hq, hi, -⟩ := h.exec hx
  exact ⟨q, hq, hi⟩

/-- A run of at most `n` calls has led to the database. -/
def Reachable (codec : Codec) (S : Sem port Nat Db) (n : Nat) (db : Db) : Prop :=
  ∃ p, Interleave.Pool.Reach S (fun _ _ => False) (Call.body codec) {} p ∧ Idle n db p

theorem Reachable.init {codec : Codec} : Reachable codec S 0 {} :=
  ⟨Interleave.Pool.init {}, .refl, .init⟩

theorem Reachable.call {codec : Codec} (h : Reachable codec S n db)
    (hx : (c.body codec).Exec (S n) db a db') : Reachable codec S (n + 1) db' := by
  obtain ⟨p, hp, hi⟩ := h
  obtain ⟨q, hq, hi'⟩ := hi.call hx
  exact ⟨q, hp.trans hq, hi'⟩

/-- A call that is one request, acknowledged. -/
theorem exec_ask {r : Request} {a : r.Result}
    (h : S n r db (.ok a) db') {f : Except r.Err r.Result → Outcome} :
    (ask r >>= fun ans => (pure (f ans) : Proc Outcome)).Exec (S n) db (f (.ok a)) db' :=
  Program.exec_ask_bind.2 ⟨.ok a, db', h, .done⟩

/-! ## Values to run the calls with -/

/-- A digest to run the calls with. -/
def sampleDigest : String :=
  "sha-256:aaaaaaaaaaaaaaaaaaaaaaaaaaaaaaaaaaaaaaaaaaaaaaaaaaaaaaaaaaaaaaaa"

/-- A codec to run the calls with, for given documents that it decodes: it gives every document the
same digest and every identifier itself. -/
def sampleCodec (metadata : Option ChannelMetadata) (marker : Option Marker)
    (preimage : Option ReceiptPreimage) : Codec where
  eventDigest _ := sampleDigest
  identifierDigest _ value := value
  removalDigest _ := sampleDigest
  policyDigest _ := sampleDigest
  intentDigest _ := sampleDigest
  intentSize _ := 1
  markerDigest _ := sampleDigest
  decodeMarker raw := if raw = [1] then marker else none
  decodePreimage raw := if raw = [2] then preimage else none
  receiptSigning _ := [1]
  obligationDigest _ := sampleDigest
  obligationSize _ := 1
  obligationSetDigest _ := sampleDigest
  obligationSetSize _ := 1
  custodianReceiptDigest _ := sampleDigest
  custodianReceiptSize _ := 1
  custodianReceiptSigning _ := [1]
  completionDigest _ := sampleDigest
  completionSize _ := 1
  channelMetadata raw := if raw = [1] then metadata else none

/-- The transcript to run the calls with. -/
def sampleKey : ChannelKey := ⟨"tenant", "channel", "1"⟩

/-- Its channel. -/
def sampleChannel : Channel := ⟨sampleKey, "urn:channel", [1], "digest", .active⟩

/-- The record that the append of an event commits at a sequence. -/
def sampleRecord (eventID receiptID : String) (sequence : Nat) : AcceptedRecord where
  channel := sampleKey
  sequence := sequence
  eventID := eventID
  canonicalEvent := [1]
  eventDigest := sampleDigest
  authenticatedBinding := [1]
  authorizationBinding := [1]
  receiptID := receiptID
  signingKeyID := "key"
  signatureAlgorithm := "ed25519"
  unsignedReceiptPreimage := [1]
  signature := []

/-- The append of an event to the sample transcript, with no admission check. -/
def sampleAppend (eventID receiptID : String) : Request :=
  .appendChecked ⟨sampleKey, eventID, [1]⟩ (fun _ => .ok ())
    fun sequence _ => .ok (sampleRecord eventID receiptID sequence)

/-- The database after the sample channel was created. -/
def createdDb : Db where
  identities := [⟨"tenant", "channel", "urn:channel"⟩]
  transcripts := [⟨sampleKey, 1, [1], "digest", .active, .complete⟩]

/-- The database after one event was appended to it. -/
def appendedDb : Db := { createdDb with
    transcripts := [⟨sampleKey, 2, [1], "digest", .active, .complete⟩]
    records := [sampleRecord "event-1" "receipt-1" 1] }

section
variable (metadata : Option ChannelMetadata) (marker : Option Marker)
  (preimage : Option ReceiptPreimage)

theorem createdDb_reachable : Reachable (sampleCodec metadata marker preimage)
    (sem (sampleCodec metadata marker preimage)) 1 createdDb :=
  Reachable.init.call (c := .createChannel sampleChannel)
    (exec_ask (r := .createChannel sampleChannel) (a := ()) (.committed rfl))

theorem appendedDb_reachable : Reachable (sampleCodec metadata marker preimage)
    (sem (sampleCodec metadata marker preimage)) 2 appendedDb :=
  (createdDb_reachable metadata marker preimage).call (c := .appendChecked _ _ _)
    (exec_ask (r := sampleAppend "event-1" "receipt-1")
      (a := (⟨.appended, sampleRecord "event-1" "receipt-1" 1⟩ : AppendResult)) (.committed rfl))

end

end YukhCoordination.Relay.Sqlite
