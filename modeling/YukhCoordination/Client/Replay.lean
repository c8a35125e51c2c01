import YukhCoordination.Lib.Program
import YukhCoordination.Lib.Transaction
import YukhCoordination.Relay.Store

/-!
# The replay of a client

The model of `ValidateConfig`, `Client.Replay`, `Client.page` and `Client.ValidateRecord` of
`internal/client/client.go`.

A replay is a program over its two requests: the authorizer may change the request it is given or
refuse it, and the server may answer anything. The libraries are parameters: the URLs, the canonical
form of JSON and its decoders, the hash and the verifier of receipts. Of a response the client reads
the members here; `body` is what its stream gives before it ends, in an error or not.
-/

namespace YukhCoordination.Client

open Relay (Bytes)
open Transaction Interleave

set_option linter.dupNamespace false

/-! ## Configuration -/

/-- The errors of the client that a replay returns. -/
inductive ClientError where
  | invalidInput
  | authentication
  | accessDenied
  | incomplete
  | unavailable
  | invalidRecord
  deriving DecidableEq, Repr

/-- `url.URL`, as far as the client reads and writes it. -/
structure URL where
  scheme : String
  user : Option String
  host : String
  path : String
  rawPath : String
  rawQuery : String
  fragment : String
  deriving DecidableEq, Repr

/-- `Config`. -/
structure Config where
  baseURI : String
  channelID : String
  channelURI : String
  transcriptEpoch : Nat
  pageLimit : Nat
  maxRecords : Nat
  deriving DecidableEq, Repr

/-- The members of an event that the client reads. -/
structure EventHeader where
  specVersion : String
  id : String
  channel : String
  deriving DecidableEq, Repr

/-- `pageDocument`. A record is the raw event and the raw receipt. -/
structure PageDocument where
  specVersion : String
  channelID : String
  channelURI : String
  transcriptEpoch : Nat
  after : Nat
  highWaterSequence : Nat
  completeness : String
  boundarySequence : Option Nat
  records : List (Bytes × Bytes)
  deriving DecidableEq, Repr

/-- The libraries of the client. `decodeMembers` reads the members of an object as raw values. -/
structure Library where
  parseURL : String → Option URL
  urlString : URL → String
  pathEscape : String → String
  transform : Bytes → Option Bytes
  decodePage : Bytes → Option PageDocument
  decodeEvent : Bytes → Option EventHeader
  decodeMembers : Bytes → Option (List (String × Bytes))
  decodeString : Bytes → Option String
  decodeUint : Bytes → Option Nat
  sha256Hex : Bytes → String
  verify : Bytes → Bool

/-- `maxBodyBytes`. -/
def maxBodyBytes : Nat := 8388608

/-- `maxSafeInteger`. -/
def maxSafeInteger : Nat := 9007199254740991

/-- A URL of the configuration: an `https` URL with a host and without user, query, fragment and
escaped path. -/
def URL.plain (url : URL) : Bool :=
  url.scheme == "https" && url.host != "" && url.user.isNone && url.rawQuery == "" &&
    url.fragment == "" && url.rawPath == ""

/-- `ValidateConfig`. -/
def validateConfig (lib : Library) (config : Config) : Bool :=
  (lib.parseURL config.baseURI).any (fun base => base.plain && base.path.toList.getLast? !=
    some '/')
    && (lib.parseURL config.channelURI).any URL.plain && config.channelURI.utf8ByteSize ≤ 2048 &&
    config.channelID != "" && config.channelID.utf8ByteSize ≤ 256 &&
    config.channelID.toList.all (fun c => c != '/' && c != '\x00') &&
    config.transcriptEpoch != 0 && config.transcriptEpoch ≤ maxSafeInteger &&
    1 ≤ config.pageLimit && config.pageLimit ≤ 1000 && 1 ≤ config.maxRecords &&
    config.maxRecords ≤ 100000

/-- `Client`: `New` gives one only for a valid configuration. -/
structure Client (lib : Library) where
  config : Config
  valid : validateConfig lib config

/-! ## Requests -/

/-- `http.Request`. -/
structure HTTPRequest where
  method : String
  url : String
  header : List (String × String)
  deriving DecidableEq, Repr

/-- `http.Response`. -/
structure Response where
  requestURL : Option String
  statusCode : Nat
  contentType : String
  cacheControl : String
  body : Bytes
  bodyFails : Bool
  deriving DecidableEq, Repr

/-- The requests of the client: `RequestAuthorizer.Authorize` and `HTTPDoer.Do`. -/
inductive Request where
  | authorize (request : HTTPRequest)
  | send (request : HTTPRequest)

/-- The answers: the request as the authorizer leaves it, and the response. -/
abbrev Request.Answer : Request → Type
  | .authorize _ => Option HTTPRequest
  | .send _ => Option Response

/-- The port of the client. -/
abbrev port : Port := ⟨Request, Request.Answer⟩

/-- The programs of the client. -/
abbrev Proc := Program port

/-- A request with its answer. -/
abbrev ask (r : Request) : Proc r.Answer := Program.ask (P := port) r

/-! ## Records -/

/-- `Record`. -/
structure Record where
  sequence : Nat
  event : Bytes
  receipt : Bytes
  deriving DecidableEq, Repr

section
variable (lib : Library)

/-- `decodeString` of `ValidateRecord`. -/
def textMember (wire : List (String × Bytes)) (name : String) : Option String :=
  (wire.lookup name).bind lib.decodeString

/-- `decodeUint` of `ValidateRecord`. -/
def uintMember (wire : List (String × Bytes)) (name : String) : Option Nat :=
  (wire.lookup name).bind lib.decodeUint

/-- `ValidateRecord`. -/
def validateRecord (config : Config) (eventRaw receiptRaw : Bytes) (expected : Nat) :
    Except ClientError Record := do
  ensure (lib.transform eventRaw == some eventRaw) .invalidRecord
  ensure (lib.transform receiptRaw == some receiptRaw) .invalidRecord
  let event ← required (lib.decodeEvent eventRaw) .invalidRecord
  let wire ← required (lib.decodeMembers receiptRaw) .invalidRecord
  let specVersion ← required (textMember lib wire "specversion") .invalidRecord
  let eventID ← required (textMember lib wire "event_id") .invalidRecord
  let eventDigest ← required (textMember lib wire "event_digest") .invalidRecord
  let channelID ← required (textMember lib wire "channel_id") .invalidRecord
  let channelURI ← required (textMember lib wire "channel_uri") .invalidRecord
  let cursor ← required (textMember lib wire "cursor") .invalidRecord
  let sequence ← required (uintMember lib wire "sequence") .invalidRecord
  let transcriptEpoch ← required (uintMember lib wire "transcript_epoch") .invalidRecord
  ensure (event.specVersion == "0.1" && specVersion == "0.1" && event.id != "" &&
    event.channel == config.channelURI && eventID == event.id &&
    eventDigest == "sha-256:" ++ lib.sha256Hex eventRaw && channelID == config.channelID &&
    channelURI == config.channelURI && sequence == expected && cursor == toString expected &&
    transcriptEpoch == config.transcriptEpoch) .invalidRecord
  ensure (lib.verify receiptRaw) .invalidRecord
  return ⟨sequence, eventRaw, receiptRaw⟩

/-- The records of a page, from an expected sequence on. -/
def validateRecords (config : Config) :
    Nat → List (Bytes × Bytes) → Except ClientError (List Record)
  | _, [] => return []
  | expected, (event, receipt) :: items => do
    let record ← validateRecord lib config event receipt expected
    let records ← validateRecords config (expected + 1) items
    return record :: records

/-! ## Pages -/

/-- `ReplayResult`. -/
structure ReplayResult where
  specVersion : String
  channelID : String
  channelURI : String
  transcriptEpoch : Nat
  highWaterSequence : Nat
  completeness : String
  boundarySequence : Option Nat
  records : List Record
  deriving DecidableEq, Repr

/-- `ReplayResult{}`. -/
def ReplayResult.zero : ReplayResult := ⟨"", "", "", 0, 0, "", none, []⟩

/-- `io.ReadAll(io.LimitReader(response.Body, maxBodyBytes+1))`. -/
def Response.readAll (response : Response) : Option Bytes :=
  if response.body.length < maxBodyBytes + 1 && response.bodyFails then none
  else some (response.body.take (maxBodyBytes + 1))

/-- The target of a page request. The query has its keys in their order. -/
def pageTarget (config : Config) (after : Nat) : Option String :=
  (lib.parseURL config.baseURI).map fun base => lib.urlString { base with
    path := base.path ++ "/coordination/v1/channels/" ++ lib.pathEscape config.channelID ++
      "/transcripts/" ++ toString config.transcriptEpoch ++ "/records"
    rawQuery := "after=" ++ toString after ++ "&limit=" ++ toString config.pageLimit }

/-- The request of a page, before it is authorized. -/
def pageRequest (config : Config) (after : Nat) : Option HTTPRequest := do
  let target ← pageTarget lib config after
  let url ← lib.parseURL target
  return ⟨"GET", lib.urlString url, [("Accept", "application/yukh-transcript+json;version=0.1")]⟩

/-- The authorizer has left the request alone. -/
def unchanged (request authorized : HTTPRequest) : Bool :=
  authorized.method == request.method && authorized.url == request.url &&
    authorized.header.all fun field => field.1 != "Cookie"

/-- What `page` does with the status of a response. -/
def checkStatus (status : Nat) : Except ClientError Unit :=
  if status = 200 then .ok ()
  else if status = 401 then .error .authentication
  else if status = 403 ∨ status = 404 then .error .accessDenied
  else .error .unavailable

/-- `page.HighWaterSequence+1` of a `uint64`. -/
def successor (sequence : Nat) : Nat := (sequence + 1) % 2 ^ 64

/-- The checks of `page` on the document. -/
def checkPage (config : Config) (after : Nat) (page : PageDocument) : Except ClientError Unit := do
  ensure (page.specVersion == "0.1" && page.channelID == config.channelID &&
    page.channelURI == config.channelURI && page.transcriptEpoch == config.transcriptEpoch &&
    page.after == after && (page.completeness == "complete" || page.completeness == "incomplete") &&
    page.records.length ≤ config.pageLimit) .invalidRecord
  ensure (!((page.completeness == "complete" && page.boundarySequence.isSome) ||
    (page.completeness == "incomplete" &&
      page.boundarySequence != some (successor page.highWaterSequence)))) .invalidRecord

/-- `page` after the response has come. -/
def readPage (config : Config) (after : Nat) (url : String) (response : Response) :
    Except ClientError ReplayResult := do
  ensure (response.requestURL.all (· == url)) .unavailable
  checkStatus response.statusCode
  ensure (response.contentType == "application/yukh-transcript+json;version=0.1" &&
    "no-store".toList.isPrefixOf response.cacheControl.toList) .invalidRecord
  let raw ← required response.readAll .invalidRecord
  ensure (raw.length != 0 && raw.length ≤ maxBodyBytes) .invalidRecord
  ensure (lib.transform raw == some raw) .invalidRecord
  let page ← required (lib.decodePage raw) .invalidRecord
  checkPage config after page
  let records ← validateRecords lib config (after + 1) page.records
  ensure (page.highWaterSequence == after + records.length) .invalidRecord
  return { ReplayResult.zero with
    highWaterSequence := page.highWaterSequence, completeness := page.completeness,
    boundarySequence := page.boundarySequence, records }

/-- `Client.page`. -/
def page (config : Config) (after : Nat) : Proc (Except ClientError ReplayResult) := do
  match pageRequest lib config after with
  | none => return .error .invalidInput
  | some request =>
    let authorized ← ask (.authorize request)
    match authorized with
    | none => return .error .authentication
    | some authorized =>
      if unchanged request authorized then
        let response ← ask (.send authorized)
        match response with
        | none => return .error .unavailable
        | some response => return readPage lib config after authorized.url response
      else return .error .authentication

end

/-! ## Replay -/

section
variable {lib : Library}

theorem Client.pageLimit_pos (c : Client lib) : 1 ≤ c.config.pageLimit := by
  have h := c.valid
  simp only [validateConfig, Bool.and_eq_true, decide_eq_true_eq] at h
  tauto

/-- The result of `Replay` with the records and the high-water of the pages so far. -/
def Client.result (c : Client lib) (records : List Record) (highWater : Nat) : ReplayResult :=
  ⟨"0.1", c.config.channelID, c.config.channelURI, c.config.transcriptEpoch, highWater, "complete",
    none, records⟩

/-- The loop of `Replay`. Each turn that goes on has a full page more, and the records do not pass
`MaxRecords`. -/
def Client.replayFrom (c : Client lib) (records : List Record) (after : Nat) :
    Proc (ReplayResult × Option ClientError) :=
  page lib c.config after >>= fun
    | .error e => return (.zero, some e)
    | .ok page =>
      if _hmax : c.config.maxRecords < (records ++ page.records).length then
        return (.zero, some .invalidRecord)
      else if page.completeness = "incomplete" then
        return ({ c.result (records ++ page.records) page.highWaterSequence with
          completeness := page.completeness, boundarySequence := page.boundarySequence },
          some .incomplete)
      else if _hfull : page.records.length < c.config.pageLimit then
        return (c.result (records ++ page.records) page.highWaterSequence, none)
      else if page.highWaterSequence ≤ after then return (.zero, some .invalidRecord)
      else c.replayFrom (records ++ page.records) page.highWaterSequence
termination_by c.config.maxRecords + 1 - records.length
decreasing_by
  have hpos := c.pageLimit_pos
  rw [List.length_append] at *
  omega

/-- `Client.Replay`. -/
def Client.replay (c : Client lib) : Proc (ReplayResult × Option ClientError) := c.replayFrom [] 0

end

end YukhCoordination.Client
