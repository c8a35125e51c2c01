import YukhCoordination.Client.Replay

/-!
# Replays against any server

The server of `serverSem` answers each page request with any response or with none, and the
authorizer does what it likes with the requests it is given; the log keeps the requests that were
sent with their answers. The loop of `Replay` is followed with the invariant `Fetched`: the records
so far are verified one by one at their positions, and each request that was sent has brought a full
page of them. So a replay sends at most `MaxRecords / PageLimit + 1` requests, and what it returns
is verified (`replay_verified`).
-/

namespace YukhCoordination.Client

open Relay (Bytes)
open Transaction Interleave

set_option linter.dupNamespace false

section
variable {lib : Library} {config : Config}

/-! ## Records -/

/-- A record is verified at its position: its event and its receipt are canonical, the verifier has
accepted the receipt, and the receipt binds the event to the position. -/
structure Verified (lib : Library) (config : Config) (position : Nat) (record : Record) : Prop where
  sequence : record.sequence = position
  event : lib.transform record.event = some record.event
  receipt : lib.transform record.receipt = some record.receipt
  accepted : lib.verify record.receipt
  bound : ∃ event wire, lib.decodeEvent record.event = some event ∧
    lib.decodeMembers record.receipt = some wire ∧
    textMember lib wire "event_id" = some event.id ∧
    textMember lib wire "event_digest" = some ("sha-256:" ++ lib.sha256Hex record.event) ∧
    textMember lib wire "cursor" = some (toString position) ∧
    uintMember lib wire "sequence" = some position ∧
    event.channel = config.channelURI ∧
    textMember lib wire "channel_uri" = some config.channelURI ∧
    textMember lib wire "channel_id" = some config.channelID ∧
    uintMember lib wire "transcript_epoch" = some config.transcriptEpoch

/-- The records have the positions from `first` on, and each one is verified at its position. -/
def VerifiedFrom (lib : Library) (config : Config) (first : Nat) (records : List Record) : Prop :=
  ∀ i record, records[i]? = some record → Verified lib config (first + i) record

theorem validateRecord_verified {event receipt : Bytes} {expected : Nat} {record : Record}
    (h : validateRecord lib config event receipt expected = .ok record) :
    Verified lib config expected record := by
  obtain ⟨hevent, h⟩ := ensure_bind.1 h
  obtain ⟨hreceipt, h⟩ := ensure_bind.1 h
  obtain ⟨header, hheader, h⟩ := required_bind.1 h
  obtain ⟨wire, hwire, h⟩ := required_bind.1 h
  obtain ⟨specVersion, -, h⟩ := required_bind.1 h
  obtain ⟨eventID, hid, h⟩ := required_bind.1 h
  obtain ⟨digest, hdigest, h⟩ := required_bind.1 h
  obtain ⟨channelID, hchannel, h⟩ := required_bind.1 h
  obtain ⟨channelURI, huri, h⟩ := required_bind.1 h
  obtain ⟨cursor, hcursor, h⟩ := required_bind.1 h
  obtain ⟨sequence, hsequence, h⟩ := required_bind.1 h
  obtain ⟨epoch, hepoch, h⟩ := required_bind.1 h
  obtain ⟨hbound, h⟩ := ensure_bind.1 h
  obtain ⟨haccepted, h⟩ := ensure_bind.1 h
  cases pure_ok.1 h
  simp only [Bool.and_eq_true, beq_iff_eq, bne_iff_ne, ne_eq] at hbound hevent hreceipt
  obtain ⟨⟨⟨⟨⟨⟨⟨⟨⟨⟨-, -⟩, -⟩, hheaderURI⟩, rfl⟩, rfl⟩, rfl⟩, rfl⟩, rfl⟩, rfl⟩, rfl⟩ := hbound
  exact ⟨rfl, hevent, hreceipt, haccepted, header, wire, hheader, hwire, hid, hdigest, hcursor,
    hsequence, hheaderURI, huri, hchannel, hepoch⟩

theorem VerifiedFrom.cons {first : Nat} {record : Record} {records : List Record}
    (h : Verified lib config first record) (hs : VerifiedFrom lib config (first + 1) records) :
    VerifiedFrom lib config first (record :: records) := by
  intro i r hr
  cases i with
  | zero =>
    cases hr
    exact h
  | succ i =>
    have hv := hs i r hr
    rwa [Nat.add_right_comm] at hv

theorem VerifiedFrom.append {records later : List Record} (h : VerifiedFrom lib config 1 records)
    (hl : VerifiedFrom lib config (records.length + 1) later) :
    VerifiedFrom lib config 1 (records ++ later) := by
  intro i r hr
  rcases Nat.lt_or_ge i records.length with hi | hi
  · rw [List.getElem?_append_left hi] at hr
    exact h i r hr
  · rw [List.getElem?_append_right hi] at hr
    have hv := hl _ r hr
    rwa [show records.length + 1 + (i - records.length) = 1 + i by omega] at hv

theorem validateRecords_verified {items : List (Bytes × Bytes)} {expected : Nat}
    {records : List Record} (h : validateRecords lib config expected items = .ok records) :
    VerifiedFrom lib config expected records ∧ records.length = items.length := by
  induction items generalizing expected records with
  | nil =>
    cases pure_ok.1 h
    exact ⟨fun _ _ hr => by simp at hr, rfl⟩
  | cons item items ih =>
    obtain ⟨record, hrecord, h⟩ := bind_ok.1 h
    obtain ⟨rest, hrest, h⟩ := bind_ok.1 h
    cases pure_ok.1 h
    obtain ⟨hv, hlen⟩ := ih hrest
    exact ⟨.cons (validateRecord_verified hrecord) hv, by rw [List.length_cons, hlen,
      List.length_cons]⟩

/-! ## Pages -/

/-- What a page that was accepted says: the records after `after`, up to the high-water, and the
document of the body they come from. -/
structure Accepted (lib : Library) (config : Config) (after : Nat) (response : Response)
    (result : ReplayResult) : Prop where
  verified : VerifiedFrom lib config (after + 1) result.records
  highWater : result.highWaterSequence = after + result.records.length
  document : ∃ page, lib.decodePage response.body = some page ∧
    page.completeness = result.completeness ∧ page.records.length = result.records.length
  completeness : result.completeness = "complete" ∨ result.completeness = "incomplete"

/-- A body that is read within the limit is read whole. -/
theorem readAll_eq {response : Response} {raw : Bytes} (h : response.readAll = some raw)
    (hlen : raw.length ≤ maxBodyBytes) : raw = response.body := by
  unfold Response.readAll at h
  split at h
  · cases h
  · cases h
    rw [List.length_take] at hlen
    rw [List.take_of_length_le (by omega)]

theorem readPage_accepted {after : Nat} {url : String} {response : Response}
    {result : ReplayResult} (h : readPage lib config after url response = .ok result) :
    Accepted lib config after response result := by
  obtain ⟨-, h⟩ := ensure_bind.1 h
  obtain ⟨-, -, h⟩ := bind_ok.1 h
  obtain ⟨-, h⟩ := ensure_bind.1 h
  obtain ⟨raw, hraw, h⟩ := required_bind.1 h
  obtain ⟨hlen, h⟩ := ensure_bind.1 h
  obtain ⟨-, h⟩ := ensure_bind.1 h
  obtain ⟨page, hpage, h⟩ := required_bind.1 h
  obtain ⟨_, hcheck, h⟩ := bind_ok.1 h
  obtain ⟨records, hrecords, h⟩ := bind_ok.1 h
  obtain ⟨hhigh, h⟩ := ensure_bind.1 h
  cases pure_ok.1 h
  obtain ⟨hv, hcount⟩ := validateRecords_verified hrecords
  simp only [Bool.and_eq_true, decide_eq_true_eq] at hlen
  rw [readAll_eq hraw hlen.2] at hpage
  obtain ⟨hchecked, -⟩ := ensure_bind.1 hcheck
  simp only [Bool.and_eq_true, Bool.or_eq_true, beq_iff_eq] at hchecked
  exact ⟨hv, beq_iff_eq.1 hhigh, ⟨page, hpage, rfl, hcount.symm⟩, hchecked.1.2⟩

/-! ## Any server -/

/-- The requests that were sent, with their answers. -/
abbrev Log := List (HTTPRequest × Option Response)

/-- The authorizer and the server may answer anything. -/
inductive serverSem : (r : Request) → Log → r.Answer → Log → Prop
  | authorize {request : HTTPRequest} {log : Log} (answer : Option HTTPRequest) :
      serverSem (.authorize request) log answer log
  | send {request : HTTPRequest} {log : Log} (answer : Option Response) :
      serverSem (.send request) log answer (log ++ [(request, answer)])

/-- `p` run alone, from `log`: it never sends more than `bound` requests in all, and it returns what
`post` allows. -/
abbrev MeetsServer {α : Type} (bound : Nat) (post : α → Log → Prop) (p : Proc α) (log : Log) :
    Prop :=
  p.Meets serverSem (·.length ≤ bound) Eq (fun _ _ => True) post log

/-- `page` sends one request at most; a page it returns has been accepted from the answer. -/
theorem page_meets {after bound : Nat} {log : Log} (hlog : log.length + 1 ≤ bound) :
    MeetsServer bound (fun answer log' => ∀ result, answer = .ok result → ∃ request response,
      log' = log ++ [(request, some response)] ∧ Accepted lib config after response result)
      (page lib config after) log := by
  unfold page
  split
  · exact fun _ h => nomatch h
  · next request _ =>
    refine Program.meets_ask_bind.2 ?_
    rintro _ rfl _ answer _ ⟨_⟩
    refine ⟨by omega, trivial, ?_⟩
    cases answer with
    | none => exact fun _ h => nomatch h
    | some authorized =>
      dsimp only
      split
      · refine Program.meets_ask_bind.2 ?_
        rintro _ rfl _ answer _ ⟨_⟩
        refine ⟨by rw [List.length_append, List.length_singleton]; omega, trivial, ?_⟩
        cases answer with
        | none => exact fun _ h => nomatch h
        | some response =>
          exact fun result h => ⟨authorized, response, rfl, readPage_accepted h⟩
      · exact fun _ h => nomatch h

/-! ## The loop -/

/-- What holds when the loop starts a turn: the records so far are verified, they end at `after`,
and each request that was sent has brought a full page of them. -/
structure Fetched (lib : Library) (config : Config) (records : List Record) (after : Nat)
    (log : Log) : Prop where
  verified : VerifiedFrom lib config 1 records
  after : after = records.length
  bounded : records.length ≤ config.maxRecords
  full : log.length * config.pageLimit ≤ records.length

/-- What a replay returns: verified records from the first on, no more than `MaxRecords` and up to
the high-water; and without an error, the last page was complete and not full. -/
structure Replayed (lib : Library) (config : Config) (result : ReplayResult)
    (error : Option ClientError) (log : Log) : Prop where
  verified : VerifiedFrom lib config 1 result.records
  bounded : result.records.length ≤ config.maxRecords
  highWater : result.highWaterSequence = result.records.length
  last : error = none → ∃ request response page, log.getLast? = some (request, some response) ∧
    lib.decodePage response.body = some page ∧ page.completeness = "complete" ∧
    page.records.length < config.pageLimit

theorem Replayed.failed (e : ClientError) (log : Log) : Replayed lib config .zero (some e) log :=
  ⟨fun _ _ h => by simp [ReplayResult.zero] at h, Nat.zero_le _, rfl, nofun⟩

/-- A turn that goes on keeps the invariant, with one request more. -/
theorem Fetched.next {records : List Record} {after : Nat} {log : Log} {result : ReplayResult}
    {request : HTTPRequest} {response : Response} (h : Fetched lib config records after log)
    (ha : Accepted lib config after response result)
    (hmax : (records ++ result.records).length ≤ config.maxRecords)
    (hfull : config.pageLimit ≤ result.records.length) :
    Fetched lib config (records ++ result.records) result.highWaterSequence
      (log ++ [(request, some response)]) := by
  refine ⟨h.verified.append (h.after ▸ ha.verified), ?_, hmax, ?_⟩
  · rw [ha.highWater, h.after, List.length_append]
  · have hlog := h.full
    rw [List.length_append, List.length_append, List.length_singleton, Nat.add_mul, Nat.one_mul]
    omega

variable (c : Client lib)

/-- The loop, from any turn on: within the bound on requests it returns what was verified. -/
theorem replayFrom_meets {records : List Record} {after : Nat} {log : Log}
    (h : Fetched lib c.config records after log) :
    MeetsServer (c.config.maxRecords / c.config.pageLimit + 1)
      (fun answer log' => Replayed lib c.config answer.1 answer.2 log')
      (c.replayFrom records after) log := by
  have hsent : log.length ≤ c.config.maxRecords / c.config.pageLimit :=
    (Nat.le_div_iff_mul_le c.pageLimit_pos).2 (h.full.trans h.bounded)
  rw [Client.replayFrom]
  refine Program.Meets.bind (by omega) (page_meets (by omega)) ?_
  intro answer log' _ hanswer
  cases answer with
  | error e => exact .failed e log'
  | ok result =>
    obtain ⟨request, response, rfl, ha⟩ := hanswer result rfl
    dsimp only
    split
    · exact .failed _ _
    next hmax =>
    have hverified := h.verified.append (h.after ▸ ha.verified)
    have hhigh : result.highWaterSequence = (records ++ result.records).length := by
      rw [ha.highWater, h.after, List.length_append]
    split
    · exact ⟨hverified, not_lt.1 hmax, hhigh, nofun⟩
    next hcomplete =>
    split
    · next hlast =>
      obtain ⟨page, hpage, hstate, hcount⟩ := ha.document
      refine ⟨hverified, not_lt.1 hmax, hhigh, fun _ =>
        ⟨request, response, page, ?_, hpage, ?_, ?_⟩⟩
      · exact List.getLast?_concat
      · exact hstate.trans (ha.completeness.resolve_right hcomplete)
      · omega
    next hfull =>
    split
    · exact .failed _ _
    · exact replayFrom_meets (h.next ha (not_lt.1 hmax) (not_lt.1 hfull))
termination_by c.config.maxRecords + 1 - records.length
decreasing_by
  have hpos := c.pageLimit_pos
  rw [List.length_append] at *
  omega

/-- **A replay is bounded and verified against any server.** Whatever the authorizer and the server
answer, a client with a valid configuration has at no moment sent more than
`MaxRecords / PageLimit + 1` requests; and what it returns are verified records with the sequences
from 1 on, no more than `MaxRecords` and up to the high-water, without an error only if the last
page was complete and not full. -/
theorem replay_verified : (∀ rest log, c.replay.Leads serverSem [] rest log →
      log.length ≤ c.config.maxRecords / c.config.pageLimit + 1) ∧
    ∀ result error log, c.replay.Exec serverSem [] (result, error) log →
      Replayed lib c.config result error log := by
  have hstart : Fetched lib c.config [] 0 [] :=
    ⟨fun _ _ h => by simp at h, rfl, Nat.zero_le _, by simp⟩
  have hmeets := replayFrom_meets c hstart
  constructor
  · intro rest log hl
    exact (hmeets.leads (fun _ => rfl) (Nat.zero_le _) hl).1
  · intro result error log hx
    exact hmeets.exec (fun _ => rfl) (Nat.zero_le _) hx

end

/-! ## A replay of one record -/

/-- A library with one page, one event and one receipt. -/
def sampleLibrary : Library where
  parseURL _ := some ⟨"https", none, "relay", "", "", "", ""⟩
  urlString url := url.path ++ url.rawQuery
  pathEscape := id
  transform := some
  decodePage _ := some ⟨"0.1", "c", "u", 1, 0, 1, "complete", none, [([2], [3])]⟩
  decodeEvent _ := some ⟨"0.1", "e", "u"⟩
  decodeMembers _ := some [("specversion", [0]), ("event_id", [1]), ("event_digest", [2]),
    ("channel_id", [3]), ("channel_uri", [4]), ("cursor", [5]), ("sequence", [5]),
    ("transcript_epoch", [5])]
  decodeString raw := ["0.1", "e", "sha-256:d", "c", "u", "1"][(raw.headD 0).toNat]?
  decodeUint _ := some 1
  sha256Hex _ := "d"
  verify _ := true

/-- A client of that library that takes pages of two records. -/
def sampleClient : Client sampleLibrary := ⟨⟨"b", "c", "u", 1, 2, 3⟩, by rfl⟩

/-- A response with the page. -/
def sampleResponse : Response :=
  ⟨none, 200, "application/yukh-transcript+json;version=0.1", "no-store", [1], false⟩

/-- The replay of `sampleClient` from a server that gives `sampleResponse`. -/
theorem replay_verified_one : ∃ log, sampleClient.replay.Exec serverSem []
      (sampleClient.result [⟨1, [2], [3]⟩] 1, none) log ∧ log.length = 1 ∧
    Replayed sampleLibrary sampleClient.config (sampleClient.result [⟨1, [2], [3]⟩] 1) none
      log := by
  obtain ⟨request, hrequest⟩ : ∃ r, pageRequest sampleLibrary sampleClient.config 0 = some r :=
    ⟨_, rfl⟩
  have hcookie : unchanged request request = true := by
    cases hrequest
    rfl
  have hread : readPage sampleLibrary sampleClient.config 0 request.url sampleResponse =
      .ok { ReplayResult.zero with
        highWaterSequence := 1, completeness := "complete", records := [⟨1, [2], [3]⟩] } := by
    cases hrequest
    rfl
  have hpage : (page sampleLibrary sampleClient.config 0).Exec serverSem []
      (readPage sampleLibrary sampleClient.config 0 request.url sampleResponse)
      [(request, some sampleResponse)] := by
    unfold page
    rw [hrequest]
    refine Program.exec_ask_bind.2 ⟨some request, [], .authorize _, ?_⟩
    dsimp only
    rw [if_pos hcookie]
    exact Program.exec_ask_bind.2 ⟨some sampleResponse, _, .send _, .done⟩
  have hexec : sampleClient.replay.Exec serverSem []
      (sampleClient.result [⟨1, [2], [3]⟩] 1, none) [(request, some sampleResponse)] := by
    rw [Client.replay, Client.replayFrom]
    refine hpage.bind ?_
    rw [hread]
    exact .done
  exact ⟨_, hexec, rfl, (replay_verified sampleClient).2 _ _ _ hexec⟩

end YukhCoordination.Client
