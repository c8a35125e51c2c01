import YukhCoordination.Relay.Service.Append
import YukhCoordination.Relay.Sqlite.Growth

/-!
# Agreement of concurrent appends

Concurrent appends of an event return one record, the stored one (`append_agreement`), if they
prepare it without a signature (`append_prepared_signature`).
-/

namespace YukhCoordination.Relay.Service

open Interleave Transaction
open Sqlite (Db Accounted Grows)

/-! ## The service over SQLite -/

/-- The requests of the service. -/
inductive Request where
  | store (r : Sqlite.Request)
  | select
  | sign (record : AcceptedRecord)

/-- The answer to a request. -/
abbrev Request.Answer : Request → Type
  | .store r => Except r.Err r.Result
  | .select => Except Error SigningSelection
  | .sign _ => Except Error Bytes

/-- The port of the service. -/
abbrev port : Port := ⟨Request, Request.Answer⟩

/-- A program of the service. -/
abbrev Proc := Program port

/-- A call of the store as a part of a call of the service. -/
def onStore {α : Type} (p : Sqlite.Proc α) : Proc α := p.lift .store fun _ ans => ans

/-- `sqlite.Store` as the store of the service. -/
def sqliteStore : Store Proc where
  createChannel channel := onStore (Sqlite.ask (.createChannel channel))
  lookupChannel key := onStore (Sqlite.Store.lookupChannel key)
  lookup key eventID := onStore (Sqlite.Store.lookup key eventID)
  appendChecked intent admission prepare :=
    onStore (Sqlite.ask (.appendChecked intent admission prepare))
  attachSignature attachment := onStore (Sqlite.ask (.attachSignature attachment))
  read key after limit := onStore (Sqlite.Store.read key after limit)

/-- The service with that store. -/
def appendService : AppendService Proc where
  store := sqliteStore
  signer := ⟨Program.ask (P := port) .select, fun record => Program.ask (P := port) (.sign record)⟩

/-- A call of `AppendService.AppendChecked`. -/
structure Call where
  intent : AppendIntent
  admission : Admit
  prepare : PrepareRecord

/-- The call prepares records without a signature: it is the service that signs them. -/
def Call.Unsigned (c : Call) : Prop := ∀ sequence digest selection record,
    c.prepare sequence digest selection = .ok record → record.signature = []

/-- The program of a call. -/
def Call.body (c : Call) : Proc (Except Error AppendResult) :=
  appendService.appendChecked c.intent c.admission c.prepare

/-- The meaning of a request: a transaction of the store is attempted, and the signer answers
anything. -/
def sem (codec : Lifecycle.Codec) : Sem port Nat Db := fun _ r db ans db' =>
  match r, ans with
  | .store r, ans => Attempt (r.run codec) db ans db'
  | .select, _ | .sign _, _ => db' = db

/-- The other users of the store: any request of theirs is attempted. -/
def env (codec : Lifecycle.Codec) (db db' : Db) : Prop :=
  ∃ (r : Sqlite.Request) (ans : Except r.Err r.Result), r.ofStore = true ∧
    Attempt (r.run codec) db ans db'

/-- Calls over one database. -/
abbrev Pool := Interleave.Pool port Nat Call (Except Error AppendResult) Db

/-- One step of a run. -/
abbrev Step (codec : Lifecycle.Codec) : Pool → Pool → Prop :=
  Interleave.Pool.Step (sem codec) (env codec) Call.body

/-- The runs from a new database. -/
def Reach (codec : Lifecycle.Codec) : Pool → Prop :=
  Interleave.Pool.Reach (sem codec) (env codec) Call.body {}

/-- `Later codec p q`: a run leads from `p` to `q`. -/
def Later (codec : Lifecycle.Codec) : Pool → Pool → Prop := Relation.ReflTransGen (Step codec)

/-! ## What a call knows -/

section
variable {codec : Lifecycle.Codec} {i : Nat} {α : Type}

/-- `p` keeps the invariant of the records, lets them grow, and returns what `post` allows. -/
abbrev Meets (codec : Lifecycle.Codec) (i : Nat) (post : α → Db → Prop) (p : Proc α) (db : Db) :
    Prop :=
  p.Meets (sem codec i) Accounted Grows (fun t u => ∀ j, j ≠ i → Grows t u) post db

/-- The rule for a request of the store. -/
theorem meets_store {r : Sqlite.Request} (hr : r.ofStore)
    {f : Except r.Err r.Result → Proc α} {post : α → Db → Prop} {db : Db}
    (hf : ∀ t ans u, Grows db t → Accounted t → Attempt (r.run codec) t ans u → Accounted u →
      Meets codec i post (f ans) u) :
    Meets codec i post (Program.ask (P := port) (.store r) >>= f) db := by
  intro t ht hinv ans u hu
  obtain ⟨hacc, hgrow⟩ := Sqlite.Request.attempt_grows hr hu hinv
  exact ⟨hacc, fun _ _ => hgrow, hf t ans u ht hinv hu hacc⟩

/-- The rule for a request to the signer. -/
theorem meets_signer {r : Request} (hr : r = .select ∨ ∃ record, r = .sign record)
    {f : r.Answer → Proc α} {post : α → Db → Prop} {db : Db}
    (hf : ∀ ans t, Grows db t → Accounted t → Meets codec i post (f ans) t) :
    Meets codec i post (Program.ask (P := port) r >>= f) db := by
  intro t ht hinv ans u hu
  obtain rfl : u = t := by
    rcases hr with rfl | ⟨record, rfl⟩ <;> exact hu
  exact ⟨hinv, fun _ _ => .refl u, hf ans u ht hinv⟩

/-- The record is stored in `db` for the event of the intent. -/
structure Found (intent : AppendIntent) (r : AcceptedRecord) (db : Db) : Prop where
  mem : r ∈ db.records
  channel : r.channel = intent.channel
  eventID : r.eventID = intent.eventID

/-- The record is stored and signed: what a call that succeeds returns. -/
structure Returned (intent : AppendIntent) (r : AcceptedRecord) (db : Db) : Prop
    extends Found intent r db where
  signed : r.signature ≠ []

/-- A returned record stays stored. -/
theorem Returned.grows {intent : AppendIntent} {r : AcceptedRecord} {db db' : Db}
    (h : Returned intent r db) (hg : Grows db db') : Returned intent r db' :=
  { h with mem := hg.signed h.mem h.signed }

/-- A record found under the receipt of the event is the record of the event. -/
theorem Found.of_receipt {intent : AppendIntent} {r r' : AcceptedRecord} {db db' : Db}
    (h : Found intent r db) (hg : Grows db db') (hacc : Accounted db') (hr' : r' ∈ db'.records)
    (hc : r'.receiptID = r.receiptID) : Found intent r' db' := by
  obtain ⟨r₀, hr₀, hu, -⟩ := hg r h.mem
  have hreceipt : r₀.receiptID = r.receiptID := congrArg (·.receiptID) hu
  obtain rfl := hacc.eq_of_clash hr' hr₀ (.inr (.inl (hc.trans hreceipt.symm)))
  exact ⟨hr', (congrArg (·.channel) hu).trans h.channel, (congrArg (·.eventID) hu).trans h.eventID⟩

/-- `ensureSigned` returns the record it was given, signed in the store, under what makes sure that
it is stored. -/
theorem ensureSigned_meets {P : Prop} {intent : AppendIntent} {result : AppendResult} {db : Db}
    (h : P → Found intent result.record db) :
    Meets codec i (fun ans t => P → ∀ a, ans = .ok a → Returned intent a.record t)
      (appendService.ensureSigned result) db := by
  unfold AppendService.ensureSigned
  split
  · next hs =>
    rintro hP a ⟨rfl⟩
    exact { h hP with signed := hs }
  · refine meets_signer (.inr ⟨_, rfl⟩) fun ans t ht hacc => ?_
    cases ans with
    | error err => nofun
    | ok signature =>
      refine meets_store rfl fun t' ans u ht' hacc' hu haccu => ?_
      cases ans with
      | error err => nofun
      | ok signed =>
        rintro hP a ⟨rfl⟩
        have hgrow := (ht.trans ht').trans (Sqlite.Request.attempt_grows rfl hu hacc').2
        obtain ⟨hm, hs, hc, hr, -⟩ := Sqlite.attachSignature_cases hu.ok
        exact { (h hP).of_receipt hgrow haccu hm hr with signed := hs }

/-- `Lookup` returns a stored record of the event id, whatever its epoch. -/
theorem lookup_meets {key : ChannelKey} {eventID : String} {db : Db} :
    Meets codec i (fun ans t => ∀ r, ans = .ok r → r ∈ t.records ∧ r.eventID = eventID)
      (appendService.store.lookup key eventID) db := by
  change Meets codec i _ (onStore (Sqlite.Store.lookup key eventID)) db
  unfold Sqlite.Store.lookup
  split
  · nofun
  · refine meets_store (r := .transcript key) rfl fun _ ans _ _ _ _ _ => ?_
    match ans with
    | .error err => nofun
    | .ok none => nofun
    | .ok (some t) =>
      refine meets_store (r := .findRecord _ _ _) rfl fun _ ans u _ _ hu _ => ?_
      match ans, hu with
      | .error err, _ => nofun
      | .ok none, _ => nofun
      | .ok (some r), hu =>
        rintro _ ⟨rfl⟩
        obtain ⟨hfound, rfl⟩ := Sqlite.query_ok hu.ok
        have hf := Except.ok.inj hfound
        have hp := List.find?_some hf
        simp only [Bool.and_eq_true, beq_iff_eq] at hp
        exact ⟨List.mem_of_find?_eq_some hf, hp.2⟩

/-- The part that appends returns a record of the event, signed in the store, if the prepared record
has no signature. -/
theorem appendNew_meets (c : Call) {db : Db} :
    Meets codec i (fun ans t => c.Unsigned → ∀ a, ans = .ok a → Returned c.intent a.record t)
      (appendService.appendNew c.intent c.admission c.prepare) db := by
  refine meets_signer (.inl rfl) fun ans _ _ _ => ?_
  cases ans with
  | error err => nofun
  | ok selection =>
    simp only
    split
    · nofun
    · refine meets_store (r := .appendChecked _ _ _) rfl fun t ans u _ _ hu _ => ?_
      cases ans with
      | error err => nofun
      | ok result =>
        refine ensureSigned_meets fun hunsigned => ?_
        rcases Sqlite.appendChecked_cases hu.ok with
          ⟨-, rfl, hm, hc, he, -⟩ | ⟨-, hc, he, -, _, hp, -, ha⟩
        · exact ⟨hm, hc, he⟩
        · -- The stored record is the prepared one, which has no signature to lose.
          have hs := hunsigned _ _ _ _ (prepareSelected_ok hp)
          have hu : result.record.unsigned = result.record := by
            rw [AcceptedRecord.unsigned, ← hs]
          exact ⟨ha.records ▸ List.mem_append_right _ (by simp [hu]), hc, he⟩

/-- A call that succeeds returns a record of its event, signed in the store, if it prepares records
without a signature. -/
theorem appendChecked_meets (c : Call) {db : Db} (hacc : Accounted db) :
    Meets codec i (fun ans t => c.Unsigned → ∀ a, ans = .ok a → Returned c.intent a.record t)
      c.body db := by
  unfold Call.body AppendService.appendChecked
  split
  · nofun
  · refine Program.Meets.bind hacc lookup_meets fun ans t _ hmid => ?_
    match ans, hmid with
    | .ok existing, hmid =>
      obtain ⟨hm, he⟩ := hmid existing rfl
      simp only
      split
      · nofun
      · next hs => exact ensureSigned_meets fun _ => ⟨hm, not_not.1 (not_or.1 hs).1, he⟩
    | .error err, _ =>
      cases err with
      | eventNotFound => exact appendNew_meets c
      | _ => nofun

/-! ## Agreement -/

/-- The specification of the calls: the invariant is the one of the records, and what a call relies
on is that records only grow. -/
def agreement (codec : Lifecycle.Codec) : RelyGuarantee (sem codec) (env codec) Call.body where
  inv := Accounted
  rely _ := Grows
  fresh _ _ := True
  post _ c ans db := c.Unsigned → ∀ a, ans = .ok a → Returned c.intent a.record db
  rely_refl _ := .refl
  rely_trans _ _ _ _ := .trans
  env_inv _ _ hacc := fun ⟨_, _, hr, h⟩ => (Sqlite.Request.attempt_grows hr h hacc).1
  env_rely _ _ _ hacc := fun ⟨_, _, hr, h⟩ => (Sqlite.Request.attempt_grows hr h hacc).2
  fresh_stable _ _ _ h _ := h
  post_stable _ _ _ _ _ _ hpost hg hc a ha := (hpost hc a ha).grows hg
  meets _ c _ hacc _ := appendChecked_meets c hacc

/-- The specification holds in every state of a run. -/
theorem Reach.holds {p : Pool} (hp : Reach codec p) : (agreement codec).Holds p :=
  (agreement codec).reach .empty (fun _ => trivial) hp

/-- The records grow along a run. -/
theorem Later.grows {p q : Pool} (hp : Reach codec p) (hq : Later codec p q) :
    Grows p.shared q.shared := by
  induction hq with
  | refl => exact .refl _
  | tail hq hstep ih =>
    rcases (Reach.holds (hp.trans hq)).rely _ hstep with h | ⟨i, h⟩
    · exact ih.trans (h 0)
    · exact ih.trans (h (i + 1) (Nat.succ_ne_self i))

/-- **Concurrent appends agree.** Whatever the interleaving, the retries and the failures, every
call that succeeds for an event of a channel, and that prepares records without a signature, returns
the same record. It is signed and stored, it stays so, and no other record of the channel has the
event id. The other calls of the run may prepare what they like. -/
theorem append_agreement {p q : Pool} (hp : Reach codec p) (hq : Later codec p q) {i j : Nat}
    {c d : Call} {a b : AppendResult} (hi : p.Returned i c (.ok a)) (hj : q.Returned j d (.ok b))
    (hcu : c.Unsigned) (hdu : d.Unsigned) (hc : c.intent.channel = d.intent.channel)
    (he : c.intent.eventID = d.intent.eventID) :
    a.record = b.record ∧ a.record.signature ≠ [] ∧ a.record.channel = c.intent.channel ∧
      a.record.eventID = c.intent.eventID ∧ a.record ∈ q.shared.records ∧
      ∀ r ∈ q.shared.records, r.channel.tenantID = c.intent.channel.tenantID →
        r.channel.channelID = c.intent.channel.channelID → r.eventID = c.intent.eventID →
        r = a.record := by
  have hrq : Reach codec q := hp.trans hq
  have ha : Returned c.intent a.record q.shared :=
    ((agreement codec).returned .empty (fun _ => trivial) hp hi hcu a rfl).grows (hq.grows hp)
  have hb : Returned d.intent b.record q.shared :=
    (agreement codec).returned .empty (fun _ => trivial) hrq hj hdu b rfl
  have only : ∀ r ∈ q.shared.records, r.channel.tenantID = c.intent.channel.tenantID →
      r.channel.channelID = c.intent.channel.channelID → r.eventID = c.intent.eventID →
      r = a.record := fun r hr ht hch hev =>
    hrq.holds.inv.eq_of_clash hr ha.mem (.inl ⟨by rw [ht, ha.channel], by rw [hch, ha.channel],
      by rw [hev, ha.eventID]⟩)
  refine ⟨(only b.record hb.mem ?_ ?_ ?_).symm, ha.signed, ha.channel, ha.eventID, ha.mem, only⟩
  · rw [hb.channel, hc]
  · rw [hb.channel, hc]
  · rw [hb.eventID, he]

end

/-- A call to run the service with. It prepares records with a signature. -/
def sampleCall (signature : Bytes) : Call where
  intent := ⟨Sqlite.sampleKey, "event-1", [1]⟩
  admission _ := .ok ()
  prepare sequence _ _ := .ok { Sqlite.sampleRecord "event-1" "receipt-1" sequence with signature }

/-- Without a signature it is as the theorem asks. -/
theorem sampleCall_unsigned : (sampleCall []).Unsigned := by
  rintro sequence _ _ _ ⟨rfl⟩
  rfl

/-- The record it leaves in the store. -/
def signedRecord : AcceptedRecord :=
  { Sqlite.sampleRecord "event-1" "receipt-1" 1 with signature := [1] }

/-- The database it leaves. -/
def signedDb : Db := { Sqlite.appendedDb with records := [signedRecord] }

section
variable {codec : Lifecycle.Codec} {i : Nat} {a : Except Error AppendResult} {db db' db₁ : Db}

/-- A request of the store, acknowledged. -/
theorem exec_store {r : Sqlite.Request} {b : r.Result}
    {k : Except r.Err r.Result → Proc (Except Error AppendResult)}
    (h : r.run codec db = .ok (b, db₁)) (hk : (k (.ok b)).Exec (sem codec i) db₁ a db') :
    (Program.call (P := port) (.store r) k).Exec (sem codec i) db a db' :=
  .call (.committed h) hk

/-- A request to the signer, answered with `ans`. -/
theorem exec_select (ans : Except Error SigningSelection)
    {k : Except Error SigningSelection → Proc (Except Error AppendResult)}
    (hk : (k ans).Exec (sem codec i) db a db') :
    (Program.call (P := port) .select k).Exec (sem codec i) db a db' :=
  .call rfl hk

/-- A record is signed, and the signer answers with `ans`. -/
theorem exec_sign {record : AcceptedRecord} (ans : Except Error Bytes)
    {k : Except Error Bytes → Proc (Except Error AppendResult)}
    (hk : (k ans).Exec (sem codec i) db a db') :
    (Program.call (P := port) (.sign record) k).Exec (sem codec i) db a db' :=
  .call rfl hk

end

/-- The first call appends the record and signs it. -/
theorem sampleCall_appends : (sampleCall []).body.Exec (sem (Sqlite.sampleCodec none none none) 0)
    Sqlite.createdDb (.ok ⟨.appended, signedRecord⟩) signedDb := by
  refine exec_store (r := .transcript _) rfl (exec_store (r := .findRecord _ _ _) rfl ?_)
  refine exec_select (.ok ⟨"key", "ed25519"⟩) (exec_store (r := .appendChecked _ _ _) rfl ?_)
  exact exec_sign (.ok [1]) (exec_store (r := .attachSignature _) rfl .done)

/-- A repeated call finds it. -/
theorem sampleCall_repeats : (sampleCall []).body.Exec (sem (Sqlite.sampleCodec none none none) 1)
    signedDb (.ok ⟨.duplicate, signedRecord⟩) signedDb :=
  exec_store (r := .transcript _) rfl (exec_store (r := .findRecord _ _ _) rfl .done)

/-- A run of two calls after the channel was created, one after the other. -/
theorem later_of_exec {codec : Lifecycle.Codec} {c d : Call} {a b : AppendResult} {db db' : Db}
    (hfirst : c.body.Exec (sem codec 0) Sqlite.createdDb (.ok a) db)
    (hsecond : d.body.Exec (sem codec 1) db (.ok b) db') : ∃ p q : Pool, Reach codec p ∧
      Later codec p q ∧ p.Returned 0 c (.ok a) ∧ q.Returned 1 d (.ok b) := by
  have hcreate : Step codec (Interleave.Pool.init {}) ⟨Sqlite.createdDb, fun _ => none⟩ :=
    .env ⟨.createChannel Sqlite.sampleChannel, .ok (), rfl, .committed rfl⟩
  have hp : Reach codec ⟨db, Function.update (fun _ => none) 0 (some (c, .done (.ok a)))⟩ :=
    Interleave.Pool.Reach.exec (.single hcreate) rfl hfirst
  exact ⟨_, _, hp, Interleave.Pool.Step.exec rfl hsecond, rfl, rfl⟩

/-- A call and its repetition, in a run. -/
theorem append_agreement_repeated : ∃ (p q : Pool) (a b : AppendResult),
    Reach (Sqlite.sampleCodec none none none) p ∧ Later (Sqlite.sampleCodec none none none) p q ∧
    p.Returned 0 (sampleCall []) (.ok a) ∧ q.Returned 1 (sampleCall []) (.ok b) ∧
    a.outcome = .appended ∧ b.outcome = .duplicate ∧ a.record = b.record := by
  obtain ⟨p, q, hp, hq, hi, hj⟩ := later_of_exec sampleCall_appends sampleCall_repeats
  exact ⟨p, q, _, _, hp, hq, hi, hj, rfl, rfl,
    (append_agreement hp hq hi hj sampleCall_unsigned sampleCall_unsigned rfl rfl).1⟩

/-- A call that prepares a record with a signature reports it, and its repetition attaches another
one: the two records differ. -/
theorem append_prepared_signature : ¬ ∀ (codec : Lifecycle.Codec) (p q : Pool) (i j : Nat)
    (c d : Call) (a b : AppendResult), Reach codec p → Later codec p q → p.Returned i c (.ok a) →
      q.Returned j d (.ok b) → c.intent.channel = d.intent.channel →
      c.intent.eventID = d.intent.eventID → a.record = b.record := by
  intro h
  have hfirst : (sampleCall [9]).body.Exec (sem (Sqlite.sampleCodec none none none) 0)
      Sqlite.createdDb (.ok ⟨.appended, { signedRecord with signature := [9] }⟩)
      Sqlite.appendedDb := by
    refine exec_store (r := .transcript _) rfl (exec_store (r := .findRecord _ _ _) rfl ?_)
    exact exec_select (.ok ⟨"key", "ed25519"⟩) (exec_store (r := .appendChecked _ _ _) rfl .done)
  have hsecond : (sampleCall [9]).body.Exec (sem (Sqlite.sampleCodec none none none) 1)
      Sqlite.appendedDb (.ok ⟨.duplicate, signedRecord⟩) signedDb := by
    refine exec_store (r := .transcript _) rfl (exec_store (r := .findRecord _ _ _) rfl ?_)
    exact exec_sign (.ok [1]) (exec_store (r := .attachSignature _) rfl .done)
  obtain ⟨p, q, hp, hq, hi, hj⟩ := later_of_exec hfirst hsecond
  have hsame := h _ p q 0 1 _ _ _ _ hp hq hi hj rfl rfl
  exact absurd (congrArg (·.signature) hsame) (by decide)

end YukhCoordination.Relay.Service
