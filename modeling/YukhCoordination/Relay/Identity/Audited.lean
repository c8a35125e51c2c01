import YukhCoordination.Relay.Audit.Sqlite.Append
import YukhCoordination.Relay.Identity.Proofs
import YukhCoordination.Relay.Identity.Sessions

/-!
# No admission without a durable audit record

`Bootstrap` appends its allow record before it activates a session (`admission_audited`).
-/

namespace YukhCoordination.Relay.Identity

open Transaction Interleave
open Coordination (Time)
open Audit (Digest AuditRecord AuditOperation)
open Audit.Sqlite (Entry)

variable {Hash : Type}

/-! ## Runs -/

/-- The registry, the ledger, and the generated ids with the calls they were generated for. -/
structure Deployment (Hash : Type) where
  registry : Db
  ledger : Audit.Sqlite.Db Hash
  issued : List (CallId × String)

/-- The answers to the requests of call `i`. The generated ids are distinct. A transaction of the
registry or of the ledger is committed, fails and is rolled back, or is committed without the call
being told. -/
def deploymentSem [DecidableEq Hash] (codec : Audit.Codec Hash) :
    Sem port CallId (Deployment Hash) := fun i r w ans w' =>
  match r, ans with
  | .newID, ans => (ans = none ∧ w' = w) ∨ ∃ id, ans = some id ∧ id ∉ w.issued.map (·.2) ∧
      w' = { w with issued := w.issued ++ [(i, id)] }
  | .registry op, ans => ∃ now answer db', Attempt (op.run now) w.registry answer db' ∧
      ans = told answer ∧ w' = { w with registry := db' }
  | .record record, ans => ∃ answer db', Attempt (Audit.Sqlite.record codec record) w.ledger answer
      db' ∧ ans = answer.toOption ∧ w' = { w with ledger := db' }
  | _, _ => w' = w

/-- What else happens: restarts and any other calls of the registry but `ActivateBootstrap`, which
only the provider calls, and anything that appends to the ledger. -/
inductive Outside (w : Deployment Hash) : Deployment Hash → Prop
  | registry {op : Operation} {now : Time}
      {answer : Except RegistryError (Except RegistryError op.Answer)} {db' : Db} :
      (∀ operationID receipt, op ≠ .activateBootstrap operationID receipt) →
      Attempt (op.run now) w.registry answer db' → Outside w { w with registry := db' }
  | ledger {db' : Audit.Sqlite.Db Hash} : w.ledger.entries ⊆ db'.entries →
      (db'.entries.map (·.operationID)).Nodup → Outside w { w with ledger := db' }

/-! ## Records -/

/-- The entry is that of an allow record of the kind. -/
structure Allows (codec : Audit.Codec Hash) (operation : AuditOperation) (record : AuditRecord)
    (entry : Entry Hash) : Prop where
  operationID : entry.operationID = record.operationID
  bytes : Audit.canonicalRecord codec.record record = .ok entry.canonicalRecord
  operation : record.operation = operation
  outcome : record.outcome = .allow

/-- The entry is that of the allow record of a session's bootstrap. -/
def AdmitsSession (codec : Audit.Codec Hash) (row : Session) (entry : Entry Hash) : Prop :=
  ∃ record, Allows codec .bootstrap record entry ∧ record.operationID = row.bootstrapOperationID ∧
    record.tenantID = row.tenantID ∧ record.principalID = row.principalID ∧
    record.participantInstanceID = row.participantInstanceID ∧
    record.sessionEpoch = row.sessionEpoch ∧ record.hasDPoPThumbprint = true ∧
    record.dpopThumbprint = row.dpopThumbprint

/-- The entry is that of an allow record of an authentication that names the session. -/
def AdmitsIdentity (codec : Audit.Codec Hash) (identity : SessionIdentity) (entry : Entry Hash) :
    Prop :=
  ∃ record, Allows codec .authentication record entry ∧ record.tenantID = identity.tenantID ∧
    record.principalID = identity.principalID ∧
    record.participantInstanceID = identity.participantInstanceID ∧
    record.sessionEpoch = identity.sessionEpoch

theorem AdmitsSession.congr {codec : Audit.Codec Hash} {row row' : Session} {entry : Entry Hash}
    (h : AdmitsSession codec row entry) (hres : row'.reservation = row.reservation) :
    AdmitsSession codec row' entry := by
  have htenant : row'.reservation.tenantID = row.reservation.tenantID := by rw [hres]
  have hprincipal : row'.reservation.principalID = row.reservation.principalID := by rw [hres]
  have hparticipant : row'.reservation.participantInstanceID =
    row.reservation.participantInstanceID := by rw [hres]
  have hepoch : row'.reservation.sessionEpoch = row.reservation.sessionEpoch := by rw [hres]
  have hthumbprint : row'.reservation.dpopThumbprint = row.reservation.dpopThumbprint := by
    rw [hres]
  have hoperation : row'.reservation.bootstrapOperationID =
    row.reservation.bootstrapOperationID := by rw [hres]
  obtain ⟨record, hallows, h₁, h₂, h₃, h₄, h₅, h₆, h₇⟩ := h
  exact ⟨record, hallows, h₁.trans hoperation.symm, h₂.trans htenant.symm, h₃.trans hprincipal.symm,
    h₄.trans hparticipant.symm, h₅.trans hepoch.symm, h₆, h₇.trans hthumbprint.symm⟩

/-! ## What holds between requests -/

/-- The sessions of the registry are sound, the ledger has one entry for each operation, and every
session that is or has been active has its allow record. -/
structure AuditedState (codec : Audit.Codec Hash) (w : Deployment Hash) : Prop where
  sessions : SoundSessions w.registry
  operations : (w.ledger.entries.map (·.operationID)).Nodup
  issued : (w.issued.map (·.2)).Nodup
  recorded : ∀ row ∈ w.registry.sessions, row.admitted →
    ∃ entry ∈ w.ledger.entries, AdmitsSession codec row entry

/-- The reserved sessions, the entries and the generated ids stay. -/
structure Kept (w w' : Deployment Hash) : Prop where
  sessions : ∀ row ∈ w.registry.sessions, ∃ row' ∈ w'.registry.sessions,
    row'.reservation = row.reservation
  entries : w.ledger.entries ⊆ w'.ledger.entries
  issued : w.issued ⊆ w'.issued

section
variable {codec : Audit.Codec Hash} {w w' w'' : Deployment Hash}

theorem Kept.refl : Kept w w :=
  ⟨fun row hrow => ⟨row, hrow, rfl⟩, List.Subset.refl _, List.Subset.refl _⟩

theorem Kept.trans (h : Kept w w') (h' : Kept w' w'') : Kept w w'' where
  sessions row hrow := by
    obtain ⟨row', hrow', hres⟩ := h.sessions row hrow
    obtain ⟨row'', hrow'', hres'⟩ := h'.sessions row' hrow'
    exact ⟨row'', hrow'', hres'.trans hres⟩
  entries := List.Subset.trans h.entries h'.entries
  issued := List.Subset.trans h.issued h'.issued

/-- A transaction of the registry keeps the state, if a session that it activates has its allow
record. -/
theorem AuditedState.registry (h : AuditedState codec w) {op : Operation} {now : Time}
    {answer : Except RegistryError (Except RegistryError op.Answer)} {db' : Db}
    (hattempt : Attempt (op.run now) w.registry answer db')
    (hactivates : ∀ operationID receipt, op = .activateBootstrap operationID receipt →
      ∀ row ∈ w.registry.sessions, row.bootstrapOperationID = operationID →
        ∃ entry ∈ w.ledger.entries, AdmitsSession codec row entry) :
    AuditedState codec { w with registry := db' } ∧ Kept w { w with registry := db' } := by
  rcases hattempt.cases with rfl | ⟨result, hrun⟩
  · exact ⟨⟨h.sessions, h.operations, h.issued, h.recorded⟩, .refl⟩
  · have heffect := run_sessions hrun
    refine ⟨⟨h.sessions.effect heffect, h.operations, h.issued, fun row' hrow' hadmitted => ?_⟩,
      ⟨fun row hrow => ?_, List.Subset.refl _, List.Subset.refl _⟩⟩
    · obtain ⟨row, hrow, hres, hwas⟩ := heffect.of_admitted hrow' hadmitted
      have hoperation : row'.reservation.bootstrapOperationID =
        row.reservation.bootstrapOperationID := by rw [hres]
      have hentry : ∃ entry ∈ w.ledger.entries, AdmitsSession codec row entry := by
        rcases hwas with hwas | ⟨receipt, hop⟩
        · exact h.recorded row hrow hwas
        · exact hactivates _ receipt hop row hrow hoperation.symm
      obtain ⟨entry, hentry, hadmits⟩ := hentry
      exact ⟨entry, hentry, hadmits.congr hres⟩
    · obtain ⟨row', hrow', hlater⟩ := heffect.later hrow
      exact ⟨row', hrow', hlater.reservation⟩

/-- A ledger that keeps its entries keeps the state. -/
theorem AuditedState.ledger (h : AuditedState codec w) {db' : Audit.Sqlite.Db Hash}
    (hentries : w.ledger.entries ⊆ db'.entries) (hnodup : (db'.entries.map (·.operationID)).Nodup) :
    AuditedState codec { w with ledger := db' } ∧ Kept w { w with ledger := db' } := by
  refine ⟨⟨h.sessions, hnodup, h.issued, fun row hrow hadmitted => ?_⟩,
    ⟨fun row hrow => ⟨row, hrow, rfl⟩, hentries, List.Subset.refl _⟩⟩
  obtain ⟨entry, hentry, hadmits⟩ := h.recorded row hrow hadmitted
  exact ⟨entry, hentries hentry, hadmits⟩

theorem AuditedState.outside (h : AuditedState codec w) (hs : Outside w w') :
    AuditedState codec w' ∧ Kept w w' := by
  cases hs with
  | registry hop hattempt =>
    exact h.registry hattempt fun operationID receipt heq => absurd heq (hop operationID receipt)
  | ledger hentries hnodup => exact h.ledger hentries hnodup

variable [DecidableEq Hash]

/-- What a committed `Ledger.Record` leaves behind. -/
theorem record_ok {ledger ledger' : Audit.Sqlite.Db Hash} {record : AuditRecord} {receipt : String}
    (h : Audit.Sqlite.record codec record ledger = .ok (receipt, ledger'))
    (hnodup : (ledger.entries.map (·.operationID)).Nodup) :
    ledger.entries ⊆ ledger'.entries ∧ (ledger'.entries.map (·.operationID)).Nodup ∧
      ∃ entry ∈ ledger'.entries, entry.operationID = record.operationID ∧
        Audit.canonicalRecord codec.record record = .ok entry.canonicalRecord := by
  obtain ⟨⟨receipt', db⟩, happend, h⟩ := bind_ok.1 h
  cases h
  rcases Audit.Sqlite.append_ok happend with ⟨rfl, entry, he, ha⟩ |
    ⟨canonical, receiptBytes, hcanonical, hw⟩
  · exact ⟨List.Subset.refl _, hnodup, entry, he, ha.operationID, ha.canonicalRecord⟩
  · rw [hw.entries]
    exact ⟨List.subset_append_left _ _, unique_concat hnodup fun e he => (hw.fresh e he).1, _,
      List.mem_append_right _ List.mem_cons_self, rfl, hcanonical⟩

/-- A request other than `ActivateBootstrap`. -/
def Harmless : Request → Prop
  | .registry (.activateBootstrap ..) => False
  | _ => True

theorem AuditedState.request (h : AuditedState codec w) {i : CallId} {r : Request} {ans : r.Answer}
    (hr : Harmless r) (hs : deploymentSem codec i r w ans w') :
    AuditedState codec w' ∧ Kept w w' := by
  cases r with
  | newID =>
    rcases hs with ⟨-, rfl⟩ | ⟨id, -, hfresh, rfl⟩
    · exact ⟨h, .refl⟩
    · have hnodup : ((w.issued ++ [(i, id)]).map (·.2)).Nodup :=
        unique_concat h.issued fun other ho heq => hfresh (List.mem_map.2 ⟨other, ho, heq⟩)
      exact ⟨⟨h.sessions, h.operations, hnodup, h.recorded⟩,
        ⟨fun row hrow => ⟨row, hrow, rfl⟩, List.Subset.refl _, List.subset_append_left _ _⟩⟩
  | registry op =>
    obtain ⟨now, answer, db', hattempt, -, rfl⟩ := hs
    refine h.registry hattempt fun operationID receipt hop => ?_
    subst hop
    exact hr.elim
  | record record =>
    obtain ⟨answer, db', hattempt, -, rfl⟩ := hs
    rcases hattempt.cases with rfl | ⟨receipt, hrecord⟩
    · exact ⟨h, .refl⟩
    · obtain ⟨hentries, hnodup, -⟩ := record_ok hrecord h.operations
      exact h.ledger hentries hnodup
  | now | random | verifyExternalToken =>
    cases hs
    exact ⟨h, .refl⟩

end

/-! ## The calls -/

section
variable [DecidableEq Hash] {codec : Audit.Codec Hash} {lib : Library} {i : CallId}
  {w : Deployment Hash} {α β : Type}

/-- What a call relies on and gives: the state is kept, and what is stored stays. -/
abbrev MeetsAudited (codec : Audit.Codec Hash) (i : CallId) (post : α → Deployment Hash → Prop)
    (p : Proc α) (w : Deployment Hash) : Prop :=
  p.Meets (deploymentSem codec i) (AuditedState codec) Kept (fun t u => ∀ j, j ≠ i → Kept t u)
    post w

variable {post : α → Deployment Hash → Prop} {material : Material}

/-- A harmless request, and what comes after its answer. -/
theorem meetsAudited_ask {r : Request} {k : r.Answer → Proc α} (hr : Harmless r)
    (h : ∀ t ans u, Kept w t → AuditedState codec t → AuditedState codec u → Kept t u →
      deploymentSem codec i r t ans u → MeetsAudited codec i post (k ans) u) :
    MeetsAudited codec i post (ask r >>= k) w := by
  refine Program.meets_ask_bind.2 fun t ht hi ans u hu => ?_
  obtain ⟨hinv, hkept⟩ := hi.request hr hu
  exact ⟨hinv, fun _ _ => hkept, h t ans u ht hi hinv hkept hu⟩

/-- A program with harmless requests keeps the state. -/
theorem meetsAudited_any {p : Proc α} (hp : p.Only Harmless)
    (hpost : ∀ a u, post a u) : MeetsAudited codec i post p w :=
  hp.meets (fun _ _ _ _ hr hi hu => ⟨(hi.request hr hu).1, fun _ _ => (hi.request hr hu).2⟩) hpost w

/-- A part of a program with harmless requests whose result tells nothing, and what comes after. -/
theorem meetsAudited_bind {p : Proc β} {k : β → Proc α} (hp : p.Only Harmless)
    (h : ∀ b u, MeetsAudited codec i post (k b) u) : MeetsAudited codec i post (p >>= k) w :=
  Program.meets_bind.2 (meetsAudited_any hp h)

theorem recordAudit_harmless (record : AuditRecord) : (recordAudit record).Only Harmless := by
  unfold recordAudit
  split
  · exact ⟨trivial, fun _ => trivial⟩
  · trivial

theorem decisionTime_harmless : decisionTime.Only Harmless := ⟨trivial, fun _ => trivial⟩

theorem nextID_harmless : nextID.Only Harmless := ⟨trivial, fun _ => trivial⟩

theorem recordFailure_harmless (operationID : String) (operation : AuditOperation)
    (result : Failure) (external : Option BootstrapIdentity) (proof : Option Proof) :
    (recordFailure operationID operation result external proof).Only Harmless :=
  decisionTime_harmless.bind fun _ => (recordAudit_harmless _).bind fun _ => trivial

theorem auditFailure_harmless (operationID : String) (operation : AuditOperation)
    (result : Failure) (external : Option BootstrapIdentity) (proof : Option Proof) :
    (auditFailure operationID operation result external proof).Only Harmless :=
  (recordFailure_harmless _ _ _ _ _).bind fun _ => trivial

theorem generateSessionMaterial_harmless : (generateSessionMaterial lib).Only Harmless := by
  refine ⟨trivial, fun secret => ?_⟩
  cases secret with
  | none => trivial
  | some secret =>
    refine nextID_harmless.bind fun participantID => ?_
    cases participantID with
    | none => trivial
    | some participantID =>
      refine nextID_harmless.bind fun operationID => ?_
      cases operationID <;> trivial

theorem verifyBootstrap_harmless : (verifyBootstrap lib material).Only Harmless := by
  refine Program.only_ask_bind.2 ⟨trivial, fun now => ?_⟩
  split
  · trivial
  · refine Program.only_ask_bind.2 ⟨trivial, fun external => ?_⟩
    cases external with
    | error e => trivial
    | ok external =>
      dsimp only
      split <;> trivial

/-- A record that is acknowledged has its entry. -/
theorem recordAudit_meets (record : AuditRecord) (w : Deployment Hash) :
    MeetsAudited codec i (fun receipt w => receipt.isSome → ∃ entry ∈ w.ledger.entries,
      entry.operationID = record.operationID ∧
      Audit.canonicalRecord codec.record record = .ok entry.canonicalRecord)
      (recordAudit record) w := by
  unfold recordAudit
  split
  · refine meetsAudited_ask (k := Program.done) trivial fun t ans u _ hi _ _ hu => ?_
    rintro hsome
    obtain ⟨answer, db', hattempt, rfl, rfl⟩ := hu
    cases hattempt with
    | committed h => exact (record_ok h hi.operations).2.2
    | rolledBack e | unacknowledged e => cases hsome
  · intro h
    cases h

/-- What a call has seen stored is still there when it returns. -/
theorem MeetsAudited.and_kept {p : Proc α} (h : MeetsAudited codec i post p w) :
    MeetsAudited codec i (fun a t => Kept w t ∧ post a t) p w :=
  Program.Meets.and_rely (fun _ => .refl) (fun _ _ _ => .trans)
    (fun _ _ hguar => hguar (i + 1) (Nat.succ_ne_self i)) h

/-- `Bootstrap` after its reservation: when it activates the session, its row and the entry of its
record are there. -/
theorem activate_meets {external : BootstrapIdentity} {generated : SessionMaterial}
    {pending : PendingSession} {issuedAt expiresAt : Time} (hinv : AuditedState codec w)
    (hrow : pendingRow pending ∈ w.registry.sessions)
    (hoperation : pending.bootstrapOperationID = generated.operationID)
    (hthumbprint : pending.dpopThumbprint = external.dpopThumbprint) :
    MeetsAudited codec i (fun _ _ => True)
      (activate external generated pending issuedAt expiresAt) w := by
  refine Program.Meets.bind hinv (recordAudit_meets _ w).and_kept fun receipt t ht hpost => ?_
  obtain ⟨hkept, hentry⟩ := hpost
  cases receipt with
  | none => trivial
  | some receipt =>
    obtain ⟨entry, hentry, hid, hbytes⟩ := hentry rfl
    have hadmits : AdmitsSession codec (pendingRow pending) entry :=
      ⟨_, ⟨hid, hbytes, rfl, rfl⟩, hoperation.symm, rfl, rfl, rfl, rfl, rfl, hthumbprint.symm⟩
    refine Program.meets_ask_bind.2 fun u hu hi ans v hv => ?_
    obtain ⟨now, answer, db', hattempt, -, rfl⟩ := hv
    obtain ⟨row, hstored, hres⟩ := (hkept.trans hu).sessions _ hrow
    have hresult := hi.registry hattempt fun operationID receipt' hop row' hrow' hid' => by
      -- The operation has one session, the one that the call has reserved.
      obtain ⟨rfl, -⟩ := Operation.activateBootstrap.inj hop
      have hsame : row.reservation.bootstrapOperationID = pending.bootstrapOperationID := by
        rw [hres]
        rfl
      obtain rfl := List.inj_on_of_nodup_map hi.sessions.operations hrow' hstored
        (hid'.trans (hoperation.symm.trans hsame.symm))
      exact ⟨entry, hu.entries hentry, hadmits.congr hres⟩
    refine ⟨hresult.1, fun _ _ => hresult.2, ?_⟩
    cases ans <;> trivial

/-- A reservation that is acknowledged has stored its row. -/
theorem reserveBootstrap_ok {request : BootstrapReservation} {now : Time} {db db' : Db}
    {pending : PendingSession} (h : reserveBootstrap request now db = .ok (.ok pending, db')) :
    pendingRow pending ∈ db'.sessions ∧
      pending.bootstrapOperationID = request.session.bootstrapOperationID ∧
      pending.dpopThumbprint = request.session.dpopThumbprint := by
  obtain ⟨-, h⟩ := ensure_bind.1 h
  obtain ⟨-, ⟨hanswer, -⟩ | ⟨nowMS, a, -, hanswer, h⟩⟩ := withClock_ok h
  · cases hanswer
  cases hanswer
  obtain ⟨-, h⟩ := ensure_bind.1 h
  obtain ⟨-, h⟩ := ensure_bind.1 h
  obtain ⟨⟨epoch, db₁⟩, hepoch, h⟩ := bind_ok.1 h
  obtain ⟨db₂, hinsert, h⟩ := bind_ok.1 h
  obtain ⟨db₃, hreserve, h⟩ := bind_ok.1 h
  cases h
  obtain ⟨-, hinsert⟩ := ensure_bind.1 hinsert
  cases hinsert
  obtain ⟨-, rfl⟩ := reserveProof_ok hreserve
  exact ⟨List.mem_append_right _ List.mem_cons_self, rfl, rfl⟩

theorem bootstrapAttempts_audited {attemptID : String} {external : BootstrapIdentity}
    {issuedAt expiresAt : Time} (attempts : Nat) (w : Deployment Hash) :
    MeetsAudited codec i (fun _ _ => True)
      (bootstrapAttempts lib attemptID external issuedAt expiresAt attempts) w := by
  induction attempts generalizing w with
  | zero => exact meetsAudited_bind (auditFailure_harmless _ _ _ _ _) fun e u => trivial
  | succ attempts ih =>
    refine meetsAudited_bind generateSessionMaterial_harmless fun generated w => ?_
    cases generated with
    | none => exact meetsAudited_bind (auditFailure_harmless _ _ _ _ _) fun e u => trivial
    | some generated =>
      refine meetsAudited_ask trivial fun t reserved u _ _ hinv _ hu => ?_
      cases reserved with
      | ok pending =>
        obtain ⟨now, answer, db', hattempt, htold, rfl⟩ := hu
        cases hattempt with
        | rolledBack e | unacknowledged e h => cases htold
        | committed h =>
          cases htold
          obtain ⟨hrow, hoperation, hthumbprint⟩ := reserveBootstrap_ok h
          exact activate_meets hinv hrow hoperation hthumbprint
      | error e =>
        cases e with
        | sessionConflict =>
          refine meetsAudited_bind nextID_harmless fun collisionID w => ?_
          cases collisionID with
          | none => trivial
          | some collisionID =>
            refine meetsAudited_bind (recordFailure_harmless _ _ _ _ _) fun recorded w => ?_
            cases recorded with
            | true => exact ih w
            | false => trivial
        | invalid | unavailable | proofReplay | sessionNotFound | fenced | clockRollback
        | epochExhausted =>
          exact meetsAudited_bind (auditFailure_harmless _ _ _ _ _) fun e u => trivial

theorem bootstrap_audited (w : Deployment Hash) :
    MeetsAudited codec i (fun _ _ => True) (bootstrap lib material) w := by
  refine meetsAudited_bind nextID_harmless fun attemptID w => ?_
  cases attemptID with
  | none => trivial
  | some attemptID =>
    refine meetsAudited_bind verifyBootstrap_harmless fun external w => ?_
    cases external with
    | error e => exact meetsAudited_bind (auditFailure_harmless _ _ _ _ _) fun e u => trivial
    | ok external =>
      refine meetsAudited_bind decisionTime_harmless fun issuedAt w => ?_
      dsimp only
      split
      · exact bootstrapAttempts_audited 3 w
      · exact meetsAudited_bind (auditFailure_harmless _ _ _ _ _) fun e u => trivial

/-- The identity is one whose authentication has been recorded under an id that was generated for
the call. -/
def Recorded (codec : Audit.Codec Hash) (i : CallId) (identity : SessionIdentity)
    (w : Deployment Hash) : Prop :=
  ∃ id entry, (i, id) ∈ w.issued ∧ entry ∈ w.ledger.entries ∧ entry.operationID = id ∧
    AdmitsIdentity codec identity entry

omit [DecidableEq Hash] in
theorem Recorded.kept {identity : SessionIdentity} {w' : Deployment Hash}
    (h : Recorded codec i identity w) (hkept : Kept w w') : Recorded codec i identity w' := by
  obtain ⟨id, entry, hid, hentry, h⟩ := h
  exact ⟨id, entry, hkept.issued hid, hkept.entries hentry, h⟩

/-- An id that a call has generated is one of its own. -/
theorem nextID_meets (w : Deployment Hash) : MeetsAudited codec i
    (fun id w => ∀ operationID, id = some operationID → (i, operationID) ∈ w.issued) nextID w := by
  refine meetsAudited_ask trivial fun t ans u _ _ _ _ hu => ?_
  intro operationID hid
  obtain ⟨rfl, -⟩ := Option.filter_eq_some_iff.1 hid
  rcases hu with ⟨hnone, -⟩ | ⟨id, hsome, -, rfl⟩
  · cases hnone
  · cases hsome
    exact List.mem_append_right _ List.mem_cons_self

theorem authenticateProof_audited {operationID : String} {proof : Proof}
    (hid : (i, operationID) ∈ w.issued) : MeetsAudited codec i
      (fun result w => ∀ identity, result = .ok identity → Recorded codec i identity w)
      (authenticateProof lib material operationID proof) w := by
  refine meetsAudited_ask trivial fun t active u ht _ hinv hu _ => ?_
  cases active with
  | error e =>
    refine meetsAudited_bind (auditFailure_harmless _ _ _ _ _) fun e u => ?_
    rintro identity ⟨⟩
  | ok active =>
    have htime : MeetsAudited codec i (fun _ _ => True) decisionTime u :=
      meetsAudited_any decisionTime_harmless fun _ _ => trivial
    refine Program.Meets.bind hinv htime.and_kept fun at_ v hv hpost => ?_
    refine Program.Meets.bind hv (recordAudit_meets _ v).and_kept fun receipt x _ hpost' => ?_
    cases receipt with
    | none => rintro identity ⟨⟩
    | some receipt =>
      rintro identity ⟨⟩
      obtain ⟨entry, hentry, hid', hbytes⟩ := hpost'.2 rfl
      exact ⟨operationID, entry, (((ht.trans hu).trans hpost.1).trans hpost'.1).issued hid, hentry,
        hid', _, ⟨hid', hbytes, rfl, rfl⟩, rfl, rfl, rfl, rfl⟩

theorem authenticateSession_audited (hinv : AuditedState codec w) : MeetsAudited codec i
      (fun result w => ∀ identity, result = .ok identity → Recorded codec i identity w)
      (authenticateSession lib material) w := by
  refine Program.Meets.bind hinv (nextID_meets w) fun operationID t _ hid => ?_
  cases operationID with
  | none => rintro identity ⟨⟩
  | some operationID =>
    refine meetsAudited_ask trivial fun u now v hu _ _ hv _ => ?_
    cases verify lib material.proof material.credential material.method material.targetURI now with
    | error e =>
      refine meetsAudited_bind (auditFailure_harmless _ _ _ _ _) fun e u => ?_
      rintro identity ⟨⟩
    | ok proof => exact authenticateProof_audited ((hu.trans hv).issued (hid _ rfl))

end

/-- The rely–guarantee argument: the state is kept, and an identity that a call returns has been
recorded for it. -/
def auditedArgument [DecidableEq Hash] (codec : Audit.Codec Hash) (lib : Library) :
    RelyGuarantee (deploymentSem codec) Outside (body lib) where
  inv := AuditedState codec
  rely _ := Kept
  fresh _ _ := True
  post i _ a w := ∀ identity, a = .authenticate (.ok identity) → Recorded codec i identity w
  rely_refl _ _ := .refl
  rely_trans _ _ _ _ := .trans
  env_inv _ _ h hs := (h.outside hs).1
  env_rely _ _ _ h hs := (h.outside hs).2
  fresh_stable _ _ _ _ _ := trivial
  post_stable _ _ _ _ _ _ hpost hkept identity hresult := (hpost identity hresult).kept hkept
  meets i c w hinv _ := by
    cases c with
    | bootstrap material =>
      refine Program.meets_bind.2 ((bootstrap_audited w).mono_post fun result u _ => ?_)
      rintro identity ⟨⟩
    | authenticate material =>
      refine Program.meets_bind.2 ((authenticateSession_audited hinv).mono_post
        fun result u hresult => ?_)
      rintro identity ⟨⟩
      exact hresult identity rfl
    | cleanupProofs =>
      refine meetsAudited_ask trivial fun t ans u _ _ _ _ _ => ?_
      rintro identity ⟨⟩

/-- **No admission without a durable audit record.** In every run of the calls of the provider over
a new registry and a new ledger, every session that is or has been active has one allow record of
its bootstrap, and the identities that calls of `Authenticate` have returned have allow records of
their own. -/
theorem admission_audited [DecidableEq Hash] {codec : Audit.Codec Hash} {lib : Library}
    {databaseID ledgerID : String} {createdMS : Int}
    {p : Pool port CallId Invocation Result (Deployment Hash)}
    (hp : Pool.Reach (deploymentSem codec) Outside (body lib)
      ⟨created databaseID createdMS, Audit.Sqlite.opened codec ledgerID, []⟩ p) :
    (∀ row ∈ p.shared.registry.sessions, row.admitted →
      ∃! entry, entry ∈ p.shared.ledger.entries ∧ AdmitsSession codec row entry) ∧
    ∃ entryOf : CallId → Option (Entry Hash),
      (∀ i c identity, p.Returned i c (.authenticate (.ok identity)) → ∃ entry,
        entryOf i = some entry ∧ entry ∈ p.shared.ledger.entries ∧
          AdmitsIdentity codec identity entry) ∧
      ∀ i j entry, entryOf i = some entry → entryOf j = some entry → i = j := by
  have h₀ : AuditedState codec
      ⟨created databaseID createdMS, Audit.Sqlite.opened codec ledgerID, []⟩ :=
    ⟨.created databaseID createdMS, List.nodup_nil, List.nodup_nil,
      fun row hrow => absurd hrow List.not_mem_nil⟩
  have hholds := (auditedArgument codec lib).reach h₀ (fun _ => trivial) hp
  have hinv : AuditedState codec p.shared := hholds.inv
  constructor
  · intro row hrow hadmitted
    obtain ⟨entry, hentry, hadmits⟩ := hinv.recorded row hrow hadmitted
    have hoperation {e : Entry Hash} (h : AdmitsSession codec row e) :
        e.operationID = row.bootstrapOperationID := by
      obtain ⟨record, hallows, hid, -⟩ := h
      exact hallows.operationID.trans hid
    refine ⟨entry, ⟨hentry, hadmits⟩, fun other ho => ?_⟩
    exact List.inj_on_of_nodup_map hinv.operations ho.1 hentry
      ((hoperation ho.2).trans (hoperation hadmits).symm)
  · -- A call that has returned has one result, so the record of its identity can be chosen for it.
    have hchoice (i : CallId) : ∃ e : Option (Entry Hash),
        (∀ c identity, p.Returned i c (.authenticate (.ok identity)) → ∃ entry, e = some entry ∧
          entry ∈ p.shared.ledger.entries ∧ AdmitsIdentity codec identity entry) ∧
        ∀ entry, e = some entry → (i, entry.operationID) ∈ p.shared.issued := by
      by_cases hreturned : ∃ c identity, p.Returned i c (.authenticate (.ok identity))
      · obtain ⟨c, identity, hreturned⟩ := hreturned
        obtain ⟨id, entry, hid, hentry, rfl, hadmits⟩ :=
          (auditedArgument codec lib).returned h₀ (fun _ => trivial) hp hreturned identity rfl
        refine ⟨some entry, fun c' identity' hreturned' => ⟨entry, rfl, hentry, ?_⟩,
          fun other ho => Option.some.inj ho ▸ hid⟩
        have hsame := hreturned.symm.trans hreturned'
        simp only [Option.some.injEq, Prod.mk.injEq, Program.done.injEq, Result.authenticate.injEq,
          Except.ok.injEq] at hsame
        exact hsame.2 ▸ hadmits
      · exact ⟨none, fun c identity h => absurd ⟨c, identity, h⟩ hreturned, fun _ h => by cases h⟩
    choose entryOf hentry hissued using hchoice
    refine ⟨entryOf, hentry, fun i j entry hi hj => ?_⟩
    exact congrArg Prod.fst (List.inj_on_of_nodup_map hinv.issued (hissued i entry hi)
      (hissued j entry hj) rfl)

/-! ## A run -/

/-- The identity that the external token of a bootstrap gives. -/
def sampleExternal : BootstrapIdentity :=
  ⟨"t", Audit.encodeDigest sampleDigest, sampleDigest, ofUnixMilli 900000, "AAAAAAAAAAAAAAAA",
    ofUnixMilli 0⟩

/-- The generated material of the bootstrap. -/
def sampleGenerated : SessionMaterial :=
  ⟨Audit.encodeDigest sampleDigest, sampleDigest, "01980000-0000-7000-8000-000000000002",
    "01980000-0000-7000-8000-000000000003"⟩

/-- The ids that the bootstrap generates. -/
def sampleIssued : List (CallId × String) :=
  [(0, "01980000-0000-7000-8000-000000000001"), (0, sampleGenerated.participantID),
    (0, sampleGenerated.operationID)]

/-- The reserved session. -/
def samplePending : PendingSession :=
  { (bootstrapReservation sampleExternal sampleGenerated (ofUnixMilli 0)
      (ofUnixMilli 900000)).session with sessionEpoch := 1 }

/-- The registry with the session in a row. -/
def bootstrapRegistry (row : Session) : Db where
  metadata := ⟨sampleID, 0, .admitted, none⟩
  principalEpochs := [⟨"t", Audit.encodeDigest sampleDigest, 1⟩]
  sessions := [row]
  proofReplays := [proofRow sampleDigest "AAAAAAAAAAAAAAAA" .bootstrap (ofUnixMilli 0)
    "01980000-0000-7000-8000-000000000002"]
  restoreEpochFloors := []

/-- The row of the session after its activation. -/
def activatedRow : Session := { pendingRow samplePending with
    state := .active, activationReceipt := some ("audit:" ++ sampleID ++ ":1:0") }

theorem run_bootstrapReservation : (Operation.reserveBootstrap (bootstrapReservation sampleExternal
      sampleGenerated (ofUnixMilli 0) (ofUnixMilli 900000))).run (ofUnixMilli 0)
      (created sampleID 0) = .ok (.ok samplePending,
        bootstrapRegistry (pendingRow samplePending)) := by
  rfl

theorem run_activation : (Operation.activateBootstrap sampleGenerated.operationID
      ("audit:" ++ sampleID ++ ":1:0")).run (ofUnixMilli 0)
      (bootstrapRegistry (pendingRow samplePending)) =
    .ok (.ok activatedRow.active, bootstrapRegistry activatedRow) := by
  rfl

theorem record_bootstrap : (Audit.Sqlite.record (Audit.sampleCodec [])
      (bootstrapRecord sampleExternal sampleGenerated samplePending (ofUnixMilli 0))
      (Audit.Sqlite.opened (Audit.sampleCodec []) sampleID)).map (·.1) =
    .ok ("audit:" ++ sampleID ++ ":1:0") := by
  decide +kernel

/-- A session that a bootstrap has activated has one allow record. -/
theorem admission_audited_bootstrap :
    ∃ p : Pool port CallId Invocation Result (Deployment Audit.Symbolic),
      Pool.Reach (deploymentSem (Audit.sampleCodec [])) Outside (body sampleLibrary)
        ⟨created sampleID 0, Audit.Sqlite.opened (Audit.sampleCodec []) sampleID, []⟩ p ∧
      activatedRow ∈ p.shared.registry.sessions ∧
      ∃! entry, entry ∈ p.shared.ledger.entries ∧
        AdmitsSession (Audit.sampleCodec []) activatedRow entry := by
  obtain ⟨⟨receipt, ledger⟩, hrecord, hreceipt⟩ := map_ok.1 record_bootstrap
  obtain rfl : receipt = "audit:" ++ sampleID ++ ":1:0" := hreceipt
  have hbody : (body sampleLibrary (.bootstrap sampleMaterial)).Exec
      (deploymentSem (Audit.sampleCodec []) 0)
      ⟨created sampleID 0, Audit.Sqlite.opened (Audit.sampleCodec []) sampleID, []⟩
      (.bootstrap (.ok ⟨sampleGenerated.token, sampleGenerated.participantID, 1, ofUnixMilli 0,
        ofUnixMilli 900000⟩)) ⟨bootstrapRegistry activatedRow, ledger, sampleIssued⟩ := by
    refine Program.exec_call.2 ⟨some "01980000-0000-7000-8000-000000000001", _,
      .inr ⟨_, rfl, by decide, rfl⟩, ?_⟩
    refine Program.exec_call.2 ⟨ofUnixMilli 0, _, rfl, ?_⟩
    refine Program.exec_call.2 ⟨.ok ⟨"t", Audit.encodeDigest sampleDigest, sampleDigest,
      ofUnixMilli 900000⟩, _, rfl, ?_⟩
    refine Program.exec_call.2 ⟨ofUnixMilli 0, _, rfl, ?_⟩
    refine Program.exec_call.2 ⟨some sampleDigest, _, rfl, ?_⟩
    refine Program.exec_call.2 ⟨some sampleGenerated.participantID, _,
      .inr ⟨_, rfl, by decide, rfl⟩, ?_⟩
    refine Program.exec_call.2 ⟨some sampleGenerated.operationID, _,
      .inr ⟨_, rfl, by decide, rfl⟩, ?_⟩
    refine Program.exec_call.2 ⟨.ok samplePending, _,
      ⟨ofUnixMilli 0, _, _, .committed run_bootstrapReservation, rfl, rfl⟩, ?_⟩
    refine Program.exec_call.2 ⟨_, _, ⟨.ok _, ledger, .committed hrecord, rfl, rfl⟩, ?_⟩
    exact Program.exec_call.2 ⟨.ok activatedRow.active, _,
      ⟨ofUnixMilli 0, _, _, .committed run_activation, rfl, rfl⟩, .done⟩
  have h₀ : Pool.Reach (deploymentSem (Audit.sampleCodec [])) Outside (body sampleLibrary)
      ⟨created sampleID 0, Audit.Sqlite.opened (Audit.sampleCodec []) sampleID, []⟩
      (Pool.init _) := .refl
  have hreach := h₀.exec rfl hbody
  refine ⟨_, hreach, List.mem_cons_self, ?_⟩
  exact (admission_audited hreach).1 activatedRow List.mem_cons_self ⟨by decide, by decide⟩

end YukhCoordination.Relay.Identity
