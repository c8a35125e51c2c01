import YukhCoordination.Relay.Identity.Proofs
import YukhCoordination.Relay.Identity.Restore
import YukhCoordination.Relay.Identity.Sessions

/-!
# Expired sessions

A refusal for expiry rolls the new high-water back, so that an earlier clock can still accept the
session (`authenticate_after_expiry`).
-/

namespace YukhCoordination.Relay.Identity

open Transaction
open Coordination (Time)
open Audit (Digest)

/-- The key of a session. -/
def Session.key (row : Session) : SessionKey :=
  ⟨row.tenantID, row.participantInstanceID, row.sessionEpoch⟩

/-! ## Refusing and accepting -/

/-- The call refuses the session for its expiry, or reports that it is not active after it was
activated. -/
def Refuses (db : Db) (row : Session) : (op : Operation) → (now : Time) →
    Except RegistryError (Except RegistryError op.Answer) → Prop
  | .authenticate request, now, answer => request.tokenDigest = row.tokenDigest ∧
      row.expiresAtMS ≤ max db.metadata.wallHighWaterMS (unixMilli now) ∧
      authenticate request now db = .error .sessionNotFound ∧ answer = .error .sessionNotFound
  | .isActive key, _, answer => key = row.key ∧ row.state ≠ .pending ∧ row.state ≠ .abandoned ∧
      answer = .ok (.ok false)
  | _, _, _ => False

/-- The call accepts the session. -/
def Accepts (key : SessionKey) : (op : Operation) →
    Except RegistryError (Except RegistryError op.Answer) → Prop
  | .authenticate _, answer => ∃ session : ActiveSession, answer = .ok (.ok session) ∧
      key = ⟨session.tenantID, session.participantInstanceID, session.sessionEpoch⟩
  | .isActive key', answer => key' = key ∧ answer = .ok (.ok true)
  | _, _ => False

/-- When the clock of an `Authenticate` has reached the expiry of the session with its token, the
stored high-water has. -/
def ExpiryObserved (db : Db) (call : Call) : Prop :=
  ∀ request, call.op = .authenticate request → ∀ row ∈ db.sessions,
    row.tokenDigest = request.tokenDigest → row.expiresAtMS ≤ unixMilli call.now →
    row.expiresAtMS ≤ db.metadata.wallHighWaterMS

/-! ## Sessions that are never accepted -/

/-- The session is over: it is in a final state, or the stored high-water has reached its expiry. -/
def Over (db : Db) (key : SessionKey) : Prop := ∃ row ∈ db.sessions, row.key = key ∧
    (row.state.ended = true ∨ row.expiresAtMS ≤ db.metadata.wallHighWaterMS)

section
variable {now : Time} {db db' : Db} {key : SessionKey}

variable {row : Session} {op : Operation}

theorem Session.hasKey_iff : row.hasKey key ↔ row.key = key := by
  simp only [Session.hasKey, Session.key, Bool.and_eq_true, beq_iff_eq]
  constructor
  · rintro ⟨⟨h1, h2⟩, h3⟩
    rw [h1, h2, h3]
  · rintro rfl
    exact ⟨⟨rfl, rfl⟩, rfl⟩

/-- The key of a session determines its row. -/
theorem SoundSessions.eq_of_key (h : SoundSessions db) {row' : Session} (hrow : row ∈ db.sessions)
    (hrow' : row' ∈ db.sessions) (hkey : row.key = row'.key) : row = row' :=
  List.inj_on_of_nodup_map h.participants hrow hrow'
    (congrArg SessionKey.participantInstanceID hkey)

/-- A session that is over stays over. -/
theorem Over.run {answer : Except RegistryError op.Answer} (h : Over db key)
    (hrun : op.run now db = .ok (answer, db')) : Over db' key := by
  obtain ⟨row, hrow, hkey, hover⟩ := h
  obtain ⟨row', hrow', hlater⟩ := (run_sessions hrun).later hrow
  have hres := hlater.reservation
  refine ⟨row', hrow', (congrArg Session.key hres).trans hkey, ?_⟩
  rcases hover with hended | hexpired
  · rw [hlater.ended hended]
    exact .inl hended
  · have hexpires : row'.reservation.expiresAtMS = row.reservation.expiresAtMS :=
      congrArg Session.expiresAtMS hres
    exact .inr (hexpires.trans_le (hexpired.trans (run_effect hrun).highWater))

theorem Over.attempt {answer : Except RegistryError (Except RegistryError op.Answer)}
    (h : Over db key) (hcall : Attempt (op.run now) db answer db') : Over db' key := by
  rcases hcall.cases with rfl | ⟨a, hrun⟩
  · exact h
  · exact h.run hrun

theorem SoundSessions.attempt {answer : Except RegistryError (Except RegistryError op.Answer)}
    (h : SoundSessions db) (hcall : Attempt (op.run now) db answer db') : SoundSessions db' := by
  rcases hcall.cases with rfl | ⟨a, hrun⟩
  · exact h
  · exact h.effect (run_sessions hrun)

variable {allowed : Db → Call → Prop} {calls : List Call}

theorem Over.along (h : Over db key) (hrun : Run allowed db calls db') : Over db' key := by
  induction hrun with
  | nil => exact h
  | snoc _ _ hcall ih => exact ih.attempt hcall

theorem SoundSessions.along (h : SoundSessions db) (hrun : Run allowed db calls db') :
    SoundSessions db' := by
  induction hrun with
  | nil => exact h
  | snoc _ _ hcall ih => exact ih.attempt hcall

/-- What an `Authenticate` that goes through has found. -/
theorem authenticate_ok {request : AuthenticationReservation} {session : ActiveSession}
    (h : authenticate request now db = .ok (.ok session, db')) :
    ∃ row ∈ db.sessions, row.tokenDigest = request.tokenDigest ∧ row.state = .active ∧
      max db.metadata.wallHighWaterMS (unixMilli now) < row.expiresAtMS ∧
      row.dpopThumbprint = request.dpopThumbprint ∧ session = row.active := by
  obtain ⟨-, h⟩ := ensure_bind.1 h
  obtain ⟨-, ⟨h, -⟩ | ⟨nowMS, a, rfl, ha, hbody⟩⟩ := withClock_ok h
  · cases h
  · obtain rfl := Except.ok.inj ha
    obtain ⟨row, hfind, hbody⟩ := required_bind.1 hbody
    obtain ⟨hthumb, hbody⟩ := ensure_bind.1 hbody
    obtain ⟨db₁, -, hbody⟩ := bind_ok.1 hbody
    cases hbody
    have hp := List.find?_some hfind
    simp only [Bool.and_eq_true, beq_iff_eq, decide_eq_true_eq] at hp hthumb
    exact ⟨row, List.mem_of_find?_eq_some hfind, hp.1.1, hp.1.2, hp.2, hthumb, rfl⟩

/-- What an `IsActive` answers of a session, and what becomes of it. -/
theorem isActive_ok {answer : Bool} (h : isActive key now db = .ok (.ok answer, db'))
    (hs : SoundSessions db) (hrow : row ∈ db.sessions) (hkey : row.key = key) :
    (answer ∧ row.state = .active ∧
      max db.metadata.wallHighWaterMS (unixMilli now) < row.expiresAtMS) ∨
    (answer = false ∧ row.state ≠ .active ∧ db'.sessions = db.sessions) ∨
    (answer = false ∧ row.state = .active ∧ { row with state := .expired } ∈ db'.sessions) := by
  obtain ⟨-, h⟩ := ensure_bind.1 h
  obtain ⟨-, ⟨h, -⟩ | ⟨nowMS, a, rfl, ha, hbody⟩⟩ := withClock_ok h
  · cases h
  obtain rfl := Except.ok.inj ha
  obtain ⟨found, hfind, hbody⟩ := required_bind.1 hbody
  have hfound : found ∈ db.sessions := List.mem_of_find?_eq_some hfind
  have hfoundKey : found.hasKey key = true :=
    List.find?_some (p := fun row : Session => row.hasKey key) hfind
  obtain rfl := hs.eq_of_key hfound hrow ((Session.hasKey_iff.1 hfoundKey).trans hkey.symm)
  split at hbody
  · next hexpired =>
    simp only [Bool.and_eq_true, beq_iff_eq, decide_eq_true_eq] at hexpired
    obtain ⟨⟨rows, db₁⟩, hupdate, hbody⟩ := bind_ok.1 hbody
    obtain ⟨-, hupdate⟩ := ensure_bind.1 hupdate
    cases hupdate
    cases hbody
    refine .inr (.inr ⟨rfl, hexpired.1, List.mem_map.2 ⟨found, hrow, ?_⟩⟩)
    rw [if_pos (by simp [Session.hasKey_iff.2 hkey, hexpired.1])]
  · next hnot =>
    cases hbody
    cases hactive : found.state == .active with
    | false => exact .inr (.inl ⟨rfl, by simpa using hactive, rfl⟩)
    | true =>
      rw [hactive] at hnot
      exact .inl ⟨rfl, by simpa using hactive, by simpa using hnot⟩

/-- A session that is over is not accepted. -/
theorem Over.not_accepts (h : Over db key) (hs : SoundSessions db)
    {answer : Except RegistryError (Except RegistryError op.Answer)}
    (hcall : Attempt (op.run now) db answer db') : ¬ Accepts key op answer := by
  obtain ⟨row, hrow, hkey, hover⟩ := h
  have absurd_active (hactive : row.state = .active)
      (hlt : max db.metadata.wallHighWaterMS (unixMilli now) < row.expiresAtMS) : False := by
    rcases hover with hended | hexpired
    · rw [hactive] at hended
      cases hended
    · exact absurd hexpired (not_le.2 ((le_max_left _ _).trans_lt hlt))
  intro haccepts
  cases op with
  | authenticate request =>
    obtain ⟨session, rfl, hsession⟩ := haccepts
    obtain ⟨row', hrow', -, hactive, hlt, -, rfl⟩ := authenticate_ok hcall.ok
    obtain rfl := hs.eq_of_key hrow' hrow (hsession.symm.trans hkey.symm)
    exact absurd_active hactive hlt
  | isActive key' =>
    obtain ⟨rfl, rfl⟩ := haccepts
    rcases isActive_ok hcall.ok hs hrow hkey with ⟨-, hactive, hlt⟩ | ⟨h, -⟩ | ⟨h, -⟩
    · exact absurd_active hactive hlt
    · cases h
    · cases h
  | _ => exact haccepts

/-- A session that is refused is over. -/
theorem Refuses.over {answer : Except RegistryError (Except RegistryError op.Answer)}
    (h : Refuses db row op now answer) (hs : SoundSessions db) (hrow : row ∈ db.sessions)
    (hobserved : ExpiryObserved db ⟨op, now⟩) (hcall : Attempt (op.run now) db answer db') :
    Over db' row.key := by
  cases op with
  | authenticate request =>
    obtain ⟨htoken, heffective, -, -⟩ := h
    have hexpired : row.expiresAtMS ≤ db.metadata.wallHighWaterMS :=
      (le_max_iff.1 heffective).elim id (hobserved request rfl row hrow htoken.symm)
    exact Over.attempt ⟨row, hrow, rfl, .inr hexpired⟩ hcall
  | isActive key =>
    obtain ⟨rfl, hpending, habandoned, rfl⟩ := h
    rcases isActive_ok hcall.ok hs hrow rfl with ⟨h, -⟩ | ⟨-, hstate, -⟩ | ⟨-, -, hexpired⟩
    · cases h
    · refine Over.attempt ⟨row, hrow, rfl, .inl ?_⟩ hcall
      cases hst : row.state <;> simp_all [SessionState.ended]
    · exact ⟨_, hexpired, rfl, .inl rfl⟩
  | _ => exact h.elim

end

/-- **An expired session stays expired.** In every run in which the stored high-water has reached
the expiry of a session whenever the clock of an `Authenticate` with its token has: once an
`Authenticate` has refused a session for its expiry, or an `IsActive` has reported one as inactive
that was activated, no later call accepts it. -/
theorem expired_stays_expired {databaseID : String} {nowMS : Int} {before after : List Call}
    (call call' : Call) {db₁ db₂ db₃ db₄ : Db}
    {answer : Except RegistryError (Except RegistryError call.op.Answer)}
    {answer' : Except RegistryError (Except RegistryError call'.op.Answer)} {row : Session}
    (hbefore : Run ExpiryObserved (created databaseID nowMS) before db₁)
    (hobserved : ExpiryObserved db₁ call) (hcall : Attempt (call.op.run call.now) db₁ answer db₂)
    (hrow : row ∈ db₁.sessions) (hrefused : Refuses db₁ row call.op call.now answer)
    (hafter : Run ExpiryObserved db₂ after db₃)
    (hcall' : Attempt (call'.op.run call'.now) db₃ answer' db₄) :
    ¬ Accepts row.key call'.op answer' := by
  have hsound := (SoundSessions.created databaseID nowMS).along hbefore
  have hover := hrefused.over hsound hrow hobserved hcall
  exact (hover.along hafter).not_accepts ((hsound.attempt hcall).along hafter) hcall'

/-! ## A session that expires at ten seconds -/

/-- The digest of the session's token, and the thumbprint of its key. -/
def expiryToken : Digest := sampleDigest

/-- The reservation of the session at one second. -/
def expiryReservation : BootstrapReservation where
  session := {
    tenantID := "t", principalID := samplePrincipal,
    participantInstanceID := "01980000-0000-7000-8000-000000000001", sessionEpoch := 0,
    tokenDigest := expiryToken, dpopThumbprint := expiryToken, issuedAt := ofUnixMilli 1000,
    expiresAt := ofUnixMilli 10000,
    bootstrapOperationID := "01980000-0000-7000-8000-000000000002" }
  proofJTI := "aaaaaaaaaaaaaaaa"
  proofIAT := ofUnixMilli 1000

/-- An authentication with the session's token. -/
def expiryAuthentication : AuthenticationReservation where
  tokenDigest := expiryToken
  dpopThumbprint := expiryToken
  proofJTI := "bbbbbbbbbbbbbbbb"
  proofIAT := ofUnixMilli 1000

/-- The row of the session. -/
def expirySession : Session := pendingRow { expiryReservation.session with sessionEpoch := 1 }

/-- The row of the activated session. -/
def activeSession : Session :=
  { expirySession with state := .active, activationReceipt := some "r" }

/-- The proof of the reservation. -/
def expiryProof : ProofReplay :=
  proofRow expiryToken "aaaaaaaaaaaaaaaa" .bootstrap (ofUnixMilli 1000)
    "01980000-0000-7000-8000-000000000001"

/-- The registry with the session. -/
def expiryRegistry (highWaterMS : Int) (row : Session) (proofs : List ProofReplay) : Db where
  metadata := ⟨"01980000-0000-7000-8000-000000000000", highWaterMS, .admitted, none⟩
  principalEpochs := [⟨"t", samplePrincipal, 1⟩]
  sessions := [row]
  proofReplays := proofs
  restoreEpochFloors := []

/-- The calls that make the session. -/
def expiryCalls : List Call := [⟨.reserveBootstrap expiryReservation, ofUnixMilli 1000⟩,
    ⟨.activateBootstrap "01980000-0000-7000-8000-000000000002" "r", ofUnixMilli 1000⟩]

theorem run_expiryReservation : (Operation.reserveBootstrap expiryReservation).run
    (ofUnixMilli 1000) (created "01980000-0000-7000-8000-000000000000" 1000) =
      .ok (.ok { expiryReservation.session with sessionEpoch := 1 },
        expiryRegistry 1000 expirySession [expiryProof]) := by
  rfl

/-- The session is made in a new database. -/
theorem expiryCalls_run {allowed : Db → Call → Prop}
    (hallowed : ∀ db, ∀ call ∈ expiryCalls, allowed db call) :
    Run allowed (created "01980000-0000-7000-8000-000000000000" 1000) expiryCalls
      (expiryRegistry 1000 activeSession [expiryProof]) := by
  have hactivate : (Operation.activateBootstrap "01980000-0000-7000-8000-000000000002" "r").run
      (ofUnixMilli 1000) (expiryRegistry 1000 expirySession [expiryProof]) =
      .ok (.ok activeSession.active, expiryRegistry 1000 activeSession [expiryProof]) := by
    rfl
  have h₁ := (Run.nil : Run allowed _ _ _).committed (hallowed _ _ (by simp [expiryCalls]))
    run_expiryReservation
  exact h₁.committed (hallowed _ _ (by simp [expiryCalls])) hactivate

/-- The session that `IsActive` finds expired at ten seconds is refused at nine. -/
theorem expired_stays_expired_inactive : ¬ Accepts activeSession.key
    (.authenticate expiryAuthentication) (.error .sessionNotFound) := by
  have hinactive : (Operation.isActive activeSession.key).run (ofUnixMilli 10000)
      (expiryRegistry 1000 activeSession [expiryProof]) =
      .ok (.ok false, expiryRegistry 10000 { activeSession with state := .expired }
        [expiryProof]) := by
    rfl
  have hobserved {db : Db} {op : Operation} {now : Time} (h : ∀ r, op ≠ .authenticate r) :
      ExpiryObserved db ⟨op, now⟩ := fun request hop => absurd hop (h request)
  refine expired_stays_expired ⟨.isActive activeSession.key, ofUnixMilli 10000⟩
    ⟨.authenticate expiryAuthentication, ofUnixMilli 9000⟩
    (expiryCalls_run fun db call hcall => ?_) (hobserved (by simp)) (.committed hinactive)
    List.mem_cons_self ⟨rfl, by decide, by decide, rfl⟩ .nil
    (.rolledBack RegistryError.sessionNotFound)
  simp only [expiryCalls, List.mem_cons, List.not_mem_nil, or_false] at hcall
  rcases hcall with rfl | rfl <;> exact hobserved (by simp)

/-- A session that `Authenticate` refuses for its expiry at ten seconds is accepted by an
`Authenticate` at nine seconds. -/
theorem authenticate_after_expiry : ¬ ∀ (databaseID : String) (nowMS : Int)
    (before after : List Call) (call call' : Call) (db₁ db₂ db₃ db₄ : Db)
    (answer : Except RegistryError (Except RegistryError call.op.Answer))
    (answer' : Except RegistryError (Except RegistryError call'.op.Answer)) (row : Session),
    Run (fun _ _ => True) (created databaseID nowMS) before db₁ →
    Attempt (call.op.run call.now) db₁ answer db₂ → row ∈ db₁.sessions →
    Refuses db₁ row call.op call.now answer → Run (fun _ _ => True) db₂ after db₃ →
    Attempt (call'.op.run call'.now) db₃ answer' db₄ → ¬ Accepts row.key call'.op answer' := by
  intro never
  have hrefused : authenticate expiryAuthentication (ofUnixMilli 10000)
      (expiryRegistry 1000 activeSession [expiryProof]) = .error .sessionNotFound := by
    rfl
  have haccepted : (Operation.authenticate expiryAuthentication).run (ofUnixMilli 9000)
      (expiryRegistry 1000 activeSession [expiryProof]) =
      .ok (.ok activeSession.active, expiryRegistry 9000 activeSession [expiryProof,
        proofRow expiryToken "bbbbbbbbbbbbbbbb" .authentication (ofUnixMilli 1000)
          "01980000-0000-7000-8000-000000000001"]) := by
    rfl
  exact never _ _ _ _ ⟨.authenticate expiryAuthentication, ofUnixMilli 10000⟩
    ⟨.authenticate expiryAuthentication, ofUnixMilli 9000⟩ _ _ _ _
      (.error RegistryError.sessionNotFound) _
    activeSession (expiryCalls_run fun _ _ _ => trivial) (.rolledBack _) List.mem_cons_self
    ⟨rfl, by decide, hrefused, rfl⟩ .nil (.committed haccepted) ⟨_, rfl, rfl⟩

/-- **A session that is over is never accepted again**: once it was revoked or abandoned, or the
stored high-water has reached its expiry, in every run, whatever the clocks read. -/
theorem over_never_accepted {allowed : Db → Call → Prop} {databaseID : String} {nowMS : Int}
    {before after : List Call} {db db' db'' : Db} {key : SessionKey} (call : Call)
    {answer : Except RegistryError (Except RegistryError call.op.Answer)}
    (hbefore : Run allowed (created databaseID nowMS) before db) (hover : Over db key)
    (hafter : Run allowed db after db')
    (hcall : Attempt (call.op.run call.now) db' answer db'') : ¬ Accepts key call.op answer := by
  have hsound := (SoundSessions.created databaseID nowMS).along hbefore
  exact (hover.along hafter).not_accepts (hsound.along hafter) hcall

/-- The session that `IsActive` finds expired at ten seconds is not active at nine. -/
theorem over_never_accepted_expired :
    ¬ Accepts activeSession.key (.isActive activeSession.key) (.ok (.ok false)) := by
  have hrun : Run (fun _ _ => True) _ _ _ := (expiryCalls_run fun _ _ _ => trivial).committed
    trivial (rfl : (Operation.isActive activeSession.key).run (ofUnixMilli 10000) _ = _)
  exact over_never_accepted ⟨.isActive activeSession.key, ofUnixMilli 9000⟩ hrun
    ⟨_, List.mem_cons_self, rfl, .inl rfl⟩ .nil (.committed rfl)

end YukhCoordination.Relay.Identity
