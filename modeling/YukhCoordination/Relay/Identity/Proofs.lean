import YukhCoordination.Relay.Identity.Provider

/-!
# Single use of a proof

A call that reserves a verified proof late can find its row cleaned up (`authenticate_twice`).
-/

namespace YukhCoordination.Relay.Identity

open Transaction Interleave
open Coordination (Time second millisecond)
open Audit (Digest)

/-! ## Runs -/

/-- A call of the provider. -/
abbrev CallId := Nat

/-- The registry, and the reservations that calls have committed: the call, and the key thumbprint
and the `jti` of its proof. -/
structure World where
  db : Db
  reserved : List (CallId × Digest × String)

/-- The state after a transaction of call `i`. -/
def World.commit (w : World) (i : CallId) (op : Operation) (answer : Except RegistryError op.Answer)
    (db : Db) : World where
  db := db
  reserved :=
    match op.proof?, answer with
    | some (thumbprint, jti, _), .ok _ => w.reserved ++ [(i, thumbprint, jti)]
    | _, _ => w.reserved

/-- The transaction of call `i` that reads `now` from the clock. -/
def World.run (i : CallId) (op : Operation) (now : Time) (w : World) :
    Except RegistryError (Except RegistryError op.Answer × World) := do
  let (answer, db) ← op.run now w.db
  return (answer, w.commit i op answer db)

/-- What the caller of a transaction is told. -/
def told {α : Type} : Except RegistryError (Except RegistryError α) → Except RegistryError α
  | .ok answer => answer
  | .error e => .error e

/-- The answers to the requests of call `i`. The calls of the registry are those that `allowed`
admits, at any reading of the clock. -/
def sem (allowed : Db → Call → Prop) : Sem port CallId World := fun i r w ans w' =>
  match r, ans with
  | .registry op, ans => ∃ now answer, allowed w.db ⟨op, now⟩ ∧
      Attempt (World.run i op now) w answer w' ∧ ans = told answer
  | _, _ => w' = w

/-- What else happens to the registry: restarts, revocations, expiries and the other calls that
reserve no proof. -/
def Others (w w' : World) : Prop :=
  ∃ (op : Operation) (now : Time) (answer : Except RegistryError (Except RegistryError op.Answer)),
    op.proof? = none ∧ Attempt (op.run now) w.db answer w'.db ∧ w'.reserved = w.reserved

/-- The runs of the provider over a registry. -/
abbrev Reach (lib : Library) (allowed : Db → Call → Prop) (db : Db)
    (p : Pool port CallId Invocation Result World) : Prop :=
  Pool.Reach (sem allowed) Others (body lib) ⟨db, []⟩ p

/-- The proof that a call presents: its key thumbprint and its `jti`. -/
def Invocation.presents (lib : Library) : Invocation → Option (Digest × String)
  | .bootstrap material | .authenticate material =>
    (lib.parseSigned material.proof).map fun signed => (signed.thumbprint, signed.jti)
  | .cleanupProofs => none

/-- The call has been accepted. -/
def Result.Accepted : Result → Prop
  | .bootstrap result => ∃ session, result = .ok session
  | .authenticate result => ∃ identity, result = .ok identity
  | .cleanupProofs _ => False

/-- A proof has the `iat` of its key and `jti`, and it is reserved before the end of its
retention. -/
def Timely (issuedAt : Digest → String → Time) (db : Db) (call : Call) : Prop :=
  ∀ thumbprint jti iat, call.op.proof? = some (thumbprint, jti, iat) →
    iat = issuedAt thumbprint jti ∧
    max db.metadata.wallHighWaterMS (unixMilli call.now) ≤ retainUntil iat

/-! ## The stored proofs -/

/-- No proof has been reserved twice, and a reserved proof is still stored or its retention has
ended. -/
structure Unique (issuedAt : Digest → String → Time) (w : World) : Prop where
  nodup : (w.reserved.map (·.2)).Nodup
  stored : ∀ key ∈ w.reserved.map (·.2),
    (∃ row ∈ w.db.proofReplays, (row.jwkThumbprint, row.proofJTI) = key ∧
      row.retainUntilMS = retainUntil (issuedAt key.1 key.2)) ∨
    retainUntil (issuedAt key.1 key.2) < w.db.metadata.wallHighWaterMS

section
variable {issuedAt : Digest → String → Time} {w w' : World} {i : CallId} {op : Operation}
  {now : Time} {db : Db}

theorem World.run_ok {answer : Except RegistryError op.Answer}
    (h : w.run i op now = .ok (answer, w')) :
    op.run now w.db = .ok (answer, w'.db) ∧ w' = w.commit i op answer w'.db := by
  obtain ⟨⟨answer', db⟩, hrun, h⟩ := bind_ok.1 h
  cases h
  exact ⟨hrun, rfl⟩

/-- The transactions of the registry keep what is stored of the reserved proofs. -/
theorem Unique.keep (h : Unique issuedAt w) {answer : Except RegistryError op.Answer}
    (heffect : Effect now w.db db op answer) :
    ∀ key ∈ w.reserved.map (·.2),
      (∃ row ∈ db.proofReplays, (row.jwkThumbprint, row.proofJTI) = key ∧
        row.retainUntilMS = retainUntil (issuedAt key.1 key.2)) ∨
      retainUntil (issuedAt key.1 key.2) < db.metadata.wallHighWaterMS := by
  intro key hkey
  rcases h.stored key hkey with ⟨row, hrow, hrowkey, hretain⟩ | hlapsed
  · cases heffect.proofs with
    | kept _ hproofs => exact .inl ⟨row, by rw [hproofs]; exact hrow, hrowkey, hretain⟩
    | reserved _ _ _ _ hproofs =>
      exact .inl ⟨row, by rw [hproofs]; exact List.mem_append_left _ hrow, hrowkey, hretain⟩
    | cleaned hcleaned =>
      rcases hcleaned row hrow with hrow | hlapsed
      · exact .inl ⟨row, hrow, hrowkey, hretain⟩
      · exact .inr (hretain ▸ hlapsed)
  · exact .inr (lt_of_lt_of_le hlapsed heffect.highWater)

/-- A timely reservation is one of a proof that has not been reserved. -/
theorem Unique.commit (h : Unique issuedAt w) {answer : Except RegistryError op.Answer}
    (htimely : Timely issuedAt w.db ⟨op, now⟩) (hrun : op.run now w.db = .ok (answer, db)) :
    Unique issuedAt (w.commit i op answer db) := by
  have heffect := run_effect hrun
  have hkeep := h.keep heffect
  cases heffect.proofs with
  | kept hanswer =>
    have hreserved : (w.commit i op answer db).reserved = w.reserved := by
      unfold World.commit
      cases hproof : op.proof? with
      | none => rfl
      | some proof =>
        obtain ⟨e, rfl⟩ := hanswer (by rw [hproof]; rfl)
        rfl
    exact ⟨by rw [hreserved]; exact h.nodup, by rw [hreserved]; exact hkeep⟩
  | cleaned => exact ⟨h.nodup, hkeep⟩
  | @reserved _ a thumbprint jti iat row hproof hrowkey hretain hnew hproofs =>
    obtain ⟨rfl, hwindow⟩ := htimely thumbprint jti iat hproof
    have hreserved : ((w.commit i op (.ok a) db).reserved.map (·.2)) =
        w.reserved.map (·.2) ++ [(thumbprint, jti)] := by
      simp [World.commit, hproof]
    have hfresh : (thumbprint, jti) ∉ w.reserved.map (·.2) := by
      intro hmem
      rcases h.stored _ hmem with ⟨other, hother, hkey, -⟩ | hlapsed
      · exact hnew other hother hkey
      · exact absurd hwindow (not_le.2 (lt_of_lt_of_le hlapsed (le_max_left _ _)))
    refine ⟨?_, ?_⟩
    · rw [hreserved, List.nodup_append]
      refine ⟨h.nodup, List.nodup_singleton _, fun key hkey key' hkey' heq => ?_⟩
      obtain rfl := List.mem_singleton.1 hkey'
      exact hfresh (heq ▸ hkey)
    · rw [hreserved]
      intro key hkey
      rcases List.mem_append.1 hkey with hkey | hkey
      · exact hkeep key hkey
      · obtain rfl := List.mem_singleton.1 hkey
        exact .inl ⟨row, by rw [show (w.commit i op (.ok a) db).db = db from rfl, hproofs]; simp,
          hrowkey, hretain⟩

/-- A request of a call keeps the reservations unique. -/
theorem Unique.sem (h : Unique issuedAt w) {r : Request} {ans : r.Answer}
    (hs : sem (Timely issuedAt) i r w ans w') : Unique issuedAt w' := by
  cases r with
  | registry op =>
    obtain ⟨now, answer, htimely, hattempt, -⟩ := hs
    rcases hattempt.cases with rfl | ⟨result, hrun⟩
    · exact h
    · obtain ⟨hrun, hcommit⟩ := World.run_ok hrun
      rw [hcommit]
      exact h.commit htimely hrun
  | newID | now | random | verifyExternalToken | record =>
    cases hs
    exact h

/-- The other calls of the registry keep the reservations unique. -/
theorem Unique.others (h : Unique issuedAt w) (hs : Others w w') : Unique issuedAt w' := by
  obtain ⟨op, now, answer, -, hattempt, hreserved⟩ := hs
  refine ⟨by rw [hreserved]; exact h.nodup, ?_⟩
  rw [hreserved]
  rcases hattempt.cases with hdb | ⟨result, hrun⟩
  · rw [hdb]
    exact h.stored
  · exact h.keep (run_effect hrun)

end

/-! ## Accepted calls -/

/-- The reservations that have been made stay. -/
def Grows (w w' : World) : Prop := ∀ entry ∈ w.reserved, entry ∈ w'.reserved

section
variable {allowed : Db → Call → Prop} {i : CallId} {w w' : World}

theorem World.commit_grows (w : World) (i : CallId) (op : Operation)
    (answer : Except RegistryError op.Answer) (db : Db) : Grows w (w.commit i op answer db) := by
  intro entry hentry
  unfold World.commit
  split
  · exact List.mem_append_left _ hentry
  · exact hentry

theorem sem_grows {r : Request} {ans : r.Answer} (h : sem allowed i r w ans w') : Grows w w' := by
  cases r with
  | registry op =>
    obtain ⟨now, answer, -, hattempt, -⟩ := h
    rcases hattempt.cases with rfl | ⟨result, hrun⟩
    · exact fun _ => id
    · rw [(World.run_ok hrun).2]
      exact w.commit_grows i op result _
  | newID | now | random | verifyExternalToken | record =>
    cases h
    exact fun _ => id

/-- A call that is told of a reservation has committed it. -/
theorem sem_reserved {op : Operation} {a : op.Answer} {thumbprint : Digest} {jti : String}
    {iat : Time} (hop : op.proof? = some (thumbprint, jti, iat))
    (h : sem allowed i (.registry op) w (.ok a) w') : (i, thumbprint, jti) ∈ w'.reserved := by
  obtain ⟨now, answer, -, hattempt, htold⟩ := h
  cases hattempt with
  | rolledBack e | unacknowledged e hrun => cases htold
  | committed hrun =>
    cases htold
    rw [(World.run_ok hrun).2]
    simp [World.commit, hop]

/-- What a call relies on and gives: the reservations stay. -/
abbrev MeetsGrowing (allowed : Db → Call → Prop) (i : CallId) {α : Type} (post : α → World → Prop)
    (p : Proc α) (w : World) : Prop :=
  p.Meets (sem allowed i) (fun _ => True) Grows (fun t u => ∀ j, j ≠ i → Grows t u) post w

/-- Every program of the provider keeps the reservations. -/
theorem meetsGrowing_any {α : Type} {post : α → World → Prop} (hpost : ∀ a w, post a w)
    (p : Proc α) (w : World) : MeetsGrowing allowed i post p w := by
  induction p generalizing w with
  | done a => exact hpost a w
  | call r k ih => exact fun t _ _ ans u hu => ⟨trivial, fun _ _ => sem_grows hu, ih ans u⟩

/-- A request, and what comes after its answer. -/
theorem meetsGrowing_ask {α : Type} {post : α → World → Prop} {r : Request}
    {k : r.Answer → Proc α} (h : ∀ t ans u, Grows w t → sem allowed i r t ans u →
      MeetsGrowing allowed i post (k ans) u) : MeetsGrowing allowed i post (ask r >>= k) w :=
  Program.meets_ask_bind.2 fun t ht _ ans u hu =>
    ⟨trivial, fun _ _ => sem_grows hu, h t ans u ht hu⟩

/-- A part of a program whose result tells nothing, and what comes after it. -/
theorem meetsGrowing_bind {α β : Type} {post : α → World → Prop} {p : Proc β} {k : β → Proc α}
    (h : ∀ b u, MeetsGrowing allowed i post (k b) u) : MeetsGrowing allowed i post (p >>= k) w :=
  Program.meets_bind.2 (meetsGrowing_any (fun b u => h b u) p w)

end

section
variable {lib : Library} {material : Material} {allowed : Db → Call → Prop} {i : CallId}

/-- The proof that a call has verified is the one it presents. -/
theorem verify_ok {proof credential method targetURI : String} {now : Time} {verified : Proof}
    (h : verify lib proof credential method targetURI now = .ok verified) :
    (lib.parseSigned proof).map (fun signed => (signed.thumbprint, signed.jti)) =
      some (verified.jwkThumbprint, verified.jti) := by
  obtain ⟨-, h⟩ := ensure_bind.1 h
  obtain ⟨signed, hsigned, h⟩ := required_bind.1 h
  obtain ⟨-, h⟩ := ensure_bind.1 h
  obtain ⟨-, h⟩ := ensure_bind.1 h
  obtain ⟨-, h⟩ := ensure_bind.1 h
  obtain ⟨-, h⟩ := ensure_bind.1 h
  obtain ⟨-, h⟩ := ensure_bind.1 h
  obtain ⟨-, h⟩ := ensure_bind.1 h
  obtain ⟨-, h⟩ := ensure_bind.1 h
  cases h
  rw [hsigned]
  rfl

/-- A result that is only given to a call whose proof has been reserved. -/
def Reserving {α : Type} (i : CallId) (key : Digest × String) (result : Except PublicError α)
    (w : World) : Prop :=
  (∃ a, result = .ok a) → (i, key) ∈ w.reserved

theorem Reserving.error {α : Type} {key : Digest × String} {e : PublicError} {w : World} :
    Reserving i key (.error e : Except PublicError α) w := fun ⟨_, h⟩ => by cases h

/-- A call that goes on after its reservation has it reserved when it returns. -/
theorem meetsGrowing_reserved {α : Type} {key : Digest × String} {w : World}
    (h : (i, key) ∈ w.reserved) (p : Proc (Except PublicError α)) :
    MeetsGrowing allowed i (Reserving i key) p w := by
  induction p generalizing w with
  | done a => exact fun _ => h
  | call r k ih =>
    exact fun t ht _ ans u hu =>
      ⟨trivial, fun _ _ => sem_grows hu, ih ans (sem_grows hu _ (ht _ h))⟩

theorem bootstrapAttempts_meets {attemptID : String} {external : BootstrapIdentity}
    {issuedAt expiresAt : Time} (attempts : Nat) (w : World) :
    MeetsGrowing allowed i (Reserving i (external.dpopThumbprint, external.proofJTI))
      (bootstrapAttempts lib attemptID external issuedAt expiresAt attempts) w := by
  induction attempts generalizing w with
  | zero => exact meetsGrowing_bind fun e u => Reserving.error
  | succ attempts ih =>
    refine meetsGrowing_bind fun generated w => ?_
    cases generated with
    | none => exact meetsGrowing_bind fun e u => Reserving.error
    | some generated =>
      refine meetsGrowing_ask fun t reserved u _ hu => ?_
      cases reserved with
      | ok pending => exact meetsGrowing_reserved (sem_reserved rfl hu) _
      | error e =>
        cases e with
        | sessionConflict =>
          refine meetsGrowing_bind fun collisionID w => ?_
          cases collisionID with
          | none => exact Reserving.error
          | some collisionID =>
            refine meetsGrowing_bind fun recorded w => ?_
            cases recorded with
            | true => exact ih w
            | false => exact Reserving.error
        | invalid | unavailable | proofReplay | sessionNotFound | fenced | clockRollback
        | epochExhausted => exact meetsGrowing_bind fun e u => Reserving.error

theorem bootstrap_meets (w : World) : MeetsGrowing allowed i (fun result w =>
      (∃ session, result = .ok session) → ∃ key,
        (Invocation.bootstrap material).presents lib = some key ∧ (i, key) ∈ w.reserved)
    (bootstrap lib material) w := by
  refine meetsGrowing_bind fun attemptID w => ?_
  cases attemptID with
  | none => exact fun ⟨_, h⟩ => by cases h
  | some attemptID =>
    refine Program.meets_bind.2 (meetsGrowing_ask fun t now u _ _ => ?_)
    cases hverify : verify lib material.proof material.credential material.method
        material.targetURI now with
    | error e => exact meetsGrowing_bind fun e u => fun ⟨_, h⟩ => by cases h
    | ok proof =>
      refine meetsGrowing_ask fun t external u _ _ => ?_
      cases external with
      | error e => exact meetsGrowing_bind fun e u => fun ⟨_, h⟩ => by cases h
      | ok external =>
        dsimp only
        split
        · exact meetsGrowing_bind fun e u => fun ⟨_, h⟩ => by cases h
        · refine meetsGrowing_bind fun issuedAt u => ?_
          split
          · refine (bootstrapAttempts_meets 3 u).mono_post fun result w h hok => ?_
            exact ⟨_, verify_ok hverify, h hok⟩
          · exact meetsGrowing_bind fun e u => fun ⟨_, h⟩ => by cases h

theorem authenticateSession_meets (w : World) : MeetsGrowing allowed i (fun result w =>
      (∃ identity, result = .ok identity) → ∃ key,
        (Invocation.authenticate material).presents lib = some key ∧ (i, key) ∈ w.reserved)
    (authenticateSession lib material) w := by
  refine meetsGrowing_bind fun operationID w => ?_
  cases operationID with
  | none => exact fun ⟨_, h⟩ => by cases h
  | some operationID =>
    refine meetsGrowing_ask fun t now u _ _ => ?_
    cases hverify : verify lib material.proof material.credential material.method
        material.targetURI now with
    | error e => exact meetsGrowing_bind fun e u => fun ⟨_, h⟩ => by cases h
    | ok proof =>
      refine meetsGrowing_ask fun t active u _ hu => ?_
      cases active with
      | error e => exact meetsGrowing_bind fun e u => fun ⟨_, h⟩ => by cases h
      | ok active =>
        refine (meetsGrowing_reserved (sem_reserved rfl hu) _).mono_post fun result w h hok => ?_
        exact ⟨_, verify_ok hverify, h hok⟩

/-- The rely–guarantee argument: an accepted call has the proof it presents reserved. -/
def acceptedArgument (lib : Library) (allowed : Db → Call → Prop) :
    RelyGuarantee (sem allowed) Others (body lib) where
  inv _ := True
  rely _ := Grows
  fresh _ _ := True
  post i c a w := a.Accepted → ∃ key, c.presents lib = some key ∧ (i, key) ∈ w.reserved
  rely_refl _ _ := fun _ => id
  rely_trans _ _ _ _ h h' := fun entry hentry => h' entry (h entry hentry)
  env_inv _ _ _ _ := trivial
  env_rely _ _ _ _ := fun ⟨_, _, _, _, _, hreserved⟩ entry hentry => by rw [hreserved]; exact hentry
  fresh_stable _ _ _ _ _ := trivial
  post_stable _ _ _ _ _ _ hpost hgrows haccepted := by
    obtain ⟨key, hkey, hmem⟩ := hpost haccepted
    exact ⟨key, hkey, hgrows _ hmem⟩
  meets i c w _ _ := by
    cases c with
    | bootstrap material => exact Program.meets_bind.2 (bootstrap_meets w)
    | authenticate material => exact Program.meets_bind.2 (authenticateSession_meets w)
    | cleanupProofs => exact meetsGrowing_ask fun t ans u _ _ => False.elim

end

/-- Where the proofs of one key and one `jti` have one `iat`, and no proof is reserved after the
end of its retention, at most one call has a proof reserved, and at most one call that presents it
is accepted. -/
theorem reserved_unique (lib : Library) (issuedAt : Digest → String → Time) {db : Db}
    {p : Pool port CallId Invocation Result World} (hp : Reach lib (Timely issuedAt) db p)
    {i j : CallId} {key : Digest × String} :
    ((i, key) ∈ p.shared.reserved → (j, key) ∈ p.shared.reserved → i = j) ∧
      ∀ c c' a a', p.Returned i c a → a.Accepted → c.presents lib = some key →
        p.Returned j c' a' → a'.Accepted → c'.presents lib = some key → i = j := by
  have hunique : Unique issuedAt p.shared :=
    hp.invariant ⟨List.nodup_nil, fun _ h => absurd h List.not_mem_nil⟩
      (fun _ _ _ _ _ h hs => h.sem hs) (fun _ _ h hs => h.others hs)
  have hone : (i, key) ∈ p.shared.reserved → (j, key) ∈ p.shared.reserved → i = j := by
    intro hi hj
    exact congrArg Prod.fst (List.inj_on_of_nodup_map hunique.nodup hi hj rfl)
  have hreserved : ∀ {i : CallId} {c : Invocation} {a : Result}, p.Returned i c a → a.Accepted →
      c.presents lib = some key → (i, key) ∈ p.shared.reserved := by
    intro i c a hreturned haccepted hpresents
    obtain ⟨key', hkey', hmem⟩ := (acceptedArgument lib (Timely issuedAt)).returned trivial
      (fun _ => trivial) hp hreturned haccepted
    rw [hpresents, Option.some.injEq] at hkey'
    exact hkey' ▸ hmem
  exact ⟨hone, fun c c' a a' hi ha hc hj ha' hc' =>
    hone (hreserved hi ha hc) (hreserved hj ha' hc')⟩

/-! ## Runs on one proof -/

section
variable {allowed : Db → Call → Prop} {i : CallId} {now : Time} {w : World}

/-- A committed transaction of the registry answers a request. -/
theorem sem_committed {op : Operation} {a : op.Answer} {db : Db} (hallowed : allowed w.db ⟨op, now⟩)
    (h : op.run now w.db = .ok (.ok a, db)) :
    sem allowed i (.registry op) w (.ok a) (w.commit i op (.ok a) db) := by
  refine ⟨now, .ok (.ok a), hallowed, .committed ?_, rfl⟩
  rw [World.run, h]
  rfl

end

/-- A key thumbprint and the digest of a token. -/
def sampleDigest : Digest := ⟨List.replicate 32 1, List.length_replicate⟩

/-- The identifier of a participant and of the operations. -/
def sampleID : String := "01980000-0000-7000-8000-000000000000"

/-- Libraries that read every proof as one issued at the Unix epoch. -/
def sampleLibrary : Library where
  sha256 _ := sampleDigest
  parseSigned _ := some ⟨"ES256", "dpop+jwt", sampleDigest, "AAAAAAAAAAAAAAAA", "GET", "u",
    Audit.encodeDigest sampleDigest, 0⟩
  validPublicURI _ := true
  toUpper := id

/-- The material of a call of `Authenticate`. -/
def sampleMaterial : Material := ⟨"c", "p", "GET", "u"⟩

/-- The proof of the material. -/
def sampleProof : Proof := ⟨sampleDigest, "AAAAAAAAAAAAAAAA", ⟨0, true⟩⟩

/-- The active session of the material. -/
def sampleSession : Session where
  tenantID := "t"
  principalID := Audit.encodeDigest sampleDigest
  participantInstanceID := sampleID
  sessionEpoch := 1
  tokenDigest := sampleDigest
  dpopThumbprint := sampleDigest
  issuedAtMS := 0
  expiresAtMS := 900000
  state := .active
  bootstrapOperationID := sampleID
  activationReceipt := some "r"
  revokedAtMS := none
  revocationReason := none
  revocationAuthority := none
  revocationOperationID := none

/-- The registry with the session, with a high-water and stored proofs. -/
def sessionRegistry (highWaterMS : Int) (proofs : List ProofReplay) : Db where
  metadata := ⟨sampleID, highWaterMS, .admitted, none⟩
  principalEpochs := [⟨"t", Audit.encodeDigest sampleDigest, 1⟩]
  sessions := [sampleSession]
  proofReplays := proofs
  restoreEpochFloors := []

/-- The row of the proof. -/
def sampleRow : ProofReplay :=
  ⟨sampleDigest, "AAAAAAAAAAAAAAAA", .authentication, 0, 60001, sampleID⟩

/-- The proof is reserved in a registry that does not store it. -/
theorem authenticate_sampleProof : (Operation.authenticate
      (authenticationReservation sampleLibrary sampleMaterial sampleProof)).run (ofUnixMilli 60000)
      (sessionRegistry 0 []) = .ok (.ok sampleSession.active,
        sessionRegistry 60000 [sampleRow]) := by
  rfl

/-- What an accepted call of `Authenticate` with the material returns. -/
def sampleIdentity : Result :=
  .authenticate (.ok ⟨"t", Audit.encodeDigest sampleDigest, sampleID, 1⟩)

/-- A call that has verified the proof and reserves it in a registry that does not store it is
accepted. -/
theorem authenticateProof_sample {allowed : Db → Call → Prop} {i : CallId} {now : Time}
    {db db' : Db} {reserved : List (CallId × Digest × String)} (hallowed : allowed db ⟨.authenticate
      (authenticationReservation sampleLibrary sampleMaterial sampleProof), now⟩)
    (hrun : (Operation.authenticate (authenticationReservation sampleLibrary sampleMaterial
      sampleProof)).run now db = .ok (.ok sampleSession.active, db')) :
    (authenticateProof sampleLibrary sampleMaterial sampleID sampleProof >>= fun result =>
        pure (Result.authenticate result)).Exec (sem allowed i) ⟨db, reserved⟩ sampleIdentity
      ⟨db', reserved ++ [(i, sampleDigest, "AAAAAAAAAAAAAAAA")]⟩ := by
  refine Program.exec_call.2 ⟨.ok sampleSession.active, _,
    sem_committed (w := ⟨db, reserved⟩) hallowed hrun, ?_⟩
  refine Program.exec_call.2 ⟨ofUnixMilli 60000, _, rfl, ?_⟩
  exact Program.exec_call.2 ⟨some "receipt", _, rfl, .done⟩

/-- `Authenticate` with the material comes to the reservation of its proof. -/
theorem authenticateSession_sample {allowed : Db → Call → Prop} {i : CallId} {w : World} :
    (body sampleLibrary (.authenticate sampleMaterial)).Leads (sem allowed i) w
      (authenticateProof sampleLibrary sampleMaterial sampleID sampleProof >>= fun result =>
        pure (Result.authenticate result)) w := by
  refine .call (show sem allowed i .newID w (some sampleID) w from rfl) ?_
  exact .call (show sem allowed i .now w (ofUnixMilli 60000) w from rfl) .refl

/-- Two calls of `Authenticate` present a proof within its retention. The first is accepted, the
second is refused, and so is every other call that presents it. -/
theorem reserved_unique_sample : ∃ p : Pool port CallId Invocation Result World,
    Reach sampleLibrary (Timely fun _ _ => ⟨0, true⟩) (sessionRegistry 0 []) p ∧
      p.Returned 0 (.authenticate sampleMaterial) sampleIdentity ∧
      p.Returned 1 (.authenticate sampleMaterial) (.authenticate (.error .unauthenticated)) ∧
      ∀ j c a, p.Returned j c a → a.Accepted →
        c.presents sampleLibrary = some (sampleDigest, "AAAAAAAAAAAAAAAA") → 0 = j := by
  have htimely : ∀ db : Db, db.metadata.wallHighWaterMS ≤ 60000 → Timely (fun _ _ => ⟨0, true⟩) db
      ⟨.authenticate (authenticationReservation sampleLibrary sampleMaterial sampleProof),
        ofUnixMilli 60000⟩ := by
    rintro db hdb thumbprint jti iat ⟨⟩
    exact ⟨rfl, max_le (hdb.trans (by decide)) (by decide)⟩
  have h₀ : Reach sampleLibrary (Timely fun _ _ => ⟨0, true⟩) (sessionRegistry 0 [])
      (Pool.init ⟨sessionRegistry 0 [], []⟩) := .refl
  have h₁ := h₀.trans (Pool.Step.begin (i := 0) rfl (authenticateSession_sample.trans
    (authenticateProof_sample (htimely _ (by decide)) authenticate_sampleProof).leads))
  have hreplay : ∀ w : World, w.db = sessionRegistry 60000 [sampleRow] →
      (authenticateProof sampleLibrary sampleMaterial sampleID sampleProof).Exec
        (sem (Timely fun _ _ => ⟨0, true⟩) 1) w (.error .unauthenticated) w := by
    intro w hw
    refine Program.exec_call.2 ⟨.error .proofReplay, _,
      ⟨_, .error .proofReplay, htimely _ (hw ▸ le_rfl), .rolledBack _, rfl⟩, ?_⟩
    refine Program.exec_call.2 ⟨ofUnixMilli 60000, _, rfl, ?_⟩
    exact Program.exec_call.2 ⟨some "receipt", _, rfl, .done⟩
  have h₂ := h₁.trans (Pool.Step.begin (i := 1) rfl (authenticateSession_sample.trans
    ((hreplay _ rfl).bind (f := fun result => pure (Result.authenticate result)) .done).leads))
  refine ⟨_, h₂, rfl, rfl, fun j c a hj haccepted hc => ?_⟩
  exact (reserved_unique sampleLibrary _ h₂).2 _ c _ a rfl ⟨_, rfl⟩ rfl hj haccepted hc

/-- Two calls that present one proof are both accepted on a clock that never goes back: one
verifies the proof on the last instant of its window and reserves it a second later, when the row of
the other has been cleaned up. -/
theorem authenticate_twice : ¬ ∀ (lib : Library) (db : Db)
    (p : Pool port CallId Invocation Result World), Reach lib (fun _ _ => True) db p →
      ∀ (i j : CallId) (key : Digest × String) (c c' : Invocation) (a a' : Result),
        p.Returned i c a → a.Accepted → c.presents lib = some key →
        p.Returned j c' a' → a'.Accepted → c'.presents lib = some key → i = j := by
  intro unique
  have hcleanup : Operation.cleanupProofs.run (ofUnixMilli 61000)
      (sessionRegistry 60000 [sampleRow]) = .ok (.ok 1, sessionRegistry 61000 []) := by
    rfl
  have hlate : (Operation.authenticate (authenticationReservation sampleLibrary sampleMaterial
      sampleProof)).run (ofUnixMilli 61000) (sessionRegistry 61000 []) =
        .ok (.ok sampleSession.active, sessionRegistry 61000 [sampleRow]) := by
    rfl
  have h₀ : Reach sampleLibrary (fun _ _ => True) (sessionRegistry 0 [])
      (Pool.init ⟨sessionRegistry 0 [], []⟩) := .refl
  -- Call 0 verifies the proof; call 1 verifies and reserves it; the cleanup deletes its row.
  have h₁ := h₀.trans (Pool.Step.begin (i := 0) rfl authenticateSession_sample)
  have h₂ := h₁.trans (Pool.Step.begin (i := 1) rfl (authenticateSession_sample.trans
    (authenticateProof_sample trivial authenticate_sampleProof).leads))
  have h₃ := Pool.Reach.exec h₂ (i := 2) (c := .cleanupProofs) rfl
    (Program.exec_ask_bind.2 ⟨_, _, sem_committed trivial hcleanup, .done⟩)
  have h₄ := h₃.trans (Pool.Step.resume (i := 0) rfl (authenticateProof_sample trivial hlate).leads)
  exact absurd (unique _ _ _ h₄ 0 1 _ _ _ _ _ rfl ⟨_, rfl⟩ rfl rfl ⟨_, rfl⟩ rfl) (by decide)

end YukhCoordination.Relay.Identity
