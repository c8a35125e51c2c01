import YukhCoordination.PrimitivesStaging.Replay

/-!
# The bootstrap of a client session

The model of `internal/clientauth/bootstrap.go` over the database of `localcustody/store.go`. A
run can retire a signer that another run has used (`issuer_signer_retired`).
-/

namespace YukhCoordination.ClientAuth

open Transaction Interleave
open Coordination (Time second)
open Relay.Audit (Digest)
open PrimitivesStaging (validMillisecond ascii)

/-! ## Records and rows -/

/-- The errors of `internal/clientauth` and of the store. -/
inductive Failure where
  | invalidCredential
  | credentialStore
  | credentialMissing
  | credentialConflict
  | proofSigner
  | proofKeyMissing
  | externalToken
  | corrupt
  | encryptionLimit
  deriving DecidableEq, Repr

/-- `sanitizeStoreError`. -/
def sanitizeStoreError : Failure → Failure
  | .credentialMissing => .credentialMissing
  | .credentialConflict => .credentialConflict
  | _ => .credentialStore

/-- `sanitizeSignerError`. -/
def sanitizeSignerError : Failure → Failure
  | .proofKeyMissing => .proofKeyMissing
  | _ => .proofSigner

/-- `PublicP256JWK`. -/
structure PublicJWK where
  x : Digest
  y : Digest
  deriving DecidableEq

/-- `signer`. -/
structure Signer where
  reference : String
  profile : String
  jwk : PublicJWK
  deriving DecidableEq

/-- `IssuedSession`. -/
structure IssuedSession where
  participant : String
  epoch : Nat
  token : String
  issuedAt : Time
  expiresAt : Time
  deriving DecidableEq

/-- `SessionRecord`. -/
structure SessionRecord extends IssuedSession where
  proofKeyReference : String
  proofJWKThumbprint : Digest
  deriving DecidableEq

/-- `NewSessionRecord`. -/
def newSessionRecord (issued : IssuedSession) (reference : String) (thumbprint : Digest) :
    Option SessionRecord :=
  if Relay.Lifecycle.validUUIDv7 issued.participant && issued.epoch != 0 &&
      issued.epoch ≤ Relay.Identity.maxJSONSafeInt && issued.token.toList.length == 43 &&
      (Relay.Audit.decodeDigest issued.token).isSome && validMillisecond issued.issuedAt &&
      validMillisecond issued.expiresAt && issued.expiresAt.after issued.issuedAt &&
      issued.expiresAt.unixNano - issued.issuedAt.unixNano ≤ 900 * second && reference != "" &&
      reference.utf8ByteSize ≤ 1024 && ascii reference && thumbprint != .zero then
    some ⟨issued, reference, thumbprint⟩
  else none

/-- A row of `signers`. -/
structure SignerRow extends Signer where
  provisional : Bool
  deriving DecidableEq

/-- A row of `sessions`. -/
structure SessionRow where
  profile : String
  revision : String
  proofReference : String
  record : SessionRecord
  deriving DecidableEq

/-- The custody database. -/
structure Db where
  encryptions : Nat
  sessions : List SessionRow
  signers : List SignerRow
  deriving DecidableEq

/-- `keyReferencePrefix`. -/
def keyReferenceStart : String := "local-p256:"

/-- `validReference`. -/
def validReference (reference : String) : Bool :=
  keyReferenceStart.toList.isPrefixOf reference.toList && reference.toList.length == 47

/-- `maximumEncryptions`. -/
def maximumEncryptions : Nat := 4294967296

/-! ## The statements of the store -/

/-- The read of `Load`: the record and its revision. -/
def load (profile : String) (db : Db) : Except Failure (SessionRecord × String) :=
  match db.sessions.find? (·.profile == profile) with
  | none => .error .credentialMissing
  | some row =>
    if row.record.proofKeyReference == row.proofReference then .ok (row.record, row.revision)
    else .error .corrupt

/-- The write of a session: an insertion where none is expected, and otherwise an update of the
expected revision. `profile` is the primary key and `revision` is unique. -/
def writeSession (expected : Option String) (row : SessionRow) (sessions : List SessionRow) :
    Except Failure (List SessionRow) :=
  match expected with
  | none =>
    if sessions.any fun s => s.profile == row.profile || s.revision == row.revision then
      .error .credentialConflict
    else .ok (sessions ++ [row])
  | some value =>
    let matched (s : SessionRow) := s.profile == row.profile && s.revision == value
    if !sessions.any matched ||
        sessions.any fun s => s.profile != row.profile && s.revision == row.revision then
      .error .credentialConflict
    else .ok (sessions.map fun s => if matched s then row else s)

/-- The signer that `Save` binds: `WHERE profile = ? AND reference = ?`. -/
def SignerRow.isOf (profile reference : String) (s : SignerRow) : Bool :=
  s.profile == profile && s.reference == reference

/-- The transaction of `Save`. `reference` is the primary key of the signers, so the update of them
changes one row or none. -/
def save (profile : String) (expected : Option String) (revision : String) (record : SessionRecord)
    (db : Db) : Except Failure (String × Db) := do
  ensure (db.encryptions < maximumEncryptions) .encryptionLimit
  let sessions ← writeSession expected ⟨profile, revision, record.proofKeyReference, record⟩
    db.sessions
  ensure (db.signers.any (·.isOf profile record.proofKeyReference)) .credentialStore
  return (revision, ⟨db.encryptions + 1, sessions, db.signers.map fun s =>
    if s.isOf profile record.proofKeyReference then { s with provisional := false } else s⟩)

/-- The first read of `ProvisionP256`. -/
def selectSigner (profile : String) (db : Db) : Option String :=
  (db.signers.find? (·.profile == profile)).map (·.reference)

/-- The transaction of `ProvisionP256`: the signer, and whether it is a new one. An insertion that
violates a constraint is rolled back, and the signer of the profile is read. -/
def insertSigner (profile reference : String) (jwk : PublicJWK) (db : Db) :
    Except Failure ((String × Bool) × Db) := do
  ensure (db.encryptions < maximumEncryptions) .proofSigner
  if db.signers.any fun s => s.reference == reference || s.profile == profile then
    let existing ← required (selectSigner profile db) .proofSigner
    return ((existing, false), db)
  return ((reference, true), { db with
    encryptions := db.encryptions + 1, signers :=
      db.signers ++ [⟨⟨reference, profile, jwk⟩, true⟩] })

/-- The read of `Open`. -/
def openSigner (reference : String) (db : Db) : Except Failure Signer :=
  if !validReference reference then .error .proofSigner
  else match db.signers.find? (·.reference == reference) with
    | none => .error .proofKeyMissing
    | some row => .ok row.toSigner

/-- The statement of `Retire`. -/
def retire (reference : String) (db : Db) : Except Failure (Unit × Db) := do
  let doomed (s : SignerRow) : Bool := s.reference == reference && s.provisional &&
    !db.sessions.any (·.proofReference == reference)
  ensure (validReference reference && db.signers.any doomed) .proofSigner
  return ((), { db with signers := db.signers.filter (!doomed ·) })

/-! ## The bootstrap -/

/-- The requests of a run. -/
inductive Request where
  | now
  | load
  | selectSigner
  | insertSigner
  | openSigner (reference : String)
  | publicJWK (signer : Signer)
  | acquire (jwk : PublicJWK)
  | issue (reference : String)
  | save (expected : Option String) (record : SessionRecord)
  | retire (reference : String)

/-- The answers to the requests. A token is answered by its expiry. -/
abbrev Request.Answer : Request → Type
  | .now => Time
  | .load => Except Failure (SessionRecord × String)
  | .selectSigner => Except Failure (Option String)
  | .insertSigner => Except Failure (String × Bool)
  | .openSigner _ => Except Failure Signer
  | .publicJWK _ => Option PublicJWK
  | .acquire _ => Option Time
  | .issue _ => Option IssuedSession
  | .save .. => Except Failure String
  | .retire _ => Except Failure Unit

/-- The port of a run. -/
abbrev port : Port := ⟨Request, Request.Answer⟩

/-- A request of a run. -/
abbrev ask (r : Request) : Program port r.Answer := Program.ask (P := port) r

/-- The end of `ProvisionP256`. -/
def opened (reference : String) (created : Bool) :
    Program port (Except Failure (Signer × Bool)) := do
  match ← ask (.openSigner reference) with
  | .error e => return .error (if created then .proofSigner else e)
  | .ok signer => return .ok (signer, created)

/-- `ProvisionP256`. -/
def provisionP256 : Program port (Except Failure (Signer × Bool)) := do
  match ← ask .selectSigner with
  | .error _ => return .error .proofSigner
  | .ok (some existing) => opened existing false
  | .ok none =>
    match ← ask .insertSigner with
    | .error _ => return .error .proofSigner
    | .ok (reference, created) => opened reference created

/-- `cleanup`, and the error of the run. -/
def cleanup (signer : Signer) (created : Bool) (e : Failure) :
    Program port (Except Failure Unit) := do
  if created then
    let _ ← ask (.retire signer.reference)
  return .error e

/-- The check of the session that is stored after `Save`. -/
def verify (thumbprint : PublicJWK → Digest) (record : SessionRecord) :
    Program port (Except Failure Unit) := do
  match ← ask .load with
  | .error e => return .error (sanitizeStoreError e)
  | .ok (loaded, _) =>
    if loaded.proofKeyReference != record.proofKeyReference ||
        loaded.proofJWKThumbprint != record.proofJWKThumbprint ||
        loaded.participant != record.participant || loaded.epoch != record.epoch then
      return .error .credentialStore
    match ← ask (.openSigner loaded.proofKeyReference) with
    | .error _ => return .error .proofSigner
    | .ok signer =>
      match ← ask (.publicJWK signer) with
      | none => return .error .proofKeyMissing
      | some jwk =>
        if signer.reference != loaded.proofKeyReference ||
            thumbprint jwk != loaded.proofJWKThumbprint then return .error .proofKeyMissing
        return .ok ()

/-- What follows the relay exchange. -/
def store (thumbprint : PublicJWK → Digest) (expected : Option String) (signer : Signer)
    (jwk : PublicJWK) (issued : IssuedSession) : Program port (Except Failure Unit) := do
  match newSessionRecord issued signer.reference (thumbprint jwk) with
  | none => return .error .invalidCredential
  | some record =>
    match ← ask (.save expected record) with
    | .error e => return .error (sanitizeStoreError e)
    | .ok _ => verify thumbprint record

/-- What a run does with the signer that it has provisioned. -/
def exchange (thumbprint : PublicJWK → Digest) (expected : Option String) (signer : Signer)
    (created : Bool) : Program port (Except Failure Unit) := do
  match ← ask (.publicJWK signer) with
  | none => cleanup signer created .proofSigner
  | some jwk =>
    if signer.reference == "" then cleanup signer created .proofSigner
    else match ← ask (.acquire jwk) with
      | none => cleanup signer created .externalToken
      | some expiresAt =>
        if !expiresAt.after (← ask .now) then cleanup signer created .externalToken
        else match ← ask (.issue signer.reference) with
          | none => return .error .externalToken
          | some issued => store thumbprint expected signer jwk issued

/-- `Bootstrap` from `ProvisionP256` on. -/
def provision (thumbprint : PublicJWK → Digest) (expected : Option String) :
    Program port (Except Failure Unit) := do
  match ← provisionP256 with
  | .error e => return .error (sanitizeSignerError e)
  | .ok (signer, created) => exchange thumbprint expected signer created

/-- `Bootstrapper.Bootstrap`. -/
def bootstrap (thumbprint : PublicJWK → Digest) : Program port (Except Failure Unit) := do
  match ← ask .load with
  | .error .credentialMissing => provision thumbprint none
  | .error e => return .error (sanitizeStoreError e)
  | .ok (record, revision) =>
    if record.expiresAt.after (← ask .now) then return .error .credentialConflict
    else provision thumbprint (some revision)

/-! ## Runs -/

/-- The database, the signers that the issuer has been called with, and the runs that may still
retire the signer they have created. -/
structure World where
  db : Db
  issued : List String
  creating : List (Nat × String)

/-- Run `i` will not retire its signer. -/
def World.settle (i : Nat) (w : World) : World :=
  { w with creating := w.creating.filter (·.1 != i) }

/-- A read answers what is there, or fails. -/
def Reads {α : Type} (value ans : Except Failure α) : Prop :=
  ans = value ∨ ∃ e, e ≠ .credentialMissing ∧ ans = .error e

/-- The answers to the requests of run `i`. A transaction is committed, rolled back, or committed
and reported as failed; references and revisions come from the random source. -/
def sem (profile : String) : Sem port Nat World := fun i r w ans w' =>
  match r, ans with
  | .now, _ => w' = w
  | .load, ans => w' = w ∧ Reads (load profile w.db) ans
  | .selectSigner, ans => w' = w ∧ Reads (.ok (selectSigner profile w.db)) ans
  | .insertSigner, ans => ∃ reference jwk db, validReference reference = true ∧
    Attempt (insertSigner profile reference jwk) w.db ans db ∧ w' = { w with
      db := db, creating := match ans with
        | .ok (reference, true) => (i, reference) :: w.creating
        | _ => w.creating }
  | .openSigner reference, ans => Reads (openSigner reference w.db) ans ∧
    w' = if ans matches .ok _ then w else w.settle i
  | .publicJWK signer, ans => w' = w ∧ ∀ jwk ∈ ans, jwk = signer.jwk
  | .acquire _, _ => w' = w
  | .issue reference, _ => w' = { w.settle i with issued := reference :: w.issued }
  | .save expected record, ans => ∃ revision db,
    Attempt (save profile expected revision record) w.db ans db ∧ w' = { w with db := db }
  | .retire reference, ans => ∃ db,
    Attempt (retire reference) w.db ans db ∧ w' = { w.settle i with db := db }

/-- The signer that `ProvisionP256` finds. -/
def found : (r : Request) → r.Answer → Option String
  | .selectSigner, .ok existing => existing
  | .insertSigner, .ok (existing, false) => some existing
  | _, _ => none

/-- The answers where no signer is found that its run may still retire. -/
def careful (profile : String) : Sem port Nat World := fun i r w ans w' =>
  sem profile i r w ans w' ∧ ∀ reference ∈ found r ans, ∀ j, (j, reference) ∉ w.creating

/-- The runs of the bootstrap over a database, with the answers `answers` allows. -/
abbrev Reach (answers : Sem port Nat World) (thumbprint : PublicJWK → Digest) (db : Db)
    (p : Pool port Nat Unit (Except Failure Unit) World) : Prop :=
  Pool.Reach answers (fun _ _ => False) (fun _ => bootstrap thumbprint) ⟨db, [], []⟩ p

/-- Every stored session names a signer of its profile that is not provisional. -/
def Bound (db : Db) : Prop :=
  ∀ s ∈ db.sessions, ∃ k ∈ db.signers, k.isOf s.profile s.proofReference = true ∧
    k.provisional = false

section
variable {profile : String}

theorem writeSession_ok {expected : Option String} {row s : SessionRow}
    {sessions sessions' : List SessionRow} (h : writeSession expected row sessions = .ok sessions')
    (hs : s ∈ sessions') : s = row ∨ s ∈ sessions := by
  cases expected with
  | none =>
    simp only [writeSession] at h
    split at h
    · cases h
    · cases h
      simpa [or_comm] using hs
  | some value =>
    simp only [writeSession] at h
    split at h
    · cases h
    · cases h
      obtain ⟨s₀, hs₀, rfl⟩ := List.mem_map.1 hs
      split
      · exact .inl rfl
      · exact .inr hs₀

variable {db db' : Db} {reference : String} {signer : Signer} {r : Request} {w' : World}
  {created : Bool}

/-- What `Save` does: it writes a session of a signer that is there, and the signer is no longer
provisional. -/
theorem save_ok {expected : Option String} {revision answer : String} {record : SessionRecord}
    (h : save profile expected revision record db = .ok (answer, db')) :
    (∀ s ∈ db'.sessions, s = ⟨profile, revision, record.proofKeyReference, record⟩ ∨
      s ∈ db.sessions) ∧
      db.signers.any (·.isOf profile record.proofKeyReference) ∧
      db'.signers = db.signers.map fun s =>
        if s.isOf profile record.proofKeyReference then { s with provisional := false } else s := by
  obtain ⟨-, h⟩ := ensure_bind.1 h
  obtain ⟨sessions, hwrite, h⟩ := bind_ok.1 h
  obtain ⟨hsigner, h⟩ := ensure_bind.1 h
  cases h
  exact ⟨fun s hs => writeSession_ok hwrite hs, hsigner, rfl⟩

theorem selectSigner_some (h : selectSigner profile db = some reference) :
    db.signers.any (·.isOf profile reference) := by
  obtain ⟨s, hs, rfl⟩ := Option.map_eq_some_iff.1 h
  have hprofile := List.find?_some hs
  exact List.any_eq_true.2 ⟨s,
    List.mem_of_find?_eq_some hs, by simpa [SignerRow.isOf] using hprofile⟩

/-- What the transaction of `ProvisionP256` does: it finds the signer of the profile, or stores one
under a new reference. -/
theorem insertSigner_ok {jwk : PublicJWK} {answer : String × Bool}
    (h : insertSigner profile reference jwk db = .ok (answer, db')) :
    (db' = db ∧ answer.2 = false ∧ db.signers.any (·.isOf profile answer.1)) ∨
      (answer = (reference, true) ∧ (∀ s ∈ db.signers, s.reference ≠ reference) ∧
        db'.sessions = db.sessions ∧
        db'.signers = db.signers ++ [⟨⟨reference, profile, jwk⟩, true⟩]) := by
  obtain ⟨-, h⟩ := ensure_bind.1 h
  split at h
  · obtain ⟨existing, hexisting, h⟩ := required_bind.1 h
    cases h
    exact .inl ⟨rfl, rfl, selectSigner_some hexisting⟩
  · next hnew =>
    cases h
    refine .inr ⟨rfl, fun s hs href => hnew (List.any_eq_true.2 ⟨s, hs, ?_⟩), rfl, rfl⟩
    simp [href]

/-- What `Retire` does: it keeps every other signer, and those that are not provisional. -/
theorem retire_ok (h : retire reference db = .ok ((), db')) : db'.sessions = db.sessions ∧
      ∀ s ∈ db.signers, s.reference ≠ reference ∨ s.provisional = false → s ∈ db'.signers := by
  obtain ⟨-, h⟩ := ensure_bind.1 h
  cases h
  refine ⟨rfl, fun s hs hkept => List.mem_filter.2 ⟨hs, ?_⟩⟩
  rcases hkept with hkept | hkept <;> simp [hkept]

theorem openSigner_ok
    (h : openSigner reference db = .ok signer) : signer.reference = reference := by
  simp only [openSigner] at h
  split at h
  · cases h
  split at h
  · cases h
  · next row hrow =>
    cases h
    simpa using List.find?_some hrow

theorem isOf_saved {profile' reference' : String} {s : SignerRow} :
    SignerRow.isOf profile' reference'
      (if s.isOf profile reference then { s with provisional := false } else s) =
        s.isOf profile' reference' := by
  split <;> rfl

/-- Every request keeps the sessions bound. -/
theorem Bound.sem {i : Nat} {w : World} {ans : r.Answer} (h : Bound w.db)
    (hs : sem profile i r w ans w') : Bound w'.db := by
  cases r with
  | now => rwa [show w' = w from hs]
  | load | selectSigner | publicJWK => rwa [show w' = w from hs.1]
  | acquire => rwa [show w' = w from hs]
  | issue => rwa [show w' = _ from hs]
  | openSigner reference =>
    rw [hs.2]
    split <;> exact h
  | insertSigner =>
    obtain ⟨reference, jwk, db, -, hattempt, rfl⟩ := hs
    rcases hattempt.cases with rfl | ⟨answer, hrun⟩
    · exact h
    rcases insertSigner_ok hrun with ⟨rfl, -, -⟩ | ⟨-, -, hsessions, hsigners⟩
    · exact h
    · intro s hs
      obtain ⟨k, hk, hbound⟩ := h s (hsessions ▸ hs)
      exact ⟨k, hsigners ▸ List.mem_append_left _ hk, hbound⟩
  | save expected record =>
    obtain ⟨revision, db, hattempt, rfl⟩ := hs
    rcases hattempt.cases with rfl | ⟨answer, hrun⟩
    · exact h
    obtain ⟨hsessions, hsigner, hsigners⟩ := save_ok hrun
    intro s hs
    rcases hsessions s hs with rfl | hs
    · obtain ⟨k, hk, hof⟩ := List.any_eq_true.1 hsigner
      exact ⟨_, hsigners ▸ List.mem_map_of_mem hk, isOf_saved.trans hof, by simp [hof]⟩
    · obtain ⟨k, hk, hof, hbound⟩ := h s hs
      exact ⟨_, hsigners ▸ List.mem_map_of_mem hk, isOf_saved.trans hof, by split <;> simp [hbound]⟩
  | retire reference =>
    obtain ⟨db, hattempt, rfl⟩ := hs
    rcases hattempt.cases with rfl | ⟨⟨⟩, hrun⟩
    · exact h
    obtain ⟨hsessions, hsigners⟩ := retire_ok hrun
    intro s hs
    obtain ⟨k, hk, hof, hbound⟩ := h s (hsessions ▸ hs)
    exact ⟨k, hsigners k hk (.inr hbound), hof, hbound⟩

/-! ## Signers that stay -/

/-- A signer of the profile that no run may still retire. -/
def Kept (profile : String) (w : World) (reference : String) : Prop :=
  w.db.signers.any (·.isOf profile reference) = true ∧ ∀ j, (j, reference) ∉ w.creating

/-- The signers that the issuer was called with are kept, and a signer that may be retired is there
and may be retired by one run. -/
structure Safe (profile : String) (w : World) : Prop where
  issued : ∀ reference ∈ w.issued, Kept profile w reference
  present : ∀ j reference, (j, reference) ∈ w.creating → w.db.signers.any (·.isOf profile reference)
  owner : ∀ j k reference, (j, reference) ∈ w.creating → (k, reference) ∈ w.creating → j = k

/-- What the others leave to run `i`: the signers that are kept, and the one it may retire. -/
structure Rely (profile : String) (i : Nat) (w w' : World) : Prop where
  kept : ∀ reference, Kept profile w reference → Kept profile w' reference
  creating : ∀ reference, (i, reference) ∈ w.creating → (i, reference) ∈ w'.creating

theorem Rely.refl {i : Nat} (w : World) : Rely profile i w w := ⟨fun _ => id, fun _ => id⟩

/-- A step of run `i` that changes what `i` may retire only, that creates signers under new
references, and that deletes only a signer that `i` may retire. -/
theorem Safe.update {i : Nat} {w : World} (h : Safe profile w)
    (hothers : ∀ j, j ≠ i → ∀ reference, (j, reference) ∈ w'.creating ↔ (j, reference) ∈ w.creating)
    (hown : ∀ reference, (i, reference) ∈ w'.creating → (i, reference) ∈ w.creating ∨
      w.db.signers.any (·.isOf profile reference) = false ∧
        w'.db.signers.any (·.isOf profile reference))
    (hsigners : ∀ reference, w.db.signers.any (·.isOf profile reference) →
      (i, reference) ∉ w.creating ∨ (i, reference) ∈ w'.creating →
        w'.db.signers.any (·.isOf profile reference))
    (hissued : ∀ reference ∈ w'.issued, reference ∈ w.issued ∨ Kept profile w' reference) :
    Safe profile w' ∧ ∀ j, j ≠ i → Rely profile j w w' := by
  have hkept : ∀ reference, Kept profile w reference → Kept profile w' reference := by
    intro reference ⟨hthere, hnone⟩
    refine ⟨hsigners reference hthere (.inl (hnone i)), fun j hj => ?_⟩
    by_cases hji : j = i
    · subst hji
      rcases hown reference hj with hj | ⟨hnew, -⟩
      · exact hnone j hj
      · rw [hthere] at hnew
        cases hnew
    · exact hnone j ((hothers j hji reference).1 hj)
  have howner : ∀ j reference, j ≠ i → (j, reference) ∈ w'.creating →
      (i, reference) ∉ w.creating ∧ (i, reference) ∉ w'.creating := by
    intro j reference hji hj
    have hj := (hothers j hji reference).1 hj
    have hnot : (i, reference) ∉ w.creating := fun hi => hji (h.owner j i reference hj hi)
    refine ⟨hnot, fun hi => ?_⟩
    rcases hown reference hi with hi | ⟨hnew, -⟩
    · exact hnot hi
    · rw [h.present j reference hj] at hnew
      cases hnew
  refine ⟨⟨fun reference hr => ?_, fun j reference hj => ?_, fun j k reference hj hk => ?_⟩,
    fun j hji => ⟨hkept, fun reference hj => (hothers j hji reference).2 hj⟩⟩
  · exact (hissued reference hr).elim (fun hr => hkept reference (h.issued reference hr)) id
  · by_cases hji : j = i
    · subst hji
      rcases hown reference hj with hold | ⟨-, hnew⟩
      · exact hsigners reference (h.present j reference hold) (.inr hj)
      · exact hnew
    · exact hsigners reference (h.present j reference ((hothers j hji reference).1 hj))
        (.inl (howner j reference hji hj).1)
  · by_cases hji : j = i <;> by_cases hki : k = i
    · rw [hji, hki]
    · exact absurd (hji ▸ hj) (howner k reference hki hk).2
    · exact absurd (hki ▸ hk) (howner j reference hji hj).2
    · exact h.owner j k reference ((hothers j hji reference).1 hj) ((hothers k hki reference).1 hk)

@[simp] theorem mem_settle {i j : Nat} {w : World} :
    (j, reference) ∈ (w.settle i).creating ↔ (j, reference) ∈ w.creating ∧ j ≠ i := by
  simp [World.settle]

/-- What run `i` knows of the signer it holds. -/
def Held (profile : String) (i : Nat) (w : World) (reference : String) : Bool → Prop
  | true => (i, reference) ∈ w.creating
  | false => Kept profile w reference

theorem Held.rely {i : Nat} {w : World} (h : Held profile i w reference created)
    (hrely : Rely profile i w w') : Held profile i w' reference created := by
  cases created with
  | true => exact hrely.creating reference h
  | false => exact hrely.kept reference h

/-- The states in which run `i` makes a request. -/
def Allowed (profile : String) (i : Nat) (w : World) : Request → Prop
  | .issue reference => ∃ created, Held profile i w reference created
  | .retire reference => (i, reference) ∈ w.creating
  | _ => True

/-- Every request that is made where it is allowed keeps the issuer's signers, and leaves the other
runs what they rely on. -/
theorem Safe.step {i : Nat} {w : World} {ans : r.Answer} (h : Safe profile w)
    (hallowed : Allowed profile i w r) (hs : careful profile i r w ans w') :
    Safe profile w' ∧ ∀ j, j ≠ i → Rely profile j w w' := by
  have hquiet : w' = w → Safe profile w' ∧ ∀ j, j ≠ i → Rely profile j w w' := by
    rintro rfl
    exact ⟨h, fun _ _ => .refl _⟩
  replace hs := hs.1
  cases r with
  | now => exact hquiet hs
  | load | selectSigner | publicJWK => exact hquiet hs.1
  | acquire => exact hquiet hs
  | openSigner reference =>
    have hw := hs.2
    split at hw
    · exact hquiet hw
    · subst hw
      exact h.update (by simp +contextual) (by simp) (fun _ hr _ => hr) fun _ hr => .inl hr
  | insertSigner =>
    obtain ⟨reference, jwk, db, -, hattempt, rfl⟩ := hs
    have hdb : db = w.db ∨ (∀ s ∈ w.db.signers, s.reference ≠ reference) ∧
        db.signers = w.db.signers ++ [⟨⟨reference, profile, jwk⟩, true⟩] := by
      rcases hattempt.cases with rfl | ⟨answer, hrun⟩
      · exact .inl rfl
      · exact (insertSigner_ok hrun).imp (·.1) fun h => ⟨h.2.1, h.2.2.2⟩
    have hgrows : ∀ r, w.db.signers.any (·.isOf profile r) = true →
        db.signers.any (·.isOf profile r) = true := by
      rcases hdb with rfl | ⟨-, hsigners⟩
      · exact fun _ => id
      · exact fun r hr => by rw [hsigners, List.any_append, hr, Bool.true_or]
    refine h.update (i := i) (fun j hji r => ?_) (fun r hr => ?_) (fun r hr _ => hgrows r hr)
      fun _ hr => .inl hr
    · dsimp only
      split
      · simp [hji]
      · rfl
    · dsimp only at hr
      split at hr
      · next answer =>
        rcases List.mem_cons.1 hr with heq | hr
        · cases heq
          rcases insertSigner_ok hattempt.ok with ⟨-, hfalse, -⟩ | ⟨heq, hnew, -, hsigners⟩
          · cases hfalse
          · cases heq
            refine .inr ⟨List.any_eq_false.2 fun s hs => ?_, ?_⟩
            · simp [SignerRow.isOf, hnew s hs]
            · simp [hsigners, SignerRow.isOf]
        · exact .inl hr
      · exact .inl hr
  | issue reference =>
    obtain ⟨created, hheld⟩ := hallowed
    cases show w' = _ from hs
    refine h.update (i := i) (fun j hji r => by simp [World.settle, hji])
      (fun r hr => by simp [World.settle] at hr) (fun _ hr _ => hr) fun r hr => ?_
    rcases List.mem_cons.1 hr with rfl | hr
    · right
      cases created with
      | true =>
        refine ⟨h.present i r hheld, fun j hj => ?_⟩
        obtain ⟨hj, hji⟩ := mem_settle.1 hj
        exact hji (h.owner j i r hj hheld)
      | false => exact ⟨hheld.1, fun j hj => hheld.2 j (mem_settle.1 hj).1⟩
    · exact .inl hr
  | save expected record =>
    obtain ⟨revision, db, hattempt, rfl⟩ := hs
    refine h.update (i := i) (fun _ _ _ => Iff.rfl) (fun _ => .inl) (fun r hr _ => ?_)
      fun _ hr => .inl hr
    rcases hattempt.cases with rfl | ⟨answer, hrun⟩
    · exact hr
    · obtain ⟨-, -, hsigners⟩ := save_ok hrun
      obtain ⟨k, hk, hof⟩ := List.any_eq_true.1 hr
      exact List.any_eq_true.2 ⟨_, hsigners ▸ List.mem_map_of_mem hk, isOf_saved.trans hof⟩
  | retire reference =>
    obtain ⟨db, hattempt, rfl⟩ := hs
    refine h.update (i := i) (fun j hji r => by simp [World.settle, hji])
      (fun r hr => by simp [World.settle] at hr) (fun r hr hstays => ?_) fun _ hr => .inl hr
    have hne : r ≠ reference := by
      rintro rfl
      exact hstays.elim (· hallowed) fun hr => (mem_settle.1 hr).2 rfl
    rcases hattempt.cases with rfl | ⟨⟨⟩, hrun⟩
    · exact hr
    · obtain ⟨k, hk, hof⟩ := List.any_eq_true.1 hr
      have href : k.reference = r := by simp_all [SignerRow.isOf]
      exact List.any_eq_true.2 ⟨k, (retire_ok hrun).2 k hk (.inl (href ▸ hne)), hof⟩

/-- The specification of a part of run `i`. -/
abbrev Keeps {α : Type} (profile : String) (i : Nat) (post : α → World → Prop) (p : Program port α)
    (w : World) : Prop :=
  p.Meets (careful profile i) (Safe profile) (Rely profile i)
    (fun t u => ∀ j, j ≠ i → Rely profile j t u) post w

section
variable {i : Nat} {w : World} {thumbprint : PublicJWK → Digest}

/-- A request that is allowed whatever the others do. -/
theorem Keeps.ask_bind {α : Type} {post : α → World → Prop} {f : r.Answer → Program port α}
    (hallowed : ∀ t, Rely profile i w t → Allowed profile i t r)
    (hf : ∀ t ans u, Rely profile i w t → careful profile i r t ans u →
      Keeps profile i post (f ans) u) : Keeps profile i post (ask r >>= f) w :=
  Program.meets_ask_bind.2 fun t hrely hsafe ans u hs =>
    ⟨(hsafe.step (hallowed t hrely) hs).1, (hsafe.step (hallowed t hrely) hs).2,
      hf t ans u hrely hs⟩

/-- The program neither calls the issuer nor retires a signer. -/
def Request.Plain (r : Request) : Prop := ∀ profile i w, Allowed profile i w r

theorem store_keeps (expected : Option String) (signer : Signer) (jwk : PublicJWK)
    (issued : IssuedSession) :
    Keeps profile i (fun _ _ => True) (store thumbprint expected signer jwk issued) w := by
  have honly : (store thumbprint expected signer jwk issued).Only Request.Plain := by
    unfold store
    split
    · trivial
    refine Program.only_ask_bind.2 ⟨fun _ _ _ => trivial, fun saved => ?_⟩
    split
    · trivial
    refine Program.only_ask_bind.2 ⟨fun _ _ _ => trivial, fun loaded => ?_⟩
    split
    · trivial
    split
    · trivial
    refine Program.only_ask_bind.2 ⟨fun _ _ _ => trivial, fun opened => ?_⟩
    split
    · trivial
    refine Program.only_ask_bind.2 ⟨fun _ _ _ => trivial, fun jwk => ?_⟩
    split
    · trivial
    split <;> trivial
  exact honly.meets (fun r t ans u hr h hs => h.step (hr profile i t) hs) (fun _ _ => trivial) w

theorem cleanup_keeps {e : Failure} (h : Held profile i w signer.reference created) :
    Keeps profile i (fun _ _ => True) (cleanup signer created e) w := by
  cases created with
  | true =>
    exact Keeps.ask_bind (fun t hrely => hrely.creating _ h) fun _ _ _ _ _ => trivial
  | false => trivial

theorem exchange_keeps (expected : Option String) (h : Held profile i w signer.reference created) :
    Keeps profile i (fun _ _ => True) (exchange thumbprint expected signer created) w := by
  refine Keeps.ask_bind (fun _ _ => trivial) fun t ans u hrely hs => ?_
  obtain rfl := hs.1.1
  replace h := h.rely hrely
  split
  · exact cleanup_keeps h
  split
  · exact cleanup_keeps h
  refine Keeps.ask_bind (fun _ _ => trivial) fun t ans u hrely hs => ?_
  obtain rfl := hs.1
  replace h := h.rely hrely
  split
  · exact cleanup_keeps h
  refine Keeps.ask_bind (fun _ _ => trivial) fun t now u hrely hs => ?_
  obtain rfl := hs.1
  replace h := h.rely hrely
  split
  · exact cleanup_keeps h
  refine Keeps.ask_bind (fun t hrely => ⟨created, h.rely hrely⟩) fun t ans u _ _ => ?_
  split
  · trivial
  · exact store_keeps _ _ _ _

/-- A run holds the signer that it has provisioned. -/
def Provisioned (profile : String) (i : Nat) (result : Except Failure (Signer × Bool)) (w : World) :
    Prop :=
  ∀ signer created, result = .ok (signer, created) → Held profile i w signer.reference created

theorem opened_keeps (h : Held profile i w reference created) :
    Keeps profile i (Provisioned profile i) (opened reference created) w := by
  refine Keeps.ask_bind (fun _ _ => trivial) fun t ans u hrely hs => ?_
  obtain ⟨⟨hread, hu⟩, -⟩ := hs
  cases ans with
  | error e => exact fun _ _ hok => by cases hok
  | ok signer =>
    rintro _ _ ⟨⟩
    rcases hread with hread | ⟨e, -, he⟩
    · rw [openSigner_ok hread.symm, show u = t from hu]
      exact h.rely hrely
    · cases he

theorem provisionP256_keeps : Keeps profile i (Provisioned profile i) provisionP256 w := by
  refine Keeps.ask_bind (fun _ _ => trivial) fun t ans u _ hs => ?_
  obtain ⟨⟨rfl, hread⟩, hfree⟩ := hs
  split
  · exact fun _ _ hok => by cases hok
  · next existing =>
    rcases hread with hread | ⟨e, -, he⟩
    · exact opened_keeps ⟨selectSigner_some (Except.ok.inj hread).symm, hfree existing rfl⟩
    · cases he
  · refine Keeps.ask_bind (fun _ _ => trivial) fun t ans u _ hs => ?_
    obtain ⟨⟨reference, jwk, db, -, hattempt, rfl⟩, hfree⟩ := hs
    split
    · exact fun _ _ hok => by cases hok
    · next existing created =>
      refine opened_keeps ?_
      cases created with
      | true => exact List.mem_cons_self
      | false =>
        rcases insertSigner_ok hattempt.ok with ⟨rfl, -, hthere⟩ | ⟨heq, -⟩
        · exact ⟨hthere, hfree existing rfl⟩
        · cases heq

theorem bootstrap_keeps : Keeps profile i (fun _ _ => True) (bootstrap thumbprint) w := by
  have hprovision : ∀ expected t, Safe profile t →
      Keeps profile i (fun _ _ => True) (provision thumbprint expected) t := by
    intro expected t ht
    refine Program.Meets.bind ht provisionP256_keeps fun result u _ hresult => ?_
    split
    · trivial
    · exact exchange_keeps expected (hresult _ _ rfl)
  refine Program.meets_ask_bind.2 fun t _ ht ans u hs => ?_
  obtain ⟨hu, hguar⟩ := ht.step (r := .load) trivial hs
  refine ⟨hu, hguar, ?_⟩
  split
  · exact hprovision none u hu
  · trivial
  · refine Program.meets_ask_bind.2 fun t _ ht now v hs => ?_
    obtain ⟨hv, hguar⟩ := ht.step (r := .now) trivial hs
    refine ⟨hv, hguar, ?_⟩
    split
    · trivial
    · exact hprovision _ v hv

end

/-- The runs of the bootstrap keep the signers of the issuer. -/
def bootstrapRely (profile : String) (thumbprint : PublicJWK → Digest) :
    RelyGuarantee (careful profile) (fun _ _ => False) fun _ : Unit => bootstrap thumbprint where
  inv := Safe profile
  rely := Rely profile
  fresh _ _ := True
  post _ _ _ _ := True
  rely_refl _ := .refl
  rely_trans _ _ _ _ h h' := ⟨fun r hr => h'.kept r (h.kept r hr),
    fun r hr => h'.creating r (h.creating r hr)⟩
  env_inv _ _ _ h := h.elim
  env_rely _ _ _ _ h := h.elim
  fresh_stable _ _ _ _ _ := trivial
  post_stable _ _ _ _ _ _ _ _ := trivial
  meets _ _ _ _ _ := bootstrap_keeps

/-- Every stored session names a signer of its profile that is not provisional. Where no signer is
found that its run may still retire, a signer that the issuer was called with stays, and `Save`
finds it. -/
theorem signer_kept (thumbprint : PublicJWK → Digest) {db : Db} (hdb : Bound db)
    (p : Pool port Nat Unit (Except Failure Unit) World) :
    (Reach (sem profile) thumbprint db p → Bound p.shared.db) ∧
      (Reach (careful profile) thumbprint db p → ∀ reference ∈ p.shared.issued,
        p.shared.db.signers.any (·.isOf profile reference) = true) := by
  constructor
  · intro hp
    exact hp.invariant (I := fun w => Bound w.db) hdb (fun _ _ _ _ _ h hs => h.sem hs)
      fun _ _ _ h => False.elim h
  · intro hp reference hr
    have hsafe : Safe profile ⟨db, [], []⟩ := ⟨fun _ h => absurd h List.not_mem_nil,
      fun _ _ h => absurd h List.not_mem_nil, fun _ _ _ h => absurd h List.not_mem_nil⟩
    exact (((bootstrapRely profile thumbprint).reach hsafe (fun _ => trivial) hp).inv.issued
      reference hr).1

end

/-! ## Two runs for one profile -/

/-- A signer that is still provisional. -/
def sampleSigner : SignerRow :=
  ⟨⟨"local-p256:00000000-0000-7000-8000-000000000000", "p", ⟨.zero, .zero⟩⟩, true⟩

/-- The database that holds the signers. -/
def sampleDb (signers : List SignerRow) : Db := ⟨1, [], signers⟩

/-- A run creates the signer. -/
theorem sampleSigner_created : ((bootstrap fun jwk => jwk.x).Leads (careful "p" 0)
    ⟨⟨0, [], []⟩, [], []⟩ (exchange (fun jwk => jwk.x) none sampleSigner.toSigner true)
    ⟨sampleDb [sampleSigner], [], [(0, sampleSigner.reference)]⟩) := by
  refine .call (show careful "p" 0 .load _ (.error .credentialMissing) _ from
    ⟨⟨rfl, .inl rfl⟩, fun _ h => by cases h⟩) ?_
  refine .call (show careful "p" 0 .selectSigner _ (.ok none) _ from ⟨⟨rfl, .inl rfl⟩,
    fun _ h => by cases h⟩) ?_
  refine .call (show careful "p" 0 .insertSigner _ (.ok (sampleSigner.reference, true)) _ from
    ⟨⟨_, _, sampleDb [sampleSigner], (by decide : validReference sampleSigner.reference = true),
      .committed rfl, rfl⟩, fun _ h => by cases h⟩) ?_
  refine .call (show careful "p" 0 (.openSigner _) _ (.ok sampleSigner.toSigner) _ from
    ⟨⟨.inl (by decide), rfl⟩, fun _ h => by cases h⟩) ?_
  exact .refl

/-- A run calls the issuer with the signer. -/
theorem sampleSigner_issued (i : Nat) (created : Bool) (issued : List String)
    (creating : List (Nat × String)) :
    (exchange (fun jwk => jwk.x) none sampleSigner.toSigner created).Exec (careful "p" i)
      ⟨sampleDb [sampleSigner], issued, creating⟩ (.error .externalToken)
      ⟨sampleDb [sampleSigner], sampleSigner.reference :: issued, creating.filter (·.1 != i)⟩ := by
  refine .call (show careful "p" i (.publicJWK _) _ (some sampleSigner.jwk) _ from
    ⟨⟨rfl, fun _ h => by cases h; rfl⟩, fun _ h => by cases h⟩) ?_
  refine .call (show careful "p" i (.acquire _) _ (some ⟨1, true⟩) _ from
    ⟨rfl, fun _ h => by cases h⟩) ?_
  refine .call (show careful "p" i .now _ ⟨0, true⟩ _ from ⟨rfl, fun _ h => by cases h⟩) ?_
  exact .call (show careful "p" i (.issue _) _ none _ from ⟨rfl, fun _ h => by cases h⟩) .done

/-- Another run finds the signer and calls the issuer with it. -/
theorem sampleSigner_found {S : Sem port Nat World} (issued : List String)
    (creating : List (Nat × String)) (hS : ∀ r w ans w', careful "p" 1 r w ans w' ∨
      w.creating = creating ∧ sem "p" 1 r w ans w' → S 1 r w ans w') :
    (bootstrap fun jwk => jwk.x).Leads (S 1) ⟨sampleDb [sampleSigner], issued, creating⟩
      (.done (.error .externalToken)) ⟨sampleDb [sampleSigner], sampleSigner.reference :: issued,
        creating.filter (·.1 != 1)⟩ := by
  refine .call (hS .load _ (.error .credentialMissing) _ (.inr ⟨rfl, rfl, .inl rfl⟩)) ?_
  refine .call (hS .selectSigner _ (.ok (some sampleSigner.reference)) _
    (.inr ⟨rfl, rfl, .inl rfl⟩)) ?_
  refine .call (hS (.openSigner _) _ (.ok sampleSigner.toSigner) _
    (.inr ⟨rfl, .inl (by dsimp only; decide), rfl⟩)) ?_
  exact ((sampleSigner_issued 1 false _ _).mono fun _ _ _ _ h => hS _ _ _ _ (.inl h)).leads

/-- A run calls the issuer with the signer that it created, then another run with the same one. -/
theorem signer_kept_sample : ∃ p, Reach (careful "p") (fun jwk => jwk.x) ⟨0, [], []⟩ p ∧
    p.shared.issued = [sampleSigner.reference, sampleSigner.reference] ∧
    p.shared.db.signers.any (·.isOf "p" sampleSigner.reference) = true := by
  have h₀ : Reach (careful "p") (fun jwk => jwk.x) ⟨0, [], []⟩ _ :=
    Pool.Step.begin (i := 0) (c := ())
      rfl (sampleSigner_created.trans (sampleSigner_issued 0 true _ _).leads)
  have h₁ := h₀.trans (Pool.Step.begin (i := 1) (c := ()) rfl (sampleSigner_found _ []
    fun _ _ _ _ h => h.elim id fun h => ⟨h.2, fun _ _ _ => h.1 ▸ List.not_mem_nil⟩))
  exact ⟨_, h₁, rfl, (signer_kept _ (fun _ h => absurd h List.not_mem_nil) _).2 h₁ _
    List.mem_cons_self⟩

/-- A run finds the signer of another run and calls the issuer with it, and the other run, which
gets no token, retires it. -/
theorem issuer_signer_retired : ¬ ∀ (profile : String) (thumbprint : PublicJWK → Digest) (db : Db)
    (p : Pool port Nat Unit (Except Failure Unit) World), Bound db →
      Reach (sem profile) thumbprint db p → ∀ reference ∈ p.shared.issued,
        p.shared.db.signers.any (·.isOf profile reference) = true := by
  intro hkept
  have h₀ : Reach (sem "p") (fun jwk => jwk.x) ⟨0, [], []⟩ _ := Pool.Reach.mono
    (fun _ _ _ _ _ h => h.1) (Pool.Step.begin (i := 0) (c := ()) rfl sampleSigner_created)
  have h₁ := h₀.trans (Pool.Step.begin (i := 1) (c := ()) rfl
    (sampleSigner_found _ [(0, sampleSigner.reference)] fun _ _ _ _ h => h.elim (·.1) (·.2)))
  have hretired : (exchange (fun jwk => jwk.x) none sampleSigner.toSigner true).Leads (sem "p" 0)
      ⟨sampleDb [sampleSigner], [sampleSigner.reference], [(0, sampleSigner.reference)]⟩
      (.done (.error .externalToken)) ⟨sampleDb [], [sampleSigner.reference], []⟩ := by
    refine .call (show sem "p" 0 (.publicJWK _) _ (some sampleSigner.jwk) _ from
      ⟨rfl, fun _ h => by cases h; rfl⟩) ?_
    refine .call (show sem "p" 0 (.acquire _) _ none _ from rfl) ?_
    exact .call (show sem "p" 0 (.retire _) _ (.ok ()) _ from
      ⟨sampleDb [], .committed (by decide), rfl⟩) .refl
  have h₂ := h₁.trans (Pool.Step.resume (i := 0) (c := ()) rfl hretired)
  have := hkept "p" _ _ _ (fun _ h => absurd h List.not_mem_nil) h₂ sampleSigner.reference
    (List.mem_singleton_self _)
  exact absurd this (by decide)

end YukhCoordination.ClientAuth
