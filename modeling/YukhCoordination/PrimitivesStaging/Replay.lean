import Mathlib.Data.List.Pairwise
import YukhCoordination.Relay.Identity.Provider

/-!
# The staging authenticator

The model of `internal/primitivesstaging/replay.go` and of `Authenticate` of `authenticator.go`.
Hash, addresses and the parser of proofs are parameters.
-/

namespace YukhCoordination.PrimitivesStaging

open Transaction Interleave
open Coordination (Time second millisecond)
open Relay.Audit (Digest)
open Relay.Lifecycle (matchesName isLower isUpper isDigit)
open Relay.Identity (SignedProof Library Material unixMilli base64URL sized maxJSONSafeInt)

/-! ## The replay database -/

/-- `ErrReplay` and `ErrUnavailable`. -/
inductive ReplayError where
  | replay
  | unavailable
  deriving DecidableEq, Repr

/-- A row of `proof_replays`. -/
structure ProofReplay where
  thumbprint : Digest
  proofJTI : String
  issuedAtMS : Int
  retainUntilMS : Int
  deriving DecidableEq, Repr

/-- The high-water of `replay_metadata`, and the rows of `proof_replays`. -/
structure Db where
  wallHighWaterMS : Int
  proofReplays : List ProofReplay
  deriving DecidableEq, Repr

/-- `IsZero`: the first of January of the year 1. -/
def isZero (value : Time) : Bool := value.unixNano == -62135596800 * second

/-- `validMillisecond`. -/
def validMillisecond (value : Time) : Bool :=
  !isZero value && value.utc && value.unixNano % millisecond == 0

/-- `base64urlRange`. -/
def base64urlRange (value : String) (min max : Nat) : Bool := sized min max value && base64URL value

/-- The check of a column that holds a time. -/
def millisColumn (value : Int) : Bool := 0 ≤ value && value ≤ maxJSONSafeInt

/-- The rows that a reservation deletes. -/
def lapsed (nowMS : Int) (rows : List ProofReplay) : List ProofReplay :=
  ((rows.filter (·.retainUntilMS ≤ nowMS)).insertionSort
    fun a b => a.retainUntilMS ≤ b.retainUntilMS).take 256

/-- The `retainUntil` of `Reserve`. -/
def retainUntil (issuedAt now : Time) : Int :=
  let until_ := unixMilli (issuedAt.add (70 * second))
  if until_ ≤ unixMilli now then unixMilli (now.add (5 * second)) else until_

/-- `ReplayStore.Reserve`. An insertion that fails is a replay when the key is there. -/
def reserve (maxEntries : Nat) (thumbprint : Digest) (jti : String) (issuedAt now : Time)
    (db : Db) : Except ReplayError (Unit × Db) := do
  ensure (base64urlRange jti 16 128 && validMillisecond now && !isZero issuedAt) .unavailable
  let nowMS := unixMilli now
  ensure (db.wallHighWaterMS - 5000 ≤ nowMS) .unavailable
  ensure (nowMS ≤ db.wallHighWaterMS || millisColumn nowMS) .unavailable
  let rows := db.proofReplays.filter (!(lapsed nowMS db.proofReplays).contains ·)
  ensure (rows.length < maxEntries) .unavailable
  let row : ProofReplay := ⟨thumbprint, jti, unixMilli issuedAt, retainUntil issuedAt now⟩
  ensure (rows.all fun other => (other.thumbprint, other.proofJTI) != (thumbprint, jti)) .replay
  ensure (millisColumn row.issuedAtMS && row.issuedAtMS < row.retainUntilMS &&
    row.retainUntilMS ≤ maxJSONSafeInt) .unavailable
  return ((), ⟨max db.wallHighWaterMS nowMS, rows ++ [row]⟩)

/-! ## Authentication -/

/-- `Registration`, with the fields that `Authenticate` reads. -/
structure Registration where
  tenant : String
  principal : String
  tokenDigest : Digest
  thumbprint : Digest
  expiresAt : Time

/-- `primitivesauth.Identity`. -/
structure Identity where
  tenant : String
  principal : String
  deriving DecidableEq, Repr

/-- `primitivesauth.ErrUnauthenticated` and `primitivesauth.ErrTemporarilyUnavailable`. -/
inductive AuthError where
  | unauthenticated
  | temporarilyUnavailable
  deriving DecidableEq, Repr

/-- `identifierPattern`: `^[A-Za-z0-9][A-Za-z0-9._:-]{0,255}$`. -/
def identifierPattern (value : String) : Bool :=
  matchesName (fun c => isUpper c || isLower c || isDigit c)
    (fun c => isUpper c || isLower c || isDigit c || c == '.' || c == '_' || c == ':' || c == '-')
    255 value

/-- `Registration.Identity`, with `NewIdentity`. -/
def Registration.identity (registration : Registration) : Option Identity :=
  if identifierPattern registration.tenant && identifierPattern registration.principal then
    some ⟨registration.tenant, registration.principal⟩
  else none

/-- `Registration.matchesCredential`. -/
def Registration.matchesCredential (lib : Library) (registration : Registration)
    (value : String) : Bool :=
  lib.sha256 ("yukh-coordination:staging-token:v1\n" ++ value) == registration.tokenDigest

/-- `ascii`. -/
def ascii (value : String) : Bool := value.toList.all fun c => 0x21 ≤ c.toNat && c.toNat ≤ 0x7e

/-- `time.Unix(seconds, 0).UTC()`. -/
def ofUnix (seconds : Nat) : Time := ⟨seconds * second, true⟩

/-- The window of `verifyDPoP`. -/
def fresh (issuedAt now : Time) : Bool :=
  !issuedAt.after (now.add (5 * second)) && !issuedAt.before (now.add (-60 * second))

/-- `verifyDPoP`. -/
def verifyDPoP (lib : Library) (material : Material) (now : Time) : Option SignedProof :=
  (lib.parseSigned material.proof).filter fun signed =>
    sized 1 16384 material.proof && material.credential != "" && ascii material.credential &&
    material.method == "POST" && lib.validPublicURI material.targetURI &&
    signed.alg == "ES256" && signed.typ == "dpop+jwt" && base64urlRange signed.jti 16 128 &&
    signed.htm == material.method && lib.validPublicURI signed.htu &&
    signed.htu == material.targetURI &&
    signed.ath == Relay.Audit.encodeDigest (lib.sha256 material.credential) &&
    signed.iat ≤ maxJSONSafeInt && fresh (ofUnix signed.iat) now

/-- The requests of a call: a reading of the clock, and a reservation. -/
inductive Request where
  | now
  | reserve (maxEntries : Nat) (thumbprint : Digest) (jti : String) (issuedAt now : Time)

/-- The answers to the requests. -/
abbrev Request.Answer : Request → Type
  | .now => Time
  | .reserve .. => Except ReplayError Unit

/-- The port of the authenticator. -/
abbrev port : Port := ⟨Request, Request.Answer⟩

/-- A call of an authenticator: its registration, the bound of its store, and the material. -/
structure Call where
  registration : Registration
  maxEntries : Nat
  material : Material

/-- `Authenticator.Authenticate`. -/
def authenticate (lib : Library) (call : Call) : Program port (Except AuthError Identity) := do
  let read ← Program.ask (P := port) .now
  let now := read.toUTC.truncateMillisecond
  if !validMillisecond now || !now.before call.registration.expiresAt ||
      !call.registration.matchesCredential lib call.material.credential then
    return .error .unauthenticated
  match (verifyDPoP lib call.material now).filter
    (·.thumbprint == call.registration.thumbprint) with
  | none => return .error .unauthenticated
  | some signed =>
    let reserved ← Program.ask (P := port)
      (.reserve call.maxEntries signed.thumbprint signed.jti (ofUnix signed.iat) now)
    match reserved with
    | .error .replay => return .error .unauthenticated
    | .error .unavailable => return .error .temporarilyUnavailable
    | .ok () =>
      match call.registration.identity with
      | none => return .error .temporarilyUnavailable
      | some identity => return .ok identity

/-! ## Runs -/

/-- A reservation that call `call` has committed. -/
structure Reservation where
  call : Nat
  thumbprint : Digest
  jti : String
  issuedAt : Time

/-- The database, and the reservations that calls have committed. -/
structure World where
  db : Db
  reserved : List Reservation

/-- The reservation of call `i`. -/
def World.reserve (i maxEntries : Nat) (thumbprint : Digest) (jti : String) (issuedAt now : Time)
    (w : World) : Except ReplayError (Unit × World) :=
  (PrimitivesStaging.reserve maxEntries thumbprint jti issuedAt now w.db).map fun (_, db) =>
    ((), ⟨db, w.reserved ++ [⟨i, thumbprint, jti, issuedAt⟩]⟩)

/-- The answers to the requests of call `i`: any reading of the clock; a reservation is committed,
rolled back, or committed and reported as failed. -/
def sem : Sem port Nat World := fun i r w ans w' =>
  match r, ans with
  | .now, _ => w' = w
  | .reserve maxEntries thumbprint jti issuedAt now, ans =>
    Attempt (World.reserve i maxEntries thumbprint jti issuedAt now) w ans w'

/-- The runs of the authenticators over a database. A restart drops the calls under way and leaves
the database. -/
abbrev Reach (lib : Library) (db : Db) (p : Pool port Nat Call (Except AuthError Identity) World) :
    Prop :=
  Pool.Reach sem (fun _ _ => False) (authenticate lib) ⟨db, []⟩ p

/-- Where they are of one key and one `jti`, the proofs of the reservations were issued five seconds
apart or more. -/
def Reservation.Apart (a b : Reservation) : Prop := a.thumbprint = b.thumbprint → a.jti = b.jti →
    unixMilli a.issuedAt + 5000 ≤ unixMilli b.issuedAt ∨
      unixMilli b.issuedAt + 5000 ≤ unixMilli a.issuedAt

instance : Std.Symm Reservation.Apart := ⟨fun _ _ h hkey hjti => (h hkey.symm hjti.symm).symm⟩

/-- The reservations are apart, and the row of a reservation is stored, or the high-water has
reached the end of its retention. -/
structure Spaced (w : World) : Prop where
  apart : w.reserved.Pairwise Reservation.Apart
  stored : ∀ a ∈ w.reserved, (∃ row ∈ w.db.proofReplays, row.thumbprint = a.thumbprint ∧
    row.proofJTI = a.jti ∧ unixMilli a.issuedAt + 70000 ≤ row.retainUntilMS) ∨
      unixMilli a.issuedAt + 70000 ≤ w.db.wallHighWaterMS

/-- The proof of a reservation is fresh on the clock that the reservation is made with. -/
def Request.Timely : Request → Prop
  | .now => True
  | .reserve _ _ _ issuedAt clock => fresh issuedAt clock = true

theorem le_retainUntil (issuedAt now : Time) :
    unixMilli issuedAt + 70000 ≤ retainUntil issuedAt now := by
  unfold retainUntil
  dsimp only
  split
  all_goals
    simp only [unixMilli, Time.add, millisecond, second] at *
    omega

theorem retainUntilMS_le_of_mem_lapsed {nowMS : Int} {rows : List ProofReplay} {row : ProofReplay}
    (h : row ∈ lapsed nowMS rows) : row.retainUntilMS ≤ nowMS := by
  have hrow := (List.mem_insertionSort _).1 (List.mem_of_mem_take h)
  simpa using (List.mem_filter.1 hrow).2

/-- What a reservation does: it takes a clock at most five seconds behind the high-water, keeps the
rows whose retention has not ended, finds the key in none of them, and stores its row. -/
theorem reserve_ok {maxEntries : Nat} {thumbprint : Digest} {jti : String} {issuedAt now : Time}
    {db db' : Db} (h : reserve maxEntries thumbprint jti issuedAt now db = .ok ((), db')) :
    db.wallHighWaterMS - 5000 ≤ unixMilli now ∧
      db'.wallHighWaterMS = max db.wallHighWaterMS (unixMilli now) ∧
      ∃ rows, (∀ row ∈ db.proofReplays, row ∈ rows ∨ row.retainUntilMS ≤ unixMilli now) ∧
        (∀ row ∈ rows, ¬ (row.thumbprint = thumbprint ∧ row.proofJTI = jti)) ∧
        db'.proofReplays =
          rows ++ [⟨thumbprint, jti, unixMilli issuedAt, retainUntil issuedAt now⟩] := by
  obtain ⟨-, h⟩ := ensure_bind.1 h
  obtain ⟨hclock, h⟩ := ensure_bind.1 h
  obtain ⟨-, h⟩ := ensure_bind.1 h
  obtain ⟨-, h⟩ := ensure_bind.1 h
  obtain ⟨hnew, h⟩ := ensure_bind.1 h
  obtain ⟨-, h⟩ := ensure_bind.1 h
  cases h
  refine ⟨of_decide_eq_true hclock, rfl, _, fun row hrow => ?_, fun row hrow hkey => ?_, rfl⟩
  · by_cases hlapsed : row ∈ lapsed (unixMilli now) db.proofReplays
    · exact .inr (retainUntilMS_le_of_mem_lapsed hlapsed)
    · exact .inl (List.mem_filter.2 ⟨hrow, by simpa using hlapsed⟩)
  · have := List.all_eq_true.1 hnew row hrow
    simp [hkey.1, hkey.2] at this

/-- A timely reservation keeps the reservations apart: an earlier one of its key and `jti` has no
row left, so the high-water has passed the end of its retention, and the new proof is at most 65
seconds older than that. -/
theorem Spaced.sem {w w' : World} {i : Nat} {r : Request} {ans : r.Answer} (htimely : r.Timely)
    (h : Spaced w) (hs : sem i r w ans w') : Spaced w' := by
  cases r with
  | now => rwa [show w' = w from hs]
  | reserve maxEntries thumbprint jti issuedAt now =>
    rcases Attempt.cases hs with rfl | ⟨⟨⟩, hrun⟩
    · exact h
    obtain ⟨⟨⟨⟩, db⟩, hreserve, hw⟩ := map_ok.1 hrun
    cases hw
    obtain ⟨hclock, hwater, rows, hkept, hnew, hrows⟩ := reserve_ok hreserve
    have hstored : ∀ a ∈ w.reserved, (∃ row ∈ rows, row.thumbprint = a.thumbprint ∧
        row.proofJTI = a.jti ∧ unixMilli a.issuedAt + 70000 ≤ row.retainUntilMS) ∨
          unixMilli a.issuedAt + 70000 ≤ db.wallHighWaterMS := by
      intro a ha
      rcases h.stored a ha with ⟨row, hrow, hkey, hjti, hretain⟩ | hpassed
      · rcases hkept row hrow with hrow | hlapsed
        · exact .inl ⟨row, hrow, hkey, hjti, hretain⟩
        · exact .inr (by omega)
      · exact .inr (by omega)
    refine ⟨List.pairwise_append.2 ⟨h.apart, List.pairwise_singleton _ _, ?_⟩, fun a ha => ?_⟩
    · intro a ha b hb hkey hjti
      obtain rfl := List.mem_singleton.1 hb
      rcases hstored a ha with ⟨row, hrow, hkey', hjti', -⟩ | hpassed
      · exact absurd ⟨hkey'.trans hkey, hjti'.trans hjti⟩ (hnew row hrow)
      · have hfresh : now.unixNano - 60 * second ≤ issuedAt.unixNano := by
          simp only [Request.Timely, fresh, Bool.and_eq_true, Bool.not_eq_true',
            Time.before_eq_false_iff, Time.add] at htimely
          exact htimely.2
        simp only [unixMilli, millisecond, second] at *
        exact .inl (by omega)
    · rcases List.mem_append.1 ha with ha | ha
      · rcases hstored a ha with ⟨row, hrow, hkey⟩ | hpassed
        · exact .inl ⟨row, hrows ▸ List.mem_append_left _ hrow, hkey⟩
        · exact .inr hpassed
      · obtain rfl := List.mem_singleton.1 ha
        exact .inl ⟨_, hrows ▸ List.mem_append_right _ (List.mem_singleton_self _), rfl, rfl,
          le_retainUntil _ _⟩

section
variable {lib : Library} {call : Call} {now : Time} {signed : SignedProof}

theorem verifyDPoP_some (h : verifyDPoP lib call.material now = some signed) :
    lib.parseSigned call.material.proof = some signed ∧ fresh (ofUnix signed.iat) now := by
  obtain ⟨hparsed, hchecks⟩ := Option.filter_eq_some_iff.1 h
  rw [Bool.and_eq_true] at hchecks
  exact ⟨hparsed, hchecks.2⟩

/-- A call reserves only a proof that is fresh on the clock it has read. -/
theorem authenticate_only : (authenticate lib call).Only Request.Timely := by
  refine Program.only_ask_bind.2 ⟨trivial, fun read => ?_⟩
  dsimp only
  split
  · trivial
  split
  · trivial
  · next signed hsigned =>
    refine Program.only_ask_bind.2
      ⟨(verifyDPoP_some (Option.filter_eq_some_iff.1 hsigned).1).2, fun reserved => ?_⟩
    split
    · trivial
    · trivial
    · split <;> trivial

/-- The reservations that have been committed stay. -/
def Grows (w w' : World) : Prop := w.reserved ⊆ w'.reserved

theorem sem_grows {i : Nat} {r : Request} {w w' : World} {ans : r.Answer}
    (h : sem i r w ans w') : Grows w w' := by
  cases r with
  | now => rw [show w' = w from h]; exact fun _ => id
  | reserve maxEntries thumbprint jti issuedAt now =>
    rcases Attempt.cases h with rfl | ⟨_, hrun⟩
    · exact fun _ => id
    · obtain ⟨_, -, hw⟩ := map_ok.1 hrun
      cases hw
      exact List.subset_append_left _ _

/-- A call that succeeds has committed the reservation of the proof it presents. -/
def Committed (lib : Library) (i : Nat) (call : Call) (result : Except AuthError Identity)
    (w : World) : Prop :=
  ∀ identity, result = .ok identity → ∃ signed, lib.parseSigned call.material.proof = some signed ∧
    ⟨i, signed.thumbprint, signed.jti, ofUnix signed.iat⟩ ∈ w.reserved

theorem Committed.mono {i : Nat} {result : Except AuthError Identity} {w w' : World}
    (h : Committed lib i call result w) (hgrows : Grows w w') : Committed lib i call result w' :=
  fun identity hok => (h identity hok).imp fun _ h => ⟨h.1, hgrows h.2⟩

theorem authenticate_meets (i : Nat) (w : World) : (authenticate lib call).Meets (sem i)
    (fun _ => True) Grows (fun _ _ => True) (Committed lib i call) w := by
  refine Program.meets_ask_bind.2 fun t _ _ read u _ => ⟨trivial, trivial, ?_⟩
  dsimp only
  split
  · exact fun _ h => by cases h
  split
  · exact fun _ h => by cases h
  · next signed hsigned =>
    refine Program.meets_ask_bind.2 fun t _ _ reserved u hs => ⟨trivial, trivial, ?_⟩
    split
    · exact fun _ h => by cases h
    · exact fun _ h => by cases h
    · have hs : Attempt (World.reserve i _ _ _ _ _) t (.ok ()) u := hs
      obtain ⟨_, -, hw⟩ := map_ok.1 hs.ok
      cases hw
      split
      · exact fun _ h => by cases h
      · exact fun _ _ => ⟨signed, (verifyDPoP_some (Option.filter_eq_some_iff.1 hsigned).1).1,
          by simp⟩

end

/-- Two calls that succeed with one key and one `jti` present proofs issued five seconds apart or
more. -/
theorem accepted_apart (lib : Library) {db : Db}
    {p : Pool port Nat Call (Except AuthError Identity) World} (hp : Reach lib db p) {i j : Nat}
    (hij : i ≠ j) {call call' : Call} {identity identity' : Identity}
    (hi : p.Returned i call (.ok identity)) (hj : p.Returned j call' (.ok identity'))
    {signed signed' : SignedProof} (hsigned : lib.parseSigned call.material.proof = some signed)
    (hsigned' : lib.parseSigned call'.material.proof = some signed')
    (hkey : signed.thumbprint = signed'.thumbprint) (hjti : signed.jti = signed'.jti) :
    signed.iat + 5 ≤ signed'.iat ∨ signed'.iat + 5 ≤ signed.iat := by
  have hspaced : Spaced p.shared := hp.invariant_only (fun _ => authenticate_only)
    ⟨.nil, fun _ h => absurd h List.not_mem_nil⟩ (fun _ _ _ _ _ hr h hs => h.sem hr hs)
    fun _ _ _ h => h.elim
  have hreserved : ∀ {i : Nat} {call : Call} {identity : Identity} {signed : SignedProof},
      p.Returned i call (.ok identity) → lib.parseSigned call.material.proof = some signed →
      ⟨i, signed.thumbprint, signed.jti, ofUnix signed.iat⟩ ∈ p.shared.reserved := by
    intro i call identity signed hi hsigned
    have hcommitted := Pool.Reach.returned_growing hp Grows (fun _ _ => id)
      (fun _ _ _ h h' _ ha => h' (h ha)) (fun _ _ _ _ _ => sem_grows) (fun _ _ => False.elim)
      (Committed lib) (fun _ _ _ _ _ => Committed.mono) (fun i _ => authenticate_meets i) hi
    obtain ⟨signed', hsigned', hmem⟩ := hcommitted identity rfl
    rw [hsigned, Option.some.injEq] at hsigned'
    exact hsigned' ▸ hmem
  have h := hspaced.apart.forall (hreserved hi hsigned) (hreserved hj hsigned')
    (fun h => hij (congrArg Reservation.call h)) hkey hjti
  simp only [unixMilli, ofUnix, millisecond, second] at h
  omega

/-! ## Runs on one key and one `jti` -/

/-- A key thumbprint and the digest of the token. -/
def sampleThumbprint : Digest := .zero

/-- A proof of the key, issued at a second. -/
def sampleSigned (iat : Nat) : SignedProof :=
  ⟨"ES256", "dpop+jwt", sampleThumbprint, "AAAAAAAAAAAAAAAA", "POST", "u",
    Relay.Audit.encodeDigest sampleThumbprint, iat⟩

/-- Libraries that read two proofs of the key and of one `jti`, issued 100 seconds apart. -/
def sampleLibrary : Library where
  sha256 _ := sampleThumbprint
  parseSigned proof := some (sampleSigned (if proof == "first" then 0 else 100))
  validPublicURI _ := true
  toUpper := id

/-- A call that presents a proof. -/
def sampleCall (proof : String) : Call :=
  ⟨⟨"t", "p", sampleThumbprint, sampleThumbprint, ofUnix 900⟩, 1, ⟨"c", proof, "POST", "u"⟩⟩

/-- The database after the reservation of the proof issued at a second. -/
def sampleDb (iat : Nat) : Db :=
  ⟨iat * 1000, [⟨sampleThumbprint, "AAAAAAAAAAAAAAAA", iat * 1000, iat * 1000 + 70000⟩]⟩

/-- Each of the proofs is accepted when it is issued. -/
theorem sampleCalls_accepted : ∃ p, Reach sampleLibrary ⟨0, []⟩ p ∧
    p.Returned 0 (sampleCall "first") (.ok ⟨"t", "p"⟩) ∧
    p.Returned 1 (sampleCall "second") (.ok ⟨"t", "p"⟩) := by
  have h₀ : Reach sampleLibrary ⟨0, []⟩ (Pool.init ⟨⟨0, []⟩, []⟩) := .refl
  have h₁ := Pool.Reach.exec h₀ (i := 0) (c := sampleCall "first") rfl
    (Program.exec_ask_bind.2 ⟨ofUnix 0, _, rfl, Program.exec_ask_bind.2
      ⟨.ok (), ⟨sampleDb 0, _⟩, Attempt.committed rfl, .done⟩⟩)
  have h₂ := Pool.Reach.exec h₁ (i := 1) (c := sampleCall "second") rfl
    (Program.exec_ask_bind.2 ⟨ofUnix 100, _, rfl, Program.exec_ask_bind.2
      ⟨.ok (), ⟨sampleDb 100, _⟩, Attempt.committed rfl, .done⟩⟩)
  exact ⟨_, h₂, rfl, rfl⟩

/-- The two accepted calls present proofs that were issued apart. -/
theorem accepted_apart_sample : ∃ p, Reach sampleLibrary ⟨0, []⟩ p ∧
    ((sampleSigned 0).iat + 5 ≤ (sampleSigned 100).iat ∨
      (sampleSigned 100).iat + 5 ≤ (sampleSigned 0).iat) := by
  obtain ⟨p, hp, h0, h1⟩ := sampleCalls_accepted
  exact ⟨p, hp, accepted_apart sampleLibrary hp Nat.zero_ne_one h0 h1 rfl rfl rfl rfl⟩

/-- A key that uses its `jti` again once the row has been deleted has two calls accepted. -/
theorem jti_accepted_twice : ¬ ∀ (lib : Library) (db : Db)
    (p : Pool port Nat Call (Except AuthError Identity) World), Reach lib db p →
      ∀ (i j : Nat) (call call' : Call) (identity identity' : Identity)
        (signed signed' : SignedProof), p.Returned i call (.ok identity) →
        p.Returned j call' (.ok identity') → lib.parseSigned call.material.proof = some signed →
        lib.parseSigned call'.material.proof = some signed' →
        signed.thumbprint = signed'.thumbprint → signed.jti = signed'.jti → i = j := by
  intro once
  obtain ⟨p, hp, h0, h1⟩ := sampleCalls_accepted
  exact absurd (once _ _ p hp 0 1 _ _ _ _ _ _ h0 h1 rfl rfl rfl rfl) Nat.zero_ne_one

end YukhCoordination.PrimitivesStaging
