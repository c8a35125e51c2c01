import YukhCoordination.Lib.Program
import YukhCoordination.Relay.Identity.Effect

/-!
# The identity provider

The model of `dpop.go` and `verifier.go`, and of `Bootstrap` and `Authenticate` of `provider.go`.
The libraries are parameters, and clocks, generators and the auditor answer anything.
-/

namespace YukhCoordination.Relay.Identity

open Lifecycle Transaction Interleave
open Coordination (Time Duration second millisecond)
open Audit (Digest AuditRecord AuditOperation AuditOutcome AuditReason)

/-! ## Proofs -/

/-- `errInvalid` and `errUnavailable`. -/
inductive VerifyError where
  | invalid
  | unavailable
  deriving DecidableEq, Repr

/-- `Proof`. -/
structure Proof where
  jwkThumbprint : Digest
  jti : String
  issuedAt : Time
  deriving DecidableEq, Repr

/-- A proof whose parts `decodeCompact`, `rawObject` and `parseDPoPPublicKey` have read and whose
signature is one of its own key: the header, the thumbprint of the key, and the claims. -/
structure SignedProof where
  alg : String
  typ : String
  thumbprint : Digest
  jti : String
  htm : String
  htu : String
  ath : String
  iat : Nat
  deriving DecidableEq, Repr

/-- The libraries that the provider calls. -/
structure Library where
  sha256 : String → Digest
  parseSigned : String → Option SignedProof
  validPublicURI : String → Bool
  toUpper : String → String

/-- `asciiOnly`. -/
def asciiOnly (value : String) : Bool := value.toList.all fun c => c.toNat ≤ 0x7f

/-- The bounds of `rawString`. -/
def sized (min max : Nat) (value : String) : Bool :=
  min ≤ value.utf8ByteSize && value.utf8ByteSize ≤ max

/-- `DPoPVerifier.Verify`, with what it reads from the clock. -/
def verify (lib : Library) (proof credential method targetURI : String) (now : Time) :
    Except VerifyError Proof := do
  ensure (credential != "" && asciiOnly credential && method != "" &&
    method == lib.toUpper method && lib.validPublicURI targetURI) .invalid
  let signed ← required (lib.parseSigned proof) .invalid
  ensure (signed.alg == "ES256" && signed.typ == "dpop+jwt") .invalid
  ensure (sized 16 128 signed.jti && base64URL signed.jti) .invalid
  ensure (sized 1 16 signed.htm && signed.htm == method) .invalid
  ensure (sized 1 4096 signed.htu && lib.validPublicURI signed.htu && signed.htu == targetURI)
    .invalid
  ensure (sized 43 43 signed.ath && signed.ath == Audit.encodeDigest (lib.sha256 credential))
    .invalid
  ensure (signed.iat ≤ maxJSONSafeInt) .invalid
  let issuedAt : Time := ⟨signed.iat * second, true⟩
  ensure (!issuedAt.after (now.toUTC.add (5 * second)) &&
    !issuedAt.before (now.toUTC.add (-60 * second))) .invalid
  return ⟨signed.thumbprint, signed.jti, issuedAt⟩

/-! ## Requests -/

/-- `externalIdentity`. -/
structure ExternalIdentity where
  tenantID : String
  principalID : String
  thumbprint : Digest
  expiresAt : Time
  deriving DecidableEq, Repr

/-- `BootstrapIdentity`. -/
structure BootstrapIdentity where
  tenantID : String
  principalID : String
  dpopThumbprint : Digest
  tokenExpiresAt : Time
  proofJTI : String
  proofIssuedAt : Time
  deriving DecidableEq, Repr

/-- The requests of the provider. -/
inductive Request where
  | newID
  | now
  | random
  | verifyExternalToken (token : String)
  | registry (op : Operation)
  | record (record : AuditRecord)

/-- The answers: a UUID, a reading of the clock, 32 random bytes, the identity of the token, the
answer of the registry, and the receipt of the auditor. -/
abbrev Request.Answer : Request → Type
  | .newID => Option String
  | .now => Time
  | .random => Option Digest
  | .verifyExternalToken _ => Except VerifyError ExternalIdentity
  | .registry op => Except RegistryError op.Answer
  | .record _ => Option String

/-- The port of the provider. -/
abbrev port : Port := ⟨Request, Request.Answer⟩

/-- The programs of the provider. -/
abbrev Proc := Program port

/-- A request with its answer. -/
abbrev ask (r : Request) : Proc r.Answer := Program.ask (P := port) r

/-- `BootstrapAuthentication` and `SessionAuthentication`. -/
structure Material where
  credential : String
  proof : String
  method : String
  targetURI : String
  deriving DecidableEq, Repr

/-- `IssuedSession`. -/
structure IssuedSession where
  sessionToken : String
  participantInstanceID : String
  sessionEpoch : Nat
  issuedAt : Time
  expiresAt : Time
  deriving DecidableEq, Repr

/-- `httpapi.Identity`. -/
structure SessionIdentity where
  tenantID : String
  principalID : String
  participantInstanceID : String
  sessionEpoch : Nat
  deriving DecidableEq, Repr

/-- `httpapi.ErrUnauthenticated` and `httpapi.ErrAuthenticationUnavailable`. -/
inductive PublicError where
  | unauthenticated
  | authenticationUnavailable
  deriving DecidableEq, Repr

/-! ## Audit records -/

/-- `failure`. -/
structure Failure where
  outcome : AuditOutcome
  reason : AuditReason
  shown : PublicError
  deriving DecidableEq, Repr

/-- `classifyVerification`. -/
def classifyVerification : VerifyError → Failure
  | .invalid => ⟨.deny, .invalidCredential, .unauthenticated⟩
  | .unavailable => ⟨.unavailable, .verificationUnavailable, .authenticationUnavailable⟩

/-- `classifyRegistry`. -/
def classifyRegistry : RegistryError → Failure
  | .proofReplay => ⟨.deny, .proofReplay, .unauthenticated⟩
  | .sessionNotFound | .sessionConflict => ⟨.deny, .inactiveSession, .unauthenticated⟩
  | _ => ⟨.unavailable, .registryUnavailable, .authenticationUnavailable⟩

/-- `auditRecord`. -/
def auditRecord (operationID : String) (operation : AuditOperation) (outcome : AuditOutcome)
    (reason : AuditReason) (at_ : Time) (thumbprint : Option Digest) : AuditRecord where
  profileVersion := 1
  operationID := operationID
  operation := operation
  outcome := outcome
  reason := reason
  decisionTime := at_
  tenantID := ""
  principalID := ""
  participantInstanceID := ""
  sessionEpoch := 0
  dpopThumbprint := thumbprint.getD Digest.zero
  hasDPoPThumbprint := thumbprint.isSome
  authorityReference := ""
  jwksSetDigest := Digest.zero
  hasJWKSSetDigest := false
  checkpointReference := ""
  signingKeyReference := ""
  recoveryReference := ""
  serviceProfile := ""
  action := ""
  identityReference := ""

/-- `validTenantAuditIdentity`. -/
def validTenantAuditIdentity (record : AuditRecord) (required : Bool) : Bool :=
  let hasTenant := record.tenantID != "" || record.principalID != ""
  let hasSession := record.participantInstanceID != "" || record.sessionEpoch != 0
  (!hasTenant || (Audit.tenantPattern record.tenantID && Audit.validDigestText record.principalID))
    && (!hasSession || (validUUIDv7 record.participantInstanceID && record.sessionEpoch != 0 &&
      record.sessionEpoch ≤ maxJSONSafeInt && hasTenant)) &&
    (!required || (hasTenant && hasSession))

/-- `validAuditRecord`. -/
def validAuditRecord (record : AuditRecord) : Bool :=
  let reasons (allowed : List AuditReason) := allowed.contains record.reason
  validUUIDv7 record.operationID && record.profileVersion == 1 &&
    Audit.validMillis record.decisionTime &&
    match record.operation with
    | .revocation => record.outcome == .allow && record.reason == .revoked &&
      Audit.tenantPattern record.tenantID && record.principalID == "" &&
      validUUIDv7 record.participantInstanceID && 0 < record.sessionEpoch &&
      record.sessionEpoch ≤ maxJSONSafeInt && record.authorityReference != "" &&
      !record.hasDPoPThumbprint && !record.hasJWKSSetDigest && record.checkpointReference == "" &&
      record.signingKeyReference == "" && record.recoveryReference == ""
    | .bootstrap | .authentication =>
      (match record.outcome with
        | .allow => record.reason == .allowed && validTenantAuditIdentity record true &&
          record.hasDPoPThumbprint
        | .deny => reasons [.invalidCredential, .proofReplay, .inactiveSession] &&
          validTenantAuditIdentity record false
        | .unavailable =>
          reasons [.verificationUnavailable, .registryUnavailable, .materialCollision] &&
          validTenantAuditIdentity record false) &&
      (record.hasDPoPThumbprint || record.dpopThumbprint == Digest.zero)
    | _ => false

/-- `recordAudit`: the receipt of the auditor. -/
def recordAudit (record : AuditRecord) : Proc (Option String) :=
  if validAuditRecord record then ask (.record record) else pure none

/-- `p.now().UTC().Truncate(time.Millisecond)`. -/
def decisionTime : Proc Time := do
  let now ← ask .now
  return now.toUTC.truncateMillisecond

/-- `recordFailure`: whether the failure has been recorded. -/
def recordFailure (operationID : String) (operation : AuditOperation) (result : Failure)
    (external : Option BootstrapIdentity) (proof : Option Proof) : Proc Bool := do
  let thumbprint := match external with
    | some external => some external.dpopThumbprint
    | none => proof.map (·.jwkThumbprint)
  let at_ ← decisionTime
  let record := auditRecord operationID operation result.outcome result.reason at_ thumbprint
  let record := match external with
    | some external =>
      { record with tenantID := external.tenantID, principalID := external.principalID }
    | none => record
  let receipt ← recordAudit record
  return receipt.isSome

/-- `auditFailure`: the error for the caller. -/
def auditFailure (operationID : String) (operation : AuditOperation) (result : Failure)
    (external : Option BootstrapIdentity) (proof : Option Proof) : Proc PublicError := do
  let recorded ← recordFailure operationID operation result external proof
  return if recorded then result.shown else .authenticationUnavailable

/-! ## Bootstrap -/

/-- `nextID`. -/
def nextID : Proc (Option String) := do
  let value ← ask .newID
  return value.filter validUUIDv7

/-- `sessionTokenDigest`. -/
def sessionTokenDigest (lib : Library) (token : String) : Digest :=
  lib.sha256 ("yukh-coordination:session-token:v1\n" ++ token)

/-- The result of `generateSessionMaterial`. -/
structure SessionMaterial where
  token : String
  digest : Digest
  participantID : String
  operationID : String

/-- `generateSessionMaterial`. -/
def generateSessionMaterial (lib : Library) : Proc (Option SessionMaterial) := do
  let secret ← ask .random
  match secret with
  | none => return none
  | some secret =>
    let participantID ← nextID
    match participantID with
    | none => return none
    | some participantID =>
      let operationID ← nextID
      match operationID with
      | none => return none
      | some operationID =>
        let token := Audit.encodeDigest secret
        return some ⟨token, sessionTokenDigest lib token, participantID, operationID⟩

/-- `VerifyBootstrap`. -/
def verifyBootstrap (lib : Library) (material : Material) :
    Proc (Except VerifyError BootstrapIdentity) := do
  let now ← ask .now
  match verify lib material.proof material.credential material.method material.targetURI now with
  | .error e => return .error e
  | .ok proof =>
    let external ← ask (.verifyExternalToken material.credential)
    match external with
    | .error e => return .error e
    | .ok external =>
      if proof.jwkThumbprint != external.thumbprint then return .error .invalid
      else return .ok ⟨external.tenantID, external.principalID, proof.jwkThumbprint,
        external.expiresAt, proof.jti, proof.issuedAt⟩

/-- The failure of a bootstrap that the registry cannot serve. -/
def registryFailure : Failure := ⟨.unavailable, .registryUnavailable, .authenticationUnavailable⟩

/-- The reservation of a bootstrap. -/
def bootstrapReservation (external : BootstrapIdentity) (generated : SessionMaterial)
    (issuedAt expiresAt : Time) : BootstrapReservation where
  session := ⟨external.tenantID, external.principalID, generated.participantID, 0, generated.digest,
    external.dpopThumbprint, issuedAt, expiresAt, generated.operationID⟩
  proofJTI := external.proofJTI
  proofIAT := external.proofIssuedAt

/-- The allow record of a bootstrap. -/
def bootstrapRecord (external : BootstrapIdentity) (generated : SessionMaterial)
    (pending : PendingSession) (issuedAt : Time) : AuditRecord :=
  { auditRecord generated.operationID .bootstrap .allow .allowed issuedAt
      (some external.dpopThumbprint) with
    tenantID := pending.tenantID, principalID := pending.principalID,
    participantInstanceID := pending.participantInstanceID, sessionEpoch := pending.sessionEpoch }

/-- `Bootstrap` after a reservation: the audit record and the activation. -/
def activate (external : BootstrapIdentity) (generated : SessionMaterial)
    (pending : PendingSession) (issuedAt expiresAt : Time) :
    Proc (Except PublicError IssuedSession) := do
  let receipt ← recordAudit (bootstrapRecord external generated pending issuedAt)
  match receipt with
  | none => return .error .authenticationUnavailable
  | some receipt =>
    let activated ← ask (.registry (.activateBootstrap generated.operationID receipt))
    match activated with
    | .error _ => return .error .authenticationUnavailable
    | .ok _ => return .ok ⟨generated.token, pending.participantInstanceID, pending.sessionEpoch,
        issuedAt, expiresAt⟩

/-- The loop of `Bootstrap` over the generated material, with the attempts that are left. -/
def bootstrapAttempts (lib : Library) (attemptID : String) (external : BootstrapIdentity)
    (issuedAt expiresAt : Time) : Nat → Proc (Except PublicError IssuedSession)
  | 0 => do
    let e ← auditFailure attemptID .bootstrap registryFailure (some external) none
    return .error e
  | attempts + 1 => do
    let generated ← generateSessionMaterial lib
    match generated with
    | none =>
      let e ← auditFailure attemptID .bootstrap registryFailure (some external) none
      return .error e
    | some generated =>
      let reserved ← ask
        (.registry (.reserveBootstrap (bootstrapReservation external generated issuedAt expiresAt)))
      match reserved with
      | .ok pending => activate external generated pending issuedAt expiresAt
      | .error .sessionConflict =>
        let collisionID ← nextID
        match collisionID with
        | none => return .error .authenticationUnavailable
        | some collisionID =>
          let recorded ← recordFailure collisionID .bootstrap
            ⟨.unavailable, .materialCollision, .authenticationUnavailable⟩ (some external) none
          if recorded then bootstrapAttempts lib attemptID external issuedAt expiresAt attempts
          else return .error .authenticationUnavailable
      | .error e =>
        let e ← auditFailure generated.operationID .bootstrap (classifyRegistry e) (some external)
          none
        return .error e

/-- The end of a session: it does not outlive its external token. -/
def sessionExpiry (external : BootstrapIdentity) (issuedAt : Time) : Time :=
  let latest := issuedAt.add (15 * 60 * second)
  if external.tokenExpiresAt.before latest then external.tokenExpiresAt.toUTC.truncateMillisecond
  else latest

/-- `Provider.Bootstrap`. -/
def bootstrap (lib : Library) (material : Material) : Proc (Except PublicError IssuedSession) := do
  let attemptID ← nextID
  match attemptID with
  | none => return .error .authenticationUnavailable
  | some attemptID =>
    let external ← verifyBootstrap lib material
    match external with
    | .error e =>
      let e ← auditFailure attemptID .bootstrap (classifyVerification e) none none
      return .error e
    | .ok external =>
      let issuedAt ← decisionTime
      let expiresAt := sessionExpiry external issuedAt
      if expiresAt.after issuedAt then
        bootstrapAttempts lib attemptID external issuedAt expiresAt 3
      else
        let e ← auditFailure attemptID .bootstrap
          ⟨.unavailable, .verificationUnavailable, .authenticationUnavailable⟩ (some external) none
        return .error e

/-! ## Authenticate -/

/-- The record of an accepted session. -/
def authenticationRecord (operationID : String) (proof : Proof) (active : ActiveSession)
    (at_ : Time) : AuditRecord :=
  { auditRecord operationID .authentication .allow .allowed at_ (some proof.jwkThumbprint) with
    tenantID := active.tenantID, principalID := active.principalID,
    participantInstanceID := active.participantInstanceID, sessionEpoch := active.sessionEpoch }

/-- The reservation of a verified proof for a session. -/
def authenticationReservation (lib : Library) (material : Material) (proof : Proof) :
    AuthenticationReservation :=
  ⟨sessionTokenDigest lib material.credential, proof.jwkThumbprint, proof.jti, proof.issuedAt⟩

/-- `Provider.Authenticate` after the verification of the proof. -/
def authenticateProof (lib : Library) (material : Material) (operationID : String)
    (proof : Proof) : Proc (Except PublicError SessionIdentity) := do
  let active ← ask (.registry (.authenticate (authenticationReservation lib material proof)))
  match active with
  | .error e =>
    let e ← auditFailure operationID .authentication (classifyRegistry e) none (some proof)
    return .error e
  | .ok active =>
    let at_ ← decisionTime
    let receipt ← recordAudit (authenticationRecord operationID proof active at_)
    match receipt with
    | none => return .error .authenticationUnavailable
    | some _ => return .ok ⟨active.tenantID, active.principalID, active.participantInstanceID,
        active.sessionEpoch⟩

/-- `Provider.Authenticate`. -/
def authenticateSession (lib : Library) (material : Material) :
    Proc (Except PublicError SessionIdentity) := do
  let operationID ← nextID
  match operationID with
  | none => return .error .authenticationUnavailable
  | some operationID =>
    let now ← ask .now
    match verify lib material.proof material.credential material.method material.targetURI now with
    | .error e =>
      let e ← auditFailure operationID .authentication (classifyVerification e) none none
      return .error e
    | .ok proof => authenticateProof lib material operationID proof

/-! ## Calls -/

/-- The calls of a run. -/
inductive Invocation where
  | bootstrap (material : Material)
  | authenticate (material : Material)
  | cleanupProofs

/-- What a call returns. -/
inductive Result where
  | bootstrap (result : Except PublicError IssuedSession)
  | authenticate (result : Except PublicError SessionIdentity)
  | cleanupProofs (result : Except RegistryError Nat)

/-- The program of a call. -/
def body (lib : Library) : Invocation → Proc Result
  | .bootstrap material => do
    let result ← Identity.bootstrap lib material
    return .bootstrap result
  | .authenticate material => do
    let result ← authenticateSession lib material
    return .authenticate result
  | .cleanupProofs => do
    let result ← ask (.registry .cleanupProofs)
    return .cleanupProofs result

end YukhCoordination.Relay.Identity
