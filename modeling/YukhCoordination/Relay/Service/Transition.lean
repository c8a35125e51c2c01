import YukhCoordination.Lib.Dict
import YukhCoordination.Lib.Transaction
import YukhCoordination.Relay.Protocol.Event

/-!
# The transition validator

The model of `internal/relay/service/transition.go`. An event is admitted against the records before
it: they are replayed into a `TranscriptState`, page by page, and the event is applied to it.

The Go maps hold pointers, so that a claim and the offers on it are shared between maps. Here an
offer is named by the id of its event and a claim by its key, and the objects themselves are in
`offers` and `claims`: a key is used for one claim only, and event ids are distinct in a transcript,
so a name never changes its object.
-/

namespace YukhCoordination.Relay.Service

open Protocol Transaction

/-! ## State -/

/-- `transitionEvent`. -/
structure TransitionEvent where
  id : String
  kind : EventType
  channel : String
  correlation : String
  causation : String
  work : String
  data : Object
  evidence : List Descriptor
  deriving DecidableEq, Repr

/-- `claimState`; `offers` are the event ids of the open offers. -/
structure ClaimState where
  id : String
  generation : String
  root : String
  work : String
  last : String
  active : Bool
  offers : List String
  deriving DecidableEq, Repr

/-- `offerState`; `claim` is the key of the claim. -/
structure OfferState where
  eventID : String
  handoffID : String
  recipient : String
  boundaryDigest : String
  evidenceDigest : String
  claim : String
  accepted : Bool
  deriving DecidableEq, Repr

/-- `transcriptState`. -/
structure TranscriptState where
  events : Dict String TransitionEvent := .empty
  claims : Dict String ClaimState := .empty
  used : List String := []
  offers : Dict String OfferState := .empty
  accepted : Dict String String := .empty

/-- The codes of a `transitionFailure`. -/
inductive FailureCode where
  | unresolvedCausation
  | invalidReference
  | invalidClaimTransition
  | resourceLimit
  | invalidPayload
  | handoffPreconditionFailed
  deriving DecidableEq, Repr

/-- `transitionFailure`: a code and the error it wraps. -/
structure TransitionFailure where
  code : FailureCode
  sentinel : Relay.Error
  deriving DecidableEq, Repr

/-- `parseTransitionEvent`, for a decoded event. -/
def TransitionEvent.of (event : Event) : TransitionEvent where
  id := event.id
  kind := event.type
  channel := event.channel
  correlation := event.correlationID.getD ""
  causation := event.causationID.getD ""
  work := event.work.getD ""
  data := event.data
  evidence := event.evidence

/-- `claimKey`. -/
def claimKey (id generation : String) : String := id ++ "\x00" ++ generation

/-- The claim key of a payload. -/
def payloadKey (data : Object) : String := claimKey (text data "claim_id") (text data "generation")

/-- `activeClaims`. -/
def activeClaims (claims : Dict String ClaimState) (work : String) : Nat :=
  claims.entries.countP fun e => e.2.active && e.2.work == work

/-! ## Applying an event -/

section
variable (codec : Codec) (s : TranscriptState) (event : TransitionEvent) (participant : String)

/-- The check of `apply` on the causation of an event. -/
def checkCausation : Except TransitionFailure Unit :=
  if event.causation = "" then return ()
  else do
    let parent ← required (s.events.get? event.causation) ⟨.unresolvedCausation,
      .transitionConflict⟩
    let handoffSuccessor := event.kind == .claim &&
      text event.data "predecessor_handoff_event" == event.causation
    ensure (parent.channel == event.channel && parent.work == event.work &&
      (handoffSuccessor || parent.correlation == event.correlation))
      ⟨.invalidReference, .transitionConflict⟩

/-- The acceptance that a claim consumes, if it names one. -/
def consumePredecessor : Except TransitionFailure (Dict String String) :=
  let predecessor := text event.data "predecessor_handoff_event"
  if predecessor = "" then return s.accepted
  else do
    -- A missing entry of the map reads as the empty text.
    ensure ((s.accepted.get? predecessor).getD "" == participant && event.causation == predecessor)
      ⟨.invalidClaimTransition, .transitionConflict⟩
    return s.accepted.erase predecessor

/-- `apply` of a `claim`. -/
def applyClaim : Except TransitionFailure TranscriptState := do
  let key := payloadKey event.data
  ensure (!s.used.contains key) ⟨.invalidClaimTransition, .transitionConflict⟩
  let accepted ← consumePredecessor s event participant
  ensure (activeClaims s.claims event.work < 32) ⟨.resourceLimit, .resourceLimit⟩
  return { s with
    accepted
    used := s.used ++ [key]
    claims := s.claims.set key
      { id := text event.data "claim_id", generation := text event.data "generation",
        root := event.id, work := event.work, last := event.id, active := true, offers := [] } }

/-- `digestBoundary`. -/
def digestBoundary : String :=
  codec.boundaryDigest event.work (text event.data "claim_id") (text event.data "generation")
    (text event.data "boundary") (text event.data "next_action")
    (event.data.get? "unresolved_risks")

/-- The offer that a `handoff_offer` makes. -/
def newOffer : OfferState where
  eventID := event.id
  handoffID := text event.data "handoff_id"
  recipient := text event.data "to_participant_instance_id"
  boundaryDigest := text event.data "boundary_digest"
  evidenceDigest := text event.data "evidence_set_digest"
  claim := payloadKey event.data
  accepted := false

/-- `apply` of a `progress`, a `release` or a `handoff_offer`. -/
def applyLifecycle (enforce : Bool) : Except TransitionFailure TranscriptState := do
  let key := payloadKey event.data
  let parent := text event.data "parent_claim_event_id"
  let claim ← required (s.claims.get? key) ⟨.invalidClaimTransition, .transitionConflict⟩
  ensure (claim.active && claim.work == event.work && parent == claim.last &&
    event.causation == parent) ⟨.invalidClaimTransition, .transitionConflict⟩
  match event.kind with
  | .release => return { s with
      claims := s.claims.set key { claim with active := false, last := event.id, offers := [] } }
  | .progress => return { s with claims := s.claims.set key { claim with last := event.id } }
  | _ =>
    ensure (claim.offers.length < 32) ⟨.resourceLimit, .resourceLimit⟩
    ensure (!enforce || (digestBoundary codec event == text event.data "boundary_digest" &&
      codec.evidenceDigest event.evidence == text event.data "evidence_set_digest"))
      ⟨.invalidPayload, .invalidArgument⟩
    return { s with
      offers := s.offers.set event.id (newOffer event)
      claims := s.claims.set key
        { claim with offers := claim.offers ++ [event.id], last := event.id } }

/-- `apply` of a `handoff_accept`. -/
def applyAccept : Except TransitionFailure TranscriptState := do
  let failure : TransitionFailure := ⟨.handoffPreconditionFailed, .transitionConflict⟩
  let offer ← required (s.offers.get? (text event.data "offer_event_id")) failure
  let claim ← required (s.claims.get? offer.claim) failure
  ensure (!offer.accepted && claim.active && claim.offers.contains offer.eventID &&
    event.causation == offer.eventID && participant == offer.recipient &&
    text event.data "handoff_id" == offer.handoffID &&
    text event.data "source_claim_event_id" == claim.root &&
    text event.data "claim_id" == claim.id && text event.data "generation" == claim.generation &&
    text event.data "boundary_digest" == offer.boundaryDigest &&
    text event.data "evidence_set_digest" == offer.evidenceDigest) failure
  return { s with
    offers := s.offers.map fun id o =>
      if id = offer.eventID ∨ id ∈ claim.offers then { o with accepted := true } else o
    claims := s.claims.set offer.claim { claim with last := event.id, offers := [] }
    accepted := s.accepted.set event.id participant }

/-- `referenceType`. -/
def referenceType (id : String) (kind : EventType) : Bool :=
  match s.events.get? id with
  | some parent => event.causation == id && parent.kind == kind
  | none => false

/-- The loop over the evidence of the referenced event: the number of descriptors with the digest of
the verification, each of which must be the one it describes. -/
def countDescriptors : List Descriptor → Except TransitionFailure Nat
  | [] => return 0
  | descriptor :: rest => do
    if codec.descriptorDigest descriptor = text event.data "descriptor_digest" then
      ensure (text event.data "uri" == descriptor.uri &&
        text event.data "algorithm" == descriptor.digestAlgorithm &&
        text event.data "expected_digest" == "sha-256:" ++ descriptor.digestValue)
        ⟨.invalidPayload, .invalidArgument⟩
      return (← countDescriptors rest) + 1
    else countDescriptors rest

/-- `apply` of an `evidence_verification`. -/
def applyEvidence : Except TransitionFailure TranscriptState := do
  let failure : TransitionFailure := ⟨.invalidReference, .transitionConflict⟩
  let parentID := text event.data "referenced_event_id"
  let parent ← required (s.events.get? parentID) failure
  ensure (event.causation == parentID) failure
  let found ← countDescriptors codec event parent.evidence
  ensure (found == 1) failure
  return s

/-- The switch of `apply` on the type of the event. -/
def applyKind (enforce : Bool) : Except TransitionFailure TranscriptState :=
  let failure : TransitionFailure := ⟨.invalidReference, .transitionConflict⟩
  match event.kind with
  | .claim => applyClaim s event participant
  | .progress | .release | .handoffOffer => applyLifecycle codec s event enforce
  | .handoffAccept => applyAccept s event participant
  | .answer => do
    ensure (referenceType s event (text event.data "question_event_id") .question) failure
    return s
  | .verdict => do
    let review := text event.data "review_event_id"
    ensure (referenceType s event review .reviewRequest) failure
    let parent ← required (s.events.get? review) failure
    ensure (text event.data "evidence_set_digest" == text parent.data "evidence_set_digest") failure
    return s
  | .evidenceVerification => applyEvidence codec s event
  | .join | .presence | .leave | .question | .reviewRequest => return s

/-- `transcriptState.apply`. -/
def apply (enforce candidate : Bool) : Except TransitionFailure TranscriptState := do
  checkCausation s event
  let s ← applyKind codec s event participant enforce
  return if candidate then { s with events := s.events.set event.id event } else s

end

/-! ## What an admitted event does -/

/-- The claim that a `claim` starts. -/
def newClaim (event : TransitionEvent) : ClaimState where
  id := text event.data "claim_id"
  generation := text event.data "generation"
  root := event.id
  work := event.work
  last := event.id
  active := true
  offers := []

/-- `event` follows the last event of the active claim that its key finds. -/
structure Continues (claims : Dict String ClaimState) (event : TransitionEvent)
    (claim : ClaimState) : Prop where
  get : claims.get? (payloadKey event.data) = some claim
  active : claim.active
  work : claim.work = event.work
  causation : event.causation = claim.last

/-- `event` follows the last event of the active claim of the state, and names it as its parent. -/
structure Follows (s : TranscriptState) (event : TransitionEvent) (claim : ClaimState) : Prop
    extends Continues s.claims event claim where
  last : text event.data "parent_claim_event_id" = claim.last

/-- `event` by `participant` accepts the open `offer` on the active `claim`. -/
structure Accepts (s : TranscriptState) (event : TransitionEvent) (participant : String)
    (offer : OfferState) (claim : ClaimState) : Prop where
  getOffer : s.offers.get? (text event.data "offer_event_id") = some offer
  getClaim : s.claims.get? offer.claim = some claim
  pending : offer.accepted = false
  active : claim.active
  isOpen : offer.eventID ∈ claim.offers
  causation : event.causation = offer.eventID
  recipient : participant = offer.recipient
  handoffID : text event.data "handoff_id" = offer.handoffID
  root : text event.data "source_claim_event_id" = claim.root
  claimID : text event.data "claim_id" = claim.id
  generation : text event.data "generation" = claim.generation
  boundaryDigest : text event.data "boundary_digest" = offer.boundaryDigest
  evidenceDigest : text event.data "evidence_set_digest" = offer.evidenceDigest

/-- The reference that an event of a type without effect makes. -/
def Refers (codec : Codec) (s : TranscriptState) (event : TransitionEvent) : Prop :=
  match event.kind with
  | .answer => ∃ parent, s.events.get? (text event.data "question_event_id") = some parent ∧
      event.causation = text event.data "question_event_id" ∧ parent.kind = .question
  | .verdict => ∃ parent, s.events.get? (text event.data "review_event_id") = some parent ∧
      event.causation = text event.data "review_event_id" ∧ parent.kind = .reviewRequest
  | .evidenceVerification => ∃ parent,
      s.events.get? (text event.data "referenced_event_id") = some parent ∧
      event.causation = text event.data "referenced_event_id" ∧
      countDescriptors codec event parent.evidence = .ok 1
  | .join | .presence | .leave | .question | .reviewRequest => True
  | _ => False

/-- The acceptances after a claim: those before it without the one it consumes. -/
inductive Consumes (s : TranscriptState) (event : TransitionEvent) (participant : String) :
    Dict String String → Prop
  | nothing : text event.data "predecessor_handoff_event" = "" →
      Consumes s event participant s.accepted
  | one : text event.data "predecessor_handoff_event" ≠ "" →
      (s.accepted.get? (text event.data "predecessor_handoff_event")).getD "" = participant →
      event.causation = text event.data "predecessor_handoff_event" →
      Consumes s event participant (s.accepted.erase (text event.data "predecessor_handoff_event"))

/-- What the switch of `apply` does to the state, with what it has checked. -/
inductive Transition (codec : Codec) (s : TranscriptState) (event : TransitionEvent)
    (participant : String) : TranscriptState → Prop
  | claimed {accepted : Dict String String} : event.kind = .claim →
      payloadKey event.data ∉ s.used → Consumes s event participant accepted →
      activeClaims s.claims event.work < 32 →
      Transition codec s event participant { s with
        accepted, used := s.used ++ [payloadKey event.data],
        claims := s.claims.set (payloadKey event.data) (newClaim event) }
  | progressed {claim : ClaimState} : event.kind = .progress → Follows s event claim →
      Transition codec s event participant { s with
        claims := s.claims.set (payloadKey event.data) { claim with last := event.id } }
  | released {claim : ClaimState} : event.kind = .release → Follows s event claim →
      Transition codec s event participant { s with
        claims := s.claims.set (payloadKey event.data)
          { claim with active := false, last := event.id, offers := [] } }
  | offered {claim : ClaimState} : event.kind = .handoffOffer → Follows s event claim →
      claim.offers.length < 32 →
      Transition codec s event participant { s with
        offers := s.offers.set event.id (newOffer event),
        claims := s.claims.set (payloadKey event.data)
          { claim with offers := claim.offers ++ [event.id], last := event.id } }
  | accepted {offer : OfferState} {claim : ClaimState} : event.kind = .handoffAccept →
      Accepts s event participant offer claim →
      Transition codec s event participant { s with
        offers := s.offers.map fun id o =>
          if id = offer.eventID ∨ id ∈ claim.offers then { o with accepted := true } else o,
        claims := s.claims.set offer.claim { claim with last := event.id, offers := [] },
        accepted := s.accepted.set event.id participant }
  | referred : Refers codec s event → Transition codec s event participant s

section
variable {codec : Codec} {s s' : TranscriptState} {event : TransitionEvent} {participant : String}
  {enforce candidate : Bool}

theorem consumePredecessor_ok {accepted : Dict String String}
    (h : consumePredecessor s event participant = .ok accepted) :
    Consumes s event participant accepted := by
  unfold consumePredecessor at h
  simp only at h
  split at h
  · next hp =>
    cases h
    exact .nothing hp
  · next hp =>
    obtain ⟨hc, h⟩ := ensure_bind.1 h
    cases h
    simp only [Bool.and_eq_true, beq_iff_eq] at hc
    exact .one hp hc.1 hc.2

theorem applyClaim_ok (hk : event.kind = .claim) (h : applyClaim s event participant = .ok s') :
    Transition codec s event participant s' := by
  unfold applyClaim at h
  obtain ⟨hused, h⟩ := ensure_bind.1 h
  obtain ⟨accepted, hacc, h⟩ := bind_ok.1 h
  obtain ⟨hlimit, h⟩ := ensure_bind.1 h
  cases h
  exact .claimed hk (by simpa using hused) (consumePredecessor_ok hacc) (by simpa using hlimit)

theorem applyLifecycle_ok
    (hk : event.kind = .progress ∨ event.kind = .release ∨ event.kind = .handoffOffer)
    (h : applyLifecycle codec s event enforce = .ok s') :
    Transition codec s event participant s' := by
  unfold applyLifecycle at h
  obtain ⟨claim, hget, h⟩ := required_bind.1 h
  obtain ⟨hc, h⟩ := ensure_bind.1 h
  simp only [Bool.and_eq_true, beq_iff_eq] at hc
  obtain ⟨⟨⟨hactive, hwork⟩, hlast⟩, hcause⟩ := hc
  have hf : Follows s event claim := ⟨⟨hget, hactive, hwork, hcause.trans hlast⟩, hlast⟩
  rcases hk with hk | hk | hk <;> rw [hk] at h
  · cases h
    exact .progressed hk hf
  · cases h
    exact .released hk hf
  · obtain ⟨hlimit, h⟩ := ensure_bind.1 h
    obtain ⟨-, h⟩ := ensure_bind.1 h
    cases h
    exact .offered hk hf (by simpa using hlimit)

theorem applyAccept_ok (hk : event.kind = .handoffAccept)
    (h : applyAccept s event participant = .ok s') : Transition codec s event participant s' := by
  unfold applyAccept at h
  obtain ⟨offer, ho, h⟩ := required_bind.1 h
  obtain ⟨claim, hcl, h⟩ := required_bind.1 h
  obtain ⟨hc, h⟩ := ensure_bind.1 h
  cases h
  simp only [Bool.and_eq_true, beq_iff_eq, Bool.not_eq_true', List.contains_iff_mem] at hc
  obtain ⟨⟨⟨⟨⟨⟨⟨⟨⟨⟨h1, h2⟩, h3⟩, h4⟩, h5⟩, h6⟩, h7⟩, h8⟩, h9⟩, h10⟩, h11⟩ := hc
  exact .accepted hk ⟨ho, hcl, h1, h2, h3, h4, h5, h6, h7, h8, h9, h10, h11⟩

theorem referenceType_spec {id : String} {kind : EventType} (h : referenceType s event id kind) :
    ∃ parent, s.events.get? id = some parent ∧ event.causation = id ∧ parent.kind = kind := by
  unfold referenceType at h
  split at h
  · next parent hp =>
    simp only [Bool.and_eq_true, beq_iff_eq] at h
    exact ⟨parent, hp, h⟩
  · cases h

theorem applyEvidence_ok (hk : event.kind = .evidenceVerification)
    (h : applyEvidence codec s event = .ok s') : Transition codec s event participant s' := by
  unfold applyEvidence at h
  obtain ⟨parent, hp, h⟩ := required_bind.1 h
  obtain ⟨hc, h⟩ := ensure_bind.1 h
  obtain ⟨found, hfound, h⟩ := bind_ok.1 h
  obtain ⟨hone, h⟩ := ensure_bind.1 h
  cases h
  obtain rfl : found = 1 := by simpa using hone
  refine .referred ?_
  rw [Refers, hk]
  exact ⟨parent, hp, by simpa using hc, hfound⟩

/-- An event that the switch accepts makes one of the transitions. -/
theorem applyKind_ok (h : applyKind codec s event participant enforce = .ok s') :
    Transition codec s event participant s' := by
  unfold applyKind at h
  split at h
  · next hk => exact applyClaim_ok hk h
  · next hk => exact applyLifecycle_ok (.inl hk) h
  · next hk => exact applyLifecycle_ok (.inr (.inl hk)) h
  · next hk => exact applyLifecycle_ok (.inr (.inr hk)) h
  · next hk => exact applyAccept_ok hk h
  · next hk =>
    obtain ⟨href, h⟩ := ensure_bind.1 h
    cases h
    refine .referred ?_
    rw [Refers, hk]
    exact referenceType_spec href
  · next hk =>
    obtain ⟨href, h⟩ := ensure_bind.1 h
    obtain ⟨parent, -, h⟩ := required_bind.1 h
    obtain ⟨-, h⟩ := ensure_bind.1 h
    cases h
    refine .referred ?_
    rw [Refers, hk]
    exact referenceType_spec href
  · next hk => exact applyEvidence_ok hk h
  all_goals
    next hk =>
    cases h
    refine .referred ?_
    rw [Refers, hk]
    trivial

/-- What the causation of an admitted event refers to. -/
structure Caused (s : TranscriptState) (event parent : TransitionEvent) : Prop where
  get : s.events.get? event.causation = some parent
  channel : parent.channel = event.channel
  work : parent.work = event.work
  correlation : parent.correlation = event.correlation ∨ event.kind = .claim ∧
    text event.data "predecessor_handoff_event" = event.causation

theorem checkCausation_ok {u : Unit} (h : checkCausation s event = .ok u)
    (hc : event.causation ≠ "") : ∃ parent, Caused s event parent := by
  unfold checkCausation at h
  rw [if_neg hc] at h
  obtain ⟨parent, hp, h⟩ := required_bind.1 h
  have hok := ensure_ok.1 h
  simp only [Bool.and_eq_true, beq_iff_eq, Bool.or_eq_true] at hok
  obtain ⟨⟨hch, hw⟩, hcorr⟩ := hok
  exact ⟨parent, hp, hch, hw, hcorr.symm⟩

end

/-! ## Validating a candidate -/

section
variable (codec : Codec)

/-- The loop of `Validate` over a page: the replayed state and the last sequence. -/
def replayPage : List AcceptedRecord → TranscriptState → Nat →
    Except Relay.Error (TranscriptState × Nat)
  | [], state, after => .ok (state, after)
  | record :: records, state, _ =>
    match codec.decodeEvent record.canonicalEvent with
    | none => .error .invalidArgument
    | some decoded =>
      let event := TransitionEvent.of decoded
      match apply codec state event
          (codec.participantInstanceID record.unsignedReceiptPreimage) false false with
      | .error failure => .error failure.sentinel
      | .ok state =>
        replayPage records { state with events := state.events.set event.id event } record.sequence

/-- The loop of `Validate` over the pages of a transcript, with the size of a page as a parameter.
It has no bound of its own; `fuel` bounds the pages. -/
def replayPagesBy (size : Nat) (view : AdmissionView) : (fuel : Nat) → TranscriptState →
    (after : Nat) → Option (Except Relay.Error TranscriptState)
  | 0, _, _ => none
  | fuel + 1, state, after =>
    match view.read after size with
    | .error err => some (.error err)
    | .ok records =>
      match replayPage codec records state after with
      | .error err => some (.error err)
      | .ok (state, after) =>
        if records.length < size then some (.ok state)
        else replayPagesBy size view fuel state after

/-- The end of `Validate`: the candidate is decoded and applied to the replayed state. -/
def validateCandidate (state : TranscriptState) (canonical : Bytes) (participant : String) :
    Except Relay.Error Unit := do
  let decoded ← required (codec.decodeEvent canonical) .invalidArgument
  match apply codec state (.of decoded) participant true true with
  | .error failure => throw failure.sentinel
  | .ok _ => return ()

/-- `Validate` with the size of a page as a parameter. -/
def validateBy (size fuel : Nat) (view : AdmissionView) (canonical : Bytes)
    (participant : String) : Option (Except Relay.Error Unit) :=
  if participant = "" then some (.error .invalidArgument)
  else
    (replayPagesBy codec size view fuel {} 0).map fun replayed => do
      let state ← replayed
      validateCandidate codec state canonical participant

/-- `TransitionValidator.Validate`, for a candidate given by its canonical bytes: it reads pages of
a thousand records. -/
def validate (fuel : Nat) (view : AdmissionView) (canonical : Bytes) (participant : String) :
    Option (Except Relay.Error Unit) :=
  validateBy codec 1000 fuel view canonical participant

end

end YukhCoordination.Relay.Service
