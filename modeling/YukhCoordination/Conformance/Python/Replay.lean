import YukhCoordination.Conformance.Transcript
import YukhCoordination.Lib.Dict
import YukhCoordination.Lib.Transaction
import Mathlib.Data.Prod.Lex
import Mathlib.Data.String.Basic

/-!
# The Python replay engine

The model of `ReplayEngine` in `conformance/python/yukh_projection.py`. A claim lists the ids of
its open offers; the offers themselves, which Python shares, are in `offersByEvent`.
-/

namespace YukhCoordination.Conformance.Python

open Relay Relay.Protocol Relay.Service Transaction

/-! ## State -/

/-- `Claim`; `offers` are the event ids of the open offers. -/
structure Claim where
  claimID : String
  generation : String
  eventID : String
  workURI : String
  active : Bool
  lastLifecycleEvent : String
  offers : List String
  deriving DecidableEq, Repr

/-- `Offer`. -/
structure Offer where
  handoffID : String
  eventID : String
  claimKey : String × String
  recipientInstance : String
  boundaryDigest : String
  evidenceSetDigest : String
  acceptedEventID : Option String
  deriving DecidableEq, Repr

/-- The state of a `ReplayEngine` while it applies events. -/
structure Engine (format : Format) where
  events : Dict String (Record format) := .empty
  sequenceRecords : Dict Nat String := .empty
  claims : Dict (String × String) Claim := .empty
  usedClaims : List (String × String) := []
  offersByEvent : Dict String Offer := .empty
  acceptedWithoutSuccessor : Dict String (String × Nat) := .empty
  workHistory : List String := []
  conflictTrigger : Dict String Nat := .empty

/-! ## Normalizing the records -/

/-- What the first loop of `run` has seen. -/
structure Observed (format : Format) where
  normalized : List (Record format) := []
  observedEvents : Dict String (Bytes × Bytes) := .empty
  observedSequences : Dict Nat String := .empty
  unverifiedReceipt : Bool := false

section
variable {format : Format}

/-- The part of the first loop of `run` that treats a record whose event was or was not seen. -/
def observeEvent (o : Observed format) (record : Record format) :
    Except ErrorCode (Observed format) :=
  match o.observedEvents.get? record.id with
  | some prior =>
    if prior.1 ≠ record.event.bytes then .error .idCollision
    else if prior.2 ≠ record.receipt.bytes then .error .invalidReceipt
    else .ok o
  | none =>
    if (o.observedSequences.get? record.sequence).isSome then .error .invalidReceipt
    else .ok { o with
      observedEvents := o.observedEvents.set record.id (record.event.bytes, record.receipt.bytes)
      observedSequences := o.observedSequences.set record.sequence record.id
      normalized := o.normalized ++ [record] }

/-- The body of the first loop of `run`. -/
def observe (o : Observed format) (record : Record format) :
    Except ErrorCode (Observed format) := do
  ensure (1 ≤ record.sequence) .invalidReceipt
  ensure (interoperable record.receipt.value) .invalidNumber
  observeEvent { o with unverifiedReceipt := o.unverifiedReceipt || !record.receiptVerified } record

/-- The order of the normalized records: by sequence, then by canonical bytes. -/
def before (a b : Record format) : Prop :=
  a.sequence < b.sequence ∨ a.sequence = b.sequence ∧ a.event.bytes ≤ b.event.bytes

instance : DecidableRel (@before format) := fun _ _ =>
  inferInstanceAs (Decidable (_ ∨ _ ∧ _))

/-! ## Binding -/

/-- The part of `_validate_binding` on the causation of an event. -/
def validateCausation (events : Dict String (Record format)) (event : Event) :
    Except ErrorCode Unit :=
  if isChild event.type then do
    let causation ← required event.causationID .invalidEnvelope
    let parent ← required (events.get? causation) .unresolvedCausation
    ensure (parent.event.value.channel == event.channel && parent.event.value.work == event.work)
      .crossChannelReference
    ensure (parent.event.value.correlationID == event.correlationID) .invalidReference
  else return ()

/-- `_validate_binding`. -/
def validateBinding (doc : Document format) (events : Dict String (Record format))
    (record : Record format) : Except ErrorCode Unit := do
  let event := record.event.value
  let receipt := record.receipt.value
  ensure (record.event.bytes.length ≤ 65536) .resourceLimit
  ensure (event.specversion == "0.1") .unsupportedVersion
  ensure (event.channel == doc.channelURI) .crossChannelReference
  ensure (receipt.eventID == event.id) .invalidReceipt
  ensure (receipt.tenantID == doc.tenantID) .crossChannelReference
  ensure (receipt.channelID == doc.channelID && receipt.channelURI == doc.channelURI)
    .crossChannelReference
  ensure (receipt.transcriptEpoch == doc.transcriptEpoch) .invalidReceipt
  ensure (receipt.participantID == event.participantID) .invalidReceipt
  ensure (receipt.eventDigest == format.eventDigest record.event.bytes) .eventDigestMismatch
  ensure (receipt.appendOutcome == "appended") .invalidReceipt
  ensure (receipt.signatureAlgorithm == "ed25519") .invalidReceipt
  ensure (event.type.isMembership || event.work.isSome && event.correlationID.isSome)
    .invalidEnvelope
  validateCausation events event
  ensure (!event.type.isRoot || event.correlationID == some event.id) .invalidReference

/-! ## Applying an event -/

/-- The key of the claim that a payload names. -/
def claimKey (data : Object) : Option (String × String) := do
  let claimID ← text? data "claim_id"
  let generation ← text? data "generation"
  return (claimID, generation)

/-- `_active`. -/
def active (claims : Dict (String × String) Claim) (work : String) : List Claim :=
  (claims.entries.map (·.2)).filter fun claim => claim.workURI == work && claim.active

/-- `_update_conflict_trigger`, for the claims that it counts. -/
def updateConflictTrigger (claims : Dict (String × String) Claim) (trigger : Dict String Nat)
    (work : String) (sequence : Nat) : Dict String Nat :=
  if 1 < (active claims work).length then
    if trigger.get? work = none then trigger.set work sequence else trigger
  else trigger.erase work

/-- The acceptances after a claim. -/
def consumePredecessor (accepted : Dict String (String × Nat)) (event : Event) :
    Except ErrorCode (Dict String (String × Nat)) :=
  match event.data.get? "predecessor_handoff_event" with
  | none => return accepted
  | some _ => do
    let predecessor ← required (text? event.data "predecessor_handoff_event")
      .invalidClaimTransition
    ensure (accepted.get? predecessor).isSome .invalidClaimTransition
    ensure (event.causationID == some predecessor) .invalidReference
    return accepted.erase predecessor

/-- `_apply` of a `claim`. -/
def applyClaim (e : Engine format) (event : Event) (work : String) (sequence : Nat) :
    Except ErrorCode (Engine format) := do
  let key ← required (claimKey event.data) .invalidPayload
  ensure (!e.usedClaims.contains key) .invalidClaimTransition
  let accepted ← consumePredecessor e.acceptedWithoutSuccessor event
  ensure ((active e.claims work).length < 32) .resourceLimit
  let claims := e.claims.set key
    { claimID := key.1, generation := key.2, eventID := event.id, workURI := work, active := true,
      lastLifecycleEvent := event.id, offers := [] }
  return { e with
    claims
    usedClaims := e.usedClaims ++ [key]
    acceptedWithoutSuccessor := accepted
    conflictTrigger := updateConflictTrigger claims e.conflictTrigger work sequence }

/-- The offer that a `handoff_offer` makes on a claim. -/
def newOffer (event : Event) (claim : Claim) : Option Offer := do
  let handoffID ← text? event.data "handoff_id"
  let recipientInstance ← text? event.data "to_participant_instance_id"
  let boundaryDigest ← text? event.data "boundary_digest"
  let evidenceSetDigest ← text? event.data "evidence_set_digest"
  return {
    handoffID, eventID := event.id, claimKey := (claim.claimID, claim.generation),
    recipientInstance, boundaryDigest, evidenceSetDigest, acceptedEventID := none }

/-- `_apply` of a `progress`, a `release` or a `handoff_offer`. -/
def applyLifecycle (e : Engine format) (event : Event) (work : String) (sequence : Nat) :
    Except ErrorCode (Engine format) := do
  let key ← required (claimKey event.data) .invalidClaimTransition
  let claim ← required (e.claims.get? key) .invalidClaimTransition
  ensure (claim.workURI == work) .invalidClaimTransition
  ensure claim.active .invalidClaimTransition
  let parent := event.data.get? "parent_claim_event_id"
  ensure (parent == some (.text claim.lastLifecycleEvent) && event.causationID.map .text == parent)
    (if event.type = .handoffOffer then .handoffPreconditionFailed else .invalidReference)
  match event.type with
  | .progress => return { e with
      claims := e.claims.set key { claim with lastLifecycleEvent := event.id } }
  | .release =>
    let claims := e.claims.set key
      { claim with active := false, lastLifecycleEvent := event.id, offers := [] }
    return { e with
      claims, conflictTrigger := updateConflictTrigger claims e.conflictTrigger work sequence }
  | _ =>
    ensure (claim.offers.length < 32) .resourceLimit
    let offer ← required (newOffer event claim) .invalidPayload
    return { e with
      offersByEvent := e.offersByEvent.set event.id offer
      claims := e.claims.set key
        { claim with offers := claim.offers ++ [event.id], lastLifecycleEvent := event.id } }

/-- `_apply` of a `handoff_accept`. -/
def applyAccept (e : Engine format) (event : Event) (receipt : ReceiptDocument) :
    Except ErrorCode (Engine format) := do
  let data := event.data
  let offerID ← required (text? data "offer_event_id") .handoffPreconditionFailed
  let offer ← required (e.offersByEvent.get? offerID) .handoffPreconditionFailed
  let claim ← required (e.claims.get? offer.claimKey) .handoffPreconditionFailed
  ensure (claim.active && offer.acceptedEventID == none && claim.offers.contains offerID &&
    event.causationID == some offerID && receipt.participantInstanceID == offer.recipientInstance &&
    data.get? "handoff_id" == some (.text offer.handoffID) &&
    data.get? "source_claim_event_id" == some (.text claim.eventID) &&
    data.get? "claim_id" == some (.text claim.claimID) &&
    data.get? "generation" == some (.text claim.generation) &&
    data.get? "boundary_digest" == some (.text offer.boundaryDigest) &&
    data.get? "evidence_set_digest" == some (.text offer.evidenceSetDigest))
    .handoffPreconditionFailed
  return { e with
    offersByEvent := e.offersByEvent.map fun id o =>
      if id = offerID then { o with acceptedEventID := some event.id }
      else if id ∈ claim.offers then { o with acceptedEventID := some "superseded" } else o
    claims := e.claims.set offer.claimKey
      { claim with lastLifecycleEvent := event.id, offers := [] }
    acceptedWithoutSuccessor :=
      e.acceptedWithoutSuccessor.set event.id (claim.claimID, receipt.sequence) }

/-- The outcomes of a verification that looked at the evidence. -/
def observedOutcomes : List String := ["verified", "mismatch"]

/-- The other outcomes of a verification. -/
def otherOutcomes : List String := ["unavailable", "unauthorized", "inconclusive"]

/-- `_validate_evidence_verification`. -/
def validateEvidenceVerification (codec : Codec) (data : Object) (parent : Event) :
    Except ErrorCode Unit := do
  let outcome ← required (text? data "outcome") .invalidPayload
  ensure ((observedOutcomes ++ otherOutcomes).contains outcome) .invalidPayload
  ensure (if observedOutcomes.contains outcome then
      (text? data "observed_digest").isSome && (data.get? "reason").isNone
    else (text? data "reason").isSome && (data.get? "observed_digest").isNone) .invalidPayload
  match parent.evidence.filter fun d =>
      some (.text (codec.descriptorDigest d)) == data.get? "descriptor_digest" with
  | [descriptor] =>
    ensure (data.get? "uri" == some (.text descriptor.uri) &&
      data.get? "algorithm" == some (.text descriptor.digestAlgorithm) &&
      data.get? "expected_digest" == some (.text ("sha-256:" ++ descriptor.digestValue)))
      .invalidPayload
  | _ => throw .invalidReference

/-- `parent_fields`: the member that refers to the parent, and the type the parent must have. -/
def parentField : EventType → String × Option EventType
  | .answer => ("question_event_id", some .question)
  | .verdict => ("review_event_id", some .reviewRequest)
  | _ => ("referenced_event_id", none)

/-- The part of `_apply` on the event that a verification refers to. -/
def validateReferenced (codec : Codec) (event parent : Event) : Except ErrorCode Unit :=
  if event.type = .evidenceVerification then validateEvidenceVerification codec event.data parent
  else return ()

/-- `_apply` of an `answer`, a `verdict` or an `evidence_verification`. -/
def applyReference (e : Engine format) (event : Event) : Except ErrorCode (Engine format) := do
  let field := parentField event.type
  ensure (event.data.get? field.1 == event.causationID.map .text) .invalidReference
  let parent ← required ((text? event.data field.1).bind e.events.get?) .invalidReference
  ensure (field.2.all (parent.event.value.type == ·)) .invalidReference
  validateReferenced format.toCodec event parent.event.value
  return e

/-- The chain of cases of `_apply`. -/
def applyKind (e : Engine format) (event : Event) (receipt : ReceiptDocument) (work : String) :
    Except ErrorCode (Engine format) :=
  match event.type with
  | .claim => applyClaim e event work receipt.sequence
  | .progress | .release | .handoffOffer => applyLifecycle e event work receipt.sequence
  | .handoffAccept => applyAccept e event receipt
  | .answer | .verdict | .evidenceVerification => applyReference e event
  | .question | .reviewRequest | .join | .presence | .leave => return e

/-- `_apply`. -/
def apply (e : Engine format) (record : Record format) : Except ErrorCode (Engine format) :=
  let event := record.event.value
  if event.type.isMembership then return e
  else do
    let work ← required event.work .invalidEnvelope
    applyKind { e with workHistory := e.workHistory.insert work } event record.receipt.value work

/-- The body of the second loop of `run`. -/
def replayRecord (doc : Document format) (e : Engine format) (record : Record format) :
    Except ErrorCode (Engine format) := do
  validateBinding doc e.events record
  if doc.highWaterSequence < record.sequence then return e
  else apply { e with
    events := e.events.set record.id record
    sequenceRecords := e.sequenceRecords.set record.sequence record.id } record

/-! ## Projecting -/

/-- The order of diagnostics. -/
def diagnosticBefore (a b : Diagnostic) : Prop :=
  toLex (a.sequence, toLex (a.code.text, a.primaryID)) ≤
    toLex (b.sequence, toLex (b.code.text, b.primaryID))

instance : DecidableRel diagnosticBefore := fun _ _ => inferInstanceAs (Decidable (_ ≤ _))

/-- `sorted`, of texts. -/
def sorted (texts : List String) : List String := texts.insertionSort (· ≤ ·)

/-- The diagnostic of a conflict between the active claims. -/
def conflictDiagnostic (sequence : Nat) (claims : List Claim) : Diagnostic :=
  let eventIDs := sorted (claims.map (·.eventID))
  { sequence, code := .claimConflict, severity := .warning, primaryID := eventIDs.headD "",
    contenderIDs := some (sorted (claims.map (·.claimID))), contenderEventIDs := some eventIDs }

/-- The part of `_project` on the active claims: the state, the offers and the conflict. -/
def projectClaims (e : Engine format) (work : String) :
    Except ErrorCode (WorkState × List String × List Diagnostic) :=
  match active e.claims work with
  | [] => return (if e.claims.entries.any (·.2.workURI == work) then .released else .unclaimed,
      [], [])
  | [claim] =>
    let offers := sorted (claim.offers.filterMap fun id =>
      (e.offersByEvent.get? id).map (·.handoffID))
    return (if offers = [] then .claimed else .handoffOffered, offers, [])
  | claims => do
    let sequence ← required (e.conflictTrigger.get? work) .crash
    return (.conflicting, [], [conflictDiagnostic sequence claims])

/-- The diagnostics of the acceptances without a successor. -/
def acceptedDiagnostics (e : Engine format) (work : String) : List Diagnostic :=
  (e.acceptedWithoutSuccessor.entries.filter fun entry =>
    (e.events.get? entry.1).any (·.event.value.work == some work)).map fun entry =>
      { sequence := entry.2.2, code := .handoffAcceptedUnclaimed, severity := .warning,
        primaryID := entry.1, eventID := some entry.1, claimID := some entry.2.1 }

/-- A diagnostic of the transcript as a whole. -/
def transcriptDiagnostic (doc : Document format) (code : DiagnosticCode) : Diagnostic where
  sequence := doc.highWaterSequence
  code := code
  severity := .error
  primaryID := doc.transcriptID

/-- The diagnostics of a transcript that is not complete or not active. -/
def transcriptDiagnostics (doc : Document format) (incomplete : Bool) : List Diagnostic :=
  (if incomplete then [transcriptDiagnostic doc .incompleteTranscript] else []) ++
    if doc.lifecycle ≠ .active then [transcriptDiagnostic doc .nonActiveTranscript] else []

/-- `_project`. -/
def project (doc : Document format) (e : Engine format) (reasons : Reasons) (work : String) :
    Except ErrorCode Projection := do
  let (state, offers, conflicts) ← projectClaims e work
  let diagnostics := conflicts ++ acceptedDiagnostics e work ++ transcriptDiagnostics doc
    reasons.any
  return {
    specversion := "0.1", channelID := doc.channelID, workURI := work, state,
    contenders := sorted ((active e.claims work).map (·.claimID)), handoffOfferIDs := offers,
    diagnostics := diagnostics.insertionSort diagnosticBefore,
    diagnosticsHighWaterSequence := doc.highWaterSequence, asOfSequence := doc.highWaterSequence,
    completeness := if reasons.any then .incomplete else .complete, lifecycle := doc.lifecycle,
    final := !reasons.any && doc.lifecycle == .active }

/-! ## The run -/

/-- The checks of the constructor that the type of a document leaves. -/
def validateDocument (doc : Document format) : Except ErrorCode Unit := do
  ensure (doc.tenantID != "" && doc.channelID != "" && doc.channelURI != "") .invalidTranscript
  ensure (1 ≤ doc.originSequence) .invalidTranscript
  ensure (1 ≤ doc.highWaterSequence) .invalidTranscript

/-- The reasons that `run` finds. -/
def reasons (doc : Document format) (o : Observed format) (e : Engine format) : Reasons where
  unverifiedReceipt := o.unverifiedReceipt
  unverifiedHighWater := !doc.highWaterReceiptVerified
  sequenceGap :=
    !((e.sequenceRecords.entries.all fun entry => 1 ≤ entry.1 && entry.1 ≤ doc.highWaterSequence) &&
      (List.range' 1 doc.highWaterSequence).all fun n => (e.sequenceRecords.get? n).isSome) ||
    doc.originSequence != 1
  recordAfterHighWater := o.observedSequences.entries.any (doc.highWaterSequence < ·.1)
  nonActiveLifecycle := doc.lifecycle != .active

/-- What the loops of `run` leave: the records seen and the engine. -/
def replayRecords (doc : Document format) : Except ErrorCode (Observed format × Engine format) := do
  validateDocument doc
  let observed ← doc.records.foldlM observe {}
  let engine ← (observed.normalized.insertionSort before).foldlM (replayRecord doc) {}
  return (observed, engine)

/-- `replay`: the projections of the work items that occurred, and the reasons. -/
def replay (doc : Document format) : Except ErrorCode (List Projection × Reasons) := do
  let (observed, engine) ← replayRecords doc
  let reasons := reasons doc observed engine
  let projections ← (sorted engine.workHistory).mapM (project doc engine reasons)
  return (projections, reasons)

end

end YukhCoordination.Conformance.Python
