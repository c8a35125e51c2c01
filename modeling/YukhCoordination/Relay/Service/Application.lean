import YukhCoordination.Relay.Lifecycle.Types
import YukhCoordination.Relay.Protocol.Validator
import YukhCoordination.Relay.Service.Append
import YukhCoordination.Relay.Service.Transition

/-!
# The relay application

The model of `internal/relay/service/application.go`.
-/

namespace YukhCoordination.Relay.Service

open Protocol Transaction Lifecycle

/-! ## Requests and documents -/

/-- `httpapi.Identity`. -/
structure Identity where
  tenantID : String
  principalID : String
  participantInstanceID : String
  sessionEpoch : Nat
  deriving DecidableEq, Repr

/-- `httpapi.AdmittedRequest`. -/
structure AdmittedRequest where
  identity : Identity
  channel : ChannelKey
  authorizationBinding : Bytes
  aclPolicyVersion : String
  aclPolicyDigest : String
  aclDecisionReceiptID : String
  deriving DecidableEq, Repr

/-- `protocol.ChannelMetadata`, without the members that the application does not read. -/
structure ChannelMetadata where
  tenantID : String
  channelID : String
  channelURI : String
  aclPolicyVersion : String
  aclPolicyDigest : String
  digest : String
  deriving DecidableEq, Repr

/-- `receiptDocument`. -/
structure ReceiptDocument where
  specVersion : String
  receiptVersion : String
  receiptID : String
  eventID : String
  tenantID : String
  channelID : String
  channelURI : String
  principalID : String
  participantID : String
  participantInstanceID : String
  sessionEpoch : Nat
  cursor : String
  transcriptEpoch : Nat
  sequence : Nat
  acceptedAt : String
  eventDigest : String
  channelMetadataDigest : String
  aclPolicyVersion : String
  aclPolicyDigest : String
  aclDecisionReceiptID : String
  appendOutcome : String
  keyID : String
  signatureAlgorithm : String
  deriving DecidableEq, Repr

/-- The canonical JSON documents that the application writes when it prepares a record. -/
structure Documents where
  receipt : ReceiptDocument → Option Bytes
  authenticated : Identity → Option Bytes

/-! ## Receipts -/

/-- What an append has established when it prepares a record: the request it was admitted with, the
channel with its metadata and epoch, the event, and the receipt's own id and time. -/
structure Admission where
  admitted : AdmittedRequest
  channelURI : String
  metadata : ChannelMetadata
  epoch : Nat
  event : Event
  canonical : Bytes
  receiptID : String
  acceptedAt : String
  deriving DecidableEq, Repr

/-- The `receiptDocument` that an append makes for a sequence. -/
def Admission.receiptDocument (a : Admission) (sequence : Nat) (eventDigest : String)
    (selection : SigningSelection) : ReceiptDocument where
  specVersion := "0.1"
  receiptVersion := "0.1"
  receiptID := a.receiptID
  eventID := a.event.id
  tenantID := a.admitted.identity.tenantID
  channelID := a.admitted.channel.channelID
  channelURI := a.channelURI
  principalID := a.admitted.identity.principalID
  participantID := a.event.participantID
  participantInstanceID := a.admitted.identity.participantInstanceID
  sessionEpoch := a.admitted.identity.sessionEpoch
  cursor := toString sequence
  transcriptEpoch := a.epoch
  sequence := sequence
  acceptedAt := a.acceptedAt
  eventDigest := eventDigest
  channelMetadataDigest := a.metadata.digest
  aclPolicyVersion := a.admitted.aclPolicyVersion
  aclPolicyDigest := a.admitted.aclPolicyDigest
  aclDecisionReceiptID := a.admitted.aclDecisionReceiptID
  appendOutcome := "appended"
  keyID := selection.keyID
  signatureAlgorithm := selection.algorithm

/-- The `prepare` of `RelayApplication.Append`. -/
def Admission.prepare (documents : Documents) (a : Admission) : PrepareRecord :=
  fun sequence eventDigest selection => do
    ensure (sequence != 0 && sequence ≤ maxSafeInteger) .invalidArgument
    let preimage ← required
      (documents.receipt (a.receiptDocument sequence eventDigest selection)) .other
    let authenticated ← required (documents.authenticated a.admitted.identity) .other
    return {
      channel := a.admitted.channel
      sequence
      eventID := a.event.id
      canonicalEvent := a.canonical
      eventDigest
      authenticatedBinding := authenticated
      authorizationBinding := a.admitted.authorizationBinding
      receiptID := a.receiptID
      signingKeyID := selection.keyID
      signatureAlgorithm := selection.algorithm
      unsignedReceiptPreimage := preimage
      signature := [] }

end YukhCoordination.Relay.Service
