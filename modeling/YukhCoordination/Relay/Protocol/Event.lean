import YukhCoordination.Relay.Store

/-!
# Protocol events

The event envelope of protocol 0.1 as a decoded document. Its optional members are options, and its
payload is an object whose members are texts, lists of texts or booleans, which are the only values
the payload schemas allow; numbers are refused before a schema is looked at. The types of events are
closed by the schema.

`Codec` is what is read of and computed from canonical bytes: the decoders and the domain-separated
digests of `internal/relay/service/transition.go`.
-/

namespace YukhCoordination.Relay.Protocol

/-- The event types. -/
inductive EventType where
  | join
  | presence
  | leave
  | claim
  | progress
  | question
  | answer
  | reviewRequest
  | verdict
  | handoffOffer
  | handoffAccept
  | release
  | evidenceVerification
  deriving DecidableEq, Repr

/-- A value of a payload. -/
inductive Value where
  | text (value : String)
  | texts (values : List String)
  | flag (value : Bool)
  deriving DecidableEq, Repr

/-- A payload. -/
abbrev Object := List (String × Value)

/-- The member of a payload. -/
def Object.get? (object : Object) (key : String) : Option Value :=
  (object.find? (·.1 == key)).map (·.2)

/-- `text`: the member as a text, or the empty text. -/
def text (object : Object) (key : String) : String :=
  match object.get? key with
  | some (.text value) => value
  | _ => ""

/-- An evidence descriptor. -/
structure Descriptor where
  uri : String
  mediaType : String
  digestAlgorithm : String
  digestValue : String
  revision : Option String
  declaredSize : String
  description : Option String
  deriving DecidableEq, Repr

/-- An event envelope. -/
structure Event where
  specversion : String
  id : String
  type : EventType
  channel : String
  participantID : String
  work : Option String
  correlationID : Option String
  causationID : Option String
  data : Object
  evidence : List Descriptor
  deriving DecidableEq, Repr

/-- Decoders and digests. `boundaryDigest` is over the members of the boundary object: the work, the
claim with its generation, the boundary, the next action and the unresolved risks. -/
structure Codec where
  decodeEvent : Bytes → Option Event
  participantInstanceID : Bytes → String
  descriptorDigest : Descriptor → String
  evidenceDigest : List Descriptor → String
  boundaryDigest : (work claimID generation boundary nextAction : String) →
    (unresolvedRisks : Option Value) → String

/-- The types whose events start a correlation. -/
def EventType.isRoot : EventType → Bool
  | .claim | .question | .reviewRequest => true
  | _ => false

end YukhCoordination.Relay.Protocol
