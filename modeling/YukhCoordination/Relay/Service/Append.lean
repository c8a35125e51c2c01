import YukhCoordination.Relay.Store

/-!
# The append service

The model of `internal/relay/service/append.go`. The service composes a `Store` and a `Signer` that
fail independently of each other, so it is written over any monad the two compute in. A call looks
its event up, appends it if it is not there, and returns only a record that has a signature in the
store: it signs the record itself if nobody has.
-/

namespace YukhCoordination.Relay.Service

/-- `SigningSelection`: the key chosen before an append begins. -/
structure SigningSelection where
  keyID : String
  algorithm : String
  deriving DecidableEq, Repr

/-- `Signer`. -/
structure Signer (M : Type → Type) where
  select : M (Except Error SigningSelection)
  sign : AcceptedRecord → M (Except Error Bytes)

/-- `PrepareRecord` of the service: it binds the selection into the receipt preimage. -/
abbrev PrepareRecord := Nat → String → SigningSelection → Except Error AcceptedRecord

/-- The preparation that the service hands to the store: it refuses a record that changed the
selection. -/
def prepareSelected (prepare : PrepareRecord) (selection : SigningSelection) :
    Relay.PrepareRecord := fun sequence digest => do
  let record ← prepare sequence digest selection
  if record.signingKeyID != selection.keyID || record.signatureAlgorithm != selection.algorithm then
    throw .invalidArgument
  return record

/-- A prepared record is one that `prepare` gives. -/
theorem prepareSelected_ok {prepare : PrepareRecord} {selection : SigningSelection} {sequence : Nat}
    {digest : String} {record : AcceptedRecord}
    (h : prepareSelected prepare selection sequence digest = .ok record) :
    prepare sequence digest selection = .ok record := by
  unfold prepareSelected at h
  cases hp : prepare sequence digest selection with
  | error err =>
    rw [hp] at h
    cases h
  | ok prepared =>
    rw [hp] at h
    simp only [bind, Except.bind] at h
    split at h
    · cases h
    · cases h
      rfl

/-- `AppendService`. -/
structure AppendService (M : Type → Type) where
  store : Store M
  signer : Signer M

section
variable {M : Type → Type} [Monad M] (s : AppendService M)

/-- `AppendService.ensureSigned`. -/
def AppendService.ensureSigned (result : AppendResult) : M (Except Error AppendResult) :=
  if result.record.signature ≠ [] then return .ok result
  else do
    match ← s.signer.sign result.record with
    | .error _ => return .error .signaturePending
    | .ok signature =>
      match ← s.store.attachSignature ⟨result.record.channel, result.record.receiptID,
          result.record.unsignedReceiptPreimage, signature⟩ with
      | .error _ => return .error .signaturePending
      | .ok signed => return .ok { result with record := signed }

/-- The part of `AppendService.AppendChecked` that appends an event the store does not have. -/
def AppendService.appendNew (intent : AppendIntent) (admission : Admit) (prepare : PrepareRecord) :
    M (Except Error AppendResult) := do
  match ← s.signer.select with
  | .error err => return .error err
  | .ok selection =>
    if selection.keyID = "" ∨ selection.algorithm = "" then return .error .invalidArgument
    else
      match ← s.store.appendChecked intent admission (prepareSelected prepare selection) with
      | .error err => return .error err
      | .ok result => s.ensureSigned result

/-- `AppendService.AppendChecked`. -/
def AppendService.appendChecked (intent : AppendIntent) (admission : Admit)
    (prepare : PrepareRecord) : M (Except Error AppendResult) :=
  if !validateIntent intent then return .error .invalidArgument
  else do
    match ← s.store.lookup intent.channel intent.eventID with
    | .ok existing =>
      if existing.channel ≠ intent.channel ∨ existing.canonicalEvent ≠ intent.canonicalEvent then
        return .error .eventIDCollision
      else s.ensureSigned ⟨.duplicate, existing⟩
    | .error .eventNotFound => s.appendNew intent admission prepare
    | .error err => return .error err

end

end YukhCoordination.Relay.Service
