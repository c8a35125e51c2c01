import YukhCoordination.Lib.Program
import YukhCoordination.Lib.Bucket
import YukhCoordination.Coordination.Store

/-!
# The JetStream KV adapter for nonces and fenced leases

The model of `internal/coordination/jetstreamkv/store.go`: programs over the two KV buckets, the
clock and the shared lease objects. A stored value stands for its JSON text.
-/

namespace YukhCoordination.JetStreamKV

open Coordination Interleave CasBucket

/-- `maxValueBytes`. -/
def maxValueBytes : Nat := 1024

/-- The fields of `Config` that the calls read. -/
structure Config where
  maxLifetime : Duration
  epoch : Nat
  deriving DecidableEq, Repr

/-- The client side of the adapter; its buckets are in `World`. -/
structure Store where
  config : Config
  deriving DecidableEq, Repr

/-- The `kind` of a stored value. -/
inductive Kind where
  | nonce
  | lease
  deriving DecidableEq, Repr

/-- A stored value. -/
structure Value where
  schema : Nat
  kind : Kind
  digest : Digest
  expiresAt : TimeText
  epoch : Nat
  released : Bool
  deriving DecidableEq, Repr

/-- The length of the JSON text of a value: 70 bytes of braces, commas, quotes and member names,
and the members themselves. -/
def Value.marshalledLength (v : Value) : Nat :=
  70 + (toString v.schema).length + 5 + v.digest.utf8ByteSize + v.expiresAt.length +
    (toString v.epoch).length + (if v.released then 4 else 5)

/-- `encode`. -/
def encode (kind : Kind) (digest : Digest) (expires : Time) (epoch : Nat) (released : Bool) :
    Value :=
  ⟨1, kind, digest, formatTime expires, epoch, released⟩

/-- `decode`. -/
def decode (raw : Value) : Except Error Value :=
  if raw.marshalledLength == 0 || raw.marshalledLength > maxValueBytes then .error .conflict
  else if raw.schema != 1 then .error .conflict
  else .ok raw

/-- `exact`. -/
def exact (observed : Value) (kind : Kind) (digest : Digest) (expires : Time) (epoch : Nat)
    (released : Bool) : Bool :=
  observed.kind == kind && observed.digest == digest && observed.expiresAt == formatTime expires &&
    observed.epoch == epoch && observed.released == released

/-- A decoded value that is `exact` is the encoded one. -/
theorem eq_encode_of_exact {raw observed : Value} {kind : Kind} {digest : Digest} {expires : Time}
    {epoch : Nat} {released : Bool} (hd : decode raw = .ok observed)
    (hx : exact observed kind digest expires epoch released) :
    raw = encode kind digest expires epoch released := by
  unfold decode at hd
  split at hd
  · cases hd
  · split at hd
    · cases hd
    · next hs =>
      cases hd
      simp only [exact, Bool.and_eq_true, beq_iff_eq] at hx
      obtain ⟨⟨⟨⟨h1, h2⟩, h3⟩, h4⟩, h5⟩ := hx
      simp only [bne_iff_ne, ne_eq, Decidable.not_not] at hs
      cases raw
      simp_all [encode]

/-! ## The port -/

/-- A call of the adapter. The lease that an `Acquire` returns is named by the call. -/
abbrev CallId := Nat

/-- The fields of a `lease` object. -/
structure LeaseObject where
  key : Digest
  holder : Digest
  expires : Time
  revision : Nat
  released : Bool
  deriving DecidableEq, Repr

/-- The atomic requests of the calls. -/
inductive Request where
  | nonces (op : Op Digest Value)
  | leases (op : Op Digest Value)
  | now
  | newLease (object : LeaseObject)
  | lock (lease : CallId)
  | unlock (lease : CallId) (object : LeaseObject)

/-- The answer to a request: `lock` gives the fields of the object it locked, `newLease` the name
of the object. -/
abbrev Request.Answer : Request → Type
  | .nonces op => op.Answer
  | .leases op => op.Answer
  | .now => Time
  | .newLease _ => CallId
  | .lock _ => LeaseObject
  | .unlock _ _ => Unit

/-- The port of the adapter. -/
abbrev port : Port := ⟨Request, Request.Answer⟩

/-- A program of the adapter. -/
abbrev Proc := Program port

/-! ## The calls -/

/-- A request with its answer. -/
abbrev ask (r : Request) : Proc r.Answer := Program.ask (P := port) r

namespace Store

/-- `Store.validExpiry`. -/
def validExpiry (store : Store) (expires : Time) : Proc Bool := do
  let now ← ask .now
  return expires.after now.toUTC && !expires.after (now.toUTC.add store.config.maxLifetime)

/-- `Store.Consume`. -/
def consume (store : Store) (key : Digest) (nonce : NonceValue) :
    Proc (Except Error NonceOutcome) := do
  if !validDigest key || !validDigest nonce.valueDigest || nonce.epoch != store.config.epoch then
    return .error .invalidArgument
  if !(← store.validExpiry nonce.expiresAt) then
    return .error .invalidArgument
  match ← ask (.nonces (.create key
      (encode .nonce nonce.valueDigest nonce.expiresAt nonce.epoch false))) with
  | .ok _ => return .ok .consumed
  | .error .keyExists => return .ok .replayed
  | .error _ =>
    -- A timed-out create may have committed. Reconcile only an exact value.
    match ← ask (.nonces (.get key)) with
    | .error _ => return .error .unavailable
    | .ok entry =>
      match decode entry.value with
      | .error _ => return .error .conflict
      | .ok observed =>
        if !exact observed .nonce nonce.valueDigest nonce.expiresAt nonce.epoch false then
          return .error .conflict
        return .ok .consumed

/-- What a successful `Acquire` gives its caller: the lease object and its fencing token. -/
structure Acquired where
  lease : CallId
  fencingToken : Nat
  deriving DecidableEq, Repr

/-- `Store.newLease`. -/
def newLease (key : Digest) (candidate : LeaseValue) (revision : Nat) :
    Proc (Except Error Acquired) := do
  let lease ← ask (.newLease ⟨key, candidate.holderDigest, candidate.expiresAt, revision, false⟩)
  return .ok ⟨lease, revision⟩

/-- `Store.reconcileLeaseMutation`. -/
def reconcileLeaseMutation (key : Digest) (expectedRaw : Value) (previousRevision : Nat) :
    Proc (Except Error Nat) := do
  match ← ask (.leases (.get key)) with
  | .error _ => return .error .unavailable
  | .ok entry =>
    if entry.revision ≤ previousRevision || entry.value != expectedRaw then
      return .error .conflict
    return .ok entry.revision

/-- The compare-and-set of a lease entry as `Acquire`, `Renew` and `Release` make it: an update
whose error is reconciled with a read. -/
def updateLease (key : Digest) (raw : Value) (previousRevision : Nat) :
    Proc (Except Error Nat) := do
  match ← ask (.leases (.update key raw previousRevision)) with
  | .ok revision => return .ok revision
  | .error _ => reconcileLeaseMutation key raw previousRevision

/-- Whether the entry that `Acquire` read is held: not released, and not expired on the call's
clock, which is read only then. -/
def stillHeld (observed : Value) (expires : Time) : Proc Bool :=
  if observed.released then return false else do
    let now ← ask .now
    return expires.after now.toUTC

/-- The last part of `Store.Acquire`: take over an entry that is released or has expired. -/
def takeOver (key : Digest) (candidate : LeaseValue) (raw observed : Value) (revision : Nat) :
    Proc (Except Error Acquired) := do
  match observed.expiresAt.parse with
  | none => return .error .conflict
  | some expires =>
    if ← stillHeld observed expires then
      return .error .conflict
    match ← updateLease key raw revision with
    | .error err => return .error err
    | .ok revision => newLease key candidate revision

/-- `Store.Acquire`. -/
def acquire (store : Store) (key : Digest) (candidate : LeaseValue) :
    Proc (Except Error Acquired) := do
  if !validDigest key || !validDigest candidate.holderDigest ||
      candidate.epoch != store.config.epoch then
    return .error .invalidArgument
  if !(← store.validExpiry candidate.expiresAt) then
    return .error .invalidArgument
  let raw := encode .lease candidate.holderDigest candidate.expiresAt candidate.epoch false
  match ← ask (.leases (.create key raw)) with
  | .ok revision => newLease key candidate revision
  | .error fault =>
    match ← ask (.leases (.get key)) with
    | .error _ => return .error .unavailable
    | .ok entry =>
      match decode entry.value with
      | .error _ => return .error .conflict
      | .ok observed =>
        if observed.kind != .lease || observed.epoch != store.config.epoch then
          return .error .conflict
        -- Reconcile an ambiguous successful create, but never turn ErrKeyExists into ownership:
        -- an exact retry is still a competing acquisition.
        if fault != .keyExists && exact observed .lease candidate.holderDigest candidate.expiresAt
            candidate.epoch false then
          newLease key candidate entry.revision
        else
          takeOver key candidate raw observed entry.revision

/-- `lease.Renew`. -/
def renew (store : Store) (lease : CallId) (expires : Time) : Proc (Except Error Unit) := do
  let held ← ask (.lock lease)
  if held.released then
    ask (.unlock lease held)
    return .error .conflict
  if !(← store.validExpiry expires) then
    ask (.unlock lease held)
    return .error .conflict
  match ← updateLease held.key (encode .lease held.holder expires store.config.epoch false)
      held.revision with
  | .error err =>
    ask (.unlock lease held)
    return .error err
  | .ok revision =>
    ask (.unlock lease { held with revision, expires })
    return .ok ()

/-- `lease.Valid`. -/
def valid (lease : CallId) : Proc (Except Error Bool) := do
  let held ← ask (.lock lease)
  if held.released then
    ask (.unlock lease held)
    return .ok false
  let now ← ask .now
  if !held.expires.after now.toUTC then
    ask (.unlock lease held)
    return .ok false
  match ← ask (.leases (.get held.key)) with
  | .error _ =>
    ask (.unlock lease held)
    return .error .unavailable
  | .ok entry =>
    ask (.unlock lease held)
    return .ok (entry.revision == held.revision)

/-- `lease.Release`. -/
def release (store : Store) (lease : CallId) : Proc (Except Error Unit) := do
  let held ← ask (.lock lease)
  if held.released then
    ask (.unlock lease held)
    return .error .conflict
  match ← updateLease held.key (encode .lease held.holder held.expires store.config.epoch true)
      held.revision with
  | .error err =>
    ask (.unlock lease held)
    return .error err
  | .ok revision =>
    ask (.unlock lease { held with revision, released := true })
    return .ok ()

end Store

/-! ## Which requests a call makes -/

/-- The requests of a nonce call: it creates and reads nonce entries and reads the clock. -/
def Request.ForNonces : Request → Prop
  | .nonces (.create _ _) | .nonces (.get _) | .now => True
  | _ => False

/-- The requests of a lease call: all but those of the nonce bucket. -/
def Request.ForLeases : Request → Prop
  | .nonces _ => False
  | _ => True

namespace Store

section
variable (store : Store)

/-- The check of an expiry reads the clock only. -/
theorem validExpiry_forLeases (expires : Time) :
    (store.validExpiry expires).Only Request.ForLeases :=
  ⟨trivial, fun _ => trivial⟩

/-- A lease object is allocated without the nonce bucket. -/
theorem newLease_forLeases (key : Digest) (candidate : LeaseValue) (revision : Nat) :
    (newLease key candidate revision).Only Request.ForLeases :=
  ⟨trivial, fun _ => trivial⟩

/-- A compare-and-set and its reconcile read are in the lease bucket. -/
theorem updateLease_forLeases (key : Digest) (raw : Value) (revision : Nat) :
    (updateLease key raw revision).Only Request.ForLeases := by
  refine Program.only_ask_bind.2 ⟨trivial, fun ans => ?_⟩
  rcases ans with _ | revision'
  · refine Program.only_ask_bind.2 ⟨trivial, fun ans => ?_⟩
    rcases ans with _ | entry
    · trivial
    · dsimp only
      split <;> trivial
  · trivial

/-- Taking over a lease leaves the nonce bucket alone. -/
theorem takeOver_forLeases (key : Digest) (candidate : LeaseValue) (raw observed : Value)
    (revision : Nat) : (takeOver key candidate raw observed revision).Only Request.ForLeases := by
  unfold takeOver
  split
  · trivial
  · refine Program.Only.bind ?_ fun held => ?_
    · unfold stillHeld
      split
      · trivial
      · exact ⟨trivial, fun _ => trivial⟩
    · split
      · trivial
      · refine Program.Only.bind (updateLease_forLeases key raw revision) fun ans => ?_
        rcases ans with _ | revision'
        · trivial
        · exact newLease_forLeases key candidate revision'

/-- `Acquire` leaves the nonce bucket alone. -/
theorem acquire_forLeases (key : Digest) (candidate : LeaseValue) :
    (store.acquire key candidate).Only Request.ForLeases := by
  unfold acquire
  split
  · trivial
  refine Program.Only.bind (store.validExpiry_forLeases _) fun ok => ?_
  split
  · trivial
  refine Program.only_ask_bind.2 ⟨trivial, fun ans => ?_⟩
  rcases ans with fault | revision
  · refine Program.only_ask_bind.2 ⟨trivial, fun ans => ?_⟩
    rcases ans with _ | entry
    · trivial
    · dsimp only
      split
      · trivial
      · split
        · trivial
        · split
          · exact newLease_forLeases key candidate entry.revision
          · exact takeOver_forLeases key candidate _ _ entry.revision
  · exact newLease_forLeases key candidate revision

/-- So does `Renew`. -/
theorem renew_forLeases (lease : CallId) (expires : Time) :
    (store.renew lease expires).Only Request.ForLeases := by
  refine Program.only_ask_bind.2 ⟨trivial, fun held => ?_⟩
  split
  · exact ⟨trivial, fun _ => trivial⟩
  refine Program.Only.bind (store.validExpiry_forLeases _) fun ok => ?_
  split
  · exact ⟨trivial, fun _ => trivial⟩
  refine Program.Only.bind (updateLease_forLeases _ _ _) fun ans => ?_
  rcases ans with _ | revision <;> exact ⟨trivial, fun _ => trivial⟩

/-- So does `Valid`. -/
theorem valid_forLeases (lease : CallId) : (valid lease).Only Request.ForLeases := by
  refine Program.only_ask_bind.2 ⟨trivial, fun held => ?_⟩
  split
  · exact ⟨trivial, fun _ => trivial⟩
  refine Program.only_ask_bind.2 ⟨trivial, fun now => ?_⟩
  split
  · exact ⟨trivial, fun _ => trivial⟩
  refine Program.only_ask_bind.2 ⟨trivial, fun ans => ?_⟩
  rcases ans with _ | entry <;> exact ⟨trivial, fun _ => trivial⟩

/-- So does `Release`. -/
theorem release_forLeases (lease : CallId) : (store.release lease).Only Request.ForLeases := by
  refine Program.only_ask_bind.2 ⟨trivial, fun held => ?_⟩
  split
  · exact ⟨trivial, fun _ => trivial⟩
  refine Program.Only.bind (updateLease_forLeases _ _ _) fun ans => ?_
  rcases ans with _ | revision <;> exact ⟨trivial, fun _ => trivial⟩

/-- `Consume` uses the nonce bucket and the clock only. -/
theorem consume_forNonces (key : Digest) (nonce : NonceValue) :
    (store.consume key nonce).Only Request.ForNonces := by
  unfold consume
  split
  · trivial
  refine Program.Only.bind ⟨trivial, fun _ => trivial⟩ fun ok => ?_
  split
  · trivial
  refine Program.only_ask_bind.2 ⟨trivial, fun ans => ?_⟩
  split
  · trivial
  · trivial
  · refine Program.only_ask_bind.2 ⟨trivial, fun ans => ?_⟩
    split
    · trivial
    · split
      · trivial
      · split <;> trivial

end

end Store

/-! ## The shared state -/

/-- What the calls of any number of clients share: the two buckets, the lease objects with the call
that holds each one's mutex, and the lease object whose mutex each call has taken (`locked`, which
no request reads). -/
structure World where
  nonces : Bucket Digest Value CallId
  leases : Bucket Digest Value CallId
  object : CallId → Option LeaseObject
  mutex : CallId → Option CallId
  locked : CallId → Option CallId

/-- The state before the first call. -/
def World.init : World := ⟨.empty, .empty, fun _ => none, fun _ => none, fun _ => none⟩

/-- What a request of call `i` may do. A clock may read anything; an object's mutex is taken only
while it is free. -/
def sem (i : CallId) : (r : Request) → World → r.Answer → World → Prop
  | .nonces op, w, ans, w' => ∃ b, Bucket.Apply i op w.nonces ans b ∧ w' = { w with nonces := b }
  | .leases op, w, ans, w' => ∃ b, Bucket.Apply i op w.leases ans b ∧ w' = { w with leases := b }
  | .now, w, _, w' => w' = w
  | .newLease object, w, lease, w' =>
      lease = i ∧ w' = { w with object := Function.update w.object i (some object) }
  | .lock lease, w, object, w' =>
      w.object lease = some object ∧ w.mutex lease = none ∧ w' = { w with
          mutex := Function.update w.mutex lease (some i)
          locked := Function.update w.locked i (some lease) }
  | .unlock lease object, w, _, w' =>
      w' = { w with
        object := Function.update w.object lease (some object)
        mutex := Function.update w.mutex lease none }

/-- The retention of the buckets: an entry whose key `free` admits is dropped. -/
inductive Expiry (free : Digest → Prop) : World → World → Prop
  | nonce {w : World} {key : Digest} : free key →
      Expiry free w { w with nonces := w.nonces.drop key }
  | lease {w : World} {key : Digest} : Expiry free w { w with leases := w.leases.drop key }

/-- The calls of the adapter. -/
inductive Call where
  | consume (key : Digest) (nonce : NonceValue)
  | acquire (key : Digest) (candidate : LeaseValue)
  | renew (lease : CallId) (expires : Time)
  | valid (lease : CallId)
  | release (lease : CallId)
  deriving DecidableEq

/-- What a call returns. -/
inductive Result where
  | nonce (outcome : Except Error NonceOutcome)
  | lease (outcome : Except Error Store.Acquired)
  | valid (outcome : Except Error Bool)
  | done (outcome : Except Error Unit)

/-- The program of a call. -/
def Store.body (store : Store) : Call → Proc Result
  | .consume key nonce => do return .nonce (← store.consume key nonce)
  | .acquire key candidate => do return .lease (← store.acquire key candidate)
  | .renew lease expires => do return .done (← store.renew lease expires)
  | .valid lease => do return .valid (← Store.valid lease)
  | .release lease => do return .done (← store.release lease)

/-- The pools that any interleaving of calls by clients of one configuration reaches, where the
requests mean `sem` and the retention drops only the nonce entries that `free` admits. -/
abbrev Reach (store : Store) (sem : Sem port CallId World) (free : Digest → Prop) :=
  Pool.Reach sem (Expiry free) store.body World.init

/-- The reconcile condition: a call that reads back, unreleased, exactly the bytes of its own
mutation that was answered with an error reads an entry that it committed itself. -/
def ReadsOwn (i : CallId) (w : World) : Request → Prop
  | .nonces (.get key) => w.nonces.OwnRead i key (·.released = false)
  | .leases (.get key) => w.leases.OwnRead i key (·.released = false)
  | _ => True

/-- The requests of a run in which every step meets `ReadsOwn`. -/
def ownSem (i : CallId) (r : Request) (w : World) (ans : r.Answer) (w' : World) : Prop :=
  sem i r w ans w' ∧ ReadsOwn i w r

/-- A configuration to run the calls with. -/
def sampleStore : Store := ⟨⟨10 * second, 1⟩⟩

end YukhCoordination.JetStreamKV
