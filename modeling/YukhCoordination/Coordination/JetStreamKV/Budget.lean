import Mathlib.Algebra.Ring.Nat
import Mathlib.Data.List.Sort
import YukhCoordination.Lib.Program
import YukhCoordination.Lib.Bucket
import YukhCoordination.Coordination.Store

/-!
# The capability-budget ledger

The model of `internal/coordination/jetstreamkv/budget.go`. A principal's ledger is one KV entry:
the slots of its pending and active capabilities. `Reserve`, `Commit`, `Cancel`, `Replace` and
`Retire` are compare-and-set mutations of it (`mutate`), and every mutation first reads the ledger
back through the strict reader `decodeBudget`.

A stored ledger is identified with the JSON text that `json.Marshal` gives for it.
-/

namespace YukhCoordination.JetStreamKV.Budget

open Coordination Interleave CasBucket

/-- `maxBudgetValueBytes`. -/
def maxBudgetValueBytes : Nat := 8192

/-- The `phase` of a slot. -/
inductive Phase where
  | pending
  | active
  | other (text : String)
  deriving DecidableEq, Repr

/-- A slot of the ledger. -/
structure BudgetSlot where
  token : String
  expiresAt : TimeText
  leaseExpires : TimeText
  phase : Phase
  deriving DecidableEq, Repr

/-- The ledger of a principal. -/
structure BudgetValue where
  schema : Nat
  epoch : Nat
  entries : List BudgetSlot
  deriving DecidableEq, Repr

/-- The length of the JSON text of a phase without its quotes. -/
def Phase.length : Phase → Nat
  | .pending => 7
  | .active => 6
  | .other text => text.utf8ByteSize

/-- The length of the JSON text of a slot: 61 bytes of braces, commas, quotes and member names, and
the members themselves. -/
def BudgetSlot.marshalledLength (slot : BudgetSlot) : Nat :=
  61 + slot.token.utf8ByteSize + slot.expiresAt.length + slot.leaseExpires.length +
    slot.phase.length

/-- The length of the JSON text of a ledger: 33 bytes of braces, brackets, commas, quotes and member
names, the two numbers, and the slots with a comma between any two. -/
def BudgetValue.marshalledLength (value : BudgetValue) : Nat :=
  33 + (toString value.schema).length + (toString value.epoch).length +
    (value.entries.map BudgetSlot.marshalledLength).sum + (value.entries.length - 1)

/-- A capability token: sixteen bytes. -/
structure CapabilityTokenID where
  bytes : List UInt8
  size : bytes.length = 16
  deriving DecidableEq

/-- `tokenText`: the lower-case hexadecimal text of the bytes. -/
def tokenText (token : CapabilityTokenID) : String := String.ofList (token.bytes.flatMap fun b =>
    [Nat.digitChar (b.toNat / 16), Nat.digitChar (b.toNat % 16)])

/-- The characters `hex.DecodeString` reads. -/
def isHexDigit (c : Char) : Bool :=
  ('0' ≤ c && c ≤ '9') || ('a' ≤ c && c ≤ 'f') || ('A' ≤ c && c ≤ 'F')

/-- `hex.DecodeString` succeeds. -/
def hexDecodes (text : String) : Bool := text.toList.length % 2 == 0 && text.toList.all isHexDigit

/-- The client side of the budget, with the bounds that `OpenCapabilityBudget` checks. -/
structure CapabilityBudget where
  limit : Nat
  pendingTTL : Duration
  epoch : Nat
  limit_pos : 1 ≤ limit
  limit_le : limit ≤ 32
  pendingTTL_pos : 0 < pendingTTL
  pendingTTL_le : pendingTTL ≤ 5 * second
  epoch_ne : epoch ≠ 0

/-! ## The strict reader -/

/-- A time is a whole number of milliseconds. -/
def wholeMillisecond (t : Time) : Bool := t.equal t.truncateMillisecond

/-- What `decodeBudget` asks of a slot. -/
def acceptsSlot (entry : BudgetSlot) : Bool :=
  entry.token.utf8ByteSize == 32 && (entry.phase == .pending || entry.phase == .active) &&
    hexDecodes entry.token &&
    match entry.expiresAt.parse, entry.leaseExpires.parse with
    | some expires, some leaseExpires =>
      expires.utc && leaseExpires.utc && wholeMillisecond expires &&
        wholeMillisecond leaseExpires &&
        !(entry.phase == .active && !expires.equal leaseExpires ||
          entry.phase == .pending && expires.after leaseExpires)
    | _, _ => false

/-- `decodeBudget`. -/
def decodeBudget (raw : BudgetValue) : Except Error BudgetValue :=
  if raw.marshalledLength == 0 || raw.marshalledLength > maxBudgetValueBytes || raw.schema != 1 ||
      raw.epoch == 0 || raw.entries.length > 32 then
    .error .invariant
  else if raw.entries.all acceptsSlot then .ok raw
  else .error .invariant

/-- `findSlot`. -/
def findSlot (entries : List BudgetSlot) (token : String) : Option Nat :=
  entries.findIdx? (·.token == token)

/-! ## The port -/

/-- A reading of the clock, named by where the code takes it: in `validate`, in `prune`, or for the
deadline of a slot that `Reserve` adds for a capability that expires at `expires`. -/
inductive ClockSite where
  | validate
  | prune
  | deadline (expires : Time)

/-- The atomic requests of the calls. -/
inductive Request where
  | kv (op : Op Digest BudgetValue)
  | now (site : ClockSite)

/-- The answer to a request. -/
abbrev Request.Answer : Request → Type
  | .kv op => op.Answer
  | .now _ => Time

/-- The port of the budget. -/
abbrev port : Port := ⟨Request, Request.Answer⟩

/-- A program of the budget. -/
abbrev Proc := Program port

/-- A request with its answer. -/
abbrev ask (r : Request) : Proc r.Answer := Program.ask (P := port) r

/-! ## The calls -/

namespace CapabilityBudget

/-- `CapabilityBudget.validate`. -/
def validate (budget : CapabilityBudget) (principal : Digest) (expires : Time) (epoch : Nat) :
    Proc (Except Error Unit) := do
  if !validDigest principal || epoch != budget.epoch || !expires.utc ||
      !wholeMillisecond expires then
    return .error .invalidArgument
  let now ← ask (.now .validate)
  if !expires.after now.toUTC then
    return .error .invalidArgument
  return .ok ()

/-- What `prune` keeps at a clock reading. -/
def unexpired (now : Time) (entry : BudgetSlot) : Bool :=
  match entry.expiresAt.parse with
  | some expires => expires.after now
  | none => false

/-- `CapabilityBudget.prune`. -/
def prune (value : BudgetValue) : Proc BudgetValue := do
  let now ← ask (.now .prune)
  return { value with entries := value.entries.filter (unexpired now.toUTC) }

/-- `sort.Slice` by token. -/
def sortEntries (entries : List BudgetSlot) : List BudgetSlot :=
  entries.insertionSort fun a b => a.token ≤ b.token

/-- The ledger a mutation starts from when there is none of its epoch. -/
def emptyLedger (budget : CapabilityBudget) : BudgetValue := ⟨1, budget.epoch, []⟩

/-- The end of `mutate`: a write that was answered with an error is read back once. -/
def reconcile (principal : Digest) (raw : BudgetValue) (revision : Nat) :
    Except Fault Nat → Proc (Except Error Unit)
  | .ok _ => return .ok ()
  | .error _ => do
    match ← ask (.kv (.get principal)) with
    | .error _ => return .error .unavailable
    | .ok reconciled =>
      if reconciled.revision > revision && reconciled.value == raw then
        return .ok ()
      return .error .conflict

/-- The last part of `mutate`: create the entry, or update it at the revision that was read. -/
def store (principal : Digest) (raw : BudgetValue) : Option Nat → Proc (Except Error Unit)
  | none => do reconcile principal raw 0 (← ask (.kv (.create principal raw)))
  | some revision => do
    reconcile principal raw revision (← ask (.kv (.update principal raw revision)))

/-- The middle part of `mutate`: change the ledger, sort it and write it. -/
def rewrite (principal : Digest) (change : BudgetValue → Proc (Except Error BudgetValue))
    (value : BudgetValue) (revision : Option Nat) : Proc (Except Error Unit) := do
  match ← change value with
  | .error err => return .error err
  | .ok value =>
    let raw := { value with entries := sortEntries value.entries }
    if raw.marshalledLength > maxBudgetValueBytes then
      return .error .unavailable
    store principal raw revision

/-- `CapabilityBudget.mutate`. -/
def mutate (budget : CapabilityBudget) (principal : Digest)
    (change : BudgetValue → Proc (Except Error BudgetValue)) : Proc (Except Error Unit) := do
  match ← ask (.kv (.get principal)) with
  | .error .notFound => rewrite principal change budget.emptyLedger none
  | .error _ => return .error .unavailable
  | .ok entry =>
    match decodeBudget entry.value with
    | .error err => return .error err
    | .ok value =>
      if value.epoch > budget.epoch then
        return .error .invariant
      if value.epoch < budget.epoch then
        rewrite principal change budget.emptyLedger (some entry.revision)
      else
        rewrite principal change value (some entry.revision)

/-- The slot that `Reserve` adds when its clock reads `now`. -/
def reservedSlot (budget : CapabilityBudget) (token : CapabilityTokenID) (expires now : Time) :
    BudgetSlot :=
  let pending := now.toUTC.add budget.pendingTTL
  let pending := if expires.before pending then expires else pending
  ⟨tokenText token, formatTime pending, formatTime expires, .pending⟩

/-- `CapabilityBudget.Reserve`. -/
def reserve (budget : CapabilityBudget) (principal : Digest) (token : CapabilityTokenID)
    (expires : Time) (epoch : Nat) : Proc (Except Error Unit) := do
  match ← budget.validate principal expires epoch with
  | .error err => return .error err
  | .ok () =>
    budget.mutate principal fun value => do
      let value ← prune value
      if (findSlot value.entries (tokenText token)).isSome then
        return .error .conflict
      if value.entries.length ≥ budget.limit then
        return .error .unavailable
      let now ← ask (.now (.deadline expires))
      return .ok { value with entries := value.entries ++ [budget.reservedSlot token expires now] }

/-- `CapabilityBudget.change`. -/
def change (budget : CapabilityBudget) (principal : Digest) (token : CapabilityTokenID)
    (epoch : Nat) (change : BudgetValue → Nat → Except Error BudgetValue) :
    Proc (Except Error Unit) := do
  if !validDigest principal || epoch != budget.epoch then
    return .error .invalidArgument
  budget.mutate principal fun value => do
    let value ← prune value
    match findSlot value.entries (tokenText token) with
    | none => return .error .conflict
    | some index => return change value index

/-- The change of `Commit`: a pending slot becomes active until its lease expires. -/
def activate (value : BudgetValue) (index : Nat) : Except Error BudgetValue :=
  match value.entries[index]? with
  | some slot =>
    if slot.phase != .pending then .error .conflict
    else .ok { value with
      entries := value.entries.set index
        { slot with phase := .active, expiresAt := slot.leaseExpires } }
  | none => .error .conflict

/-- The change of `Cancel` and `Retire`: a slot of the given phase is removed. -/
def remove (phase : Phase) (value : BudgetValue) (index : Nat) : Except Error BudgetValue :=
  match value.entries[index]? with
  | some slot =>
    if slot.phase != phase then .error .conflict
    else .ok { value with entries := value.entries.eraseIdx index }
  | none => .error .conflict

/-- The change of `Replace`: an active slot gets another token and expiry. -/
def replaceSlot (next : CapabilityTokenID) (expires : Time) (value : BudgetValue) (index : Nat) :
    Except Error BudgetValue :=
  match value.entries[index]? with
  | some slot =>
    if slot.phase != .active || (findSlot value.entries (tokenText next)).isSome then
      .error .conflict
    else .ok { value with
      entries := value.entries.set index
        ⟨tokenText next, formatTime expires, formatTime expires, .active⟩ }
  | none => .error .conflict

/-- `CapabilityBudget.Commit`. -/
def commit (budget : CapabilityBudget) (principal : Digest) (token : CapabilityTokenID)
    (epoch : Nat) : Proc (Except Error Unit) :=
  budget.change principal token epoch activate

/-- `CapabilityBudget.Cancel`. -/
def cancel (budget : CapabilityBudget) (principal : Digest) (token : CapabilityTokenID)
    (epoch : Nat) : Proc (Except Error Unit) :=
  budget.change principal token epoch (remove .pending)

/-- `CapabilityBudget.Replace`. -/
def replace (budget : CapabilityBudget) (principal : Digest) (old next : CapabilityTokenID)
    (expires : Time) (epoch : Nat) : Proc (Except Error Unit) := do
  match ← budget.validate principal expires epoch with
  | .error err => return .error err
  | .ok () => budget.change principal old epoch (replaceSlot next expires)

/-- `CapabilityBudget.Retire`. -/
def retire (budget : CapabilityBudget) (principal : Digest) (token : CapabilityTokenID)
    (epoch : Nat) : Proc (Except Error Unit) :=
  budget.change principal token epoch (remove .active)

end CapabilityBudget

/-! ## Runs -/

/-- The calls of the budget. -/
inductive Call where
  | reserve (principal : Digest) (token : CapabilityTokenID) (expires : Time) (epoch : Nat)
  | commit (principal : Digest) (token : CapabilityTokenID) (epoch : Nat)
  | cancel (principal : Digest) (token : CapabilityTokenID) (epoch : Nat)
  | replace (principal : Digest) (old next : CapabilityTokenID) (expires : Time) (epoch : Nat)
  | retire (principal : Digest) (token : CapabilityTokenID) (epoch : Nat)

/-- The program of a call. -/
def CapabilityBudget.body (budget : CapabilityBudget) : Call → Proc (Except Error Unit)
  | .reserve principal token expires epoch => budget.reserve principal token expires epoch
  | .commit principal token epoch => budget.commit principal token epoch
  | .cancel principal token epoch => budget.cancel principal token epoch
  | .replace principal old next expires epoch => budget.replace principal old next expires epoch
  | .retire principal token epoch => budget.retire principal token epoch

/-- The bucket of all ledgers. -/
abbrev Ledgers := Bucket Digest BudgetValue Nat

/-- What a request of call `i` may do: the bucket is a compare-and-set map whose operations may
fail ambiguously, and the clock may read any instant. -/
def sem (i : Nat) : (r : Request) → Ledgers → r.Answer → Ledgers → Prop
  | .kv op, b, ans, b' => Bucket.Apply i op b ans b'
  | .now _, b, _, b' => b' = b

/-- The retention of the bucket may drop any ledger. -/
def Expiry (b b' : Ledgers) : Prop := ∃ principal, b' = b.drop principal

/-- The pools that any interleaving of calls reaches from the stored ledgers `b₀`, where the
requests mean `sem`. -/
abbrev Reach (budget : CapabilityBudget) (sem : Sem port Nat Ledgers) (b₀ : Ledgers) :=
  Pool.Reach sem Expiry budget.body b₀

/-- The deadline condition on a clock reading: taken for the slot of a capability that expires at
`expires`, the reading plus the pending lifetime is a whole millisecond or not before `expires`. -/
def TruncatedDeadline (budget : CapabilityBudget) : (r : Request) → r.Answer → Prop
  | .now (.deadline expires), now =>
      wholeMillisecond (now.add budget.pendingTTL) = true ∨
        (now.add budget.pendingTTL).before expires = false
  | .now .validate, _ | .now .prune, _ | .kv _, _ => True

/-- The requests of a run in which every step meets `TruncatedDeadline`. -/
def truncatedSem (budget : CapabilityBudget) (i : Nat) (r : Request) (b : Ledgers)
    (ans : r.Answer) (b' : Ledgers) : Prop :=
  sem i r b ans b' ∧ TruncatedDeadline budget r ans

end YukhCoordination.JetStreamKV.Budget
