import Mathlib.Algebra.Ring.Nat
import Mathlib.Logic.Function.Basic
import Mathlib.Logic.Relation
import YukhCoordination.Coordination.Store
import YukhCoordination.Lib.Transaction

/-!
# The memory adapter for fenced leases

The model of the leases of `internal/coordination/memory/store.go`. A call holds the mutex
throughout, so it is one function of the store. The nonces are left out.
-/

namespace YukhCoordination.Memory

open Coordination Transaction

/-! ## The store -/

/-- `leaseRecord`. -/
structure LeaseRecord where
  holder : Digest
  expires : Time
  epoch : Nat
  revision : UInt64
  released : Bool
  deriving DecidableEq, Repr

/-- The fields of `Store` that the calls on leases use. -/
structure Store where
  maxLifetime : Duration
  epoch : Nat
  leases : Digest → Option LeaseRecord
  revision : UInt64

/-- The fields of a `lease` object. -/
structure Lease where
  key : Digest
  holder : Digest
  expires : Time
  revision : UInt64
  released : Bool
  deriving DecidableEq, Repr

/-- `LeaseResumeValue`. `NewLeaseResumeValue` makes only values with whole milliseconds, and with an
epoch and a token that are safe integers. -/
structure LeaseResumeValue where
  holderDigest : Digest
  expiresAt : Time
  epoch : Nat
  fencingToken : UInt64
  deriving DecidableEq, Repr

/-- `New`. -/
def new (maxLifetime : Duration) (epoch : Nat) : Except Error Store := do
  ensure (0 < maxLifetime && epoch != 0) .invalidArgument
  return ⟨maxLifetime, epoch, fun _ => none, 0⟩

/-- `valid`. -/
def Store.valid (store : Store) (now : Time) (key identity : Digest) (expires : Time)
    (epoch : Nat) : Bool :=
  validDigest key && validDigest identity && epoch == store.epoch && expires.after now.toUTC &&
    !expires.after (now.toUTC.add store.maxLifetime)

/-- The store with a record under the next revision. -/
def Store.write (store : Store) (key : Digest) (record : LeaseRecord) : Store := { store with
    leases := Function.update store.leases key (some { record with revision := store.revision + 1 })
    revision := store.revision + 1 }

/-- `Acquire`, which reads the clock twice. -/
def Store.acquire (store : Store) (now now' : Time) (key : Digest) (value : LeaseValue) :
    Except Error (Lease × Store) := do
  ensure (store.valid now key value.holderDigest value.expiresAt value.epoch) .invalidArgument
  ensure ((store.leases key).all fun current =>
    current.released || !current.expires.after now'.toUTC) .conflict
  let store := store.write key ⟨value.holderDigest, value.expiresAt, value.epoch, 0, false⟩
  return (⟨key, value.holderDigest, value.expiresAt, store.revision, false⟩, store)

/-- `Resume`. -/
def Store.resume (store : Store) (now : Time) (key : Digest) (value : LeaseResumeValue) :
    Except Error Lease := do
  ensure (validDigest key && value.epoch == store.epoch) .invalidArgument
  let current ← required (store.leases key) .conflict
  ensure (!current.released && current.holder == value.holderDigest &&
    current.expires == value.expiresAt && current.epoch == value.epoch &&
    current.revision == value.fencingToken && current.expires.after now.toUTC) .conflict
  return ⟨key, current.holder, current.expires, current.revision, false⟩

/-- `Renew`. -/
def Lease.renew (held : Lease) (store : Store) (now expires : Time) :
    Except Error (Lease × Store) := do
  ensure (!held.released && store.valid now held.key held.holder expires store.epoch) .conflict
  let current ← required (store.leases held.key) .conflict
  ensure (current.revision == held.revision) .conflict
  let store := store.write held.key ⟨held.holder, expires, store.epoch, 0, false⟩
  return ({ held with revision := store.revision, expires := expires }, store)

/-- `Valid`. -/
def Lease.valid (held : Lease) (store : Store) (now : Time) : Bool :=
  (store.leases held.key).any fun current => !held.released &&
    current.revision == held.revision && current.expires.after now.toUTC

/-- `Release`. -/
def Lease.release (held : Lease) (store : Store) : Except Error (Lease × Store) := do
  let current ← required (store.leases held.key) .conflict
  ensure (!held.released && current.revision == held.revision) .conflict
  let store := store.write held.key { current with released := true }
  return ({ held with revision := store.revision, released := true }, store)

/-! ## Runs -/

/-- A lease object that a call has returned: the token that it obtained last, from `Acquire`,
`Renew` or `Resume`, and whether its key has been acquired, renewed or released since. -/
structure Held where
  lease : Lease
  token : UInt64
  superseded : Bool

/-- The store, the lease objects, the number of calls that have written a record, and the keys and
tokens of the leases that `Acquire` has returned and `Renew` has renewed. -/
structure World where
  store : Store
  handles : Nat → Option Held
  writes : Nat
  tokens : List (Digest × UInt64)

/-- The world after a call on object `i` that has written its key and has given the tokens. -/
def World.write (w : World) (store : Store) (i : Nat) (held : Held)
    (given : List (Digest × UInt64)) : World where
  store := store
  handles := Function.update (fun j => (w.handles j).map fun other =>
    { other with superseded := other.superseded || other.lease.key == held.lease.key }) i
      (some held)
  writes := w.writes + 1
  tokens := w.tokens ++ given

/-- A call that succeeds. The others, and `Valid`, change nothing. -/
inductive Step (w : World) : World → Prop
  | acquire {now now' : Time} {key : Digest} {value : LeaseValue} {lease : Lease} {store : Store}
      {i : Nat} : w.store.acquire now now' key value = .ok (lease, store) → w.handles i = none →
      Step w (w.write store i ⟨lease, lease.revision, false⟩ [(lease.key, lease.revision)])
  | resume {now : Time} {key : Digest} {value : LeaseResumeValue} {lease : Lease} {i : Nat} :
      w.store.resume now key value = .ok lease → w.handles i = none →
      Step w { w with
        handles := Function.update w.handles i (some ⟨lease, lease.revision, false⟩) }
  | renew {now expires : Time} {held : Held} {lease : Lease} {store : Store} {i : Nat} :
      w.handles i = some held → held.lease.renew w.store now expires = .ok (lease, store) →
      Step w (w.write store i ⟨lease, lease.revision, false⟩ [(lease.key, lease.revision)])
  | release {held : Held} {lease : Lease} {store : Store} {i : Nat} :
      w.handles i = some held → held.lease.release w.store = .ok (lease, store) →
      Step w (w.write store i ⟨lease, held.token, true⟩ [])

/-- The runs of a store. -/
def Run (store : Store) : World → Prop := Relation.ReflTransGen Step ⟨store, fun _ => none, 0, []⟩

/-- The calls that the object and its token are refused. -/
structure Held.Refused (held : Held) (store : Store) : Prop where
  renew : ∀ now expires, held.lease.renew store now expires = .error .conflict
  release : held.lease.release store = .error .conflict
  valid : ∀ now, held.lease.valid store now = false
  resume : ∀ now value, value.fencingToken = held.token →
    (store.resume now held.lease.key value).isOk = false

/-- The token is valid: an object that has it is, or it can be resumed. -/
def World.ValidToken (w : World) (now : Time) (key : Digest) (token : UInt64) : Prop :=
  (∃ i held, w.handles i = some held ∧ held.lease.key = key ∧ held.lease.revision = token ∧
    held.lease.valid w.store now = true) ∨
    ∃ value, value.fencingToken = token ∧ (w.store.resume now key value).isOk = true

/-! ## What holds along a run -/

/-- The object and the record of its key. -/
structure Held.Fits (held : Held) (record : LeaseRecord) : Prop where
  token : held.token ≤ record.revision
  lease : held.lease.released ∨ held.lease.revision = held.token
  superseded : held.superseded → held.token < record.revision

/-- The revision is the number of writes, no record and no token is above it, every object fits its
record, and the tokens increase. -/
structure Inv (w : World) : Prop where
  revision : w.store.revision.toNat = w.writes
  leases : ∀ key record, w.store.leases key = some record → record.revision ≤ w.store.revision
  handles : ∀ i held, w.handles i = some held →
    ∃ record, w.store.leases held.lease.key = some record ∧ held.Fits record
  tokens : ∀ given ∈ w.tokens, given.2 ≤ w.store.revision
  increasing : w.tokens.Pairwise fun a b => a.2 < b.2

section
variable {w w' : World} {store : Store} {now : Time} {key : Digest}

/-- The next revision is above the one of the store, which has not wrapped. -/
theorem Inv.lt_next (h : Inv w) (hwrites : w.writes + 1 < 2 ^ 64) :
    w.store.revision < w.store.revision + 1 := by
  have hone : (1 : UInt64).toNat = 1 := rfl
  rw [UInt64.lt_iff_toNat_lt, UInt64.toNat_add, h.revision, hone, Nat.mod_eq_of_lt hwrites]
  exact Nat.lt_succ_self _

/-- A write of a key by a call on one of its objects. -/
theorem Inv.write (h : Inv w) (hwrites : w.writes + 1 < 2 ^ 64) {record : LeaseRecord} {i : Nat}
    {held : Held} {given : List (Digest × UInt64)} (hkey : held.lease.key = key)
    (hheld : held.Fits { record with revision := w.store.revision + 1 })
    (hgiven : given = [] ∨ given = [(key, w.store.revision + 1)]) :
    Inv (w.write (w.store.write key record) i held given) where
  revision := by
    have hone : (1 : UInt64).toNat = 1 := rfl
    change (w.store.revision + 1).toNat = w.writes + 1
    rw [UInt64.toNat_add, h.revision, hone, Nat.mod_eq_of_lt hwrites]
  leases key' record' hrecord := by
    simp only [World.write, Store.write, Function.update_apply] at hrecord ⊢
    split at hrecord
    · cases hrecord
      exact UInt64.le_refl _
    · exact UInt64.le_of_lt
        (UInt64.lt_of_le_of_lt (h.leases key' record' hrecord) (h.lt_next hwrites))
  handles j other hother := by
    simp only [World.write, Store.write, Function.update_apply] at hother ⊢
    split at hother
    · cases hother
      exact ⟨_, if_pos hkey, hheld⟩
    · obtain ⟨other, hj, rfl⟩ := Option.map_eq_some_iff.1 hother
      obtain ⟨old, hold, hfits⟩ := h.handles j other hj
      have hlt := UInt64.lt_of_le_of_lt (UInt64.le_trans hfits.token (h.leases _ _ hold))
        (h.lt_next hwrites)
      dsimp only
      split
      · exact ⟨_, rfl, UInt64.le_of_lt hlt, hfits.lease, fun _ => hlt⟩
      · next hne =>
        refine ⟨old, hold, hfits.token, hfits.lease, fun hs => hfits.superseded ?_⟩
        simpa [hkey, hne] using hs
  tokens t ht := by
    rcases List.mem_append.1 ht with ht | ht
    · exact UInt64.le_of_lt (UInt64.lt_of_le_of_lt (h.tokens t ht) (h.lt_next hwrites))
    · rcases hgiven with rfl | rfl
      · cases ht
      · cases List.mem_singleton.1 ht
        exact UInt64.le_refl _
  increasing := by
    refine List.pairwise_append.2 ⟨h.increasing, ?_, fun a ha b hb => ?_⟩
    · rcases hgiven with rfl | rfl
      · exact .nil
      · exact List.pairwise_singleton _ _
    · rcases hgiven with rfl | rfl
      · cases hb
      · cases List.mem_singleton.1 hb
        exact UInt64.lt_of_le_of_lt (h.tokens a ha) (h.lt_next hwrites)

/-- What `Resume` has compared. -/
theorem resume_ok {value : LeaseResumeValue} {lease : Lease}
    (h : store.resume now key value = .ok lease) : ∃ record, store.leases key = some record ∧
      record.revision = value.fencingToken ∧ lease.key = key ∧
        lease.revision = record.revision := by
  obtain ⟨-, h⟩ := ensure_bind.1 h
  obtain ⟨record, hrecord, h⟩ := required_bind.1 h
  obtain ⟨hsame, h⟩ := ensure_bind.1 h
  cases h
  simp only [Bool.and_eq_true, beq_iff_eq] at hsame
  exact ⟨record, hrecord, hsame.1.2, rfl, rfl⟩

/-- Every call keeps the invariant, until the revision wraps. -/
theorem Inv.step (h : Inv w) (hs : Step w w') (hwrites : w'.writes < 2 ^ 64) : Inv w' := by
  cases hs with
  | acquire hcall =>
    obtain ⟨-, hcall⟩ := ensure_bind.1 hcall
    obtain ⟨-, hcall⟩ := ensure_bind.1 hcall
    cases hcall
    refine h.write hwrites rfl ?_ (.inr rfl)
    exact ⟨UInt64.le_refl _, .inr rfl, (absurd · Bool.false_ne_true)⟩
  | resume hcall =>
    obtain ⟨record, hrecord, -, hkey, hrevision⟩ := resume_ok hcall
    refine ⟨h.revision, h.leases, fun j held hheld => ?_, h.tokens, h.increasing⟩
    simp only [Function.update_apply] at hheld
    split at hheld
    · cases hheld
      exact ⟨record, hkey ▸ hrecord, UInt64.le_of_eq hrevision, .inr rfl,
        (absurd · Bool.false_ne_true)⟩
    · exact h.handles j held hheld
  | renew _ hcall =>
    obtain ⟨-, hcall⟩ := ensure_bind.1 hcall
    obtain ⟨current, -, hcall⟩ := required_bind.1 hcall
    obtain ⟨-, hcall⟩ := ensure_bind.1 hcall
    cases hcall
    refine h.write hwrites rfl ?_ (.inr rfl)
    exact ⟨UInt64.le_refl _, .inr rfl, (absurd · Bool.false_ne_true)⟩
  | release hi hcall =>
    obtain ⟨current, -, hcall⟩ := required_bind.1 hcall
    obtain ⟨-, hcall⟩ := ensure_bind.1 hcall
    cases hcall
    obtain ⟨record, hrecord, hfits⟩ := h.handles _ _ hi
    have hlt := UInt64.lt_of_le_of_lt (UInt64.le_trans hfits.token (h.leases _ _ hrecord))
      (h.lt_next hwrites)
    refine h.write hwrites rfl ?_ (.inl rfl)
    exact ⟨UInt64.le_of_lt hlt, .inl rfl, fun _ => hlt⟩

/-- The number of writes does not decrease. -/
theorem Step.writes_le (hs : Step w w') : w.writes ≤ w'.writes := by
  cases hs with
  | resume => exact Nat.le_refl _
  | acquire | renew | release => exact Nat.le_succ _

/-- The invariant holds in every world of a run, until the revision wraps. -/
theorem Run.inv (h : Run store w) (hleases : store.leases = fun _ => none)
    (hrevision : store.revision = 0) (hwrites : w.writes < 2 ^ 64) : Inv w := by
  induction h with
  | refl => exact ⟨by simp [hrevision], by simp [hleases], by simp, by simp, .nil⟩
  | tail _ hs ih => exact (ih (hs.writes_le.trans_lt hwrites)).step hs hwrites

/-- A superseded object and its token are refused. -/
theorem Held.Fits.refused {held : Held} {record : LeaseRecord} (h : held.Fits record)
    (hrecord : store.leases held.lease.key = some record) (hs : held.superseded) :
    held.Refused store := by
  have hlt := h.superseded hs
  have hstale : held.lease.released = true ∨ record.revision ≠ held.lease.revision :=
    h.lease.imp_right fun heq hsame => UInt64.lt_irrefl _ (heq ▸ hsame ▸ hlt)
  refine ⟨fun now expires => ?_, ?_, fun now => ?_, fun now value hvalue => ?_⟩
  · rcases hstale with hreleased | hne
    · simp [Lease.renew, hreleased, ensure, bind, Except.bind]
    · cases hv : (!held.lease.released &&
        store.valid now held.lease.key held.lease.holder expires store.epoch) <;>
        simp [Lease.renew, hv, hrecord, hne, ensure, required, bind, Except.bind]
  · rcases hstale with hreleased | hne <;>
      simp [Lease.release, ensure, required, bind, Except.bind, *]
  · rcases hstale with hreleased | hne <;> simp [Lease.valid, *]
  · refine Bool.eq_false_iff.2 fun hok => ?_
    obtain ⟨lease, hlease⟩ := exists_ok hok
    obtain ⟨found, hfound, hrevision, -⟩ := resume_ok hlease
    rw [hrecord] at hfound
    cases hfound
    exact UInt64.lt_irrefl _ (hvalue ▸ hrevision ▸ hlt)

/-- A valid token is the revision of the record. -/
theorem World.ValidToken.revision {token : UInt64} (h : w.ValidToken now key token) :
    (w.store.leases key).map (·.revision) = some token := by
  rcases h with ⟨i, held, -, rfl, rfl, hvalid⟩ | ⟨value, rfl, hok⟩
  · unfold Lease.valid at hvalid
    cases hrecord : w.store.leases held.lease.key with
    | none => simp [hrecord] at hvalid
    | some record =>
      simp only [hrecord, Option.any_some, Bool.and_eq_true, beq_iff_eq] at hvalid
      rw [Option.map_some, hvalid.1.2]
  · obtain ⟨lease, hlease⟩ := exists_ok hok
    obtain ⟨record, hrecord, hrevision, -⟩ := resume_ok hlease
    rw [hrecord, Option.map_some, hrevision]

end

/-- **Fencing in the memory lease store.** In every run whose calls have written fewer than 2^64
records, the tokens that `Acquire` and `Renew` give for a key strictly increase, an object whose key
was acquired, renewed or released after it obtained its token is refused every call and its token
cannot be resumed, and a key has at most one valid token at a time. -/
theorem lease_fencing {maxLifetime : Duration} {epoch : Nat} {store : Store} {w : World}
    (hnew : new maxLifetime epoch = .ok store) (hrun : Run store w) (hwrites : w.writes < 2 ^ 64) :
    (w.tokens.Pairwise fun a b => a.1 = b.1 → a.2 < b.2) ∧
      (∀ i held, w.handles i = some held → held.superseded = true → held.Refused w.store) ∧
      ∀ now key token token', w.ValidToken now key token → w.ValidToken now key token' →
        token = token' := by
  obtain ⟨-, hnew⟩ := ensure_bind.1 hnew
  cases hnew
  have hinv := hrun.inv rfl rfl hwrites
  refine ⟨hinv.increasing.imp fun {a b} h (_ : a.1 = b.1) => h, fun i held hi hs => ?_,
    fun now key _ _ h h' => ?_⟩
  · obtain ⟨record, hrecord, hfits⟩ := hinv.handles i held hi
    exact hfits.refused hrecord hs
  · exact Option.some.inj (h.revision.symm.trans h'.revision)

/-- A store with one lease, renewed by the object that acquired it after another was resumed: the
second token is above the first one, and the resumed object is refused. -/
theorem lease_fencing_resumed : ∃ (store : Store) (w : World) (held : Held),
    new second 1 = .ok store ∧ Run store w ∧ w.tokens = [(sampleDigest, 1), (sampleDigest, 2)] ∧
      w.handles 1 = some held ∧ held.superseded = true ∧ held.Refused w.store := by
  have hacquire := @Step.acquire ⟨⟨second, 1, fun _ => none, 0⟩, fun _ => none, 0, []⟩ ⟨0, true⟩
    ⟨0, true⟩ sampleDigest ⟨sampleDigest, ⟨millisecond, true⟩, 1⟩ _ _ 0 rfl rfl
  have hresumed := (Relation.ReflTransGen.single hacquire).tail
    (@Step.resume _ ⟨0, true⟩ sampleDigest ⟨sampleDigest, ⟨millisecond, true⟩, 1, 1⟩ _ 1 rfl rfl)
  have hrun : Run _ _ :=
    hresumed.tail (@Step.renew _ ⟨0, true⟩ ⟨2 * millisecond, true⟩ _ _ _ 0 rfl rfl)
  have hnew : new second 1 = .ok ⟨second, 1, fun _ => none, 0⟩ := rfl
  exact ⟨_, _, _, hnew, hrun, rfl, rfl, rfl,
    (lease_fencing hnew hrun (show 2 < 2 ^ 64 by decide)).2.1 1 _ rfl rfl⟩

end YukhCoordination.Memory
