import Mathlib.Data.String.Basic
import YukhCoordination.Coordination.JetStreamKV.Budget

/-!
# Closure of the budget ledger

`Reserve` can store a time that the strict reader refuses (`reserve_poisons_ledger`).
-/

namespace YukhCoordination.JetStreamKV.Budget

open Coordination Interleave CasBucket CapabilityBudget

/-! ## Slots that the reader accepts -/

/-- The hexadecimal digits are one byte each and are read back. -/
theorem hexDigit_facts : ∀ n : Fin 16,
    isHexDigit (Nat.digitChar n.val) ∧ (Nat.digitChar n.val).utf8Size = 1 := by decide

theorem isHexDigit_digitChar {n : Nat} (h : n < 16) : isHexDigit (Nat.digitChar n) :=
  (hexDigit_facts ⟨n, h⟩).1

theorem utf8Size_digitChar {n : Nat} (h : n < 16) : (Nat.digitChar n).utf8Size = 1 :=
  (hexDigit_facts ⟨n, h⟩).2

theorem nibbles_lt (b : UInt8) : b.toNat / 16 < 16 ∧ b.toNat % 16 < 16 := by
  have := b.toNat_lt
  omega

/-- The text of a token is 32 bytes long and `hex.DecodeString` reads it. -/
theorem tokenText_accepted (token : CapabilityTokenID) :
    (tokenText token).utf8ByteSize = 32 ∧ hexDecodes (tokenText token) := by
  obtain ⟨bytes, hsize⟩ := token
  have hlen : ∀ l : List UInt8, String.utf8Len (l.flatMap fun b =>
      [Nat.digitChar (b.toNat / 16), Nat.digitChar (b.toNat % 16)]) = 2 * l.length := by
    intro l
    induction l with
    | nil => rfl
    | cons b l ih =>
      simp only [List.flatMap_cons, String.utf8Len_append, String.utf8Len_cons, String.utf8Len_nil,
        utf8Size_digitChar (nibbles_lt b).1, utf8Size_digitChar (nibbles_lt b).2, ih,
        List.length_cons]
      omega
  constructor
  · simp only [tokenText, String.utf8ByteSize_ofList, hlen, hsize]
  · simp only [hexDecodes, tokenText, String.toList_ofList, Bool.and_eq_true, beq_iff_eq,
      List.all_eq_true, List.mem_flatMap, forall_exists_index, and_imp]
    refine ⟨by simp [List.length_flatMap, hsize], ?_⟩
    intro c b _ hc
    simp only [List.mem_cons, List.not_mem_nil, or_false] at hc
    rcases hc with rfl | rfl
    · exact isHexDigit_digitChar (nibbles_lt b).1
    · exact isHexDigit_digitChar (nibbles_lt b).2

theorem wholeMillisecond_iff {t : Time} : wholeMillisecond t ↔ t.unixNano % millisecond = 0 := by
  simp only [wholeMillisecond, Time.equal_iff, Time.truncateMillisecond]
  omega

@[simp] theorem wholeMillisecond_toUTC (t : Time) :
    wholeMillisecond t.toUTC = wholeMillisecond t := rfl

variable {expires : Time} {raw : BudgetValue}

/-- What the reader asks of a slot whose token and times are well formed. -/
theorem acceptsSlot_iff {token : CapabilityTokenID} {lease : Time} {phase : Phase} :
    acceptsSlot ⟨tokenText token, formatTime expires, formatTime lease, phase⟩ ↔
      wholeMillisecond expires ∧ wholeMillisecond lease ∧
        (phase = .active ∧ expires.unixNano = lease.unixNano ∨
          phase = .pending ∧ expires.unixNano ≤ lease.unixNano) := by
  obtain ⟨hsize, hhex⟩ := tokenText_accepted token
  cases phase with
  | pending | active => simp [acceptsSlot, hsize, hhex, and_assoc]
  | other text => simp [acceptsSlot]

/-- The reader accepts the slot that `Reserve` adds for a whole-millisecond expiry exactly when the
clock reading meets the deadline condition. -/
theorem acceptsSlot_reservedSlot (budget : CapabilityBudget) (token : CapabilityTokenID)
    (hw : wholeMillisecond expires) (now : Time) :
    acceptsSlot (budget.reservedSlot token expires now) ↔
      TruncatedDeadline budget (.now (.deadline expires)) now := by
  have hadd : now.toUTC.add budget.pendingTTL = (now.add budget.pendingTTL).toUTC := rfl
  simp only [reservedSlot, hadd, acceptsSlot_iff, hw, TruncatedDeadline, true_and, reduceCtorEq,
    false_and, false_or, Time.before_eq_false_iff, Time.before_iff, Time.toUTC_unixNano]
  rw [wholeMillisecond_iff] at hw
  split
  · rw [wholeMillisecond_iff]
    omega
  · rw [wholeMillisecond_toUTC, wholeMillisecond_iff, Time.toUTC_unixNano]
    have heq : (now.add budget.pendingTTL).unixNano = expires.unixNano →
        (now.add budget.pendingTTL).unixNano % millisecond = 0 := fun h => by rw [h]; exact hw
    omega

/-! ## Ledgers that the reader accepts -/

/-- A ledger of the budget's epoch that the reader accepts, up to its length in bytes. -/
structure Ledger (budget : CapabilityBudget) (value : BudgetValue) : Prop where
  schema : value.schema = 1
  epoch : value.epoch = budget.epoch
  entries : value.entries.length ≤ 32
  slots : ∀ slot ∈ value.entries, acceptsSlot slot

theorem decodeBudget_eq_ok {value : BudgetValue} (h : decodeBudget raw = .ok value) :
    value = raw ∧ raw.schema = 1 ∧ raw.entries.length ≤ 32 ∧
      ∀ slot ∈ raw.entries, acceptsSlot slot := by
  unfold decodeBudget at h
  split at h
  · cases h
  · next hbounds =>
    split at h
    · next hslots =>
      cases h
      simp only [Bool.or_eq_true, beq_iff_eq, decide_eq_true_eq, bne_iff_ne, ne_eq, not_or,
        Decidable.not_not, Nat.not_lt] at hbounds
      exact ⟨rfl, hbounds.1.1.2, hbounds.2, List.all_eq_true.1 hslots⟩
    · cases h

section
variable {budget : CapabilityBudget} {value value' : BudgetValue}

theorem Ledger.decode (h : Ledger budget value)
    (hlen : value.marshalledLength ≤ maxBudgetValueBytes) : decodeBudget value = .ok value := by
  have hpos : value.marshalledLength ≠ 0 := by
    unfold BudgetValue.marshalledLength
    omega
  have hepoch : value.epoch ≠ 0 := by
    rw [h.epoch]
    exact budget.epoch_ne
  unfold decodeBudget
  rw [if_neg, if_pos (List.all_eq_true.2 h.slots)]
  simp [hpos, hlen, h.schema, hepoch, h.entries]

theorem Ledger.empty (budget : CapabilityBudget) : Ledger budget budget.emptyLedger :=
  ⟨rfl, rfl, by simp [emptyLedger], by simp [emptyLedger]⟩

/-- Slots of the ledger, and slots that the reader accepts, make a ledger. -/
theorem Ledger.of_entries (h : Ledger budget value) {entries : List BudgetSlot}
    (hlen : entries.length ≤ 32)
    (hslots : ∀ slot ∈ entries, slot ∈ value.entries ∨ acceptsSlot slot) :
    Ledger budget { value with entries } :=
  ⟨h.schema, h.epoch, hlen, fun slot hs => (hslots slot hs).elim (h.slots slot) id⟩

theorem Ledger.filter (h : Ledger budget value) (p : BudgetSlot → Bool) :
    Ledger budget { value with entries := value.entries.filter p } :=
  h.of_entries (Nat.le_trans (List.length_filter_le _ _) h.entries)
    fun _ hs => .inl (List.mem_filter.1 hs).1

theorem Ledger.sort (h : Ledger budget value) :
    Ledger budget { value with entries := sortEntries value.entries } :=
  h.of_entries (by rw [sortEntries, List.length_insertionSort]; exact h.entries)
    fun _ hs => .inl ((List.mem_insertionSort _).1 hs)

/-- A slot changed to one that the reader accepts. -/
theorem Ledger.set (h : Ledger budget value) (index : Nat) {slot : BudgetSlot}
    (hs : acceptsSlot slot) :
    Ledger budget { value with entries := value.entries.set index slot } :=
  h.of_entries (by rw [List.length_set]; exact h.entries) fun x hx =>
    (List.mem_or_eq_of_mem_set hx).imp_right fun hx => by rw [hx]; exact hs

/-- A pending slot that the reader accepts is accepted as active until its lease expires. -/
theorem acceptsSlot_activate {slot : BudgetSlot} (h : acceptsSlot slot) :
    acceptsSlot { slot with phase := .active, expiresAt := slot.leaseExpires } := by
  obtain ⟨token, expiresAt, leaseExpires, phase⟩ := slot
  unfold acceptsSlot at h ⊢
  cases hl : leaseExpires.parse with
  | none =>
    cases he : expiresAt.parse <;> simp [hl, he] at h
  | some lease =>
    cases he : expiresAt.parse with
    | none => simp [he] at h
    | some expires =>
      simp only [hl, he, Bool.and_eq_true] at h ⊢
      obtain ⟨⟨⟨hsize, -⟩, hhex⟩, ⟨⟨⟨-, hutc⟩, -⟩, hwhole⟩, -⟩ := h
      simp [hsize, hhex, hutc, hwhole]

variable {index : Nat}

theorem Ledger.activate (h : Ledger budget value)
    (ha : CapabilityBudget.activate value index = .ok value') : Ledger budget value' := by
  unfold CapabilityBudget.activate at ha
  split at ha
  · next slot hslot =>
    split at ha
    · cases ha
    · cases ha
      exact h.set index (acceptsSlot_activate (h.slots slot (List.mem_of_getElem? hslot)))
  · cases ha

theorem Ledger.remove (h : Ledger budget value) {phase : Phase}
    (ha : CapabilityBudget.remove phase value index = .ok value') : Ledger budget value' := by
  unfold CapabilityBudget.remove at ha
  split at ha
  · split at ha
    · cases ha
    · cases ha
      exact h.of_entries (Nat.le_trans (List.length_eraseIdx_le _ _) h.entries)
        fun _ hs => .inl (List.mem_of_mem_eraseIdx hs)
  · cases ha

theorem Ledger.replaceSlot (h : Ledger budget value) {next : CapabilityTokenID}
    (hw : wholeMillisecond expires)
    (ha : CapabilityBudget.replaceSlot next expires value index = .ok value') :
    Ledger budget value' := by
  unfold CapabilityBudget.replaceSlot at ha
  split at ha
  · split at ha
    · cases ha
    · cases ha
      exact h.set index (acceptsSlot_iff.2 ⟨hw, hw, .inl ⟨rfl, rfl⟩⟩)
  · cases ha

end

/-! ## The calls among others -/

/-- Every stored ledger is accepted by the reader, and none is of a later epoch. -/
def LedgerInv (budget : CapabilityBudget) (b : Ledgers) : Prop :=
  ∀ principal e, b.entry principal = some e →
    decodeBudget e.value = .ok e.value ∧ e.value.epoch ≤ budget.epoch

/-- The program of call `i` keeps `LedgerInv`, when every deadline it reads the clock for meets
`TruncatedDeadline`, and returns within `post`. -/
abbrev LedgerMeets {α : Type} (budget : CapabilityBudget) (i : Nat) (post : α → Prop) (p : Proc α)
    (b : Ledgers) : Prop :=
  p.Meets (truncatedSem budget i) (LedgerInv budget) (fun _ _ => True)
    (fun _ _ => ∀ j, j ≠ i → True) (fun a _ => post a) b

section
variable {budget : CapabilityBudget} {i : Nat} {b : Ledgers}

/-- One operation that writes at most accepted ledgers of the epoch. -/
theorem kv_meets {α : Type} {op : Op Digest BudgetValue} {f : op.Answer → Proc α} {post : α → Prop}
    (hop : ∀ value, op.value? = some value →
      decodeBudget value = .ok value ∧ value.epoch ≤ budget.epoch)
    (h : ∀ t ans u, LedgerInv budget t → Bucket.Apply i op t ans u → LedgerInv budget u →
      LedgerMeets budget i post (f ans) u) : LedgerMeets budget i post (ask (.kv op) >>= f) b := by
  refine Program.meets_ask_bind.2 fun t _ hi ans u hu => ?_
  have hinv : LedgerInv budget u := Bucket.Apply.forall_entry
    (p := fun _ value => decodeBudget value = .ok value ∧ value.epoch ≤ budget.epoch) hu.1 hi hop
  exact ⟨hinv, fun _ _ => trivial, h t ans u hi hu.1 hinv⟩

theorem now_meets {α : Type} {site : ClockSite} {f : Time → Proc α} {post : α → Prop}
    (h : ∀ now u, TruncatedDeadline budget (.now site) now → LedgerInv budget u →
      LedgerMeets budget i post (f now) u) :
    LedgerMeets budget i post (ask (.now site) >>= f) b := by
  refine Program.meets_ask_bind.2 fun t _ hi now u hu => ?_
  obtain ⟨rfl, hnow⟩ := hu
  exact ⟨hi, fun _ _ => trivial, h now _ hnow hi⟩

namespace CapabilityBudget

/-- A call that passes `validate` has an expiry of whole milliseconds. -/
theorem validate_meets (principal : Digest) (expires : Time) (epoch : Nat) : LedgerMeets budget i
      (fun a => a = .error .invalidArgument ∨ a = .ok () ∧ wholeMillisecond expires)
      (budget.validate principal expires epoch) b := by
  unfold validate
  split
  · exact .inl rfl
  · next hargs =>
    refine now_meets fun now u _ _ => ?_
    split
    · exact .inl rfl
    · simp only [Bool.or_eq_true, Bool.not_eq_true', not_or, Bool.not_eq_false] at hargs
      exact .inr ⟨rfl, hargs.2⟩

theorem prune_meets {value : BudgetValue} (hv : Ledger budget value) :
    LedgerMeets budget i (Ledger budget) (prune value) b :=
  now_meets fun now _ _ _ => hv.filter (unexpired now.toUTC)

variable {principal : Digest}

theorem reconcile_meets {revision : Nat} (answer : Except Fault Nat) :
    LedgerMeets budget i (fun a => a ≠ .error .invariant)
      (reconcile principal raw revision answer) b := by
  rcases answer with _ | rev
  · refine kv_meets (fun _ h => by cases h) fun t ans u _ _ _ => ?_
    rcases ans with _ | reconciled
    · simp
    · dsimp only
      split <;> simp
  · simp [reconcile]

theorem store_meets {revision : Option Nat}
    (hraw : decodeBudget raw = .ok raw) (he : raw.epoch ≤ budget.epoch) :
    LedgerMeets budget i (fun a => a ≠ .error .invariant) (store principal raw revision) b := by
  cases revision with
  | none | some revision =>
    refine kv_meets (fun value h => ?_) fun t ans u _ _ _ => reconcile_meets ans
    cases h
    exact ⟨hraw, he⟩

/-- What a change may return: a ledger, or an error other than `ErrInvariant`. -/
def Changed (budget : CapabilityBudget) : Except Error BudgetValue → Prop
  | .ok value => Ledger budget value
  | .error err => err ≠ .invariant

theorem rewrite_meets {change : BudgetValue → Proc (Except Error BudgetValue)}
    {value : BudgetValue} {revision : Option Nat} (hb : LedgerInv budget b)
    (hchange : LedgerMeets budget i (Changed budget) (change value) b) :
    LedgerMeets budget i (fun a => a ≠ .error .invariant)
      (rewrite principal change value revision) b := by
  refine Program.Meets.bind hb hchange fun a t ht ha => ?_
  rcases a with err | value'
  · simpa [Changed] using ha
  · dsimp only
    split
    · simp
    · next hlen =>
      have hsort := ha.sort
      exact store_meets (hsort.decode (Nat.not_lt.1 hlen)) (Nat.le_of_eq hsort.epoch)

/-- A mutation whose change keeps ledgers never fails with `ErrInvariant`. -/
theorem mutate_meets {change : BudgetValue → Proc (Except Error BudgetValue)}
    (hchange : ∀ value t, Ledger budget value →
      LedgerMeets budget i (Changed budget) (change value) t) :
    LedgerMeets budget i (fun a => a ≠ .error .invariant) (budget.mutate principal change) b := by
  unfold mutate
  refine kv_meets (fun _ h => by cases h) fun t ans u ht hu hinv => ?_
  split
  · exact rewrite_meets hinv (hchange _ _ (.empty budget))
  · simp
  · next entry =>
    obtain ⟨he, rfl⟩ := hu
    obtain ⟨hdec, hepoch⟩ := ht _ _ he
    rw [hdec]
    dsimp only
    rw [if_neg (Nat.not_lt.2 hepoch)]
    split
    · exact rewrite_meets hinv (hchange _ _ (.empty budget))
    · next hlt =>
      obtain ⟨-, hschema, hlen, hslots⟩ := decodeBudget_eq_ok hdec
      exact rewrite_meets hinv (hchange _ _
        ⟨hschema, Nat.le_antisymm hepoch (Nat.not_lt.1 hlt), hlen, hslots⟩)

theorem reserve_meets (principal : Digest) (token : CapabilityTokenID) (expires : Time)
    (epoch : Nat) (hb : LedgerInv budget b) :
    LedgerMeets budget i (fun a => a ≠ .error .invariant)
      (budget.reserve principal token expires epoch) b := by
  refine Program.Meets.bind hb (validate_meets principal expires epoch) fun a t _ ha => ?_
  rcases ha with rfl | ⟨rfl, hw⟩
  · simp
  refine mutate_meets fun value u hv => ?_
  refine Program.meets_bind.2 ((prune_meets hv).mono_post fun value' u' hv' => ?_)
  split
  · simp [Changed]
  split
  · simp [Changed]
  · next hlimit =>
    refine now_meets fun now _ hnow _ => ?_
    refine hv'.of_entries ?_ fun slot hs => ?_
    · have := budget.limit_le
      simp only [List.length_append, List.length_singleton]
      omega
    · rcases List.mem_append.1 hs with hs | hs
      · exact .inl hs
      · rw [List.mem_singleton.1 hs]
        exact .inr ((acceptsSlot_reservedSlot budget token hw now).2 hnow)

theorem change_meets (principal : Digest) (token : CapabilityTokenID) (epoch : Nat)
    {change : BudgetValue → Nat → Except Error BudgetValue}
    (hchange : ∀ value index, Ledger budget value → Changed budget (change value index)) :
    LedgerMeets budget i (fun a => a ≠ .error .invariant)
      (budget.change principal token epoch change) b := by
  unfold CapabilityBudget.change
  split
  · simp
  refine mutate_meets fun value u hv => ?_
  refine Program.meets_bind.2 ((prune_meets hv).mono_post fun value' u' hv' => ?_)
  split
  · simp [Changed]
  · next index _ => exact hchange value' index hv'

end CapabilityBudget

end

/-- The rely–guarantee argument for the stored ledgers: no call relies on another one beyond the
invariant. -/
def ledgerArgument (budget : CapabilityBudget) :
    RelyGuarantee (truncatedSem budget) Expiry budget.body where
  inv := LedgerInv budget
  rely _ _ _ := True
  fresh _ _ := True
  post _ _ a _ := a ≠ .error .invariant
  rely_refl _ _ := trivial
  rely_trans _ _ _ _ _ _ := trivial
  env_inv b b' hb h := by
    obtain ⟨principal, rfl⟩ := h
    intro k e he
    by_cases hk : k = principal
    · subst hk; simp [Bucket.drop] at he
    · rw [Bucket.drop_entry_of_ne hk] at he
      exact hb k e he
  env_rely _ _ _ _ _ := trivial
  fresh_stable _ _ _ _ _ := trivial
  post_stable _ _ _ _ _ _ hp _ := hp
  meets i c b hb _ := by
    have keeps : ∀ {change : BudgetValue → Nat → Except Error BudgetValue},
        (∀ value value' index, Ledger budget value → change value index = .ok value' →
          Ledger budget value') → (∀ value index, change value index ≠ .error .invariant) →
        ∀ value index, Ledger budget value → Changed budget (change value index) := by
      intro change hok herr value index hv
      cases hc : change value index with
      | ok value' => exact hok value value' index hv hc
      | error err => exact fun h => herr value index (by rw [hc, h])
    cases c with
    | reserve principal token expires epoch => exact reserve_meets principal token expires epoch hb
    | commit principal token epoch =>
      exact change_meets principal token epoch
        (keeps (fun _ _ _ h => h.activate) fun value index => by unfold activate; grind)
    | cancel principal token epoch =>
      exact change_meets principal token epoch
        (keeps (fun _ _ _ h => h.remove) fun value index => by unfold remove; grind)
    | replace principal old next expires epoch =>
      refine Program.Meets.bind hb (validate_meets principal expires epoch) fun a t _ ha => ?_
      rcases ha with rfl | ⟨rfl, hw⟩
      · simp
      · exact change_meets principal old epoch
          (keeps (fun _ _ _ h => h.replaceSlot hw) fun value index => by unfold replaceSlot; grind)
    | retire principal token epoch =>
      exact change_meets principal token epoch
        (keeps (fun _ _ _ h => h.remove) fun value index => by unfold remove; grind)

/-- Where every deadline that `Reserve` computes from a clock reading is a whole millisecond or not
before the capability's expiry: from ledgers that are accepted and of no later epoch, every ledger
that any interleaving of calls stores is accepted by `decodeBudget`, and no call fails with
`ErrInvariant`. -/
theorem ledger_accepted (budget : CapabilityBudget) {b₀ : Ledgers} (h₀ : LedgerInv budget b₀)
    {p : Pool port Nat Call (Except Error Unit) Ledgers}
    (hp : Reach budget (truncatedSem budget) b₀ p) :
    (∀ principal entry, p.shared.entry principal = some entry →
      decodeBudget entry.value = .ok entry.value) ∧
    ∀ i call, ¬ p.Returned i call (.error .invariant) := by
  constructor
  · intro principal entry he
    have hinv : LedgerInv budget p.shared :=
      ((ledgerArgument budget).reach h₀ (fun _ => trivial) hp).inv
    exact (hinv principal entry he).1
  · intro i call hr
    exact (ledgerArgument budget).returned h₀ (fun _ => trivial) hp hr rfl

/-! ## Runs of one call -/

/-- The ledger that a first `Reserve` stores when its clock reads `now` for the deadline. -/
def firstLedger (budget : CapabilityBudget) (token : CapabilityTokenID) (expires now : Time) :
    BudgetValue :=
  ⟨1, budget.epoch, [budget.reservedSlot token expires now]⟩

/-- A budget of one capability with a pending lifetime of one second. -/
def sampleBudget : CapabilityBudget where
  limit := 1
  pendingTTL := second
  epoch := 1
  limit_pos := by decide
  limit_le := by decide
  pendingTTL_pos := by decide
  pendingTTL_le := by decide
  epoch_ne := by decide

/-- A token. -/
def sampleToken : CapabilityTokenID := ⟨List.replicate 16 1, rfl⟩

/-- Ten seconds after the Unix epoch. -/
def sampleExpiry : Time := ⟨10 * second, true⟩

/-- A `Reserve` on a clock that reads whole milliseconds: the ledger it stores is accepted, and no
call has failed with `ErrInvariant`. -/
theorem ledger_accepted_reserve : ∃ p : Pool port Nat Call (Except Error Unit) Ledgers,
    Reach sampleBudget (truncatedSem sampleBudget) .empty p ∧
      p.Returned 0 (.reserve sampleDigest sampleToken sampleExpiry 1) (.ok ()) ∧
      (∃ entry, p.shared.entry sampleDigest = some entry ∧
        decodeBudget entry.value = .ok entry.value) ∧
      ∀ i call, ¬ p.Returned i call (.error .invariant) := by
  have hexec : (sampleBudget.reserve sampleDigest sampleToken sampleExpiry 1).Exec
      (truncatedSem sampleBudget 0) .empty (.ok ())
      (Bucket.empty.commit 0 sampleDigest
        (firstLedger sampleBudget sampleToken sampleExpiry ⟨0, true⟩) 1) := by
    -- The clock is read for the validation, for the pruning and for the deadline.
    refine Program.exec_call.2 ⟨(⟨0, true⟩ : Time), _, ⟨rfl, trivial⟩, ?_⟩
    refine Program.exec_call.2 ⟨.error .notFound, _, ⟨⟨rfl, rfl⟩, trivial⟩, ?_⟩
    refine Program.exec_call.2 ⟨(⟨0, true⟩ : Time), _, ⟨rfl, trivial⟩, ?_⟩
    refine Program.exec_call.2 ⟨(⟨0, true⟩ : Time), _, ⟨rfl, .inl (by decide)⟩, ?_⟩
    exact Program.exec_call.2 ⟨.ok 1, _, ⟨⟨rfl, Nat.zero_lt_one, rfl⟩, trivial⟩, .done⟩
  have h₀ : Reach sampleBudget (truncatedSem sampleBudget) .empty (Pool.init .empty) := .refl
  have h₁ := h₀.exec (i := 0) (c := .reserve sampleDigest sampleToken sampleExpiry 1) rfl hexec
  have hall := ledger_accepted sampleBudget (fun _ _ h => by cases h) h₁
  exact ⟨_, h₁, rfl, ⟨_, Bucket.commit_entry_self, hall.1 _ _ Bucket.commit_entry_self⟩, hall.2⟩

/-- A `Reserve` on a clock that reads one nanosecond past a second succeeds and stores a ledger that
`decodeBudget` refuses, so the `Commit` of the reserved capability fails with `ErrInvariant`. -/
theorem reserve_poisons_ledger : ∃ p : Pool port Nat Call (Except Error Unit) Ledgers,
    Reach sampleBudget sem .empty p ∧
      p.Returned 0 (.reserve sampleDigest sampleToken sampleExpiry 1) (.ok ()) ∧
      (∃ entry, p.shared.entry sampleDigest = some entry ∧
        decodeBudget entry.value = .error .invariant) ∧
      p.Returned 1 (.commit sampleDigest sampleToken 1) (.error .invariant) := by
  have hexec : (sampleBudget.reserve sampleDigest sampleToken sampleExpiry 1).Exec (sem 0) .empty
      (.ok ()) (Bucket.empty.commit 0 sampleDigest
        (firstLedger sampleBudget sampleToken sampleExpiry ⟨1, true⟩) 1) := by
    refine Program.exec_call.2 ⟨(⟨0, true⟩ : Time), _, rfl, ?_⟩
    refine Program.exec_call.2 ⟨.error .notFound, _, ⟨rfl, rfl⟩, ?_⟩
    refine Program.exec_call.2 ⟨(⟨0, true⟩ : Time), _, rfl, ?_⟩
    refine Program.exec_call.2 ⟨(⟨1, true⟩ : Time), _, rfl, ?_⟩
    exact Program.exec_call.2 ⟨.ok 1, _, ⟨rfl, Nat.zero_lt_one, rfl⟩, .done⟩
  have hrefused : decodeBudget (firstLedger sampleBudget sampleToken sampleExpiry ⟨1, true⟩) =
      .error .invariant := by decide
  have h₀ : Reach sampleBudget sem .empty (Pool.init .empty) := .refl
  have h₁ := h₀.exec (i := 0) (c := .reserve sampleDigest sampleToken sampleExpiry 1) rfl hexec
  have h₂ := h₁.exec (i := 1) (c := .commit sampleDigest sampleToken 1) rfl
    (Program.exec_call.2 ⟨.ok ⟨_, 1⟩, _, ⟨Bucket.commit_entry_self, rfl⟩, .done⟩)
  exact ⟨_, h₂, rfl, ⟨_, Bucket.commit_entry_self, hrefused⟩, rfl⟩

end YukhCoordination.JetStreamKV.Budget
