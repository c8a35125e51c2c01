import Mathlib.Data.List.Dedup
import Mathlib.Data.List.Fold
import Mathlib.Data.List.MinMax
import YukhCoordination.Relay.Identity.Expiry

/-!
# Session epochs

The epochs of a principal are bounded by its row of `principal_epochs` and by the floor that a
restore has staged for it. Their maximum never decreases (`EpochEffect`), every epoch that is
allocated lies above it, and a `RecoverySnapshot` carries it for every principal. So a backup that
is restored with a snapshot of a later state allocates only epochs above those of the run it was
taken from (`epochs_never_reused`).
-/

namespace YukhCoordination.Relay.Identity

open Transaction
open Coordination (Time)

/-! ## Bounds -/

/-- The staged floor of a principal, or zero. -/
def Db.floorOf (db : Db) (tenant principal : String) : Nat :=
  ((db.floor? tenant principal).map (·.epochFloor)).getD 0

/-- The bound of the epochs of a principal. -/
def Db.epochBound (db : Db) (tenant principal : String) : Nat :=
  max (db.lastEpoch tenant principal) (db.floorOf tenant principal)

/-- The check of `StageRestoreFloors` on one floor. -/
def EpochFloor.valid (floor : EpochFloor) : Bool :=
  validTenant floor.tenantID && validDigestText floor.principalID && floor.epoch != 0 &&
    floor.epoch ≤ maxJSONSafeInt

/-- The principal of a floor. -/
def EpochFloor.key (floor : EpochFloor) : String × String := (floor.tenantID, floor.principalID)

section
variable {db : Db} {tenant principal : String}

theorem lastEpoch_of_mem {row : PrincipalEpoch}
    (h : db.principalEpochs.find? (fun row => row.tenantID == tenant && row.principalID ==
      principal)
      = some row) : ⟨tenant, principal, db.lastEpoch tenant principal⟩ ∈ db.epochEntries := by
  have hp := List.find?_some h
  simp only [Bool.and_eq_true, beq_iff_eq] at hp
  obtain ⟨rfl, rfl⟩ := hp
  rw [Db.lastEpoch, h]
  exact List.mem_append_left _ (List.mem_map_of_mem (List.mem_of_find?_eq_some h))

theorem floorOf_of_mem {row : RestoreEpochFloor} (h : db.floor? tenant principal = some row) :
    ⟨tenant, principal, db.floorOf tenant principal⟩ ∈ db.epochEntries := by
  have hp := List.find?_some h
  simp only [Bool.and_eq_true, beq_iff_eq] at hp
  obtain ⟨rfl, rfl⟩ := hp
  rw [Db.floorOf, h]
  exact List.mem_append_right _ (List.mem_map_of_mem (List.mem_of_find?_eq_some h))

/-- A bound that is not zero is one of the entries. -/
theorem epochBound_mem (h : db.epochBound tenant principal ≠ 0) :
    ⟨tenant, principal, db.epochBound tenant principal⟩ ∈ db.epochEntries := by
  rcases max_choice (db.lastEpoch tenant principal) (db.floorOf tenant principal) with heq | heq <;>
    rw [Db.epochBound, heq] at h ⊢
  · cases hf : db.principalEpochs.find? (fun row => row.tenantID == tenant &&
        row.principalID == principal) with
    | none => simp [Db.lastEpoch, hf] at h
    | some row => exact lastEpoch_of_mem hf
  · cases hf : db.floor? tenant principal with
    | none => simp [Db.floorOf, hf] at h
    | some row => exact floorOf_of_mem hf

end

/-! ## Events -/

/-- What becomes of the epochs of a principal: one is allocated, or a floor is staged. -/
inductive EpochEvent where
  | allocated (tenant principal : String) (epoch : Nat)
  | staged (tenant principal : String) (epoch : Nat)
  deriving DecidableEq, Repr

/-- The events of an answer. -/
def answered {α : Type} (log : α → List EpochEvent) : Except RegistryError α → List EpochEvent
  | .ok answer => log answer
  | .error _ => []

/-- The epoch of a session that `ReserveBootstrap` answers. -/
def PendingSession.allocation (session : PendingSession) : EpochEvent :=
  .allocated session.tenantID session.principalID session.sessionEpoch

/-- The events of a call that is committed. -/
def Operation.events (now : Time) (db : Db) : Operation → List EpochEvent
  | .reserveBootstrap request =>
    match Identity.reserveBootstrap request now db with
    | .ok (answer, _) => answered (fun session => [session.allocation]) answer
    | .error _ => []
  | .stageRestoreFloors _ _ _ floors =>
    floors.map fun floor => .staged floor.tenantID floor.principalID floor.epoch
  | _ => []

/-- The calls that are committed lead from `db` to another database, with their events. A call that
fails leaves the database as it is. -/
inductive History (db : Db) : List EpochEvent → Db → Prop
  | nil : History db [] db
  | snoc {log : List EpochEvent} {mid db' : Db} {op : Operation} {now : Time}
      {answer : Except RegistryError op.Answer} : History db log mid →
      op.run now mid = .ok (answer, db') → History db (log ++ op.events now mid) db'

/-- The epochs of each principal strictly increase. -/
def Increasing (log : List EpochEvent) : Prop :=
  log.Pairwise fun a b => ∀ tenant principal epoch epoch', a = .allocated tenant principal epoch →
    b = .allocated tenant principal epoch' → epoch < epoch'

/-- The high-water is one that `unixMillis` reads. -/
def Db.readable (db : Db) : Prop :=
  0 ≤ db.metadata.wallHighWaterMS ∧ db.metadata.wallHighWaterMS ≤ maxJSONSafeInt

/-- What a call can do to the epochs, to the identity of the database and to its high-water. -/
structure EpochEffect (db db' : Db) (log : List EpochEvent) : Prop where
  last : ∀ tenant principal, db.lastEpoch tenant principal ≤ db'.lastEpoch tenant principal
  floor : ∀ tenant principal, db.floorOf tenant principal ≤ db'.floorOf tenant principal
  allocated : ∀ tenant principal epoch, .allocated tenant principal epoch ∈ log →
    db.epochBound tenant principal < epoch ∧ epoch ≤ db'.epochBound tenant principal
  staged : ∀ tenant principal epoch, .staged tenant principal epoch ∈ log →
    epoch ≤ db'.floorOf tenant principal
  increasing : Increasing log
  valid : (∀ entry ∈ db.epochEntries, entry.valid) → ∀ entry ∈ db'.epochEntries, entry.valid
  databaseID : db'.metadata.databaseID = db.metadata.databaseID
  readable : db.readable → db'.readable

/-- A call that leaves the two tables and the high-water alone. -/
structure EpochsKept (db db' : Db) : Prop where
  principalEpochs : db'.principalEpochs = db.principalEpochs
  restoreEpochFloors : db'.restoreEpochFloors = db.restoreEpochFloors
  databaseID : db'.metadata.databaseID = db.metadata.databaseID
  highWater : db'.metadata.wallHighWaterMS = db.metadata.wallHighWaterMS

variable {log : List EpochEvent} {floor : EpochFloor} {floors : List EpochFloor} {nowMS : Int}

section
variable {now : Time} {db db' : Db}

theorem EpochEffect.bound (h : EpochEffect db db' log) (tenant principal : String) :
    db.epochBound tenant principal ≤ db'.epochBound tenant principal :=
  max_le_max (h.last tenant principal) (h.floor tenant principal)

theorem EpochsKept.refl : EpochsKept db db := ⟨rfl, rfl, rfl, rfl⟩

/-- Whatever else a call does, only the two tables and the metadata count. -/
theorem EpochEffect.kept_left {db₁ : Db} (hkept : EpochsKept db db₁)
    (h : EpochEffect db₁ db' log) : EpochEffect db db' log := by
  obtain ⟨hp, hf, hid, hhigh⟩ := hkept
  have hlast : db₁.lastEpoch = db.lastEpoch := by funext; simp only [Db.lastEpoch, hp]
  have hfloor : db₁.floorOf = db.floorOf := by funext; simp only [Db.floorOf, Db.floor?, hf]
  have hentries : db₁.epochEntries = db.epochEntries := by simp only [Db.epochEntries, hp, hf]
  obtain ⟨last, floor, allocated, staged, increasing, valid, databaseID, readable⟩ := h
  simp only [Db.epochBound, hlast, hfloor, hentries, hid, Db.readable, hhigh] at *
  exact ⟨last, floor, allocated, staged, increasing, valid, databaseID, readable⟩

theorem EpochsKept.effect (h : EpochsKept db db') : EpochEffect db db' [] := by
  refine .kept_left h ⟨fun _ _ => le_refl _, fun _ _ => le_refl _, by simp, by simp, .nil, id, rfl,
    id⟩

/-! ## The calls -/

variable {epoch : Nat} {manifestReference : String}

/-- An allocated epoch is the next one above the bound. -/
theorem allocateEpoch_ok {tenant principal : String}
    (h : allocateEpoch db tenant principal = .ok (epoch, db')) :
    epoch = db.epochBound tenant principal + 1 ∧ epoch ≤ maxJSONSafeInt ∧ db' = { db with
        principalEpochs := upsert
          (fun row => row.tenantID == tenant && row.principalID == principal)
          ⟨tenant, principal, epoch⟩ db.principalEpochs } := by
  obtain ⟨hlt, h⟩ := ensure_bind.1 h
  cases h
  exact ⟨rfl, Nat.succ_le_of_lt (of_decide_eq_true hlt), rfl⟩

/-- The last epochs after an epoch was allocated. -/
theorem lastEpoch_upsert {tenant principal : String} (hdb : db'.principalEpochs = upsert
      (fun row => row.tenantID == tenant && row.principalID == principal)
      ⟨tenant, principal, epoch⟩ db.principalEpochs) (tenant' principal' : String) :
    db'.lastEpoch tenant' principal' = if tenant = tenant' ∧ principal = principal' then epoch
      else db.lastEpoch tenant' principal' := by
  rw [Db.lastEpoch, hdb]
  split
  · next heq =>
    obtain ⟨rfl, rfl⟩ := heq
    rw [find?_upsert_self (by simp)]
    rfl
  · next hne =>
    rw [find?_upsert_other _ (by simp)]
    · rfl
    · intro row hrow
      simp only [Bool.and_eq_true, beq_iff_eq] at hrow
      rw [hrow.1, hrow.2]
      simpa using hne

/-- The floors after one was staged. -/
theorem floorOf_upsert (row : RestoreEpochFloor) (tenant principal : String) :
    (db.upsertFloor row).floorOf tenant principal =
      if row.tenantID = tenant ∧ row.principalID = principal then row.epochFloor
      else db.floorOf tenant principal := by
  have hrows : (db.upsertFloor row).restoreEpochFloors = upsert (fun other =>
    other.tenantID == row.tenantID && other.principalID == row.principalID) row
      db.restoreEpochFloors := rfl
  rw [Db.floorOf, Db.floor?, hrows]
  split
  · next heq =>
    obtain ⟨rfl, rfl⟩ := heq
    rw [find?_upsert_self (by simp)]
    rfl
  · next hne =>
    rw [find?_upsert_other _ (by simp)]
    · rfl
    · intro other ho
      simp only [Bool.and_eq_true, beq_iff_eq] at ho
      rw [ho.1, ho.2]
      simpa using hne

/-- `allocateEpoch` allocates one epoch. -/
theorem allocateEpoch_epochs {tenant principal : String}
    (htenant : validTenant tenant) (hprincipal : validDigestText principal)
    (h : allocateEpoch db tenant principal = .ok (epoch, db')) :
    EpochEffect db db' [.allocated tenant principal epoch] := by
  obtain ⟨hepoch, hmax, hdb⟩ := allocateEpoch_ok h
  have hp : db'.principalEpochs = _ := congrArg Db.principalEpochs hdb
  have hf : db'.restoreEpochFloors = db.restoreEpochFloors := by rw [hdb]
  have hmeta : db'.metadata = db.metadata := by rw [hdb]
  have hlast : db.lastEpoch tenant principal < epoch := by
    rw [hepoch]
    exact Nat.lt_succ_of_le (le_max_left _ _)
  refine ⟨fun tenant' principal' => ?_, by simp [Db.floorOf, Db.floor?, hf], ?_, by simp,
    List.pairwise_singleton _ _, fun hvalid entry hentry => ?_, by rw [hmeta],
    by simp [Db.readable, hmeta]⟩
  · rw [lastEpoch_upsert hp]
    split
    · next heq =>
      obtain ⟨rfl, rfl⟩ := heq
      exact hlast.le
    · exact le_refl _
  · intro tenant' principal' epoch' hmem
    obtain ⟨rfl, rfl, rfl⟩ : tenant' = tenant ∧ principal' = principal ∧ epoch' = epoch := by
      simpa using hmem
    refine ⟨by omega, le_max_of_le_left ?_⟩
    rw [lastEpoch_upsert hp, if_pos ⟨rfl, rfl⟩]
  · rw [Db.epochEntries, hp, hf, List.mem_append] at hentry
    rcases hentry with hentry | hentry
    · obtain ⟨row, hrow, rfl⟩ := List.mem_map.1 hentry
      rcases mem_upsert hrow with rfl | ⟨hrow, -⟩
      · simp only [EpochFloor.valid, htenant, hprincipal, Bool.true_and, Bool.and_eq_true,
          bne_iff_ne, decide_eq_true_eq]
        omega
      · exact hvalid _ (List.mem_append_left _ (List.mem_map.2 ⟨row, hrow, rfl⟩))
    · exact hvalid _ (List.mem_append_right _ hentry)

/-- One floor of `StageRestoreFloors`. -/
theorem stageFloor_ok {state state' : List (String × String) × Db}
    (h : stageFloor manifestReference state floor = .ok state') : floor.valid ∧
      floor.key ∉ state.1 ∧ state.2.lastEpoch floor.tenantID floor.principalID ≤ floor.epoch ∧
      state.2.floorOf floor.tenantID floor.principalID ≤ floor.epoch ∧
      state' = (floor.key :: state.1, state.2.upsertFloor
        ⟨floor.tenantID, floor.principalID, floor.epoch, manifestReference⟩) := by
  obtain ⟨hvalid, h⟩ := ensure_bind.1 h
  obtain ⟨hseen, h⟩ := ensure_bind.1 h
  obtain ⟨hlast, h⟩ := ensure_bind.1 h
  obtain ⟨hfloor, h⟩ := ensure_bind.1 h
  cases h
  refine ⟨hvalid, by simpa [EpochFloor.key] using hseen, by simpa using hlast, ?_, rfl⟩
  rw [Db.floorOf]
  cases hf : state.2.floor? floor.tenantID floor.principalID with
  | none => exact Nat.zero_le _
  | some row => simpa [hf] using hfloor

/-- Staging one floor. -/
theorem EpochEffect.stage (hvalid : floor.valid)
    (hfloor : db.floorOf floor.tenantID floor.principalID ≤ floor.epoch) :
    EpochEffect db (db.upsertFloor
      ⟨floor.tenantID, floor.principalID, floor.epoch, manifestReference⟩)
      [.staged floor.tenantID floor.principalID floor.epoch] := by
  refine ⟨fun _ _ => le_refl _, fun tenant principal => ?_, by simp, ?_,
    List.pairwise_singleton _ _, fun hall entry hentry => ?_, rfl, id⟩
  · rw [floorOf_upsert]
    split
    · next heq =>
      obtain ⟨rfl, rfl⟩ := heq
      exact hfloor
    · exact le_refl _
  · intro tenant principal epoch hmem
    obtain ⟨rfl, rfl, rfl⟩ : tenant = floor.tenantID ∧ principal = floor.principalID ∧
      epoch = floor.epoch := by simpa using hmem
    rw [floorOf_upsert, if_pos ⟨rfl, rfl⟩]
  · rcases List.mem_append.1 hentry with hentry | hentry
    · exact hall _ (List.mem_append_left _ hentry)
    · obtain ⟨row, hrow, rfl⟩ := List.mem_map.1 hentry
      rcases mem_upsert hrow with rfl | ⟨hrow, -⟩
      · exact hvalid
      · exact hall _ (List.mem_append_right _ (List.mem_map.2 ⟨row, hrow, rfl⟩))

/-- The effects of two calls, one after the other. -/
theorem EpochEffect.trans {db'' : Db} {log' : List EpochEvent} (h : EpochEffect db db' log)
    (h' : EpochEffect db' db'' log') : EpochEffect db db'' (log ++ log') where
  last tenant principal := (h.last tenant principal).trans (h'.last tenant principal)
  floor tenant principal := (h.floor tenant principal).trans (h'.floor tenant principal)
  allocated tenant principal epoch hmem := by
    rcases List.mem_append.1 hmem with hmem | hmem
    · obtain ⟨hlt, hle⟩ := h.allocated _ _ _ hmem
      exact ⟨hlt, hle.trans (h'.bound tenant principal)⟩
    · obtain ⟨hlt, hle⟩ := h'.allocated _ _ _ hmem
      exact ⟨(h.bound tenant principal).trans_lt hlt, hle⟩
  staged tenant principal epoch hmem := by
    rcases List.mem_append.1 hmem with hmem | hmem
    · exact (h.staged _ _ _ hmem).trans (h'.floor tenant principal)
    · exact h'.staged _ _ _ hmem
  increasing := by
    refine List.pairwise_append.2 ⟨h.increasing, h'.increasing, ?_⟩
    rintro a ha b hb tenant principal epoch epoch' rfl rfl
    exact (h.allocated _ _ _ ha).2.trans_lt (h'.allocated _ _ _ hb).1
  valid hall := h'.valid (h.valid hall)
  databaseID := h'.databaseID.trans h.databaseID
  readable hdb := h'.readable (h.readable hdb)

/-- The loop of `StageRestoreFloors`. -/
theorem stageFloors_effect {state state' : List (String × String) × Db}
    (h : floors.foldlM (stageFloor manifestReference) state = .ok state') :
    EpochEffect state.2 state'.2
      (floors.map fun floor => .staged floor.tenantID floor.principalID floor.epoch) := by
  induction floors generalizing state with
  | nil =>
    cases h
    exact EpochsKept.refl.effect
  | cons floor floors ih =>
    rw [List.foldlM_cons] at h
    obtain ⟨mid, hfloor, h⟩ := bind_ok.1 h
    obtain ⟨hvalid, -, -, hle, rfl⟩ := stageFloor_ok hfloor
    exact (EpochEffect.stage hvalid hle).trans (ih h)

/-- A higher high-water. -/
theorem EpochEffect.observe (db : Db) (h : nowMS ≤ maxJSONSafeInt) :
    EpochEffect db (db.observe (max db.metadata.wallHighWaterMS nowMS)) [] :=
  ⟨fun _ _ => le_refl _, fun _ _ => le_refl _, by simp, by simp, .nil, id, rfl,
    fun hdb => ⟨hdb.1.trans (le_max_left _ _), max_le hdb.2 h⟩⟩

theorem Observed.epochs (h : Observed now db nowMS) : EpochEffect db (db.observe nowMS) [] :=
  h.reading ▸ .observe db h.readable

theorem Moved.epochs {op : Operation} (h : Moved op db db') : EpochsKept db db' := by
  rw [h.rest]
  exact ⟨rfl, rfl, rfl, rfl⟩

theorem startupMetadata_epochs {restored : Bool} (h : unixMillis now = some nowMS) :
    EpochEffect db { db with metadata := startupMetadata restored nowMS db.metadata } [] := by
  unfold startupMetadata
  split
  · exact EpochsKept.effect ⟨rfl, rfl, rfl, rfl⟩
  · split
    · exact EpochsKept.effect ⟨rfl, rfl, rfl, rfl⟩
    · split
      · next hlt =>
        have hobserve := EpochEffect.observe db (unixMillis_range h).2
        rwa [max_eq_right hlt.le] at hobserve
      · exact EpochsKept.effect ⟨rfl, rfl, rfl, rfl⟩

section
variable {op : Operation}

theorem Operation.events_of_quiet (h : op.quiet) : op.events now db = [] := by
  cases op <;> first | rfl | cases h

/-- A call that fails with a committed fence has no events. -/
theorem events_of_error {e : RegistryError} (h : op.run now db = .ok (.error e, db')) :
    op.events now db = [] := by
  cases op with
  | reserveBootstrap request =>
    change Identity.reserveBootstrap request now db = .ok (.error e, db') at h
    dsimp only [Operation.events]
    rw [h]
    rfl
  | stageRestoreFloors =>
    obtain ⟨a, ha, -⟩ := withoutClock_ok h
    cases ha
  | _ => rfl

/-- **The effect of a call on the epochs.** -/
theorem run_epochs {answer : Except RegistryError op.Answer}
    (h : op.run now db = .ok (answer, db')) : EpochEffect db db' (op.events now db) := by
  have hran := run_ran h
  cases hran with
  | read hquiet =>
    rw [Operation.events_of_quiet hquiet]
    exact EpochsKept.refl.effect
  | fenced =>
    rw [events_of_error h]
    exact EpochsKept.effect ⟨rfl, rfl, rfl, rfl⟩
  | sessions hquiet hclock hmoved =>
    rw [Operation.events_of_quiet hquiet]
    exact hclock.epochs.trans hmoved.epochs.effect
  | startup hnow hmoved => exact (startupMetadata_epochs hnow).trans hmoved.epochs.effect
  | @reserveBootstrap request _ _ session _ _ _ hclock hvalid hsession hepoch hinsert hreserve =>
    change Identity.reserveBootstrap request now db = .ok (.ok session, db') at h
    dsimp only [Operation.events]
    rw [h]
    obtain ⟨-, rfl⟩ := reserveProof_ok hreserve
    obtain rfl := insertSession_ok hinsert
    subst hsession
    simp only [validateBootstrap, Bool.and_eq_true] at hvalid
    have halloc := hclock.epochs.trans (allocateEpoch_epochs (by tauto) (by tauto) hepoch)
    exact halloc.trans (EpochsKept.effect ⟨rfl, rfl, rfl, rfl⟩)
  | authenticate hclock hreserve =>
    obtain ⟨-, rfl⟩ := reserveProof_ok hreserve
    exact hclock.epochs.trans (EpochsKept.effect ⟨rfl, rfl, rfl, rfl⟩)
  | stageRestoreFloors hhigh hstage =>
    have heffect := (stageFloors_effect hstage).trans (.observe _ (unixMillis_range hhigh).2)
    rwa [List.append_nil] at heffect
  | completeRestore => exact EpochsKept.effect ⟨rfl, rfl, rfl, rfl⟩
  | recoverClock hrecovered _ hle =>
    have hobserve := EpochEffect.observe db (unixMillis_range hrecovered).2
    rw [max_eq_right hle] at hobserve
    exact hobserve.trans (EpochsKept.effect ⟨rfl, rfl, rfl, rfl⟩)
  | cleanupProofs hclock => exact hclock.epochs.trans (EpochsKept.effect ⟨rfl, rfl, rfl, rfl⟩)

end

/-- The effect of a run on the epochs. -/
theorem History.effect (h : History db log db') : EpochEffect db db' log := by
  induction h with
  | nil => exact EpochsKept.refl.effect
  | snoc _ hcall ih => exact ih.trans (run_epochs hcall)

theorem History.sessions (h : History db log db') (hdb : SoundSessions db) : SoundSessions db' := by
  induction h with
  | nil => exact hdb
  | snoc _ hcall ih => exact ih.effect (run_sessions hcall)

theorem History.highWater (h : History db log db') :
    db.metadata.wallHighWaterMS ≤ db'.metadata.wallHighWaterMS := by
  induction h with
  | nil => exact le_refl _
  | snoc _ hcall ih => exact ih.trans (run_effect hcall).highWater

end

/-! ## Snapshots -/

section
variable {db : Db}

theorem foldl_max_eq (epochs : List Nat) : epochs.foldl max 0 = epochs.foldr max ⊥ :=
  List.foldl_eq_foldr

/-- The principals of a snapshot are those of the entries. -/
theorem mem_epochFloors_key {key : String × String} :
    key ∈ db.epochFloors.map EpochFloor.key ↔ key ∈ db.epochEntries.map EpochFloor.key := by
  simp only [Db.epochFloors, List.map_map]
  rw [show EpochFloor.key ∘ _ = id from rfl, List.map_id, List.mem_insertionSort, List.mem_dedup]
  rfl

/-- A snapshot has one floor for each principal. -/
theorem epochFloors_nodup : (db.epochFloors.map EpochFloor.key).Nodup := by
  simp only [Db.epochFloors, List.map_map]
  rw [show EpochFloor.key ∘ _ = id from rfl, List.map_id]
  exact (List.perm_insertionSort _ _).nodup_iff.2 (List.nodup_dedup _)

/-- A floor of a snapshot is the greatest epoch of its principal's entries. -/
theorem mem_epochFloors (h : floor ∈ db.epochFloors) :
    floor.epoch = (((db.epochEntries.filter fun row => row.tenantID == floor.tenantID &&
      row.principalID == floor.principalID).map (·.epoch)).foldr max ⊥) := by
  obtain ⟨key, -, rfl⟩ := List.mem_map.1 h
  exact foldl_max_eq _

theorem le_of_mem_epochFloors {entry : EpochFloor} (h : floor ∈ db.epochFloors)
    (hentry : entry ∈ db.epochEntries) (hkey : entry.key = floor.key) :
    entry.epoch ≤ floor.epoch := by
  obtain ⟨htenant, hprincipal⟩ := Prod.mk.inj hkey
  rw [mem_epochFloors h]
  refine List.le_max_of_le (List.mem_map_of_mem (List.mem_filter.2 ⟨hentry, ?_⟩)) (le_refl _)
  simp [htenant, hprincipal]

/-- The floors of a snapshot pass the check of `StageRestoreFloors` if the entries do. -/
theorem epochFloors_valid (hvalid : ∀ entry ∈ db.epochEntries, entry.valid)
    (h : floor ∈ db.epochFloors) : floor.valid := by
  obtain ⟨entry, hentry, hkey⟩ := List.mem_map.1 (mem_epochFloors_key.1 (List.mem_map_of_mem h))
  have hle := le_of_mem_epochFloors h hentry hkey
  have hmax : floor.epoch ≤ maxJSONSafeInt := by
    rw [mem_epochFloors h]
    refine List.max_le_of_forall_le _ _ fun epoch hepoch => ?_
    obtain ⟨other, ho, rfl⟩ := List.mem_map.1 hepoch
    have hother := hvalid other (List.mem_filter.1 ho).1
    simp only [EpochFloor.valid, Bool.and_eq_true, decide_eq_true_eq] at hother
    exact hother.2
  obtain ⟨htenant, hprincipal⟩ := Prod.mk.inj hkey
  have hv := hvalid entry hentry
  simp only [EpochFloor.valid, Bool.and_eq_true, bne_iff_ne, decide_eq_true_eq, htenant,
    hprincipal] at hv ⊢
  exact ⟨⟨hv.1.1, by omega⟩, hmax⟩

/-- A snapshot carries the bound of every principal that has one. -/
theorem epochBound_le_of_mem (h : floor ∈ db.epochFloors) :
    db.epochBound floor.tenantID floor.principalID ≤ floor.epoch := by
  by_cases hzero : db.epochBound floor.tenantID floor.principalID = 0
  · omega
  · exact le_of_mem_epochFloors h (epochBound_mem hzero) rfl

theorem epochFloors_of_bound {tenant principal : String} (h : db.epochBound tenant principal ≠ 0) :
    ∃ floor ∈ db.epochFloors, floor.tenantID = tenant ∧ floor.principalID = principal := by
  obtain ⟨floor, hfloor, hkey⟩ := List.mem_map.1
    (mem_epochFloors_key.2 (List.mem_map_of_mem (epochBound_mem h)))
  exact ⟨floor, hfloor, (Prod.mk.inj hkey).1, (Prod.mk.inj hkey).2⟩

end

/-! ## Restores -/

section
variable {db : Db} {manifest : String}

/-- A floor at the bound of its principal or above it can be staged. -/
theorem stageFloor_of {seen : List (String × String)}
    (hvalid : floor.valid) (hseen : floor.key ∉ seen)
    (hbound : db.epochBound floor.tenantID floor.principalID ≤ floor.epoch) :
    stageFloor manifest (seen, db) floor = .ok (floor.key :: seen, db.upsertFloor
      ⟨floor.tenantID, floor.principalID, floor.epoch, manifest⟩) := by
  obtain ⟨hlast, hfloor⟩ := max_le_iff.1 hbound
  refine ensure_bind.2 ⟨hvalid, ensure_bind.2 ⟨?_, ensure_bind.2 ⟨?_, ensure_bind.2 ⟨?_, rfl⟩⟩⟩⟩
  · simpa [EpochFloor.key] using hseen
  · simpa using hlast
  · rw [Db.floorOf] at hfloor
    cases hf : db.floor? floor.tenantID floor.principalID with
    | none => rfl
    | some row => simpa [hf] using hfloor

/-- Floors at the bounds or above them, one for each principal, can be staged. -/
theorem stageFloors_of (manifest : String) (seen : List (String × String)) (db : Db)
    (hvalid : ∀ floor ∈ floors, floor.valid) (hnodup : (floors.map EpochFloor.key).Nodup)
    (hseen : ∀ floor ∈ floors, floor.key ∉ seen)
    (hbound : ∀ floor ∈ floors, db.epochBound floor.tenantID floor.principalID ≤ floor.epoch) :
    ∃ seen' db', floors.foldlM (stageFloor manifest) (seen, db) = .ok (seen', db') ∧
      (∀ floor ∈ floors, floor.key ∈ seen') ∧ seen ⊆ seen' ∧
      db'.metadata = db.metadata ∧ db'.principalEpochs = db.principalEpochs ∧
      ∀ row ∈ db'.restoreEpochFloors, row.recoveryReference = manifest ∨
        (row ∈ db.restoreEpochFloors ∧
          (row.tenantID, row.principalID) ∉ floors.map EpochFloor.key) := by
  induction floors generalizing seen db with
  | nil =>
    exact ⟨seen, db, rfl, by simp, List.Subset.refl _, rfl, rfl, fun row h => .inr ⟨h, by simp⟩⟩
  | cons floor floors ih =>
    rw [List.map_cons, List.nodup_cons] at hnodup
    rw [List.forall_mem_cons] at hvalid hseen hbound
    have hne : ∀ other ∈ floors, other.key ≠ floor.key := fun other ho hkey =>
      hnodup.1 (hkey ▸ List.mem_map_of_mem ho)
    obtain ⟨seen', db', hstage, hall, hsub, hmeta, hepochs, hrows⟩ := ih (floor.key :: seen)
      (db.upsertFloor ⟨floor.tenantID, floor.principalID, floor.epoch, manifest⟩) hvalid.2 hnodup.2
      (fun other ho => List.not_mem_cons_of_ne_of_not_mem (hne other ho) (hseen.2 other ho))
      (fun other ho => by
        rw [Db.epochBound, floorOf_upsert, if_neg]
        · exact hbound.2 other ho
        · rintro ⟨htenant, hprincipal⟩
          exact hne other ho (Prod.ext htenant.symm hprincipal.symm))
    refine ⟨seen', db', ?_, ?_, List.Subset.trans (List.subset_cons_self _ _) hsub, hmeta,
      hepochs, ?_⟩
    · rw [List.foldlM_cons]
      exact bind_ok.2 ⟨_, stageFloor_of hvalid.1 hseen.1 hbound.1, hstage⟩
    · exact List.forall_mem_cons.2 ⟨hsub List.mem_cons_self, hall⟩
    · intro row hrow
      rcases hrows row hrow with h | ⟨h, hother⟩
      · exact .inl h
      · rcases mem_upsert h with rfl | ⟨h, hsame⟩
        · exact .inl rfl
        · refine .inr ⟨h, ?_⟩
          rw [List.map_cons, List.mem_cons, not_or]
          refine ⟨fun hkey => ?_, hother⟩
          obtain ⟨htenant, hprincipal⟩ := Prod.mk.inj hkey
          simp [htenant, hprincipal] at hsame

end

/-- What holds of the databases of a run that starts with a created one. -/
structure SoundRegistry (databaseID : String) (db : Db) : Prop where
  databaseID : db.metadata.databaseID = databaseID
  readable : db.readable
  entries : ∀ entry ∈ db.epochEntries, entry.valid
  sessions : SoundSessions db

section
variable {databaseID : String} {db db' : Db}

theorem SoundRegistry.created (h : 0 ≤ nowMS ∧ nowMS ≤ maxJSONSafeInt) :
    SoundRegistry databaseID (created databaseID nowMS) :=
  ⟨rfl, h, by simp [Db.epochEntries, Identity.created], .created databaseID nowMS⟩

theorem SoundRegistry.history (h : SoundRegistry databaseID db)
    (hrun : History db log db') : SoundRegistry databaseID db' where
  databaseID := hrun.effect.databaseID.trans h.databaseID
  readable := hrun.effect.readable h.readable
  entries := hrun.effect.valid h.entries
  sessions := hrun.sessions h.sessions

/-- The bound of a principal that has an entry is not zero. -/
theorem SoundRegistry.bound_ne (h : SoundRegistry databaseID db) {entry : EpochFloor}
    (hentry : entry ∈ db.epochEntries) : db.epochBound entry.tenantID entry.principalID ≠ 0 := by
  have positive {entry : EpochFloor} (hentry : entry ∈ db.epochEntries) : entry.epoch ≠ 0 := by
    have hv := h.entries entry hentry
    simp only [EpochFloor.valid, Bool.and_eq_true, bne_iff_ne] at hv
    exact hv.1.2
  rw [Db.epochBound]
  rcases List.mem_append.1 hentry with hmem | hmem <;> obtain ⟨row, hrow, rfl⟩ :=
    List.mem_map.1 hmem
  · cases hf : db.principalEpochs.find? (fun other => other.tenantID == row.tenantID &&
        other.principalID == row.principalID) with
    | none => simpa using List.find?_eq_none.1 hf row hrow
    | some other =>
      have hne := positive (lastEpoch_of_mem hf)
      simp only [ne_eq] at hne ⊢
      omega
  · cases hf : db.floor? row.tenantID row.principalID with
    | none => simpa using List.find?_eq_none.1 hf row hrow
    | some other =>
      have hne := positive (floorOf_of_mem hf)
      simp only [ne_eq] at hne ⊢
      omega

theorem updateSessions_of {p : Session → Bool} {f : Session → Session}
    (h : ∀ row ∈ db.sessions, p row → (f row).check) :
    db.updateSessions p f = .ok (db.sessions.countP p,
      { db with sessions := db.sessions.map fun row => if p row then f row else row }) := by
  refine ensure_bind.2 ⟨List.all_eq_true.2 fun row hrow => ?_, rfl⟩
  cases hp : p row with
  | false => rfl
  | true => exact h row hrow hp

/-- A registry can be opened as restored. -/
theorem SoundRegistry.startup (h : SoundRegistry databaseID db) {now : Time}
    (hnow : (unixMillis now).isSome) : ∃ sessions, startup true now db = .ok ((), { db with
      metadata := { db.metadata with fenceState := .restoreFenced, fenceReceipt := none },
      sessions := sessions }) := by
  obtain ⟨nowMS, hnow⟩ := Option.isSome_iff_exists.1 hnow
  have hfenced : SoundSessions { db with metadata := startupMetadata true nowMS db.metadata } :=
    h.sessions.congr rfl
  have hupdate := updateSessions_of (p := (·.state == .pending))
    (f := fun row => { row with state := .abandoned }) fun row hrow hp => by
      have hc := hfenced.check row hrow
      rw [beq_iff_eq] at hp
      simpa [Session.check, hp] using hc
  have hadv : Advanced (.startup true) _ _ :=
    updateSessions_advanced hupdate fun row _ hp => .abandoned (by simpa using hp)
  have hafter := hfenced.effect (.advanced hadv)
  refine ⟨_, required_bind.2 ⟨nowMS, hnow, bind_ok.2 ⟨_, hupdate, ensure_bind.2 ⟨?_, rfl⟩⟩⟩⟩
  exact List.all_eq_true.2 fun row hrow => beq_iff_eq.2 (hafter.revocation row hrow)

theorem unixMilli_ofUnixMilli (ms : Int) : unixMilli (ofUnixMilli ms) = ms :=
  Int.mul_ediv_cancel _ (by decide)

theorem unixMillis_ofUnixMilli (h : db.readable) :
    unixMillis (ofUnixMilli db.metadata.wallHighWaterMS) = some db.metadata.wallHighWaterMS := by
  rw [unixMillis, unixMilli_ofUnixMilli, if_pos (by simpa [Db.readable] using h)]

/-- A snapshot's floors can be staged in an earlier state that is opened as restored: the checks of
its principals, of its high-water and of the floors of earlier restores pass. -/
theorem stageRestoreFloors_of {manifest : String} {now : Time} {current : Db}
    (h : SoundRegistry databaseID db) (hc : SoundRegistry databaseID current)
    (hid : validUUID databaseID) (hmanifest : referenceText manifest)
    (hfence : db.metadata.fenceState = .restoreFenced)
    (hlength : current.epochFloors.length ≤ 100000) (hbound : ∀ tenant principal,
      db.epochBound tenant principal ≤ current.epochBound tenant principal)
    (hhigh : db.metadata.wallHighWaterMS ≤ current.metadata.wallHighWaterMS)
    (hnow : (unixMillis now).isSome)
    (hclock : current.metadata.wallHighWaterMS - clockToleranceMS ≤ unixMilli now) :
    ∃ db', stageRestoreFloors databaseID manifest
        (ofUnixMilli current.metadata.wallHighWaterMS) current.epochFloors now db = .ok ((), db') ∧
      db'.metadata.databaseID = databaseID ∧ db'.metadata.fenceState = .restoreFenced ∧
      db'.principalEpochs = db.principalEpochs ∧
      (∀ row ∈ db'.restoreEpochFloors, row.recoveryReference = manifest) ∧
      ∀ entry ∈ db.epochEntries, (db'.floor? entry.tenantID entry.principalID).isSome := by
  have hkeys : ∀ entry ∈ db.epochEntries, ∃ floor ∈ current.epochFloors,
      floor.tenantID = entry.tenantID ∧ floor.principalID = entry.principalID := by
    intro entry hentry
    have hpos := Nat.pos_of_ne_zero (h.bound_ne hentry)
    exact epochFloors_of_bound (hpos.trans_le (hbound _ _)).ne'
  obtain ⟨nowMS, hnow⟩ := Option.isSome_iff_exists.1 hnow
  obtain ⟨seen, db₁, hstage, hseen, -, hmeta, hepochs, hrows⟩ := stageFloors_of manifest [] db
    (fun floor hfloor => epochFloors_valid hc.entries hfloor) epochFloors_nodup (by simp)
    fun floor hfloor => (hbound _ _).trans (epochBound_le_of_mem hfloor)
  have hmanifests : ∀ row ∈ db₁.restoreEpochFloors, row.recoveryReference = manifest := by
    intro row hrow
    rcases hrows row hrow with h | ⟨hmem, hnot⟩
    · exact h
    · obtain ⟨floor, hfloor, htenant, hprincipal⟩ := hkeys
        ⟨row.tenantID, row.principalID, row.epochFloor⟩
        (List.mem_append_right _ (List.mem_map.2 ⟨row, hmem, rfl⟩))
      exact absurd (List.mem_map.2 ⟨floor, hfloor, Prod.ext htenant hprincipal⟩) hnot
  refine ⟨_, required_bind.2 ⟨_, unixMillis_ofUnixMilli hc.readable, ensure_bind.2 ⟨?_,
    ensure_bind.2 ⟨?_, ensure_bind.2 ⟨?_, required_bind.2 ⟨nowMS, hnow,
    ensure_bind.2 ⟨?_, bind_ok.2 ⟨_, hstage, ensure_bind.2 ⟨?_, ensure_bind.2 ⟨?_,
    rfl⟩⟩⟩⟩⟩⟩⟩⟩⟩, ?_, ?_, hepochs, hmanifests, ?_⟩
  · simp [hid, hmanifest, hlength]
  · simp [h.databaseID, hfence]
  · simpa using hhigh
  · simpa [unixMillis_some hnow] using hclock
  · refine List.all_eq_true.2 fun row hrow => ?_
    rw [hepochs] at hrow
    obtain ⟨floor, hfloor, htenant, hprincipal⟩ := hkeys
      ⟨row.tenantID, row.principalID, row.lastEpoch⟩
      (List.mem_append_left _ (List.mem_map.2 ⟨row, hrow, rfl⟩))
    have hkey := hseen floor hfloor
    rw [EpochFloor.key, htenant, hprincipal] at hkey
    exact List.contains_iff_mem.2 hkey
  · exact List.all_eq_true.2 fun row hrow => beq_iff_eq.2 (hmanifests row hrow)
  · rw [← h.databaseID, ← hmeta]
  · rw [← hfence, ← hmeta]
  · intro entry hentry
    obtain ⟨floor, hfloor, htenant, hprincipal⟩ := hkeys entry hentry
    have hle := (stageFloors_effect hstage).staged _ _ _ (List.mem_map_of_mem hfloor)
    have hpos := epochFloors_valid hc.entries hfloor
    simp only [EpochFloor.valid, Bool.and_eq_true, bne_iff_ne] at hpos
    rw [htenant, hprincipal, Db.floorOf] at hle
    change (db₁.floor? entry.tenantID entry.principalID).isSome
    cases hf : db₁.floor? entry.tenantID entry.principalID with
    | none => simp [hf, hpos.1.2] at hle
    | some row => rfl

/-- A restore whose floors are staged can be completed. -/
theorem completeRestore_of {manifest receipt : String} (hid : validUUID databaseID)
    (hmanifest : referenceText manifest) (hreceipt : referenceText receipt)
    (hdb : db.metadata.databaseID = databaseID) (hfence : db.metadata.fenceState = .restoreFenced)
    (hstaged : ∀ row ∈ db.principalEpochs, (db.floor? row.tenantID row.principalID).isSome)
    (hrows : ∀ row ∈ db.restoreEpochFloors, row.recoveryReference = manifest) :
    completeRestore databaseID manifest receipt db = .ok ((), { db with metadata :=
      { db.metadata with fenceState := .admitted, fenceReceipt := some receipt } }) := by
  refine ensure_bind.2 ⟨by simp [hid, hmanifest, hreceipt], ensure_bind.2 ⟨by simp [hdb], ?_⟩⟩
  rw [if_neg (by simp [hfence])]
  refine ensure_bind.2 ⟨by simp [hfence], ensure_bind.2 ⟨?_, rfl⟩⟩
  rw [Bool.and_eq_true, List.all_eq_true, List.all_eq_true]
  exact ⟨hstaged, fun row hrow => beq_iff_eq.2 (hrows row hrow)⟩

end

/-- **Epochs are never reused, also across restores.** The run may start from a new database or
from any state that calls lead to, such as a completed restore. A backup of the run is opened as
restored, the floors of a snapshot of the same or a later state are staged in it and the restore is
completed, with a clock that is at most five seconds behind the snapshot's high-water. -/
theorem epochs_never_reused {databaseID manifest receipt : String} {createdMS : Int}
    {log₀ log₁ log₂ : List EpochEvent} {start backup current : Db} {snapshot : RecoverySnapshot}
    {opened now : Time} (hid : validUUID databaseID = true)
    (hcreated : 0 ≤ createdMS ∧ createdMS ≤ maxJSONSafeInt)
    (hstart : History (created databaseID createdMS) log₀ start)
    (hbackup : History start log₁ backup) (hcurrent : History backup log₂ current)
    (hsnapshot : recoverySnapshot current = .ok (snapshot, current))
    (hmanifest : referenceText manifest = true) (hreceipt : referenceText receipt = true)
    (hopened : (unixMillis opened).isSome) (hnow : (unixMillis now).isSome)
    (hclock : unixMilli snapshot.wallHighWater - clockToleranceMS ≤ unixMilli now) :
    Increasing (log₀ ++ log₁ ++ log₂) ∧ ∃ db₁ db₂ db₃, startup true opened backup = .ok ((), db₁) ∧
      stageRestoreFloors snapshot.databaseID manifest snapshot.wallHighWater snapshot.epochFloors
        now db₁ = .ok ((), db₂) ∧
      completeRestore snapshot.databaseID manifest receipt db₂ = .ok ((), db₃) ∧
      ∀ log db, History db₃ log db → ∀ tenant principal epoch,
        .allocated tenant principal epoch ∈ log →
          (∀ epoch', .allocated tenant principal epoch' ∈ log₀ ++ log₁ ++ log₂ → epoch' < epoch) ∧
          (∀ epoch', .staged tenant principal epoch' ∈ log₀ ++ log₁ ++ log₂ → epoch' < epoch) ∧
          ∀ epoch', ⟨tenant, principal, epoch'⟩ ∈ snapshot.epochFloors → epoch' < epoch := by
  obtain ⟨hadmitted, h⟩ := ensure_bind.1 hsnapshot
  obtain ⟨hlength, h⟩ := ensure_bind.1 h
  cases h
  have hb := ((SoundRegistry.created hcreated).history hstart).history hbackup
  have hc := hb.history hcurrent
  have heffect := (hstart.effect.trans hbackup.effect).trans hcurrent.effect
  rw [hc.databaseID]
  obtain ⟨sessions, hopen⟩ := hb.startup hopened
  -- The opened backup is a state that the calls of the registry lead to.
  have hrun : (Operation.startup true).run opened backup = .ok (.ok (), _) :=
    bind_ok.2 ⟨_, hopen, rfl⟩
  obtain ⟨db₂, hstage, hdb₂, hfence, hepochs, hrows, hfloors⟩ := stageRestoreFloors_of
    (hb.history (.snoc .nil hrun)) hc hid hmanifest rfl (by simpa using hlength)
    hcurrent.effect.bound hcurrent.highWater hnow (by rwa [unixMilli_ofUnixMilli] at hclock)
  have hcomplete := completeRestore_of hid hmanifest hreceipt hdb₂ hfence
    (fun row hrow => hfloors ⟨row.tenantID, row.principalID, row.lastEpoch⟩
      (List.mem_append_left _ (List.mem_map.2 ⟨row, hepochs ▸ hrow, rfl⟩))) hrows
  refine ⟨heffect.increasing, _, db₂, _, hopen, hstage, hcomplete, ?_⟩
  intro log db hrun tenant principal epoch hmem
  have hfloor : ∀ epoch', ⟨tenant, principal, epoch'⟩ ∈ current.epochFloors → epoch' < epoch := by
    intro epoch' hfloor
    have hstaged : (Operation.stageRestoreFloors _ _ _ _).run _ _ = .ok (.ok (), db₂) :=
      bind_ok.2 ⟨_, hstage, rfl⟩
    have hle := (run_epochs hstaged).staged _ _ _ (List.mem_map_of_mem hfloor)
    exact (hle.trans (le_max_right _ _)).trans_lt (hrun.effect.allocated _ _ _ hmem).1
  have hcurrent : current.epochBound tenant principal < epoch := by
    by_cases hzero : current.epochBound tenant principal = 0
    · rw [hzero]
      exact Nat.zero_lt_of_lt (hrun.effect.allocated _ _ _ hmem).1
    · obtain ⟨⟨_, _, floor⟩, hin, rfl, rfl⟩ := epochFloors_of_bound hzero
      exact (epochBound_le_of_mem hin).trans_lt (hfloor _ hin)
  refine ⟨fun epoch' hmem' => ?_, fun epoch' hmem' => ?_, hfloor⟩
  · exact (heffect.allocated _ _ _ hmem').2.trans_lt hcurrent
  · exact ((heffect.staged _ _ _ hmem').trans (le_max_right _ _)).trans_lt hcurrent

/-- A backup of a new database, restored with a snapshot that was taken after a session was
reserved, does not allocate the epoch of that session. -/
theorem epochs_never_reused_reserved : ∃ db₁ db₂ db₃,
    startup true (ofUnixMilli 1000) (created "01980000-0000-7000-8000-000000000000" 1000) =
      .ok ((), db₁) ∧
    stageRestoreFloors "01980000-0000-7000-8000-000000000000" "m" (ofUnixMilli 1000)
      [⟨"t", samplePrincipal, 1⟩] (ofUnixMilli 1000) db₁ = .ok ((), db₂) ∧
    completeRestore "01980000-0000-7000-8000-000000000000" "m" "r" db₂ = .ok ((), db₃) ∧
    ∀ log db, History db₃ log db → ∀ epoch, .allocated "t" samplePrincipal epoch ∈ log →
      1 < epoch := by
  have hsnapshot : recoverySnapshot (expiryRegistry 1000 expirySession [expiryProof]) =
      .ok (⟨"01980000-0000-7000-8000-000000000000", ofUnixMilli 1000, [⟨"t", samplePrincipal, 1⟩]⟩,
        expiryRegistry 1000 expirySession [expiryProof]) := by
    rfl
  have hevents : (Operation.reserveBootstrap expiryReservation).events (ofUnixMilli 1000)
      (created "01980000-0000-7000-8000-000000000000" 1000) =
      [.allocated "t" samplePrincipal 1] := by
    rfl
  have hcurrent := History.nil.snoc run_expiryReservation
  rw [List.nil_append, hevents] at hcurrent
  obtain ⟨-, db₁, db₂, db₃, hopen, hstage, hcomplete, hlater⟩ := epochs_never_reused
    (by rfl) (by decide) .nil .nil hcurrent hsnapshot
    (show referenceText "m" = true by decide) (show referenceText "r" = true by decide)
    (show (unixMillis (ofUnixMilli 1000)).isSome by decide)
    (show (unixMillis (ofUnixMilli 1000)).isSome by decide) (by decide)
  exact ⟨db₁, db₂, db₃, hopen, hstage, hcomplete, fun log db hrun epoch hmem =>
    (hlater log db hrun _ _ epoch hmem).1 1 List.mem_cons_self⟩

end YukhCoordination.Relay.Identity
