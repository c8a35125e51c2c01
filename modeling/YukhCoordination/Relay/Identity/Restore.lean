import YukhCoordination.Relay.Identity.Effect

/-!
# Leaving the restore fence

One column holds both fences: a normal `Open` can replace the restore fence by the clock fence,
which `RecoverClock` lifts (`recoverClock_admits_restored`).
-/

namespace YukhCoordination.Relay.Identity

open Transaction
open Coordination (Time)

/-! ## Runs -/

/-- `Run allowed db calls db'`: the calls lead from `db` to `db'`. Each one is committed, fails and
is rolled back, or is committed without its caller being told, and `allowed` holds of it in the
database it starts from. -/
inductive Run (allowed : Db → Call → Prop) (db : Db) : List Call → Db → Prop
  | nil : Run allowed db [] db
  | snoc {calls : List Call} {call : Call} {mid db' : Db}
      {answer : Except RegistryError (Except RegistryError call.op.Answer)} :
      Run allowed db calls mid → allowed mid call →
      Attempt (call.op.run call.now) mid answer db' → Run allowed db (calls ++ [call]) db'

/-- An `Open` of a restore-fenced registry does not read a clock more than the tolerance behind the
high-water. -/
def ClockHeld (db : Db) (call : Call) : Prop :=
  call.op = .startup false → db.metadata.fenceState = .restoreFenced →
    db.metadata.wallHighWaterMS - clockToleranceMS ≤ unixMilli call.now

/-- Every call but an `Open` is one of those. -/
theorem ClockHeld.of_ne {db : Db} {op : Operation} {now : Time} (h : op ≠ .startup false) :
    ClockHeld db ⟨op, now⟩ := fun hop => absurd hop h

/-- The calls lead from `db` to `db'` through a `CompleteRestore` that admits the registry, at a
moment when every principal has a floor staged under its manifest. -/
def Completed (allowed : Db → Call → Prop) (db : Db) (calls : List Call) (db' : Db) : Prop :=
  ∃ (before after : List Call) (databaseID manifestReference auditReceipt : String) (now : Time)
    (mid mid' : Db),
    calls = before ++ ⟨.completeRestore databaseID manifestReference auditReceipt, now⟩ :: after ∧
    Run allowed db before mid ∧ mid.metadata.fenceState = .restoreFenced ∧
    StagedUnder manifestReference mid ∧
    (Operation.completeRestore databaseID manifestReference auditReceipt).run now mid =
      .ok (.ok (), mid') ∧
    Run allowed mid' after db'

section
variable {allowed : Db → Call → Prop} {db mid db' : Db} {calls : List Call} {call : Call}

/-- A run goes on with a call that is committed and acknowledged. -/
theorem Run.committed {op : Operation} {now : Time} {a : Except RegistryError op.Answer}
    (h : Run allowed db calls mid) (hallowed : allowed mid ⟨op, now⟩)
    (hcall : op.run now mid = .ok (a, db')) : Run allowed db (calls ++ [⟨op, now⟩]) db' :=
  .snoc h hallowed (.committed hcall)

theorem Completed.snoc {answer : Except RegistryError (Except RegistryError call.op.Answer)}
    (h : Completed allowed db calls mid) (hallowed : allowed mid call)
    (hcall : Attempt (call.op.run call.now) mid answer db') :
    Completed allowed db (calls ++ [call]) db' := by
  obtain ⟨before, after, databaseID, manifest, receipt, now, mid₁, mid₂, rfl, hbefore, hfence,
    hstaged, hcomplete, hafter⟩ := h
  exact ⟨before, after ++ [call], databaseID, manifest, receipt, now, mid₁, mid₂,
    by rw [List.append_assoc, List.cons_append], hbefore, hfence, hstaged, hcomplete,
    .snoc hafter hallowed hcall⟩

/-- A committed call of a restore-fenced registry leaves the fence, or completes the restore. -/
theorem FenceEffect.restoreFenced {now : Time} {op : Operation}
    (h : FenceEffect now db db' op) (hfence : db.metadata.fenceState = .restoreFenced)
    (hheld : ClockHeld db ⟨op, now⟩) : db'.metadata.fenceState = .restoreFenced ∨
      ∃ databaseID manifestReference auditReceipt, op =
        .completeRestore databaseID manifestReference auditReceipt ∧
        StagedUnder manifestReference db := by
  cases h with
  | kept h => exact .inl (h.trans hfence)
  | restored h => exact .inl h
  | observed h | recovered h => simp [hfence] at h
  | started hlt => exact absurd (hheld rfl hfence) (not_le.2 hlt)
  | completed _ hstaged => exact .inr ⟨_, _, _, rfl, hstaged⟩

/-- A run from a restore-fenced registry stays fenced, or completes the restore. -/
theorem Run.restoreFenced (h : Run ClockHeld db calls db')
    (hfence : db.metadata.fenceState = .restoreFenced) :
    db'.metadata.fenceState = .restoreFenced ∨ Completed ClockHeld db calls db' := by
  induction h with
  | nil => exact .inl hfence
  | @snoc calls call mid db' answer hrun hheld hcall ih =>
    rcases ih with ih | ih
    · rcases hcall.cases with rfl | ⟨result, hcommit⟩
      · exact .inl ih
      · rcases (run_effect hcommit).fence.restoreFenced ih hheld with h | ⟨_, _, _, hop, hstaged⟩
        · exact .inl h
        · obtain ⟨op, now⟩ := call
          subst hop
          obtain ⟨⟨⟩, rfl, -⟩ := withoutClock_ok hcommit
          exact .inr ⟨calls, [], _, _, _, now, mid, db', rfl, hrun, ih, hstaged, hcommit, .nil⟩
    · exact .inr (ih.snoc hheld hcall)

end

/-- **The restore fence.** From an `OpenRestored` on, in every run in which no `Open` of the
restore-fenced registry reads a clock more than the tolerance behind the high-water, the registry
is admitted only after a `CompleteRestore` of the run that found every principal staged under its
manifest. -/
theorem admitted_by_completeRestore {now : Time} {db₀ db₁ db : Db} {calls : List Call}
    (hopen : startup true now db₀ = .ok ((), db₁)) (hrun : Run ClockHeld db₁ calls db)
    (hadmitted : db.metadata.fenceState = .admitted) : Completed ClockHeld db₁ calls db := by
  have hfence : db₁.metadata.fenceState = .restoreFenced := by
    obtain ⟨nowMS, -, hopen⟩ := required_bind.1 hopen
    obtain ⟨⟨rows, db₂⟩, hupdate, hopen⟩ := bind_ok.1 hopen
    obtain ⟨-, hopen⟩ := ensure_bind.1 hopen
    cases hopen
    obtain ⟨-, hupdate⟩ := ensure_bind.1 hupdate
    cases hupdate
    rfl
  rcases hrun.restoreFenced hfence with h | h
  · rw [hadmitted] at h
    cases h
  · exact h

/-! ## Restored registries -/

/-- The text of a principal. -/
def samplePrincipal : String := "AAAAAAAAAAAAAAAAAAAAAAAAAAAAAAAAAAAAAAAAAAA"

/-- A database in which one principal has had three sessions, with a high-water of ten seconds. -/
def sampleRegistry : Db := { created "01980000-0000-7000-8000-000000000000" 10000 with
    principalEpochs := [⟨"t", samplePrincipal, 3⟩] }

/-- The registry opened with `OpenRestored`. -/
def restoredRegistry : Db := { sampleRegistry with
    metadata := { sampleRegistry.metadata with fenceState := .restoreFenced } }

/-- The restored registry with a floor staged for its principal. -/
def stagedRegistry : Db :=
  { restoredRegistry with restoreEpochFloors := [⟨"t", samplePrincipal, 7, "m"⟩] }

/-- The staged registry admitted with a receipt. -/
def completedRegistry : Db := { stagedRegistry with metadata := { stagedRegistry.metadata with
    fenceState := .admitted, fenceReceipt := some "r" } }

theorem startup_sampleRegistry :
    startup true (ofUnixMilli 10000) sampleRegistry = .ok ((), restoredRegistry) := by
  rfl

/-- A restored registry whose floors are staged and whose restore is completed is admitted. -/
theorem admitted_by_completeRestore_staged : Completed ClockHeld restoredRegistry
    [⟨.stageRestoreFloors "01980000-0000-7000-8000-000000000000" "m" (ofUnixMilli 10000)
      [⟨"t", samplePrincipal, 7⟩], ofUnixMilli 10000⟩,
      ⟨.completeRestore "01980000-0000-7000-8000-000000000000" "m" "r", ofUnixMilli 10000⟩]
    completedRegistry := by
  have hstage : (Operation.stageRestoreFloors "01980000-0000-7000-8000-000000000000" "m"
      (ofUnixMilli 10000) [⟨"t", samplePrincipal, 7⟩]).run (ofUnixMilli 10000) restoredRegistry =
      .ok (.ok (), stagedRegistry) := by
    rfl
  have hcomplete : (Operation.completeRestore "01980000-0000-7000-8000-000000000000" "m" "r").run
      (ofUnixMilli 10000) stagedRegistry = .ok (.ok (), completedRegistry) := by
    rfl
  have h₁ := Run.nil.committed (ClockHeld.of_ne (by decide)) hstage
  have h₂ := h₁.committed (ClockHeld.of_ne (by decide)) hcomplete
  exact admitted_by_completeRestore startup_sampleRegistry h₂ rfl

/-- The restored registry after an `Open` that read a clock ten seconds behind. -/
def clockFencedRegistry : Db := { restoredRegistry with metadata := { restoredRegistry.metadata with
    fenceState := .clockFenced } }

/-- A restored registry is admitted by `RecoverClock` after an `Open` that read a clock ten seconds
behind the high-water, without any `CompleteRestore`. -/
theorem recoverClock_admits_restored : ¬ ∀ (now : Time) (db₀ db₁ db : Db) (calls : List Call),
    startup true now db₀ = .ok ((), db₁) → Run (fun _ _ => True) db₁ calls db →
      db.metadata.fenceState = .admitted → Completed (fun _ _ => True) db₁ calls db := by
  intro completed
  have hopen : (Operation.startup false).run (ofUnixMilli 0) restoredRegistry =
      .ok (.ok (), clockFencedRegistry) := by
    rfl
  have hrecover : (Operation.recoverClock (ofUnixMilli 10000) "r").run (ofUnixMilli 10000)
      clockFencedRegistry = .ok (.ok (), { clockFencedRegistry with
        metadata := { clockFencedRegistry.metadata with
          fenceState := .admitted, fenceReceipt := some "r" } }) := by
    rfl
  have h₁ := (Run.nil : Run (fun _ _ => True) _ _ _).committed trivial hopen
  have h₂ := h₁.committed trivial hrecover
  obtain ⟨before, after, databaseID, manifest, receipt, now, _, _, hcalls, -⟩ :=
    completed _ _ _ _ _ startup_sampleRegistry h₂ rfl
  have hmem : (⟨.completeRestore databaseID manifest receipt, now⟩ : Call) ∈
      before ++ ⟨.completeRestore databaseID manifest receipt, now⟩ :: after :=
    List.mem_append_right before List.mem_cons_self
  rw [← hcalls] at hmem
  simp at hmem

end YukhCoordination.Relay.Identity
