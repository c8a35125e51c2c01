import YukhCoordination.Relay.Identity.Registry
import Mathlib.Logic.Relation

/-!
# The sessions of the registry

A call advances some of the stored sessions, or it adds one pending session (`SessionEffect`). A
session keeps the columns it was reserved with, and its state moves along the arrows of
`Session.Step`: only `ActivateBootstrap` of its own operation activates it, and `revoked`, `expired`
and `abandoned` are final. The rows pass the checks of the table and keep its unique columns apart
(`SoundSessions`).
-/

namespace YukhCoordination.Relay.Identity

open Transaction
open Coordination (Time)
open Audit (Digest)

/-! ## One session -/

/-- What a statement of a call can do to a session. -/
inductive Session.Step (op : Operation) (row : Session) : Session → Prop
  | activated (receipt : String) : op = .activateBootstrap row.bootstrapOperationID receipt →
      row.state = .pending →
      Session.Step op row { row with state := .active, activationReceipt := some receipt }
  | abandoned : row.state = .pending → Session.Step op row { row with state := .abandoned }
  | revoked (at_ : Int) (request : Revocation) : row.state = .active →
      Session.Step op row { row with
        state := .revoked, revokedAtMS := some at_, revocationReason := some request.reason,
        revocationAuthority := some request.authorityReceipt,
        revocationOperationID := some request.operationID }
  | expired : row.state = .active → Session.Step op row { row with state := .expired }

/-- What a call can do to a session. -/
abbrev Session.Later (op : Operation) : Session → Session → Prop :=
  Relation.ReflTransGen (Session.Step op)

/-- The session as it was reserved. -/
def Session.reservation (row : Session) : Session := { row with
    state := .pending, activationReceipt := none, revokedAtMS := none, revocationReason := none,
    revocationAuthority := none, revocationOperationID := none }

/-- The session is or has been active. -/
def Session.admitted (row : Session) : Prop := row.state ≠ .pending ∧ row.state ≠ .abandoned

/-- The session is in one of the final states. -/
def SessionState.ended : SessionState → Bool
  | .revoked | .expired | .abandoned => true
  | .pending | .active => false

section
variable {op : Operation} {row row' : Session}

theorem Session.Step.reservation (h : Session.Step op row row') :
    row'.reservation = row.reservation := by
  cases h <;> rfl

theorem Session.Later.reservation (h : Session.Later op row row') :
    row'.reservation = row.reservation := by
  induction h with
  | refl => rfl
  | tail _ hstep ih => exact hstep.reservation.trans ih

/-- A final state stays. -/
theorem Session.Later.ended (h : Session.Later op row row') (hended : row.state.ended) :
    row' = row := by
  induction h with
  | refl => rfl
  | tail _ hstep ih =>
    subst ih
    cases hstep with
    | activated _ _ hs | abandoned hs | revoked _ _ hs | expired hs =>
      rw [hs] at hended
      cases hended

/-- A session becomes active only by `ActivateBootstrap` of its operation. -/
theorem Session.Later.of_admitted (h : Session.Later op row row') (hadmitted : row'.admitted) :
    row.admitted ∨ ∃ receipt, op = .activateBootstrap row'.bootstrapOperationID receipt := by
  induction h with
  | refl => exact .inl hadmitted
  | tail _ hstep ih =>
    cases hstep with
    | activated receipt hop => exact .inr ⟨receipt, hop⟩
    | abandoned => exact absurd rfl hadmitted.2
    | revoked _ _ hs | expired hs => exact ih (by simp [Session.admitted, hs])

/-- A revocation has an operation id, and no other state has one. -/
theorem Session.Later.revocation (h : Session.Later op row row')
    (hr : (row.state == .revoked) = row.revocationOperationID.isSome) :
    (row'.state == .revoked) = row'.revocationOperationID.isSome := by
  induction h with
  | refl => exact hr
  | tail _ hstep ih =>
    cases hstep with
    | activated _ _ hs | abandoned hs | expired hs =>
      rw [hs] at ih
      exact ih
    | revoked => rfl

end

/-! ## All sessions -/

/-- The sessions have been advanced. -/
def Advanced (op : Operation) (db db' : Db) : Prop :=
  ∃ g : Session → Session, db'.sessions = db.sessions.map g ∧
    ∀ row ∈ db.sessions, Session.Later op row (g row) ∧ (row.check = true → (g row).check = true)

/-- What a call can do to the sessions. -/
inductive SessionEffect (op : Operation) (db db' : Db) : Prop
  | advanced : Advanced op db db' → SessionEffect op db db'
  | reserved (session : PendingSession) : (pendingRow session).check →
      (∀ other ∈ db.sessions, other.participantInstanceID ≠ session.participantInstanceID ∧
        other.tokenDigest ≠ session.tokenDigest ∧
        other.bootstrapOperationID ≠ session.bootstrapOperationID) →
      db'.sessions = db.sessions ++ [pendingRow session] → SessionEffect op db db'

section
variable {op : Operation} {db db' db'' : Db}

theorem Advanced.of_eq (h : db'.sessions = db.sessions) : Advanced op db db' :=
  ⟨id, by simpa using h, fun _ _ => ⟨.refl, id⟩⟩

theorem Advanced.trans (h : Advanced op db db') (h' : Advanced op db' db'') :
    Advanced op db db'' := by
  obtain ⟨g, hg, hrows⟩ := h
  obtain ⟨g', hg', hrows'⟩ := h'
  refine ⟨g' ∘ g, by rw [hg', hg, List.map_map], fun row hrow => ?_⟩
  obtain ⟨hlater, hcheck⟩ := hrows row hrow
  obtain ⟨hlater', hcheck'⟩ := hrows' (g row) (hg ▸ List.mem_map_of_mem hrow)
  exact ⟨hlater.trans hlater', hcheck' ∘ hcheck⟩

theorem SessionEffect.of_eq (h : db'.sessions = db.sessions) : SessionEffect op db db' :=
  .advanced (.of_eq h)

/-- Only the sessions count. -/
theorem SessionEffect.congr {db₁ db₁' : Db} (h : SessionEffect op db db')
    (hs : db₁.sessions = db.sessions) (hs' : db₁'.sessions = db'.sessions) :
    SessionEffect op db₁ db₁' := by
  cases h with
  | advanced h => exact .advanced (((Advanced.of_eq hs.symm).trans h).trans (.of_eq hs'))
  | reserved session hcheck hfresh h =>
    exact .reserved session hcheck (hs ▸ hfresh) (by rw [hs', h, hs])

/-- `UPDATE sessions` with a change that is a step of each row that it selects. -/
theorem updateSessions_advanced {p : Session → Bool} {f : Session → Session} {rows : Nat}
    (h : db.updateSessions p f = .ok (rows, db'))
    (hstep : ∀ row ∈ db.sessions, p row → Session.Step op row (f row)) : Advanced op db db' := by
  obtain ⟨hcheck, h⟩ := ensure_bind.1 h
  cases h
  refine ⟨_, rfl, fun row hrow => ?_⟩
  cases hp : p row with
  | false => exact ⟨.refl, id⟩
  | true =>
    have hc := List.all_eq_true.1 hcheck row hrow
    rw [hp] at hc
    exact ⟨.single (hstep row hrow hp), fun _ => hc⟩

theorem insertSession_effect {session : PendingSession}
    (h : db.insertSession (pendingRow session) = .ok db') : SessionEffect op db db' := by
  obtain ⟨hc, h⟩ := ensure_bind.1 h
  cases h
  simp only [Bool.and_eq_true, List.all_eq_true, bne_iff_ne] at hc
  exact .reserved session hc.1
    (fun other ho => ⟨(hc.2 other ho).1.1.1, (hc.2 other ho).1.1.2, (hc.2 other ho).1.2⟩) rfl

end

/-! ## What the rows keep -/

/-- The rows pass the checks of the table, and its unique columns are unique. -/
structure SoundSessions (db : Db) : Prop where
  check : ∀ row ∈ db.sessions, row.check
  revocation : ∀ row ∈ db.sessions, (row.state == .revoked) = row.revocationOperationID.isSome
  participants : (db.sessions.map (·.participantInstanceID)).Nodup
  tokens : (db.sessions.map (·.tokenDigest)).Nodup
  operations : (db.sessions.map (·.bootstrapOperationID)).Nodup

section
variable {op : Operation} {db db' : Db}

theorem SoundSessions.created (databaseID : String) (nowMS : Int) :
    SoundSessions (created databaseID nowMS) where
  check := by simp [Identity.created]
  revocation := by simp [Identity.created]
  participants := by simp [Identity.created]
  tokens := by simp [Identity.created]
  operations := by simp [Identity.created]

/-- A column that is written once is the same in the advanced rows. -/
theorem map_advanced {β : Type} {g : Session → Session} (column : Session → β)
    (hcolumn : ∀ row, column row = column row.reservation)
    (hg : ∀ row ∈ db.sessions, Session.Later op row (g row)) :
    (db.sessions.map g).map column = db.sessions.map column := by
  rw [List.map_map]
  refine List.map_congr_left fun row hrow => ?_
  rw [Function.comp_apply, hcolumn, (hg row hrow).reservation, ← hcolumn]

theorem SoundSessions.effect (h : SoundSessions db) (he : SessionEffect op db db') :
    SoundSessions db' := by
  cases he with
  | advanced hadv =>
    obtain ⟨g, hg, hrows⟩ := hadv
    have hlater := fun row hrow => (hrows row hrow).1
    constructor
    · rw [hg, List.forall_mem_map]
      exact fun row hrow => (hrows row hrow).2 (h.check row hrow)
    · rw [hg, List.forall_mem_map]
      exact fun row hrow => (hlater row hrow).revocation (h.revocation row hrow)
    · rw [hg, map_advanced _ (fun _ => rfl) hlater]
      exact h.participants
    · rw [hg, map_advanced _ (fun _ => rfl) hlater]
      exact h.tokens
    · rw [hg, map_advanced _ (fun _ => rfl) hlater]
      exact h.operations
  | reserved session hcheck hfresh hs =>
    have nodup {β : Type} (column : Session → β) (hnodup : (db.sessions.map column).Nodup)
        (hne : ∀ other ∈ db.sessions, column other ≠ column (pendingRow session)) :
        (db'.sessions.map column).Nodup := by
      rw [hs, List.map_append, List.nodup_append]
      refine ⟨hnodup, List.nodup_singleton _, ?_⟩
      simpa using hne
    constructor
    · rw [hs]
      simpa [or_imp, forall_and, hcheck] using h.check
    · rw [hs]
      simpa [or_imp, forall_and, pendingRow] using h.revocation
    · exact nodup _ h.participants fun other ho => (hfresh other ho).1
    · exact nodup _ h.tokens fun other ho => (hfresh other ho).2.1
    · exact nodup _ h.operations fun other ho => (hfresh other ho).2.2

/-- Only the sessions count. -/
theorem SoundSessions.congr (h : SoundSessions db) (hs : db'.sessions = db.sessions) :
    SoundSessions db' where
  check := hs ▸ h.check
  revocation := hs ▸ h.revocation
  participants := hs ▸ h.participants
  tokens := hs ▸ h.tokens
  operations := hs ▸ h.operations

/-- A session that is or has been active was so before, unless the call is `ActivateBootstrap` of
its operation. -/
theorem SessionEffect.of_admitted (he : SessionEffect op db db') {row' : Session}
    (hrow' : row' ∈ db'.sessions) (hadmitted : row'.admitted) : ∃ row ∈ db.sessions,
      row'.reservation = row.reservation ∧
      (row.admitted ∨ ∃ receipt, op = .activateBootstrap row'.bootstrapOperationID receipt) := by
  cases he with
  | advanced hadv =>
    obtain ⟨g, hg, hrows⟩ := hadv
    rw [hg] at hrow'
    obtain ⟨row, hrow, rfl⟩ := List.mem_map.1 hrow'
    have hlater := (hrows row hrow).1
    exact ⟨row, hrow, hlater.reservation, hlater.of_admitted hadmitted⟩
  | reserved session _ _ hs =>
    rw [hs, List.mem_append, List.mem_singleton] at hrow'
    rcases hrow' with hrow' | rfl
    · exact ⟨row', hrow', rfl, .inl hadmitted⟩
    · exact absurd rfl hadmitted.1

/-- A session stays in the table, advanced. -/
theorem SessionEffect.later (he : SessionEffect op db db') {row : Session}
    (hrow : row ∈ db.sessions) : ∃ row' ∈ db'.sessions, Session.Later op row row' := by
  cases he with
  | advanced hadv =>
    obtain ⟨g, hg, hrows⟩ := hadv
    exact ⟨g row, hg ▸ List.mem_map_of_mem hrow, (hrows row hrow).1⟩
  | reserved session _ _ hs => exact ⟨row, hs ▸ List.mem_append_left _ hrow, .refl⟩

end

end YukhCoordination.Relay.Identity
