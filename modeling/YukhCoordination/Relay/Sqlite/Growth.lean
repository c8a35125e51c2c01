import YukhCoordination.Relay.Sqlite.Accounting

/-!
# The relay store alone

Without the lifecycle capabilities records only come and get signed: a stored record stays as it is,
but for its first signature (`Grows`). This is what every caller of the relay store can rely on
between its own requests.
-/

namespace YukhCoordination.Relay.Sqlite

open Lifecycle Transaction Interleave

/-- The requests of the `relay.Store` port. -/
def Request.ofStore : Request → Bool
  | .createChannel _ | .lookupChannel _ | .appendChecked _ _ _ | .attachSignature _
  | .transcript _ | .findRecord _ _ _ | .redactionBoundary _ | .readBetween _ _ _ _ => true
  | _ => false

/-- Every record of `db` is in `db'`, the same if it has its signature. -/
def Grows (db db' : Db) : Prop :=
  ∀ r ∈ db.records, ∃ r' ∈ db'.records, r'.unsigned = r.unsigned ∧ (r.signature ≠ [] → r' = r)

theorem Grows.refl (db : Db) : Grows db db := fun r hr => ⟨r, hr, rfl, fun _ => rfl⟩

theorem Grows.trans {db db₁ db' : Db} (h : Grows db db₁) (h' : Grows db₁ db') : Grows db db' := by
  intro r hr
  obtain ⟨r₁, hr₁, hu₁, hs₁⟩ := h r hr
  obtain ⟨r₂, hr₂, hu₂, hs₂⟩ := h' r₁ hr₁
  refine ⟨r₂, hr₂, hu₂.trans hu₁, fun hs => ?_⟩
  obtain rfl := hs₁ hs
  exact hs₂ hs

/-- A signed record stays. -/
theorem Grows.signed {db db' : Db} (h : Grows db db') {r : AcceptedRecord} (hr : r ∈ db.records)
    (hs : r.signature ≠ []) : r ∈ db'.records := by
  obtain ⟨r', hr', -, heq⟩ := h r hr
  rwa [← heq hs]

section
variable {codec : Codec} {db db' : Db}

theorem Grows.of_records (h : db'.records = db.records) : Grows db db' :=
  fun r hr => ⟨r, h ▸ hr, rfl, fun _ => rfl⟩

theorem Appended.grows {t : Transcript} {r : AcceptedRecord} (ha : Appended codec t r db db') :
    Grows db db' :=
  fun r' hr' => ⟨r', ha.records ▸ List.mem_append_left _ hr', rfl, fun _ => rfl⟩

theorem Signed.grows {a : Relay.SignatureAttachment} (hs : Signed a db db') : Grows db db' := by
  intro r hr
  refine ⟨attach a r, hs.records ▸ List.mem_map_of_mem hr, attach_unsigned a r, fun hsig => ?_⟩
  simp [attach, hsig]

/-- What a committed request of the store does to the records. -/
theorem Request.run_grows {r : Request} (hr : r.ofStore) {a : r.Result}
    (h : r.run codec db = .ok (a, db')) : Grows db db' := by
  cases r with
  | createChannel =>
    obtain ⟨_, rfl | ⟨_, -, rfl⟩⟩ := createChannel_cases h <;> exact .of_records rfl
  | appendChecked =>
    rcases appendChecked_cases h with ⟨-, rfl, -⟩ | ⟨-, -, -, -, t, -, -, ha⟩
    · exact .refl _
    · exact ha.grows
  | attachSignature =>
    obtain ⟨-, -, -, -, rfl | ⟨-, hs⟩⟩ := attachSignature_cases h
    · exact .refl _
    · exact hs.grows
  | lookupChannel | transcript | findRecord | redactionBoundary | readBetween =>
    rw [(query_ok h).2]
    exact .refl _
  | _ => cases hr

/-- Any attempt of a request of the store keeps the invariant of the records and lets them grow. -/
theorem Request.attempt_grows {r : Request} (hr : r.ofStore) {ans : Except r.Err r.Result}
    (h : Attempt (r.run codec) db ans db') (hacc : Accounted db) :
    Accounted db' ∧ Grows db db' := by
  rcases h.cases with rfl | ⟨a, ha⟩
  · exact ⟨hacc, .refl _⟩
  · exact ⟨(run_effect ha).accounted hacc, run_grows hr ha⟩

end

end YukhCoordination.Relay.Sqlite
