import YukhCoordination.Relay.Lifecycle.Validation

/-!
# Obligations that an intent admits

`ValidateIntent` takes every deadline that the time parser reads, `ValidateBackupObligation` only
one that is printed as it was read. An obligation set carries the deadlines of the intent, so an
intent has one exactly when its deadlines are in the canonical form (`exists_obligationSet_iff`).
-/

namespace YukhCoordination.Relay.Lifecycle

open Transaction

/-- The obligation of an intent for one of its deletion windows. -/
def obligationFor (intent : Intent) (intentDigest : String) (window : BackupDeadline) :
    BackupObligation where
  profile := "yukh-transcript-backup-obligation/v0.1"
  operationID := intent.operationID
  intentDigest := intentDigest
  policyDigest := intent.policyDigest
  domain := window.domain
  deadline := window.deadline
  bindingKind := .generation
  bindingDigest := intent.policyDigest

/-- The obligation set of an intent: one obligation for each of its deletion windows. -/
def obligationsFor (intent : Intent) (intentDigest : String) : BackupObligationSet where
  profile := "yukh-transcript-backup-obligation-set/v0.1"
  operationID := intent.operationID
  intentDigest := intentDigest
  policyDigest := intent.policyDigest
  obligations := intent.expectedBackupDeletionWindows.map (obligationFor intent intentDigest)

section
variable {intent : Intent} {intentDigest : String} {set : BackupObligationSet}

/-- The windows of a valid intent are one for each domain. -/
theorem windows_of_validateIntent (h : validateIntent intent) :
    intent.expectedBackupDeletionWindows.map (·.domain) = backupDomains := by
  simp only [validateIntent, validDeadlines, Bool.and_eq_true, beq_iff_eq] at h
  exact h.2.1

theorem valid_obligationFor (h : validateIntent intent) (hdigest : validDigest intentDigest)
    {window : BackupDeadline} (hwindow : window ∈ intent.expectedBackupDeletionWindows)
    (htime : validTime window.deadline) :
    validateBackupObligation (obligationFor intent intentDigest window) := by
  have hdomain : validBackupDomain window.domain = true := by
    rw [← mem_backupDomains, ← windows_of_validateIntent h]
    exact List.mem_map_of_mem hwindow
  simp only [validateIntent, Bool.and_eq_true] at h
  obtain ⟨⟨⟨⟨⟨⟨⟨⟨⟨⟨⟨-, hid⟩, -⟩, -⟩, -⟩, hpolicy⟩, -⟩, -⟩, -⟩, -⟩, -⟩, -⟩ := h
  simp only [validateBackupObligation, validateOperationReference, obligationFor, hid, hdigest,
    hpolicy, hdomain, htime, beq_self_eq_true, Bool.and_self]

/-- The set of an intent with canonical deadlines is accepted. -/
theorem validate_obligationsFor (h : validateIntent intent) (hdigest : validDigest intentDigest)
    (hdeadlines : ∀ window ∈ intent.expectedBackupDeletionWindows, validTime window.deadline) :
    validateObligationSetIntent (obligationsFor intent intentDigest) intent intentDigest =
      .ok () := by
  have hvalid : ∀ window ∈ intent.expectedBackupDeletionWindows,
      validateBackupObligation (obligationFor intent intentDigest window) = true :=
    fun window hwindow => valid_obligationFor h hdigest hwindow (hdeadlines window hwindow)
  have hset : validateBackupObligationSet (obligationsFor intent intentDigest) = true := by
    have hfields := h
    simp only [validateIntent, Bool.and_eq_true] at hfields
    obtain ⟨⟨⟨⟨⟨⟨⟨⟨⟨⟨⟨-, hid⟩, -⟩, -⟩, -⟩, hpolicy⟩, -⟩, -⟩, -⟩, -⟩, -⟩, -⟩ := hfields
    have hdomains : (obligationsFor intent intentDigest).obligations.map (·.domain) =
        backupDomains := by
      rw [obligationsFor, List.map_map]
      exact windows_of_validateIntent h
    simp only [validateBackupObligationSet, Bool.and_eq_true, beq_iff_eq, List.all_eq_true]
    refine ⟨⟨⟨⟨rfl, ?_⟩, hpolicy⟩, hdomains⟩, fun o ho => ?_⟩
    · simp only [validateOperationReference, obligationsFor, hid, hdigest, Bool.and_self]
    · obtain ⟨window, hwindow, rfl⟩ := List.mem_map.1 ho
      exact ⟨⟨⟨hvalid window hwindow, rfl⟩, rfl⟩, rfl⟩
  refine ensure_bind.2 ⟨by rw [hset, h, Bool.and_self], ensure_bind.2 ⟨?_, ensure_ok.2 ?_⟩⟩
  · simp [obligationsFor]
  · refine List.all_eq_true.2 fun o ho => ?_
    obtain ⟨window, hwindow, rfl⟩ := List.mem_map.1 ho
    have hok : validateObligationIntent (obligationFor intent intentDigest window) intent
        intentDigest = .ok () := by
      refine ensure_bind.2 ⟨by rw [hvalid window hwindow, h, Bool.and_self],
        ensure_bind.2 ⟨by simp [obligationFor], ensure_ok.2 ?_⟩⟩
      exact List.any_eq_true.2 ⟨window, hwindow, by simp [obligationFor]⟩
    rw [hok]
    rfl

/-- A set that is accepted for an intent has an obligation with the deadline of each window. -/
theorem deadline_of_accepted (h : validateObligationSetIntent set intent intentDigest = .ok ())
    {window : BackupDeadline} (hwindow : window ∈ intent.expectedBackupDeletionWindows) :
    ∃ o ∈ set.obligations, o.domain = window.domain ∧ o.deadline = window.deadline ∧
      validateBackupObligation o := by
  unfold validateObligationSetIntent at h
  obtain ⟨hvalid, h⟩ := ensure_bind.1 h
  obtain ⟨-, h⟩ := ensure_bind.1 h
  have hall := List.all_eq_true.1 (ensure_ok.1 h)
  obtain ⟨hset, hintent⟩ := (Bool.and_eq_true _ _).mp hvalid
  have hwindows := windows_of_validateIntent hintent
  simp only [validateBackupObligationSet, Bool.and_eq_true, beq_iff_eq, List.all_eq_true] at hset
  -- The set and the windows each have one entry of a domain.
  have hmem : window.domain ∈ set.obligations.map (·.domain) := by
    rw [hset.1.2, ← hwindows]
    exact List.mem_map_of_mem hwindow
  obtain ⟨o, ho, hdomain⟩ := List.mem_map.1 hmem
  obtain ⟨_, hok⟩ := exists_ok (hall o ho)
  unfold validateObligationIntent at hok
  obtain ⟨-, hok⟩ := ensure_bind.1 hok
  obtain ⟨-, hok⟩ := ensure_bind.1 hok
  obtain ⟨window', hwindow', hsame⟩ := List.any_eq_true.1 (ensure_ok.1 hok)
  simp only [Bool.and_eq_true, beq_iff_eq] at hsame
  have hnodup : (intent.expectedBackupDeletionWindows.map (·.domain)).Nodup := by
    rw [hwindows]
    decide
  obtain rfl := List.inj_on_of_nodup_map hnodup hwindow' hwindow (hsame.1.trans hdomain)
  exact ⟨o, ho, hdomain, hsame.2.symm, (hset.2 o ho).1.1.1⟩

/-- A valid intent has an obligation set exactly when its deadlines are canonical. -/
theorem exists_obligationSet_iff (h : validateIntent intent) (hdigest : validDigest intentDigest) :
    (∃ set, validateObligationSetIntent set intent intentDigest = .ok ()) ↔
      ∀ window ∈ intent.expectedBackupDeletionWindows, validTime window.deadline := by
  refine ⟨fun ⟨set, hset⟩ window hwindow => ?_, fun hdeadlines =>
    ⟨_, validate_obligationsFor h hdigest hdeadlines⟩⟩
  obtain ⟨o, -, -, hdeadline, hvalid⟩ := deadline_of_accepted hset hwindow
  simp only [validateBackupObligation, Bool.and_eq_true] at hvalid
  rw [← hdeadline]
  exact hvalid.1.2

end

end YukhCoordination.Relay.Lifecycle
