import YukhCoordination.Relay.Sqlite.Fence

/-!
# Integrity of the saga

`Verdicts` are what the verifiers of a run have accepted. A call makes the request that commits its
change only after it has validated the documents and a verifier has accepted them
(`Request.Checked`), so the invariants of the operations hold in every run, whatever the verifiers
answer and wherever a request fails.
-/

namespace YukhCoordination.Relay.Sqlite

open Lifecycle Transaction Interleave

/-! ## Verdicts -/

/-- What the verifiers have accepted: signatures of lifecycle receipts, of custodian receipts, and
completions. -/
structure Verdicts where
  lifecycle : String → String → Bytes → Bytes → Prop
  custodian : String → String → Bytes → String → Prop
  audit : CompletionEvidence → Prop

/-- The verdict that a verifier gives when it accepts. -/
def Request.Accepted (v : Verdicts) : Request → Prop
  | .verifyLifecycleReceipt keyID algorithm signing signature =>
    v.lifecycle keyID algorithm signing signature
  | .verifyCustodianReceipt keyID algorithm signing signature =>
    v.custodian keyID algorithm signing signature
  | .verifyCompletionAudit evidence => v.audit evidence
  | _ => True

/-- The meaning of a request in a run whose verifiers accept only what is in `v`. -/
def judgedSem (codec : Codec) (v : Verdicts) : Sem port Nat Db := fun i r db ans db' =>
  sem codec i r db ans db' ∧ (ans.isOk = true → r.Accepted v)

/-- The runs from a new database whose verifiers accept only what is in `v`. -/
def JudgedReach (codec : Codec) (v : Verdicts) : Pool → Prop :=
  Interleave.Pool.Reach (judgedSem codec v) (fun _ _ => False) (Call.body codec) {}

/-- The requests that may change the database. -/
def Request.commits : Request → Bool
  | .createChannel _ | .appendChecked _ _ _ | .attachSignature _ | .reserve _ _ | .bindExport _
  | .persistMarker _ | .attachReceiptSignature _ | .removePayload _ _ | .bindBackupObligations _ _
  | .recordBackupReceipt _ _ _ | .complete _ _ _ _ => true
  | _ => false

/-- The verifier has accepted the signature over the preimage. -/
def Attested (codec : Codec) (v : Verdicts) (preimage signature : Bytes) : Prop :=
  ∃ receipt, codec.decodePreimage preimage = some receipt ∧
    v.lifecycle receipt.signingKeyID receipt.signatureAlgorithm (codec.receiptSigning receipt)
      signature

/-- What a call has checked before it makes a request. -/
def Request.Checked (codec : Codec) (v : Verdicts) : Request → Prop
  | .attachReceiptSignature attachment =>
    Lifecycle.validateSignatureAttachment codec attachment = .ok () ∧
      Attested codec v attachment.receiptPreimage attachment.signature
  | .removePayload _ preflight =>
    Attested codec v preflight.canonicalReceiptPreimage preflight.receiptSignature
  | .bindBackupObligations set preflight => validateBackupObligationSet set = true ∧
      validateObligationSetIntent set preflight.canonicalIntent preflight.intentDigest = .ok ()
  | .recordBackupReceipt receipt preflight obligation =>
    preflight.intentDigest = receipt.intentDigest ∧
      (validateReceiptObligation receipt obligation.canonicalObligation
        obligation.obligationDigest).isOk = true ∧
      v.custodian receipt.verificationKeyID receipt.signatureAlgorithm
        (codec.custodianReceiptSigning receipt) receipt.detachedSignature
  | .complete evidence preflight _ _ => validateCompletionEvidence evidence = true ∧
      preflight.canonicalIntent.policyDigest = evidence.policyDigest ∧ v.audit evidence
  | _ => True

/-- The call has succeeded. -/
def Outcome.isOk : Outcome → Bool
  | .unit result => result.isOk
  | .channel result => result.isOk
  | .record result => result.isOk
  | .records result => result.isOk
  | .appended result => result.isOk
  | .operation result => result.isOk

section
variable {codec : Codec} {v : Verdicts}

/-- A program whose verifiers accept only what is in `v` makes only requests of `ok` and returns a
value of `post`. -/
abbrev Judged (v : Verdicts) {α : Type}
    (ok : (r : Request) → (Except r.Err r.Result → Proc α) → Prop) (post : α → Prop) (p : Proc α) :
    Prop :=
  p.Heeds (fun (r : Request) (ans : Except r.Err r.Result) => ans.isOk = true → r.Accepted v)
    ok post

/-- A program makes only checked requests, is over when it has changed the database, and has then
succeeded. -/
abbrev Careful (codec : Codec) (v : Verdicts) {α : Type} (ok : α → Bool) (p : Proc α) : Prop :=
  Judged v (fun r k => r.Checked codec v ∧ (r.commits = true →
    ∀ ans, ∃ a, k ans = .done a ∧ (ans.isOk = true → ok a = true))) (fun _ => True) p

/-- What a program that changes nothing returns, if its verifiers accept only what is in `v`. -/
abbrev Returns (v : Verdicts) {α : Type} (post : α → Prop) (p : Proc α) : Prop :=
  Judged v (fun r _ => ¬ r.commits) post p

/-- A request that changes nothing needs no check. -/
theorem Request.checked_of_not_commits (r : Request) (h : ¬ r.commits) : r.Checked codec v := by
  cases r with
  | attachReceiptSignature | removePayload | bindBackupObligations | recordBackupReceipt
  | complete => exact absurd rfl h
  | _ => trivial

/-- The answer to a request shows that the work of the call is done. -/
def Call.Shows (codec : Codec) (c : Call) (r : Request) (ans : Except r.Err r.Result) : Prop :=
  ∀ i db db', Ordered db → sem codec i r db ans db' → c.Done codec db'

/-- A careful program that succeeds only where an answer has shown that the work of `c` is done: it
succeeds only with `D`, if that holds once an answer shows it. -/
abbrev Diligent (codec : Codec) (v : Verdicts) (c : Call) (D : Prop) {α : Type} (ok : α → Bool)
    (p : Proc α) : Prop :=
  p.Heeds (fun (r : Request) (ans : Except r.Err r.Result) =>
      (ans.isOk = true → r.Accepted v) ∧ (c.Shows codec r ans → D))
    (fun (r : Request) (k : Except r.Err r.Result → Proc α) => r.Checked codec v ∧
      (r.commits = true → ∀ ans, ∃ a, k ans = .done a ∧ (ans.isOk = true → ok a = true)))
    fun a => ok a = true → D

/-- A load that was answered has read the database as it is. -/
theorem loadOperation_answer {i : Nat} {operationID : String} {stored : OperationRow} {db db' : Db}
    (h : sem codec i (.loadOperation operationID) db (.ok (some stored)) db') :
    db' = db ∧ stored ∈ db.operations ∧ stored.operationID = operationID := by
  obtain ⟨hload, hsame⟩ := query_ok h.ok
  obtain ⟨hmem, hid, -⟩ := loadFound_ok (bind_ok.2 ⟨some stored, hload, rfl⟩)
  exact ⟨hsame, hmem, hid⟩

section
variable {α : Type} {ok : α → Bool} {c : Call} {D : Prop}

theorem Returns.ask {r : Request} {f : Except r.Err r.Result → Proc α} {post : α → Prop}
    (hr : ¬ r.commits) (hf : ∀ ans, (ans.isOk → r.Accepted v) → Returns v post (f ans)) :
    Returns v post (Sqlite.ask r >>= f) :=
  ⟨hr, hf⟩

/-- A request that needs no check, and what follows its answer. -/
theorem Diligent.ask {r : Request} {f : Except r.Err r.Result → Proc α} (hr : ¬ r.commits)
    (hf : ∀ ans, (ans.isOk → r.Accepted v) → (c.Shows codec r ans → D) →
      Diligent codec v c D ok (f ans)) : Diligent codec v c D ok (Sqlite.ask r >>= f) :=
  ⟨⟨r.checked_of_not_commits hr, (absurd · hr)⟩, fun ans h => hf ans h.1 h.2⟩

theorem Diligent.bind {β : Type} {p : Proc β} {f : β → Proc α} {post : β → Prop}
    (hp : Returns v post p) (hf : ∀ b, post b → Diligent codec v c D ok (f b)) :
    Diligent codec v c D ok (p >>= f) :=
  Program.Heeds.bind (hp.mono (fun _ _ h => h.1) fun _ h => h)
    (fun r _ hr => ⟨r.checked_of_not_commits hr, (absurd · hr)⟩) hf

section
variable {p : Proc (Except Lifecycle.Error Operation)}

theorem Diligent.fail (e : Lifecycle.Error) :
    Diligent codec v c D Except.isOk (pure (.error e) : Proc (Except Lifecycle.Error Operation)) :=
  fun h => absurd h Bool.false_ne_true

/-- A check after which the program fails or goes on. -/
theorem Diligent.unless {b : Bool} {e : Lifecycle.Error}
    (h : b = false → Diligent codec v c D Except.isOk p) :
    Diligent codec v c D Except.isOk (if b = true then pure (.error e) else p) := by
  cases b with
  | true => exact .fail e
  | false => exact h rfl

end

/-- The last request, whose answer is returned. -/
theorem Diligent.last {r : Request} {f : Except r.Err r.Result → α}
    (hf : ∀ ans, ok (f ans) = ans.isOk) (hr : r.Checked codec v)
    (hdone : ∀ t a u, Ordered t → r.run codec t = .ok (a, u) → c.Done codec u) :
    Diligent codec v c D ok (.call r fun ans => .done (f ans)) := by
  refine ⟨⟨hr, fun _ ans => ⟨_, rfl, fun h => (hf ans).trans h⟩⟩, fun ans h hok => h.2 ?_⟩
  obtain ⟨a, rfl⟩ := exists_ok ((hf ans).symm.trans hok)
  exact fun _ t u hord hs => hdone t a u hord hs.ok

end

section
variable {D : Prop}

/-- A signature that was verified is one the verifier has accepted. -/
theorem verifySignature_returns (preimage signature : Bytes) :
    Returns v (fun result => result = .ok () → Attested codec v preimage signature)
      (verifySignature codec preimage signature) := by
  unfold verifySignature
  split
  · intro h
    cases h
  · next receipt hdecode =>
    split
    · intro h
      cases h
    · refine Returns.ask Bool.false_ne_true fun ans haccepted => ?_
      split
      · exact fun _ => ⟨receipt, hdecode, haccepted rfl⟩
      · intro h
        cases h

theorem attachSignature_diligent (attachment : Lifecycle.SignatureAttachment) :
    Diligent codec v (.attachReceiptSignature attachment) D Except.isOk
      (LifecycleSignatureRemoval.attachSignature codec attachment) := by
  unfold LifecycleSignatureRemoval.attachSignature
  rcases hvalid : Lifecycle.validateSignatureAttachment codec attachment with _ | ⟨⟩
  · exact .fail _
  refine Diligent.ask Bool.false_ne_true fun ans _ hshows => ?_
  rcases ans with _ | _ | stored
  · exact .fail _
  · exact .fail _
  refine .unless fun hmatch => ?_
  simp only [Bool.or_eq_false_iff, bne_eq_false_iff_eq] at hmatch
  split
  · next hsigned =>
    refine .unless fun hsignature => Diligent.bind (verifySignature_returns _ _) fun b _ => ?_
    rcases b with _ | ⟨⟩
    · exact .fail _
    · refine fun _ => hshows fun i db db' _ hs => ?_
      obtain ⟨rfl, hmem, hid⟩ := loadOperation_answer hs
      exact ⟨hvalid, stored, hmem, hid, hmatch.1, order_of_alreadySigned hsigned, hmatch.2,
        bne_eq_false_iff_eq.1 hsignature⟩
  · refine .unless fun _ => Diligent.bind (verifySignature_returns _ _) fun b hb => ?_
    rcases b with _ | ⟨⟩
    · exact .fail _
    · refine .last (fun _ => rfl) ⟨hvalid, ?_⟩ fun _ _ _ hord hrun =>
        ((attachReceiptSignature_turns hrun).2 hord.ids).2 hvalid
      rw [← hmatch.2]
      exact hb rfl

theorem removePayload_diligent (reference : OperationReference) :
    Diligent codec v (.removePayload reference) D Except.isOk
      (LifecycleSignatureRemoval.removePayload codec reference) := by
  unfold LifecycleSignatureRemoval.removePayload
  refine .unless fun hvalid => Diligent.ask Bool.false_ne_true fun ans _ _ => ?_
  rcases ans with _ | _ | preflight
  · exact .fail _
  · exact .fail _
  refine .unless fun _ => Diligent.bind (verifySignature_returns _ _) fun b hb => ?_
  rcases b with _ | ⟨⟩
  · exact .fail _
  exact .last (fun _ => rfl) (hb rfl) fun _ _ _ hord hrun =>
    ((removePayload_turns hrun).2 hord.ids).2 (by simpa using hvalid)

theorem bindBackupObligations_diligent (set : BackupObligationSet) :
    Diligent codec v (.bindBackupObligations set) D Except.isOk
      (LifecycleBackupCompletion.bindBackupObligations codec set) := by
  unfold LifecycleBackupCompletion.bindBackupObligations
  rcases hcanonical : canonicalBackupObligationSet codec set with _ | setDigest
  · exact .fail _
  obtain ⟨hset, -⟩ := ensure_bind.1 hcanonical
  refine Diligent.ask Bool.false_ne_true fun ans _ _ => ?_
  rcases ans with _ | _ | preflight
  · exact .fail _
  · exact .fail _
  dsimp only
  rcases hintent : validateObligationSetIntent set preflight.canonicalIntent
    preflight.intentDigest with _ | ⟨⟩
  · exact .fail _
  refine Diligent.ask Bool.false_ne_true fun ans _ hshows => ?_
  rcases ans with _ | _ | existing
  · exact .fail _
  · refine .unless fun _ => .last (fun _ => rfl) ⟨hset, hintent⟩ fun _ _ _ hord hrun => ?_
    exact ((bindBackupObligations_turns hrun).2 hord.ids).2
  · refine .unless fun hsame => Diligent.ask Bool.false_ne_true fun ans _ _ => ?_
    simp only [Bool.or_eq_false_iff, bne_eq_false_iff_eq] at hsame
    rcases ans with _ | evidence
    · exact .fail _
    refine .unless fun _ => Diligent.ask Bool.false_ne_true fun ans _ _ => ?_
    rcases ans with _ | _ | current
    · exact .fail _
    · exact .fail _
    refine .unless fun _ _ => hshows fun i db db' _ hs => ?_
    obtain ⟨hload, rfl⟩ := query_ok hs.ok
    exact ⟨existing, (loadObligationSet_ok hload).1, hsame.1⟩

theorem currentOperation_only (operationID : String) :
    (currentOperation operationID).Only fun r : Request => ¬ r.commits := by
  refine Program.only_ask_bind.2 ⟨Bool.false_ne_true, fun ans => ?_⟩
  split <;> trivial

theorem validateCustodianReceiptSignature_only (receipt : CustodianReceipt) :
    (validateCustodianReceiptSignature codec verifyCustodian receipt).Only
      fun r : Request => ¬ r.commits := by
  unfold validateCustodianReceiptSignature
  split
  · trivial
  · refine Program.only_ask_bind.2 ⟨Bool.false_ne_true, fun ans => ?_⟩
    split <;> trivial

/-- A custodian receipt that was verified is one the verifier has accepted. -/
theorem validateCustodianReceiptSignature_returns (receipt : CustodianReceipt) :
    Returns v (fun result => result = .ok () →
        v.custodian receipt.verificationKeyID receipt.signatureAlgorithm
          (codec.custodianReceiptSigning receipt) receipt.detachedSignature)
      (validateCustodianReceiptSignature codec verifyCustodian receipt) := by
  unfold validateCustodianReceiptSignature
  split
  · intro h
    cases h
  · next signing hcanonical =>
    obtain ⟨-, hsigning⟩ := ensure_bind.1 hcanonical
    cases hsigning
    refine Returns.ask Bool.false_ne_true fun ans haccepted => ?_
    split
    · exact fun _ => haccepted rfl
    · intro h
      cases h
    · intro h
      cases h

theorem recordBackupReceipt_diligent (receipt : CustodianReceipt) :
    Diligent codec v (.recordBackupReceipt receipt) D Except.isOk
      (LifecycleBackupCompletion.recordBackupReceipt codec receipt) := by
  unfold LifecycleBackupCompletion.recordBackupReceipt
  rcases canonicalCustodianReceipt codec receipt with _ | ⟨digest, _⟩
  · exact .fail _
  refine Diligent.bind (currentOperation_only _).heeds fun b _ => ?_
  rcases b with _ | preflight
  · exact .fail _
  refine .unless fun hmatch => Diligent.ask Bool.false_ne_true fun ans _ _ => ?_
  simp only [Bool.or_eq_false_iff, bne_eq_false_iff_eq] at hmatch
  rcases ans with _ | obligation
  · exact .fail _
  refine .unless fun hmeets => ?_
  refine Diligent.bind (validateCustodianReceiptSignature_returns _) fun b hb => ?_
  rcases b with _ | ⟨⟩
  · exact .fail _
  refine Diligent.ask Bool.false_ne_true fun ans _ hshows => ?_
  rcases ans with _ | _ | existing
  · exact .fail _
  · refine .unless fun _ => .last (fun _ => rfl) ⟨hmatch.1, by simpa using hmeets, hb rfl⟩
      fun _ _ _ hord hrun => ((recordBackupReceipt_turns hrun).2 hord.ids).2
  · refine .unless fun hsame => Diligent.bind (currentOperation_only _).heeds fun b _ => ?_
    simp only [Bool.or_eq_false_iff, bne_eq_false_iff_eq] at hsame
    rcases b with _ | current
    · exact .fail _
    refine fun _ => hshows fun i db db' _ hs => ?_
    obtain ⟨hload, rfl⟩ := query_ok hs.ok
    exact ⟨existing, (loadReceiptByID_ok hload).1, hsame.2⟩

theorem countAll_only (obligations : List BackupObligation) (receipts : List CustodianReceipt)
    (tally : Tally) :
    (Tally.countAll codec verifyCustodian obligations receipts tally).Only
      fun r : Request => ¬ r.commits := by
  induction receipts generalizing tally with
  | nil => trivial
  | cons receipt receipts ih =>
    unfold Tally.countAll
    split
    · trivial
    · split
      · trivial
      · split
        · trivial
        · refine Program.Only.bind (validateCustodianReceiptSignature_only _) fun b => ?_
          split
          · trivial
          · exact ih _

theorem validateCompletionAgainst_only (evidence : CompletionEvidence)
    (obligations : List BackupObligation) (receipts : List CustodianReceipt) :
    (validateCompletionAgainst codec verifyCustodian evidence obligations receipts).Only
      fun r : Request => ¬ r.commits := by
  unfold validateCompletionAgainst
  split
  · trivial
  · refine Program.Only.bind ?_ fun b => ?_
    · unfold classifyBackupRecovery
      dsimp only
      split
      · trivial
      · refine Program.Only.bind (countAll_only _ _ _) fun b => ?_
        split
        · trivial
        · split
          · trivial
          · split <;> trivial
    · split <;> trivial

theorem complete_diligent (evidence : CompletionEvidence) :
    Diligent codec v (.complete evidence) D Except.isOk
      (LifecycleBackupCompletion.complete codec evidence) := by
  unfold LifecycleBackupCompletion.complete
  rcases hcanonical : canonicalCompletionEvidence codec evidence with _ | digest
  · exact .fail _
  obtain ⟨hvalid, -⟩ := ensure_bind.1 hcanonical
  refine Diligent.bind (currentOperation_only _).heeds fun b _ => ?_
  rcases b with _ | preflight
  · exact .fail _
  refine .unless fun hmatch => Diligent.ask Bool.false_ne_true fun ans _ _ => ?_
  simp only [Bool.or_eq_false_iff, bne_eq_false_iff_eq] at hmatch
  rcases ans with _ | _ | set
  · exact .fail _
  · exact .fail _
  refine Diligent.ask Bool.false_ne_true fun ans _ _ => ?_
  rcases ans with _ | backups
  · exact .fail _
  refine Diligent.bind (validateCompletionAgainst_only _ _ _).heeds fun b _ => ?_
  rcases b with _ | ⟨⟩
  · exact .fail _
  unfold LifecycleBackupCompletion.complete.store
  refine Diligent.ask Bool.false_ne_true fun ans haudit _ => ?_
  split
  · exact .fail _
  · exact .fail _
  refine Diligent.ask Bool.false_ne_true fun ans _ hshows => ?_
  rcases ans with _ | _ | existing
  · exact .fail _
  · exact .last (fun _ => rfl) ⟨hvalid, hmatch.1.2, haudit rfl⟩
      fun _ _ _ hord hrun => ((complete_turns hrun).2 hord.ids).2
  · refine .unless fun hsame => Diligent.bind (currentOperation_only _).heeds fun b _ => ?_
    simp only [Bool.or_eq_false_iff, bne_eq_false_iff_eq] at hsame
    rcases b with _ | current
    · exact .fail _
    refine .unless fun _ _ => hshows fun i db db' _ hs => ?_
    obtain ⟨hload, rfl⟩ := query_ok hs.ok
    exact ⟨existing, (loadCompletion_ok hload).1, hsame.2⟩

theorem lookupChannel_only (key : ChannelKey) :
    (Store.lookupChannel key).Only fun r : Request => ¬ r.commits := by
  unfold Store.lookupChannel
  split
  · trivial
  · exact ⟨Bool.false_ne_true, fun _ => trivial⟩

theorem lookup_only (key : ChannelKey) (eventID : String) :
    (Store.lookup key eventID).Only fun r : Request => ¬ r.commits := by
  unfold Store.lookup
  split
  · trivial
  · refine Program.only_ask_bind.2 ⟨Bool.false_ne_true, fun ans => ?_⟩
    split
    · trivial
    · trivial
    · refine Program.only_ask_bind.2 ⟨Bool.false_ne_true, fun ans => ?_⟩
      split <;> trivial

theorem read_only (key : ChannelKey) (after limit : Nat) :
    (Store.read key after limit).Only fun r : Request => ¬ r.commits := by
  unfold Store.read
  split
  · trivial
  · split
    · trivial
    · refine Program.only_ask_bind.2 ⟨Bool.false_ne_true, fun ans => ?_⟩
      split
      · trivial
      · trivial
      · split
        · trivial
        · exact ⟨Bool.false_ne_true, fun _ => trivial⟩
        · refine Program.only_ask_bind.2 ⟨Bool.false_ne_true, fun ans => ?_⟩
          split
          · trivial
          · trivial
          · exact ⟨Bool.false_ne_true, fun _ => trivial⟩

theorem Diligent.operation {c : Call} {p : Proc (Except Lifecycle.Error Operation)}
    (h : Diligent codec v c D Except.isOk p) : Diligent codec v c D Outcome.isOk
      (p >>= fun result => (pure (.operation result) : Proc Outcome)) := by
  refine Program.Heeds.map (g := Outcome.operation) (fun r k hok => ⟨hok.1, fun hr ans => ?_⟩)
    (fun _ hpost => hpost) h
  obtain ⟨a, hk, ha⟩ := hok.2 hr ans
  exact ⟨.operation a, by dsimp only; rw [hk]; rfl, ha⟩

/-- **Every request of a call is checked.** A call changes the database by its last request, has
then succeeded, and succeeds only if its work is done. -/
theorem Call.diligent (c : Call) (hD : (∀ db, c.Done codec db) → D) :
    Diligent codec v c D Outcome.isOk (c.body codec) := by
  cases c with
  | reserve preparation intent =>
    exact .last (fun _ => rfl) trivial fun _ _ _ hord hrun => ((reserve_turns hrun).2 hord.ids).2
  | bindExport evidence =>
    exact .last (fun _ => rfl) trivial fun _ _ _ hord hrun => ((bindExport_turns hrun).2 hord.ids).2
  | persistMarker persistence =>
    exact .last (fun _ => rfl) trivial
      fun _ _ _ hord hrun => ((persistMarker_turns hrun).2 hord.ids).2
  | attachReceiptSignature attachment => exact (attachSignature_diligent attachment).operation
  | removePayload reference => exact (removePayload_diligent reference).operation
  | bindBackupObligations set => exact (bindBackupObligations_diligent set).operation
  | recordBackupReceipt receipt => exact (recordBackupReceipt_diligent receipt).operation
  | complete evidence => exact (complete_diligent evidence).operation
  | lookupChannel key =>
    exact Diligent.bind (lookupChannel_only key).heeds fun _ _ _ => hD fun _ => trivial
  | lookup key eventID =>
    exact Diligent.bind (lookup_only key eventID).heeds fun _ _ _ => hD fun _ => trivial
  | read key after limit =>
    exact Diligent.bind (read_only key after limit).heeds fun _ _ _ => hD fun _ => trivial
  | _ => exact .last (fun _ => rfl) trivial fun _ _ _ _ _ => trivial

theorem Call.careful (c : Call) : Careful codec v Outcome.isOk (c.body codec) :=
  (c.diligent (D := True) fun _ => trivial).mono (fun _ _ h => ⟨h, fun _ => trivial⟩)
    fun _ _ => trivial

end

end

/-! ## Sound rows -/

/-- A row of `lifecycle_operations` as the store leaves it: its intent is valid and has its digest,
its material is that of its state, its marker is for its intent, and the verifier has accepted its
signature. -/
structure SoundRow (codec : Codec) (v : Verdicts) (row : OperationRow) : Prop where
  id : row.operationID = row.canonicalIntent.operationID
  intent : Lifecycle.validateIntent row.canonicalIntent
  digest : codec.intentDigest row.canonicalIntent = row.intentDigest
  stored : validStoredLifecycle codec row
  matched : 2 ≤ order row.state → ∀ marker, codec.decodeMarker row.canonicalMarker = some marker →
    markerMatchesIntent marker row.canonicalIntent
  attested : 3 ≤ order row.state →
    Attested codec v row.canonicalReceiptPreimage row.receiptSignature
  size : 4 ≤ order row.state → canonicalSize (codec.intentSize row.canonicalIntent)

section
variable {codec : Codec} {v : Verdicts} {db db' : Db} {row row' : OperationRow} {request : Request}

theorem SoundRow.reserved {intent : Intent} {policy : Policy}
    (hvalid : Lifecycle.validateIntent intent) (hmode : policy.exportMode = intent.exportMode) :
    SoundRow codec v (reservedRow codec intent policy) := by
  by_cases hrequired : intent.exportMode = .required
  · refine ⟨rfl, hvalid, rfl, ?_, fun hord => ?_, fun hord => ?_, fun hord => ?_⟩
    · simp [validStoredLifecycle, reservedRow, hmode, hrequired]
    all_goals simp [reservedRow, hmode, hrequired, order] at hord
  · refine ⟨rfl, hvalid, rfl, ?_, fun hord => ?_, fun hord => ?_, fun hord => ?_⟩
    · simp [validStoredLifecycle, validStoredExport, reservedRow, hmode, hrequired]
    all_goals simp [reservedRow, hmode, hrequired, order] at hord

theorem ne_empty_of_validDigest {value : String} (h : validDigest value) : value ≠ "" := by
  rintro rfl
  exact absurd h (by decide)

/-- What a request makes of a sound row is sound and one step further. -/
theorem SoundRow.moves (hremoval : ∀ records, validDigest (codec.removalDigest records))
    (h : SoundRow codec v row) (hm : Moves codec request row row')
    (hc : request.Checked codec v) : SoundRow codec v row' := by
  have hstored := h.stored
  have hid := h.id
  cases hm with
  | exported hvalid hopid hdigest hmode hstate =>
    refine ⟨h.id, h.intent, h.digest, ?_, fun hord => ?_, fun hord => ?_, fun hord => ?_⟩
    · have hdigests := hvalid
      simp only [validateExportEvidence, Bool.and_eq_true] at hdigests
      simp only [validStoredLifecycle, hstate, Bool.and_eq_true] at hstored
      simp only [validStoredLifecycle, validStoredExport, hmode, Bool.and_eq_true, hstored,
        bne_iff_ne, ne_eq, true_and, ne_empty_of_validDigest hdigests.1.2,
        ne_empty_of_validDigest hdigests.2, not_false_eq_true]
      rw [← hid, hopid, hdigest]
      exact hvalid
    all_goals simp [order] at hord
  | @marked persistence _ marker preimage hv hopid hdigest hmatch hstate =>
    refine ⟨h.id, h.intent, h.digest, ?_, fun _ marker' hdecode => ?_, fun hord => ?_,
      fun hord => ?_⟩
    · simp only [validStoredLifecycle, hstate, Bool.and_eq_true, beq_iff_eq] at hstored
      have hpersistence : (⟨row.canonicalIntent.operationID, row.intentDigest,
          persistence.canonicalMarker, persistence.canonicalPreimage⟩ : MarkerPersistence) =
            persistence := by
        rw [← hid, hopid, hdigest]
      simp only [validStoredLifecycle, validMarkerPersistence, hpersistence, hv, hstored,
        beq_self_eq_true, Bool.and_true]
      exact Bool.and_eq_true_iff.2 ⟨hstored.2, rfl⟩
    · rw [(validateMarkerPersistence_spec hv).1] at hdecode
      obtain rfl := Option.some.inj hdecode
      exact hmatch
    all_goals simp [order] at hord
  | @signed attachment _ hopid hdigest hpreimage hstate =>
    refine ⟨h.id, h.intent, h.digest, ?_, fun _ => h.matched (by simp [hstate, order]),
      fun _ => ?_, fun hord => by simp [order] at hord⟩
    · have hlength : attachment.signature.length = 64 := by
        obtain ⟨hvalid, -⟩ := ensure_bind.1 hc.1
        simp only [Bool.and_eq_true, beq_iff_eq] at hvalid
        exact hvalid.2
      simp only [validStoredLifecycle, hstate, Bool.and_eq_true, beq_iff_eq] at hstored
      simp only [validStoredLifecycle, hlength, hstored, beq_self_eq_true, Bool.and_true]
      exact Bool.and_eq_true_iff.2 ⟨hstored.1.1.1, hstored.2⟩
    · simp only [hpreimage]
      exact hc.2
  | removed removed hopid hdigest hsignature hstate hsize =>
    refine ⟨h.id, h.intent, h.digest, ?_, fun _ => h.matched (by simp [hstate, order]),
      fun _ => h.attested (by simp [hstate, order]), fun _ => hsize⟩
    simp only [validStoredLifecycle, hstate, Bool.and_eq_true, beq_iff_eq] at hstored
    simp only [validStoredLifecycle, validLifecycleDigest, hremoval, hstored, beq_self_eq_true,
      Bool.and_true]
    exact Bool.and_eq_true_iff.2 ⟨hstored.1.1.1, hstored.2⟩
  | bound _ _ _ _ hstate | completed _ _ _ hstate =>
    refine ⟨h.id, h.intent, h.digest, ?_, fun _ => h.matched (by simp [hstate, order]),
      fun _ => h.attested (by simp [hstate, order]), fun _ => h.size (by simp [hstate, order])⟩
    simp only [validStoredLifecycle, hstate] at hstored
    exact hstored

/-! ## The progress of an operation -/

/-- `row'` is a row of the same operation as `row` and at least as far: what an operation has been
given stays. -/
structure Continues (row row' : OperationRow) : Prop where
  operationID : row'.operationID = row.operationID
  key : row'.key = row.key
  canonicalIntent : row'.canonicalIntent = row.canonicalIntent
  intentDigest : row'.intentDigest = row.intentDigest
  order : order row.state ≤ order row'.state
  exports : 1 ≤ Sqlite.order row.state → row'.exportManifestDigest = row.exportManifestDigest ∧
    row'.exportCustodyReceiptDigest = row.exportCustodyReceiptDigest
  marker : 2 ≤ Sqlite.order row.state → row'.canonicalMarker = row.canonicalMarker ∧
    row'.canonicalReceiptPreimage = row.canonicalReceiptPreimage
  signature : 3 ≤ Sqlite.order row.state → row'.receiptSignature = row.receiptSignature
  removal : 4 ≤ Sqlite.order row.state → row'.payloadRemovalDigest = row.payloadRemovalDigest

theorem Continues.refl (row : OperationRow) : Continues row row :=
  ⟨rfl, rfl, rfl, rfl, le_rfl, fun _ => ⟨rfl, rfl⟩, fun _ => ⟨rfl, rfl⟩, fun _ => rfl, fun _ => rfl⟩

theorem Continues.trans {row₁ : OperationRow} (h : Continues row row₁) (h' : Continues row₁ row') :
    Continues row row' where
  operationID := h'.operationID.trans h.operationID
  key := h'.key.trans h.key
  canonicalIntent := h'.canonicalIntent.trans h.canonicalIntent
  intentDigest := h'.intentDigest.trans h.intentDigest
  order := h.order.trans h'.order
  exports hord := ⟨(h'.exports (hord.trans h.order)).1.trans (h.exports hord).1,
      (h'.exports (hord.trans h.order)).2.trans (h.exports hord).2⟩
  marker hord := ⟨(h'.marker (hord.trans h.order)).1.trans (h.marker hord).1,
      (h'.marker (hord.trans h.order)).2.trans (h.marker hord).2⟩
  signature hord := (h'.signature (hord.trans h.order)).trans (h.signature hord)
  removal hord := (h'.removal (hord.trans h.order)).trans (h.removal hord)

/-- The row after one request: it is the same, or one step further. -/
structure Follows (row row' : OperationRow) : Prop extends Continues row row' where
  step : row' = row ∨ Sqlite.order row'.state = Sqlite.order row.state + 1

theorem Follows.refl (row : OperationRow) : Follows row row := ⟨.refl row, .inl rfl⟩

theorem Moves.follows (hm : Moves codec request row row') : Follows row row' := by
  cases hm with
  | exported _ _ _ _ hstate | marked _ _ _ _ _ _ hstate | signed _ _ _ hstate
  | removed _ _ _ _ hstate | bound _ _ _ _ hstate | completed _ _ _ hstate =>
    refine ⟨⟨rfl, rfl, rfl, rfl, by simp [hstate, order], ?_, ?_, ?_, ?_⟩,
      .inr (by rw [hstate]; rfl)⟩
    all_goals simp [hstate, order]

/-! ## The invariant -/

/-- The invariant of the saga: every row is sound, and the transcript of an operation has the
lifecycle of its marker. -/
structure Integral (codec : Codec) (v : Verdicts) (db : Db) : Prop extends Ordered db where
  rows : ∀ row ∈ db.operations, SoundRow codec v row
  lives : ∀ row ∈ db.operations, 2 ≤ order row.state → ∀ marker,
    codec.decodeMarker row.canonicalMarker = some marker →
    ∀ t ∈ db.transcripts, t.key = row.key → t.lifecycle = marker.resultingLifecycle

theorem Integral.empty : Integral codec v {} where
  toOrdered := .empty
  rows := by simp
  lives := by simp

/-- The rows after one of them was replaced. -/
theorem mem_put {r : OperationRow} (h : r ∈ db.put row') :
    r = row' ∨ r ∈ db.operations ∧ r.operationID ≠ row'.operationID := by
  obtain ⟨r₀, hr₀, rfl⟩ := List.mem_map.1 h
  split
  · exact .inl rfl
  · next hne => exact .inr ⟨hr₀, hne⟩

/-- A transcript keeps its lifecycle while its operation is the same. -/
theorem SameLives.lifecycle (hlives : SameLives db db') (hord : Ordered db) (hord' : Ordered db')
    {op : OperationRow} (hop : op ∈ db.operations) {lifecycle : Relay.Lifecycle}
    (h : ∀ t ∈ db.transcripts, t.key = op.key → t.lifecycle = lifecycle) :
    ∀ t ∈ db'.transcripts, t.key = op.key → t.lifecycle = lifecycle := by
  intro t ht hkey
  obtain ⟨t₀, ht₀, hkey₀⟩ := hord.transcript op hop
  obtain ⟨t₁, ht₁, hkey₁, hlife⟩ := hlives t₀ ht₀
  obtain rfl := List.inj_on_of_nodup_map hord'.keys ht ht₁
    (hkey.trans (hkey₀.symm.trans hkey₁.symm))
  rw [hlife]
  exact h t₀ ht₀ hkey₀

/-- Only a persisted marker changes the marker of a row. -/
theorem Moves.marker (hm : Moves codec request row row') (hord : order row'.state ≠ 2) :
    row'.canonicalMarker = row.canonicalMarker ∧ (2 ≤ order row'.state → 2 ≤ order row.state) := by
  cases hm with
  | marked => simp [order] at hord
  | exported _ _ _ _ hstate => exact ⟨rfl, by simp [order]⟩
  | signed _ _ _ hstate | removed _ _ _ _ hstate | bound _ _ _ _ hstate
  | completed _ _ _ hstate => exact ⟨rfl, by simp [hstate, order]⟩

variable (hremoval : ∀ records, validDigest (codec.removalDigest records) = true)
include hremoval

/-- The rows after a move are sound. -/
theorem Integral.rows_put (h : Integral codec v db) (hrow : row ∈ db.operations)
    (hm : Moves codec request row row')
    (hc : request.Checked codec v) : ∀ r ∈ db.put row', SoundRow codec v r := by
  intro r hr
  rcases mem_put hr with rfl | ⟨hr, -⟩
  · exact (h.rows row hrow).moves hremoval hm hc
  · exact h.rows r hr

/-- A move that leaves the lifecycle of every transcript keeps the invariant. -/
theorem Integral.put (h : Integral codec v db) (hord' : Ordered db') (hrow : row ∈ db.operations)
    (hm : Moves codec request row row') (hc : request.Checked codec v)
    (hops : db'.operations = db.put row') (hmarker : order row'.state ≠ 2)
    (hlives : SameLives db db') : Integral codec v db' where
  toOrdered := hord'
  rows := by
    rw [hops]
    exact h.rows_put hremoval hrow hm hc
  lives r hr hord marker hdecode := by
    rw [hops] at hr
    rcases mem_put hr with rfl | ⟨hr, -⟩
    · obtain ⟨hsame, hside⟩ := hm.marker hmarker
      rw [hm.follows.key]
      exact hlives.lifecycle h.toOrdered hord' hrow
        (h.lives row hrow (hside hord) marker (hsame ▸ hdecode))
    · exact hlives.lifecycle h.toOrdered hord' hr (h.lives r hr hord marker hdecode)

/-- A persisted marker gives the transcript its lifecycle and leaves every other transcript. -/
theorem Integral.marked {persistence : MarkerPersistence} {marker : Marker}
    (h : Integral codec v db) (hord' : Ordered db') (hrow : row ∈ db.operations)
    (hm : Moves codec (.persistMarker persistence) row row')
    (hdecode : codec.decodeMarker row'.canonicalMarker = some marker)
    (hops : db'.operations = db.put row')
    (ht : updateOne (fun t : Transcript => t.key == marker.transcript.channelKey &&
        t.lifecycle == marker.previousLifecycle) (fun t =>
          { t with lifecycle := marker.resultingLifecycle, completeness := .incomplete })
        db.transcripts = some db'.transcripts) : Integral codec v db' where
  toOrdered := hord'
  rows := by
    rw [hops]
    exact h.rows_put hremoval hrow hm trivial
  lives r hr hord marker' hdecode' t' ht' hkey := by
    have hsound := (h.rows row hrow).moves hremoval hm trivial
    obtain ⟨hid, hkeys, hintent, -⟩ := hm.follows.toContinues
    have htranscript : row.key = marker.transcript.channelKey := by
      have hmatch := hsound.matched (by cases hm; simp [order]) marker hdecode
      simp only [markerMatchesIntent, Bool.and_eq_true, beq_iff_eq] at hmatch
      rw [h.transcriptKey row hrow, ← hintent, hmatch.1.1.1.1.1.2]
    obtain ⟨hone, htranscripts⟩ := updateOne_eq_some ht
    rw [htranscripts] at ht'
    obtain ⟨t, htm, rfl⟩ := List.mem_map.1 ht'
    rw [hops] at hr
    rcases mem_put hr with rfl | ⟨hr, hne⟩
    · rw [hdecode] at hdecode'
      obtain rfl := Option.some.inj hdecode'
      obtain ⟨found, hfound, hp⟩ := exists_of_countP_eq_one hone
      have hp' := hp
      simp only [Bool.and_eq_true, beq_iff_eq] at hp'
      have hkey' : t.key = r.key := by
        rw [← hkey]
        split <;> rfl
      obtain rfl : t = found := List.inj_on_of_nodup_map h.keys htm hfound
        (hkey'.trans (hkeys.trans (htranscript.trans hp'.1.symm)))
      rw [if_pos hp]
    · -- Another operation is one of another transcript, which is as it was.
      have hother : ¬ (t.key == marker.transcript.channelKey &&
          t.lifecycle == marker.previousLifecycle) = true := by
        intro hp
        rw [if_pos hp] at hkey
        simp only [Bool.and_eq_true, beq_iff_eq] at hp
        refine hne ?_
        rw [hid, h.eq_of_key hr hrow (hkey.symm.trans (hp.1.trans htranscript.symm))]
      rw [if_neg hother] at hkey ⊢
      exact h.lives r hr hord marker' hdecode' t htm hkey

/-- **Every turn keeps the invariant of the saga.** -/
theorem Integral.turn (h : Integral codec v db) (hord' : Ordered db') (hc : request.Checked codec v)
    (ht : Turn codec db db' request) : Integral codec v db' := by
  cases ht with
  | framed hops _ _ hlives =>
    exact ⟨hord', by rw [hops]; exact h.rows, fun r hr hord marker hdecode =>
      hlives.lifecycle h.toOrdered hord' (hops ▸ hr) (h.lives r (hops ▸ hr) hord marker hdecode)⟩
  | reserved policy hvalid hmode hops _ _ hlives =>
    refine ⟨hord', fun r hr => ?_, fun r hr hord marker hdecode => ?_⟩
    · rw [hops] at hr
      rcases List.mem_append.1 hr with hr | hr
      · exact h.rows r hr
      · rw [List.mem_singleton.1 hr]
        exact .reserved hvalid hmode
    · rw [hops] at hr
      rcases List.mem_append.1 hr with hr | hr
      · exact hlives.lifecycle h.toOrdered hord' hr (h.lives r hr hord marker hdecode)
      · rw [List.mem_singleton.1 hr, reservedRow] at hord
        split at hord <;> simp [order] at hord
  | moved row row' hrow hm hops hside _ _ hlives =>
    exact h.put hremoval hord' hrow hm hc hops (by rintro h2; simp [h2] at hside) hlives
  | marked row row' marker hrow hm hdecode hops _ _ ht =>
    exact h.marked hremoval hord' hrow hm hdecode hops ht
  | removed row row' removed mid hrow hm _ _ _ hloop heq =>
    subst heq
    exact h.put hremoval hord' hrow hm hc rfl (by cases hm; simp [order])
      (.of_eq (removeRecords_takes hloop).transcripts)
  | recorded row current _ _ _ _ _ _ _ _ heq =>
    subst heq
    exact ⟨hord', h.rows, h.lives⟩
  | bound row row' hrow hm _ heq | completed row row' hrow hm _ _ _ heq =>
    subst heq
    exact h.put hremoval hord' hrow hm hc rfl (by cases hm; simp [order]) (.of_eq rfl)

/-! ## Runs -/

/-- What a committed request keeps of the invariant. -/
theorem Integral.run (h : Integral codec v db) (hc : request.Checked codec v) {a : request.Result}
    (hrun : request.run codec db = .ok (a, db')) : Integral codec v db' :=
  h.turn hremoval ((run_effect hrun).ordered h.toOrdered) hc (run_turn h.toOrdered hrun)

/-- The invariant holds in every run whose verifiers accept only what is in `v`. -/
theorem JudgedReach.integral {p : Pool} (hp : JudgedReach codec v p) :
    Integral codec v p.shared := by
  refine Interleave.Pool.Reach.invariant_heeds (fun _ _ _ _ _ h => h.2)
    (fun c => Call.careful (v := v) c) Integral.empty ?_ (fun _ _ _ hf => hf.elim) hp
  rintro i r _ db ans db' ⟨hc, -⟩ h hs
  rcases hs.1.cases with rfl | ⟨a, hrun⟩
  · exact h
  · exact h.run hremoval hc hrun

end

/-- The meaning of a request in a run whose failures are all rolled back and whose verifiers accept
only what is in `v`. -/
def atomicSem (codec : Codec) (v : Verdicts) : Sem port Nat Db := fun _ r db ans db' =>
  Atomic (r.run codec) db ans db' ∧ (ans.isOk = true → r.Accepted v)

/-- One step of such a run. -/
abbrev AtomicStep (codec : Codec) (v : Verdicts) : Pool → Pool → Prop :=
  Interleave.Pool.Step (atomicSem codec v) (fun _ _ => False) (Call.body codec)

/-- Such runs from a new database. -/
def AtomicReach (codec : Codec) (v : Verdicts) : Pool → Prop :=
  Interleave.Pool.Reach (atomicSem codec v) (fun _ _ => False) (Call.body codec) {}

/-- The lifecycle that an action is for. -/
def lifecycleOfAction : Action → Relay.Lifecycle
  | .redactTranscript => .redacted
  | .deleteTranscript => .deleted

/-- What holds of the operations in every state of a run. -/
structure SoundSaga (codec : Codec) (v : Verdicts) (db : Db) : Prop where
  stored : ∀ row ∈ db.operations, validStoredLifecycle codec row
  marker : ∀ row ∈ db.operations, 2 ≤ order row.state → ∃ marker,
    codec.decodeMarker row.canonicalMarker = some marker ∧
    marker.resultingLifecycle = lifecycleOfAction row.canonicalIntent.action ∧
    (∃ t ∈ db.transcripts, t.key = row.key) ∧
    ∀ t ∈ db.transcripts, t.key = row.key → t.lifecycle = marker.resultingLifecycle
  signature : ∀ row ∈ db.operations, 3 ≤ order row.state → row.receiptSignature.length = 64 ∧
    Attested codec v row.canonicalReceiptPreimage row.receiptSignature
  single : ∀ row ∈ db.operations, ∀ row' ∈ db.operations, row.key = row'.key →
    2 ≤ order row.state → 2 ≤ order row'.state → row = row'

/-- What a step does to the operations and the records. Operations are never removed, so the one
operation of a transcript that got its marker is the only one that ever does. The database is
changed by the last step of a call only, and only if the call succeeds: a failed call changes no
row, and a successful one advances an operation by one step at most. -/
structure SagaStep (codec : Codec) (v : Verdicts) (p q : Pool) : Prop where
  advances : ∀ row ∈ p.shared.operations, ∃ row' ∈ q.shared.operations,
    row'.operationID = row.operationID ∧ row'.key = row.key ∧
    (row' = row ∨ order row'.state = order row.state + 1)
  reserves : ∀ row' ∈ q.shared.operations,
    (∃ row ∈ p.shared.operations, row.operationID = row'.operationID) ∨
      row'.state = .reserved ∨ row'.state = .exportSatisfied
  removes : ∀ record ∈ p.shared.records, Stored q.shared record ∨
    ∃ row ∈ p.shared.operations, row.key = record.channel ∧ row.state = .receiptSigned ∧
      row.receiptSignature.length = 64 ∧
      Attested codec v row.canonicalReceiptPreimage row.receiptSignature
  succeeds : q.shared ≠ p.shared → ∃ i c r k outcome, p.thread i = some (c, .call r k) ∧
    q.Returned i c outcome ∧ outcome.isOk

section
variable {codec : Codec} {v : Verdicts} {db db' : Db} {row row' : OperationRow} {request : Request}
  {p q : Pool}

/-- The lifecycle that a valid marker of the operation results in is the one its intent asks for. -/
theorem SoundRow.resulting {marker : Marker} (h : SoundRow codec v row)
    (hord : 2 ≤ order row.state) (hdecode : codec.decodeMarker row.canonicalMarker = some marker)
    (hvalid : validateMarker marker) :
    marker.resultingLifecycle = lifecycleOfAction row.canonicalIntent.action := by
  have hmatch := h.matched hord marker hdecode
  simp only [markerMatchesIntent, Bool.and_eq_true, beq_iff_eq] at hmatch
  obtain ⟨htransition, htarget⟩ := validateMarker_spec hvalid
  have hkind := validTarget_kind htarget
  have hintent : validTarget row.canonicalIntent.action row.canonicalIntent.target = true :=
    validTarget_of_validateIntent h.intent
  have hkind' := validTarget_kind hintent
  have hact := ne_active_of_validTransition htransition
  rw [hmatch.1.2, hkind'] at hkind
  revert hkind hact
  cases marker.resultingLifecycle <;> cases row.canonicalIntent.action <;>
    simp [actionForLifecycle, lifecycleOfAction]

/-- A stored row past the marker has a marker and a receipt that are valid together. -/
theorem SoundRow.persistence (h : SoundRow codec v row) (hord : 2 ≤ order row.state) :
    validMarkerPersistence codec row := by
  have hstored := h.stored
  unfold validStoredLifecycle at hstored
  cases hstate : row.state <;>
    simp only [hstate, order, Nat.reduceLeDiff, Bool.and_eq_true] at hord hstored
  all_goals exact hstored.2

/-- A stored row past the marker has a marker that decodes and is valid. -/
theorem SoundRow.decoded (h : SoundRow codec v row) (hord : 2 ≤ order row.state) :
    ∃ marker, codec.decodeMarker row.canonicalMarker = some marker ∧ validateMarker marker := by
  obtain ⟨⟨marker, preimage⟩, hv⟩ := exists_ok (h.persistence hord)
  have hspec := validateMarkerPersistence_spec hv
  exact ⟨marker, hspec.1, hspec.2.2.1⟩

theorem SoundRow.signature (h : SoundRow codec v row) (hord : 3 ≤ order row.state) :
    row.receiptSignature.length = 64 := by
  have hstored := h.stored
  unfold validStoredLifecycle at hstored
  cases hstate : row.state <;>
    simp only [hstate, order, Nat.reduceLeDiff, Bool.and_eq_true, beq_iff_eq] at hord hstored
  all_goals exact hstored.1.1.2

/-- What the invariant says of the operations. -/
theorem Integral.sound (h : Integral codec v db) : SoundSaga codec v db where
  stored row hrow := (h.rows row hrow).stored
  marker row hrow hord := by
    obtain ⟨marker, hdecode, hvalid⟩ := (h.rows row hrow).decoded hord
    exact ⟨marker, hdecode, (h.rows row hrow).resulting hord hdecode hvalid,
      h.transcript row hrow, h.lives row hrow hord marker hdecode⟩
  signature row hrow hord := ⟨(h.rows row hrow).signature hord, (h.rows row hrow).attested hord⟩
  single row hrow row' hrow' hkey _ _ := h.eq_of_key hrow hrow' hkey

/-- Where one row was moved, a row is kept or is one step further. -/
theorem Moves.advances {found : OperationRow} (hord : Ordered db) (hfound : found ∈ db.operations)
    (hm : Moves codec request found row') (hrow : row ∈ db.operations) :
    ∃ r ∈ db.put row', Follows row r := by
  have hfollows := hm.follows
  by_cases hsame : row.operationID = row'.operationID
  · obtain rfl := hord.eq_of_id hrow hfound (hsame.trans hfollows.operationID)
    exact ⟨row', self_mem_put hrow hfollows.operationID, hfollows⟩
  · exact ⟨row, List.mem_map.2 ⟨row, hrow, if_neg hsame⟩, .refl row⟩

/-- A turn keeps an operation or takes it one step further. -/
theorem Turn.advances (hord : Ordered db) (ht : Turn codec db db' request)
    (hrow : row ∈ db.operations) : ∃ row' ∈ db'.operations, Follows row row' := by
  rcases ht.operations with hops | ⟨_, _, hops⟩ | ⟨found, hfound, row', hm, hops⟩ <;> rw [hops]
  · exact ⟨row, hrow, .refl row⟩
  · exact ⟨row, List.mem_append_left _ hrow, .refl row⟩
  · exact hm.advances hord hfound hrow

/-- The operations go on. -/
theorem Turn.continues (hord : Ordered db) (ht : Turn codec db db' request) :
    ∀ row ∈ db.operations, ∃ row' ∈ db'.operations, Continues row row' := by
  intro row hrow
  obtain ⟨row', hrow', hfollows⟩ := ht.advances hord hrow
  exact ⟨row', hrow', hfollows.toContinues⟩

/-- Where one row was moved, every row follows one. -/
theorem Moves.comes {found : OperationRow} (hfound : found ∈ db.operations)
    (hm : Moves codec request found row) (hrow' : row' ∈ db.put row) :
    ∃ r ∈ db.operations, Follows r row' := by
  rcases mem_put hrow' with rfl | ⟨hrow', -⟩
  · exact ⟨found, hfound, hm.follows⟩
  · exact ⟨row', hrow', .refl row'⟩

/-- A turn adds no operation but a reservation. -/
theorem Turn.comes (ht : Turn codec db db' request) (hrow' : row' ∈ db'.operations) :
    (∃ row ∈ db.operations, Follows row row') ∨
      row'.state = .reserved ∨ row'.state = .exportSatisfied := by
  rcases ht.operations with hops | ⟨_, _, hops⟩ | ⟨found, hfound, row, hm, hops⟩ <;>
    rw [hops] at hrow'
  · exact .inl ⟨row', hrow', .refl row'⟩
  · rcases List.mem_append.1 hrow' with hrow' | hrow'
    · exact .inl ⟨row', hrow', .refl row'⟩
    · rw [List.mem_singleton.1 hrow', reservedRow]
      split <;> simp
  · exact .inl (hm.comes hfound hrow')

/-- A record stays, but for its first signature, until an operation with a signed receipt removes
it. -/
theorem Effect.keeps {record : AcceptedRecord} (hord : Ordered db)
    (heff : Effect codec db db' request) (hrecord : record ∈ db.records) :
    Stored db' record ∨ ∃ row ∈ db.operations, row.key = record.channel ∧
      row.state = .receiptSigned := by
  have same : db'.records = db.records → Stored db' record :=
    fun heq => ⟨record, heq ▸ hrecord, rfl⟩
  cases heff with
  | framed hs => exact .inl (same hs.records)
  | created t hc => exact .inl (same hc.records)
  | appended t r _ _ ha =>
    exact .inl ⟨record, ha.records ▸ List.mem_append_left _ hrecord, rfl⟩
  | signed a hs =>
    exact .inl ⟨attach a record, hs.records ▸ List.mem_map_of_mem hrecord, attach_unsigned a record⟩
  | reserved t row _ hr => exact .inl (same hr.records)
  | advanced _ _ hs | marked row marker hs => exact .inl (same hs.records)
  | removed row removed mid hr =>
    by_cases hchannel : record.channel = row.canonicalIntent.transcript.channelKey
    · exact .inr ⟨row, hr.mem, (hord.transcriptKey row hr.mem).trans hchannel.symm, hr.state⟩
    · refine .inl ⟨record, ?_, rfl⟩
      rw [hr.records]
      exact ((removeRecords_takes hr.loop).records record).2 ⟨hrecord, fun h => hchannel h.1⟩

/-- A request that does not commit leaves the database. -/
theorem Request.run_of_not_commits (hc : ¬ request.commits) {a : request.Result}
    (h : request.run codec db = .ok (a, db')) : db' = db := by
  cases request with
  | createChannel | appendChecked | attachSignature | reserve | bindExport | persistMarker
  | attachReceiptSignature | removePayload | bindBackupObligations | recordBackupReceipt
  | complete => exact absurd rfl hc
  | verifyLifecycleReceipt | verifyCustodianReceipt | verifyCompletionAudit =>
    cases h
    rfl
  | _ => exact (query_ok h).2

/-- A step that changes the database ends its call, which has succeeded. -/
theorem AtomicReach.succeeds (hp : AtomicReach codec v p) (hs : AtomicStep codec v p q)
    (hne : q.shared ≠ p.shared) : ∃ i c r k outcome, p.thread i = some (c, .call r k) ∧
      q.Returned i c outcome ∧ outcome.isOk := by
  cases hs with
  | start => exact absurd rfl hne
  | env hf => exact hf.elim
  | run i hi hs =>
    rename_i c r k ans db'
    obtain ⟨hatomic, -⟩ := hs
    cases hatomic with
    | rolledBack => exact absurd rfl hne
    | committed hrun =>
      have hcommits : r.commits = true := by
        by_contra hc
        exact hne (r.run_of_not_commits hc hrun)
      obtain ⟨outcome, hk, hok⟩ := (Interleave.Pool.Reach.heeds (fun _ _ _ _ _ h => h.2)
        (fun c => Call.careful c) hp hi).1.2 hcommits (.ok _)
      refine ⟨i, c, r, k, outcome, hi, ?_, hok rfl⟩
      simp only [Interleave.Pool.Returned, Function.update_self]
      rw [hk]

theorem atomicSem.judged {i : Nat} {r : Request} {ans : Except r.Err r.Result}
    (h : atomicSem codec v i r db ans db') : judgedSem codec v i r db ans db' := by
  refine ⟨?_, h.2⟩
  cases h.1 with
  | committed hrun => exact .committed hrun
  | rolledBack e => exact .rolledBack e

theorem AtomicReach.integral (hremoval : ∀ records, validDigest (codec.removalDigest records))
    (hp : AtomicReach codec v p) : Integral codec v p.shared :=
  JudgedReach.integral hremoval (Interleave.Pool.Reach.mono (fun _ _ _ _ _ h => atomicSem.judged h)
    hp)

/-- What a step does, by what its request does. -/
theorem AtomicReach.sagaStep (hremoval : ∀ records, validDigest (codec.removalDigest records))
    (hp : AtomicReach codec v p) (hs : AtomicStep codec v p q) : SagaStep codec v p q := by
  have hintegral := hp.integral hremoval
  have hturns : ∃ request, Turns codec p.shared q.shared request True := by
    rcases hs.shared with heq | ⟨i, r, ans, hsem⟩ | hf
    · rw [heq]
      exact ⟨.loadOperation "", .unchanged trivial⟩
    · rcases (atomicSem.judged hsem).1.cases with heq | ⟨a, hrun⟩
      · rw [heq]
        exact ⟨r, .unchanged trivial⟩
      · exact ⟨r, run_turns hrun⟩
    · exact hf.elim
  obtain ⟨request, heff, ht⟩ := hturns
  obtain ⟨ht, -⟩ := ht hintegral.ids
  refine ⟨fun row hrow => ?_, fun row' hrow' => (ht.comes hrow').imp_left fun ⟨row, hrow, h⟩ =>
    ⟨row, hrow, h.operationID.symm⟩, fun record hrecord => ?_, hp.succeeds hs⟩
  · obtain ⟨row', hrow', hfollows⟩ := ht.advances hintegral.toOrdered hrow
    exact ⟨row', hrow', hfollows.operationID, hfollows.key, hfollows.step⟩
  rcases heff.keeps hintegral.toOrdered hrecord with hkept | ⟨row, hrow, hkey, hstate⟩
  · exact .inl hkept
  · have hsignature := hintegral.sound.signature row hrow (by simp [hstate, order])
    exact .inr ⟨row, hrow, hkey, hstate, hsignature⟩

/-- **Saga integrity.** In every run of the store and the lifecycle capabilities in which a request
that fails, at whatever statement, is rolled back: the operations are sound in every state, and
every step leaves an operation or advances it by one step of the saga, removes a record only for an
operation whose accepted signature is stored, and changes the database only as the last
step of a call that succeeds. -/
theorem saga_integrity (hremoval : ∀ records, validDigest (codec.removalDigest records) = true)
    (hp : AtomicReach codec v p) (hs : AtomicStep codec v p q) :
    SoundSaga codec v p.shared ∧ SoundSaga codec v q.shared ∧ SagaStep codec v p q :=
  ⟨(hp.integral hremoval).sound,
    (AtomicReach.integral hremoval (Relation.ReflTransGen.tail hp hs)).sound,
    hp.sagaStep hremoval hs⟩

/-- The verifiers that accept everything. -/
def acceptAll : Verdicts := ⟨fun _ _ _ _ => True, fun _ _ _ _ => True, fun _ => True⟩

theorem Request.accepted_acceptAll (r : Request) : r.Accepted acceptAll := by
  cases r <;> trivial

/-- The integrity of a run that deletes a transcript, at the step that removes its record. -/
theorem saga_integrity_removal : ∃ p q : Pool, AtomicReach fenceCodec acceptAll p ∧
    AtomicStep fenceCodec acceptAll p q ∧ signedRow ∈ p.shared.operations ∧
    removedRow ∈ q.shared.operations ∧ p.shared.records ≠ [] ∧ q.shared.records = [] ∧
    SoundSaga fenceCodec acceptAll q.shared ∧ SagaStep fenceCodec acceptAll p q := by
  have hS : ∀ i (r : Request) db a db', r.run fenceCodec db = .ok (a, db') → r.Fenced db →
      atomicSem fenceCodec acceptAll i r db (.ok a) db' :=
    fun i r db a db' h _ => ⟨.committed h, fun _ => r.accepted_acceptAll⟩
  obtain ⟨p, hp, hi⟩ := reservedDb_reachable hS
  obtain ⟨m, q, hm, hlast, hms, hrec, hop⟩ := hi.removal hS (.inl rfl)
  have hintegrity := saga_integrity valid_removalDigest (hp.trans hm) hlast
  exact ⟨m, q, hp.trans hm, hlast, hms ▸ List.mem_singleton_self _, hop ▸ List.mem_singleton_self _,
    hms ▸ List.cons_ne_nil _ _, hrec, hintegrity.2.1, hintegrity.2.2⟩

end

end YukhCoordination.Relay.Sqlite
