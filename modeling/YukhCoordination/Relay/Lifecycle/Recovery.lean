import YukhCoordination.Relay.Lifecycle.Backup

/-!
# The classification of backup evidence

`ClassifyBackupRecovery` is one pass over the receipts with four maps. With a verifier that is a
function of the receipt, the maps after the pass are read off the receipts that were passed
(`Judge.tally`), so the classification is determined by which receipts there are and not by their
order, and what makes an incident stays.
-/

namespace YukhCoordination.Relay.Lifecycle

open Transaction

/-! ## What the pass computes -/

/-- What the verifier says of the signature of a receipt. -/
def signatureOf (codec : Codec) (verify : CustodianVerifier Id) (receipt : CustodianReceipt) :
    Except Error Unit :=
  validateCustodianReceiptSignature (m := Id) codec verify receipt

/-- What the receipts of an operation are judged by. -/
structure Judge where
  codec : Codec
  verify : CustodianVerifier Id
  obligations : List BackupObligation

section
variable (j : Judge)

/-- The deadline that the obligation of a domain sets. -/
def Judge.deadlineOf (domain : BackupDomain) : String :=
  ((j.obligations[indexDomain domain]?).map (·.deadline)).getD ""

/-- The receipt is one for the obligation of its domain. -/
def Judge.meetsObligation (receipt : CustodianReceipt) : Bool :=
  match j.obligations[indexDomain receipt.domain]? with
  | some obligation =>
    (validateReceiptObligation receipt obligation (j.codec.obligationDigest obligation)).isOk
  | none => false

/-- The receipt is for its obligation and its signature was accepted. -/
def Judge.verified (receipt : CustodianReceipt) : Bool := j.meetsObligation receipt &&
    match signatureOf j.codec j.verify receipt with
    | .ok () => true
    | .error _ => false

/-- The receipt is for its obligation and its signature could not be checked. -/
def Judge.unverifiable (receipt : CustodianReceipt) : Bool := j.meetsObligation receipt &&
    match signatureOf j.codec j.verify receipt with
    | .error .unavailable => true
    | _ => false

/-- The receipt is not for its obligation, or its signature was refused. -/
def Judge.invalidReceipt (receipt : CustodianReceipt) : Bool :=
  !j.verified receipt && !j.unverifiable receipt

/-- The verified receipts of a domain. -/
def Judge.verifiedOf (receipts : List CustodianReceipt) (domain : BackupDomain) :
    List CustodianReceipt :=
  receipts.filter fun receipt => receipt.domain == domain && j.verified receipt

/-- What the first verified receipt of a domain says alone. -/
def firstReason (deadline : String) (receipt : CustodianReceipt) : Option RecoveryReason :=
  match receipt.outcome with
  | .failed => some .receiptFailed
  | .succeeded => if deadline < receipt.evidenceTime then some .deadlineMissed else none

/-- The incident of a domain with the given verified receipts: the second distinct one makes their
evidence contradictory. -/
def incidentOf (codec : Codec) (deadline : String) : List CustodianReceipt → Option RecoveryReason
  | [] => none
  | receipt :: receipts =>
    if receipts.all fun retry => (validateCustodianReceiptRetry codec receipt retry).isOk then
      firstReason deadline receipt
    else some .contradictoryEvidence

/-- The maps after a pass over the receipts. -/
def Judge.tally (receipts : List CustodianReceipt) : Tally where
  seen domain := (j.verifiedOf receipts domain).head?
  incidents domain := incidentOf j.codec (j.deadlineOf domain) (j.verifiedOf receipts domain)
  pending domain :=
    if receipts.any fun receipt => receipt.domain == domain && j.unverifiable receipt then
      some .verificationUnavailable else none
  receiptIDs receiptID := (receipts.find? (·.receiptID == receiptID)).map (·.domain)

end

/-- No receipt id is used for two domains. -/
def OneDomainEach (receipts : List CustodianReceipt) : Prop :=
  ∀ r ∈ receipts, ∀ r' ∈ receipts, r.receiptID = r'.receiptID → r.domain = r'.domain

/-- The digests of the receipts do not collide. -/
def CollisionFree (codec : Codec) (receipts : List CustodianReceipt) : Prop :=
  ∀ r ∈ receipts, ∀ r' ∈ receipts,
    codec.custodianReceiptDigest r = codec.custodianReceiptDigest r' → r = r'

variable {obligation : BackupObligation}

section
variable {j : Judge} {codec : Codec}
  {receipts done : List CustodianReceipt} {receipt : CustodianReceipt} {domain : BackupDomain}

/-! ## One receipt -/

theorem mem_verifiedOf : receipt ∈ j.verifiedOf receipts domain ↔
    receipt ∈ receipts ∧ receipt.domain = domain ∧
      j.verified receipt := by
  simp [Judge.verifiedOf]

theorem verifiedOf_append (more : List CustodianReceipt) : j.verifiedOf (receipts ++ more) domain =
      j.verifiedOf receipts domain ++ j.verifiedOf more domain :=
  List.filter_append ..

variable {deadline : String} {tally : Tally} {vs receipts' : List CustodianReceipt}

/-- A further receipt leaves an incident or makes one. -/
theorem incidentOf_concat {first : CustodianReceipt} {rest : List CustodianReceipt} :
    incidentOf codec deadline (first :: rest ++ [receipt]) =
      if (validateCustodianReceiptRetry codec first receipt).isOk then
        incidentOf codec deadline (first :: rest) else some .contradictoryEvidence := by
  simp only [List.cons_append, incidentOf, List.all_append, List.all_cons, List.all_nil,
    Bool.and_true, Bool.and_eq_true]
  split <;> split <;> simp_all

/-- The receipt ids after a receipt whose id no receipt of another domain has. -/
theorem receiptIDs_concat
    (h : ((j.tally done).receiptIDs receipt.receiptID).any (· != receipt.domain) = false) :
    Function.update (j.tally done).receiptIDs receipt.receiptID (some receipt.domain) =
        (j.tally (done ++ [receipt])).receiptIDs := by
  funext receiptID
  simp only [Judge.tally] at h ⊢
  rw [List.find?_append]
  by_cases hid : receiptID = receipt.receiptID
  · subst hid
    rw [Function.update_self]
    cases hfound : done.find? (·.receiptID == receipt.receiptID) with
    | none => simp
    | some found =>
      rw [hfound] at h
      have hdomain : found.domain = receipt.domain := by simpa using h
      simp [hdomain]
  · rw [Function.update_of_ne hid]
    have hne : (receipt.receiptID == receiptID) = false := by simpa using Ne.symm hid
    simp [hne]

/-- A receipt that is entered is for its obligation, and no receipt of another domain has its id. -/
theorem enter_ok (hob : j.obligations[indexDomain receipt.domain]? = some obligation)
    (h : (j.tally done).enter j.codec obligation receipt = .ok tally) :
    j.meetsObligation receipt ∧ tally = { j.tally done with
        receiptIDs := (j.tally (done ++ [receipt])).receiptIDs } := by
  unfold Tally.enter at h
  split at h
  · cases h
  · next hclash =>
    split at h
    · next hmeets =>
      cases h
      exact ⟨by rw [Judge.meetsObligation, hob]; exact hmeets,
        by rw [receiptIDs_concat (Bool.eq_false_iff.2 hclash)]⟩
    · cases h

/-- A receipt that is not verified leaves what the verified ones say. -/
theorem verifiedOf_concat_of_not (h : j.verified receipt = false) :
    j.verifiedOf (done ++ [receipt]) domain = j.verifiedOf done domain := by
  simp [Judge.verifiedOf, h]

/-- A verified receipt is the last one of its domain. -/
theorem verifiedOf_concat (h : j.verified receipt) : j.verifiedOf (done ++ [receipt]) domain =
      j.verifiedOf done domain ++
        if receipt.domain = domain then [receipt] else [] := by
  by_cases hdomain : receipt.domain = domain <;> simp [Judge.verifiedOf, h, hdomain]

/-- A receipt whose signature could not be checked makes its domain pending. -/
theorem of_concat_unverifiable (hu : j.unverifiable receipt) (hv : j.verified receipt = false) :
    j.tally (done ++ [receipt]) = { j.tally done with
        receiptIDs := (j.tally (done ++ [receipt])).receiptIDs
        pending := Function.update (j.tally done).pending receipt.domain
          (some .verificationUnavailable) } := by
  simp only [Judge.tally, verifiedOf_concat_of_not hv, Tally.mk.injEq, true_and, and_true]
  funext domain
  by_cases hdomain : domain = receipt.domain
  · subst hdomain
    simp [hu]
  · have hne : (receipt.domain == domain) = false := by simpa using Ne.symm hdomain
    simp [Function.update_of_ne hdomain, hne]

/-- A verified receipt, with what it adds to its domain. -/
theorem of_concat_verified (hv : j.verified receipt) (hu : j.unverifiable receipt = false) :
    j.tally (done ++ [receipt]) =
      { seen := Function.update (j.tally done).seen receipt.domain
          (((j.tally done).seen receipt.domain).or (some receipt))
        incidents := Function.update (j.tally done).incidents
          receipt.domain (incidentOf j.codec (j.deadlineOf receipt.domain)
            (j.verifiedOf done receipt.domain ++ [receipt]))
        pending := (j.tally done).pending
        receiptIDs := (j.tally (done ++ [receipt])).receiptIDs } := by
  simp only [Judge.tally, verifiedOf_concat hv, Tally.mk.injEq, and_true]
  refine ⟨?_, ?_, ?_⟩
  · funext domain
    by_cases hdomain : domain = receipt.domain
    · subst hdomain
      simp [List.head?_append]
    · simp [Function.update_of_ne hdomain, Ne.symm hdomain]
  · funext domain
    by_cases hdomain : domain = receipt.domain
    · subst hdomain
      simp
    · simp [Function.update_of_ne hdomain, Ne.symm hdomain]
  · funext domain
    simp [hu]

/-- What a verified receipt adds, as the pass computes it. -/
theorem count_verified {receiptIDs : String → Option BackupDomain}
    (hseen : tally.seen receipt.domain = vs.head?)
    (hincident : tally.incidents receipt.domain = incidentOf codec deadline vs) :
    ({ tally with receiptIDs := receiptIDs } : Tally).count codec deadline receipt (.ok ()) =
      .ok { seen := Function.update tally.seen receipt.domain
              ((tally.seen receipt.domain).or (some receipt))
            incidents := Function.update tally.incidents receipt.domain
              (incidentOf codec deadline (vs ++ [receipt]))
            pending := tally.pending
            receiptIDs := receiptIDs } := by
  cases vs with
  | nil =>
    have hsame := Function.update_eq_self receipt.domain tally.incidents
    rw [hincident] at hsame
    simp only [Tally.count, hseen, List.head?_nil, Option.none_or, List.nil_append, incidentOf,
      List.all_nil, if_true, firstReason]
    cases receipt.outcome with
    | failed => rfl
    | succeeded =>
      by_cases hlate : deadline < receipt.evidenceTime
      · simp only [hlate, if_true]
      · simp only [hlate, if_false]
        exact congrArg Except.ok (by rw [Tally.mk.injEq]; exact ⟨rfl, hsame.symm, rfl, rfl⟩)
  | cons first rest =>
    have hsame := Function.update_eq_self receipt.domain tally.incidents
    have hseen' := Function.update_eq_self receipt.domain tally.seen
    rw [hseen] at hseen'
    simp only [Tally.count, hseen, List.head?_cons, Option.some_or, incidentOf_concat]
    rw [List.head?_cons] at hseen'
    split
    · rw [← hincident, hsame, hseen']
    · rw [hseen']

/-- The pass over one receipt whose id belongs to its domain. -/
theorem count_of (hob : j.obligations[indexDomain receipt.domain]? = some obligation)
    (henter : (j.tally done).enter j.codec obligation receipt = .ok tally) :
    (j.invalidReceipt receipt ∧
      tally.count j.codec obligation.deadline receipt (signatureOf j.codec j.verify receipt) =
        .error (some [⟨receipt.domain, .invalidEvidence⟩])) ∨
    (j.invalidReceipt receipt = false ∧
      tally.count j.codec obligation.deadline receipt (signatureOf j.codec j.verify receipt) =
        .ok (j.tally (done ++ [receipt]))) := by
  obtain ⟨hmeets, rfl⟩ := enter_ok hob henter
  have hdeadline : j.deadlineOf receipt.domain = obligation.deadline := by
    simp [Judge.deadlineOf, hob]
  rcases hsig : signatureOf j.codec j.verify receipt with (_ | _ | _ | _) | ⟨⟩
  case error.unavailable =>
    have hu : j.unverifiable receipt = true := by
      simp [Judge.unverifiable, hmeets, hsig]
    have hv : j.verified receipt = false := by simp [Judge.verified, hsig]
    refine .inr ⟨by simp [Judge.invalidReceipt, hu], ?_⟩
    rw [of_concat_unverifiable hu hv]
    rfl
  case ok =>
    have hv : j.verified receipt = true := by simp [Judge.verified, hmeets, hsig]
    have hu : j.unverifiable receipt = false := by simp [Judge.unverifiable, hsig]
    refine .inr ⟨by simp [Judge.invalidReceipt, hv], ?_⟩
    rw [of_concat_verified hv hu, hdeadline]
    exact count_verified rfl (by rw [← hdeadline]; rfl)
  all_goals exact .inl ⟨by simp [Judge.invalidReceipt, Judge.verified, Judge.unverifiable,
    hsig], rfl⟩

/-! ## The whole pass -/

/-- The id of a receipt clashes exactly when a receipt of another domain has it. -/
theorem clash_iff (hdone : OneDomainEach done) : ((j.tally done).receiptIDs receipt.receiptID).any
      (· != receipt.domain) ↔ ¬ OneDomainEach (done ++ [receipt]) := by
  constructor
  · intro h hone
    obtain ⟨domain, hfound, hne⟩ := (Option.any_eq_true _ _).1 h
    obtain ⟨found, hfind, rfl⟩ := Option.map_eq_some_iff.1 hfound
    have hid : found.receiptID = receipt.receiptID := by simpa using List.find?_some hfind
    have hsame := hone found (by simp [List.mem_of_find?_eq_some hfind]) receipt (by simp) hid
    simp [hsame] at hne
  · intro h
    by_contra hno
    refine h fun r hr r' hr' hid => ?_
    have hdomain (q : CustodianReceipt) (hq : q ∈ done) (hqid : q.receiptID = receipt.receiptID) :
        q.domain = receipt.domain := by
      cases hfind : done.find? (·.receiptID == receipt.receiptID) with
      | none => exact absurd hqid (by simpa using List.find?_eq_none.1 hfind q hq)
      | some found =>
        have hfid : found.receiptID = receipt.receiptID := by simpa using List.find?_some hfind
        have hfdomain : found.domain = receipt.domain := by simpa [Judge.tally, hfind] using hno
        rw [hdone q hq found (List.mem_of_find?_eq_some hfind) (hqid.trans hfid.symm), hfdomain]
    rcases List.mem_append.1 hr with hin | hin <;> rcases List.mem_append.1 hr' with hin' | hin'
    · exact hdone r hin r' hin' hid
    · rw [List.mem_singleton.1 hin'] at hid ⊢
      exact hdomain r hin hid
    · rw [List.mem_singleton.1 hin] at hid ⊢
      exact (hdomain r' hin' hid.symm).symm
    · rw [List.mem_singleton.1 hin, List.mem_singleton.1 hin']

theorem OneDomainEach.subset (h : OneDomainEach receipts)
    (hsub : receipts' ⊆ receipts) : OneDomainEach receipts' :=
  fun r hr r' hr' => h r (hsub hr) r' (hsub hr')

/-- The loop of the classification with the pure verifier. -/
def Judge.pass (j : Judge) (receipts : List CustodianReceipt) (tally : Tally) :
    Except (Option (List RecoveryFinding)) Tally :=
  Tally.countAll (m := Id) j.codec j.verify j.obligations receipts tally

/-- The pass over further receipts stops without a finding: after receipts that are not invalid
comes one of an unknown domain, or with an id that is used for another domain. -/
def Judge.Refused (j : Judge) (done receipts : List CustodianReceipt) : Prop :=
  ∃ before r, before ++ [r] <+: receipts ∧ (∀ q ∈ before, j.invalidReceipt q = false) ∧
    (validBackupDomain r.domain = false ∨ ¬ OneDomainEach (done ++ (before ++ [r])))

/-- The outcomes of a pass over further receipts: the maps are read off all receipts, or the pass
stops at the first invalid receipt, or without a finding. -/
inductive Judge.Passed (j : Judge) (done receipts : List CustodianReceipt) :
    Except (Option (List RecoveryFinding)) Tally → Prop
  | all : (∀ r ∈ receipts, j.invalidReceipt r = false) → OneDomainEach (done ++ receipts) →
      j.Passed done receipts (.ok (j.tally (done ++ receipts)))
  | invalid (before : List CustodianReceipt) {r : CustodianReceipt} : before ++ [r] <+: receipts →
      (∀ q ∈ before, j.invalidReceipt q = false) →
      validBackupDomain r.domain → OneDomainEach (done ++ (before ++ [r])) →
      j.invalidReceipt r →
      j.Passed done receipts (.error (some [⟨r.domain, .invalidEvidence⟩]))
  | refused : j.Refused done receipts → j.Passed done receipts (.error none)

/-- A receipt of an unknown domain is invalid. -/
theorem invalidReceipt_of_unknown (h : validBackupDomain receipt.domain = false) :
    j.invalidReceipt receipt := by
  have hmeets : j.meetsObligation receipt = false := by
    unfold Judge.meetsObligation
    split
    · rw [validateReceiptObligation, validateCustodianReceipt, h]
      simp only [Bool.and_false, Bool.false_and]
      rfl
    · rfl
  simp [Judge.invalidReceipt, Judge.verified, Judge.unverifiable, hmeets]

/-- What stops the pass at the next receipts stops it one receipt earlier as well. -/
theorem Judge.Refused.cons (hvalid : j.invalidReceipt receipt = false)
    (h : j.Refused (done ++ [receipt]) receipts) : j.Refused done (receipt :: receipts) := by
  obtain ⟨before, r, hbegins, hbefore, hstop⟩ := h
  refine ⟨receipt :: before, r, List.cons_prefix_cons.2 ⟨rfl, hbegins⟩, ?_, ?_⟩
  · simpa [hvalid] using hbefore
  · simpa using hstop

theorem pass_cons (hdomain : validBackupDomain receipt.domain)
    (hob : j.obligations[indexDomain receipt.domain]? = some obligation) :
    j.pass (receipt :: receipts) tally = (tally.enter j.codec obligation receipt).bind fun tally =>
        (tally.count j.codec obligation.deadline receipt
          (signatureOf j.codec j.verify receipt)).bind (j.pass receipts) := by
  rw [Judge.pass, Tally.countAll, hdomain, Bool.not_true, if_neg Bool.false_ne_true, hob]
  dsimp only
  cases tally.enter j.codec obligation receipt with
  | error findings => rfl
  | ok tally =>
    change _ = (tally.count j.codec obligation.deadline receipt
      (signatureOf j.codec j.verify receipt)).bind _
    rw [signatureOf]
    cases hcount : tally.count j.codec obligation.deadline receipt _ with
    | error findings | ok tally =>
      simp only [bind, hcount, Except.bind]
      rfl

theorem pass_passed (hob : ∀ domain, ∃ o, j.obligations[indexDomain domain]? = some o)
    (hdone : OneDomainEach done) (receipts : List CustodianReceipt) :
    j.Passed done receipts (j.pass receipts (j.tally done)) := by
  induction receipts generalizing done with
  | nil =>
    have hall : j.Passed done [] _ := .all (by simp) (by rwa [List.append_nil])
    rwa [List.append_nil] at hall
  | cons r rs ih =>
    obtain ⟨obligation, hr⟩ := hob r.domain
    cases hdomain : validBackupDomain r.domain with
    | false =>
      have hpass : j.pass (r :: rs) (j.tally done) = .error none := by
        rw [Judge.pass, Tally.countAll, hdomain]
        rfl
      rw [hpass]
      exact .refused ⟨[], r, by simp, by simp, .inl hdomain⟩
    | true =>
    rw [pass_cons hdomain hr]
    by_cases hclash : ((j.tally done).receiptIDs r.receiptID).any (· != r.domain) = true
    · rw [show (j.tally done).enter j.codec obligation r = .error none from
        if_pos hclash]
      exact .refused ⟨[], r, by simp, by simp, .inr ((clash_iff hdone).1 hclash)⟩
    · have hone : OneDomainEach (done ++ [r]) := by
        by_contra hno
        exact hclash ((clash_iff hdone).2 hno)
      by_cases hmeets : j.meetsObligation r = true
      · have henter : ∃ tally, (j.tally done).enter j.codec obligation r = .ok tally := by
          refine ⟨_, (if_neg hclash).trans (if_pos ?_)⟩
          simpa only [Judge.meetsObligation, hr] using hmeets
        obtain ⟨tally, henter⟩ := henter
        rw [henter]
        rcases count_of hr henter with ⟨hinvalid, hcount⟩ | ⟨hvalid, hcount⟩
        · simp only [Except.bind, hcount]
          exact .invalid [] (by simp) (by simp) hdomain hone hinvalid
        · simp only [Except.bind, hcount]
          have hassoc : done ++ [r] ++ rs = done ++ r :: rs := by simp
          generalize j.pass rs _ = outcome, ih hone = hpassed
          cases hpassed with
          | all hall hone =>
            rw [hassoc] at hone ⊢
            exact .all (by simpa [hvalid] using hall) hone
          | @invalid before q hbegins hbefore hq hone hinvalid =>
            exact .invalid (r :: before) (List.cons_prefix_cons.2 ⟨rfl, hbegins⟩)
              (by simpa [hvalid] using hbefore) hq (by simpa using hone) hinvalid
          | refused hstop => exact .refused (hstop.cons hvalid)
      · have henter : (j.tally done).enter j.codec obligation r =
            .error (some [⟨r.domain, .invalidEvidence⟩]) := by
          refine (if_neg hclash).trans (if_neg ?_)
          simpa only [Judge.meetsObligation, hr] using hmeets
        rw [henter]
        exact .invalid [] (by simp) (by simp) hdomain hone
          (by simp [Judge.invalidReceipt, Judge.verified, Judge.unverifiable, hmeets])

/-- A pass that is not refused: it finds something, or goes over all receipts. -/
theorem not_refused_of_invalid {before : List CustodianReceipt}
    (hbegins : before ++ [receipt] <+: receipts)
    (hbefore : ∀ q ∈ before, j.invalidReceipt q = false)
    (hdomain : validBackupDomain receipt.domain) (hone : OneDomainEach (before ++ [receipt]))
    (hinvalid : j.invalidReceipt receipt) : ¬ j.Refused [] receipts := by
  rintro ⟨before', r, hbegins', hbefore', hstop⟩
  rw [List.nil_append] at hstop
  have hsame (heq : before ++ [receipt] = before' ++ [r]) : False := by
    obtain ⟨rfl, hr⟩ := List.append_inj' heq rfl
    obtain rfl := List.singleton_injective hr
    rcases hstop with hno | hno
    · rw [hdomain] at hno
      cases hno
    · exact hno hone
  -- the shorter of the two beginnings ends inside the other one, or they are the same
  rcases List.prefix_or_prefix_of_prefix hbegins hbegins' with h | h
  · rcases List.prefix_concat_iff.1 h with heq | hin
    · exact hsame heq
    · rw [hbefore' receipt (hin.subset (by simp))] at hinvalid
      cases hinvalid
  · rcases List.prefix_concat_iff.1 h with heq | hin
    · exact hsame heq.symm
    · rcases hstop with hno | hno
      · have hr := hbefore r (hin.subset (by simp))
        rw [invalidReceipt_of_unknown hno] at hr
        cases hr
      · refine hno (hone.subset ?_)
        exact List.Subset.trans hin.subset (List.subset_append_left ..)

theorem not_refused_of_all (hall : ∀ r ∈ receipts, j.invalidReceipt r = false)
    (hone : OneDomainEach receipts) : ¬ j.Refused [] receipts := by
  rintro ⟨before, r, hbegins, -, hno | hno⟩
  · have hr := hall r (hbegins.subset (by simp))
    rw [invalidReceipt_of_unknown hno] at hr
    cases hr
  · exact hno (hone.subset hbegins.subset)

/-! ## The status and the findings -/

/-- `ClassifyBackupRecovery` with a verifier that is a function of the receipt. -/
def Judge.recoveryOf (j : Judge) (reference : OperationReference)
    (receipts : List CustodianReceipt) : BackupRecovery :=
  classifyBackupRecovery (m := Id) j.codec j.verify reference j.obligations receipts

/-- The findings of the maps, in the order of the domains. -/
def Tally.findings (tally : Tally) : List RecoveryFinding := backupDomains.filterMap tally.finding

/-- The status of the maps. -/
def Tally.status (tally : Tally) : RecoveryStatus :=
  if backupDomains.any fun domain => (tally.incidents domain).isSome then .incident
  else if tally.findings != [] then .pending
  else .completable

/-- Obligations that the classification accepts have one for each domain. -/
theorem obligation_exists {reference : OperationReference}
    (hob : obligationsOf reference j.obligations) (domain : BackupDomain) :
    ∃ o, j.obligations[indexDomain domain]? = some o := by
  simp only [obligationsOf, Bool.and_eq_true, beq_iff_eq] at hob
  have hlength : j.obligations.length = 3 := by
    have hmap := congrArg List.length hob.1.2
    simpa [backupDomains] using hmap
  have hindex : indexDomain domain < 3 := by cases domain <;> simp [indexDomain]
  exact ⟨_, List.getElem?_eq_getElem (by omega)⟩

variable {reference : OperationReference}

/-- The recovery that the outcome of a pass makes. -/
def recovered (reference : OperationReference) :
    Except (Option (List RecoveryFinding)) Tally → BackupRecovery
  | .error findings => ⟨backupRecoveryProfile, reference.operationID, reference.intentDigest,
      .corrupt, findings⟩
  | .ok tally => ⟨backupRecoveryProfile, reference.operationID, reference.intentDigest,
      tally.status, some tally.findings⟩

/-- The classification in terms of the receipts. -/
theorem recoveryOf_passed (hob : obligationsOf reference j.obligations)
    (receipts : List CustodianReceipt) : ∃ outcome, j.Passed [] receipts outcome ∧
      j.recoveryOf reference receipts = recovered reference outcome := by
  refine ⟨_, pass_passed (obligation_exists hob) (by simp [OneDomainEach]) receipts, ?_⟩
  rw [Judge.recoveryOf, classifyBackupRecovery, if_neg (by simp [hob])]
  have hempty : j.pass receipts (j.tally []) =
      Tally.countAll (m := Id) j.codec j.verify j.obligations receipts {} := rfl
  rw [hempty]
  cases Tally.countAll (m := Id) j.codec j.verify j.obligations receipts {} with
  | error findings => rfl
  | ok tally =>
    change (if backupDomains.any fun domain => (tally.incidents domain).isSome then _
      else if tally.findings != [] then _ else _ : BackupRecovery) =
        ⟨_, _, _, tally.status, some tally.findings⟩
    by_cases hincident : (backupDomains.any fun domain => (tally.incidents domain).isSome) = true
    · rw [if_pos hincident, show tally.status = .incident from if_pos hincident]
      rfl
    · rw [if_neg hincident]
      by_cases hfound : (tally.findings != []) = true
      · rw [if_pos hfound,
          show tally.status = .pending from (if_neg hincident).trans (if_pos hfound)]
        rfl
      · have hnil : tally.findings = [] := by simpa using hfound
        rw [if_neg hfound, hnil,
          show tally.status = .completable from (if_neg hincident).trans (if_neg hfound)]
        rfl

/-! ## Order of the receipts -/

/-- A verified receipt is valid. -/
theorem validateCustodianReceipt_of_verified (h : j.verified receipt) :
    validateCustodianReceipt receipt := by
  simp only [Judge.verified, Judge.meetsObligation, Bool.and_eq_true] at h
  obtain ⟨hmeets, -⟩ := h
  split at hmeets
  · obtain ⟨a, hok⟩ := exists_ok hmeets
    unfold validateReceiptObligation at hok
    obtain ⟨hvalid, -⟩ := ensure_bind.1 hok
    exact (Bool.and_eq_true _ _ ▸ hvalid).1
  · cases hmeets

theorem canonicalCustodianReceipt_eq (h : validateCustodianReceipt receipt) :
    canonicalCustodianReceipt codec receipt =
      .ok (codec.custodianReceiptDigest receipt, codec.custodianReceiptSigning receipt) := by
  rw [canonicalCustodianReceipt, h]
  rfl

theorem validateCustodianReceiptRetry_eq {retry : CustodianReceipt}
    (hv : validateCustodianReceipt receipt) (hv' : validateCustodianReceipt retry) :
    validateCustodianReceiptRetry codec receipt retry =
      ensure (receipt.receiptID == retry.receiptID &&
        codec.custodianReceiptDigest receipt == codec.custodianReceiptDigest retry) .conflict := by
  unfold validateCustodianReceiptRetry
  rw [canonicalCustodianReceipt_eq hv, canonicalCustodianReceipt_eq hv']

/-- Without collisions, the exact retry of a receipt is the receipt itself. -/
theorem retry_isOk_iff {retry : CustodianReceipt} (hfree : CollisionFree codec receipts)
    (hr : receipt ∈ receipts) (hr' : retry ∈ receipts)
    (hv : validateCustodianReceipt receipt) (hv' : validateCustodianReceipt retry) :
    (validateCustodianReceiptRetry codec receipt retry).isOk ↔ retry = receipt := by
  rw [validateCustodianReceiptRetry_eq hv hv']
  constructor
  · intro h
    obtain ⟨_, hok⟩ := exists_ok h
    have hsame := ensure_ok.1 hok
    simp only [Bool.and_eq_true, beq_iff_eq] at hsame
    exact (hfree receipt hr retry hr' hsame.2).symm
  · rintro rfl
    rw [beq_self_eq_true, beq_self_eq_true]
    rfl

/-- The incident of a domain depends on which verified receipts there are only. -/
theorem incidentOf_congr {vs' : List CustodianReceipt} (hfree : CollisionFree codec vs)
    (hvalid : ∀ r ∈ vs, validateCustodianReceipt r) (hmem : ∀ r, r ∈ vs ↔ r ∈ vs') :
    incidentOf codec deadline vs = incidentOf codec deadline vs' := by
  match vs, vs' with
  | [], [] => rfl
  | [], r :: _ => exact absurd ((hmem r).2 (by simp)) (by simp)
  | r :: _, [] => exact absurd ((hmem r).1 (by simp)) (by simp)
  | a :: as, b :: bs =>
    have hcopies (c : CustodianReceipt) (cs : List CustodianReceipt)
        (hsame : ∀ r, r ∈ a :: as ↔ r ∈ c :: cs) :
        (cs.all fun retry => (validateCustodianReceiptRetry codec c retry).isOk) = true ↔
          ∀ r ∈ a :: as, r = c := by
      have hc := (hsame c).2 (by simp)
      rw [List.all_eq_true]
      constructor
      · intro h r hr
        rcases List.mem_cons.1 ((hsame r).1 hr) with rfl | hin
        · rfl
        · exact (retry_isOk_iff hfree hc hr (hvalid c hc) (hvalid r hr)).1 (h r hin)
      · intro h r hin
        have hr := (hsame r).2 (List.mem_cons_of_mem _ hin)
        exact (retry_isOk_iff hfree hc hr (hvalid c hc) (hvalid r hr)).2 (h r hr)
    have ha := hcopies a as fun _ => Iff.rfl
    have hb := hcopies b bs hmem
    by_cases hone : ∀ r ∈ a :: as, r = a
    · obtain rfl := hone b ((hmem b).2 (by simp))
      rw [incidentOf, incidentOf, if_pos (ha.2 hone), if_pos (hb.2 hone)]
    · rw [incidentOf, incidentOf, if_neg fun h => hone (ha.1 h), if_neg]
      intro h
      refine hone fun r hr => (hb.1 h r hr).trans ?_
      exact (hb.1 h a (by simp)).symm

theorem CollisionFree.subset (h : CollisionFree codec receipts)
    (hsub : receipts' ⊆ receipts) : CollisionFree codec receipts' :=
  fun r hr r' hr' => h r (hsub hr) r' (hsub hr')

/-- The maps depend on which receipts there are only, up to which copy was seen first. -/
theorem of_congr (hfree : CollisionFree j.codec receipts) (hmem : ∀ r, r ∈ receipts ↔
    r ∈ receipts') : (j.tally receipts).status = (j.tally receipts').status ∧
      (j.tally receipts).findings = (j.tally receipts').findings := by
  have hvs (domain : BackupDomain) (r : CustodianReceipt) : r ∈ j.verifiedOf receipts domain ↔
        r ∈ j.verifiedOf receipts' domain := by
    rw [mem_verifiedOf, mem_verifiedOf, hmem]
  have hincidents : (j.tally receipts).incidents = (j.tally receipts').incidents := by
    funext domain
    refine incidentOf_congr (hfree.subset fun r hr => (mem_verifiedOf.1 hr).1) (fun r hr => ?_)
      (hvs domain)
    exact validateCustodianReceipt_of_verified (mem_verifiedOf.1 hr).2.2
  have hpending : (j.tally receipts).pending = (j.tally receipts').pending := by
    funext domain
    simp only [Judge.tally, List.any_eq_true, hmem]
  have hseen (domain : BackupDomain) : (j.tally receipts).seen domain =
      none ↔ (j.tally receipts').seen domain = none := by
    simp only [Judge.tally, List.head?_eq_none_iff, List.eq_nil_iff_forall_not_mem, hvs]
  have hfinding : (j.tally receipts).finding = (j.tally receipts').finding := by
    funext domain
    have hsome := hseen domain
    simp only [Tally.finding, hincidents, hpending]
    cases (j.tally receipts').incidents domain <;>
      cases (j.tally receipts').pending domain <;>
      cases hs : (j.tally receipts).seen domain <;>
      cases hs' : (j.tally receipts').seen domain <;>
      simp [hs, hs'] at hsome ⊢
  have hfindings : (j.tally receipts).findings = (j.tally receipts').findings := by
    rw [Tally.findings, Tally.findings, hfinding]
  exact ⟨by rw [Tally.status, Tally.status, hincidents, hfindings], hfindings⟩

/-! ## Completable evidence -/

/-- The evidence of a domain: a verified receipt of success in time, of which all receipts of the
domain are copies. -/
def Judge.Settled (j : Judge) (receipts : List CustodianReceipt) (domain : BackupDomain) : Prop :=
  ∃ r ∈ receipts, r.domain = domain ∧ j.verified r = true ∧
    r.outcome = .succeeded ∧ r.evidenceTime ≤ j.deadlineOf domain ∧
    ∀ r' ∈ receipts, r'.domain = domain → r' = r

theorem firstReason_eq_none : firstReason deadline receipt = none ↔
    receipt.outcome = .succeeded ∧ receipt.evidenceTime ≤ deadline := by
  unfold firstReason
  cases receipt.outcome <;> simp [← not_lt]

theorem incidentOf_eq_none (h : incidentOf codec deadline (receipt :: vs) = none) :
    (∀ r ∈ vs, (validateCustodianReceiptRetry codec receipt r).isOk) ∧
      receipt.outcome = .succeeded ∧ receipt.evidenceTime ≤ deadline := by
  rw [incidentOf] at h
  split at h
  · next hall => exact ⟨List.all_eq_true.1 hall, firstReason_eq_none.1 h⟩
  · cases h

theorem finding_eq_none : tally.finding domain = none ↔
    tally.incidents domain = none ∧ tally.pending domain = none ∧
      ∃ r, tally.seen domain = some r := by
  unfold Tally.finding
  split <;> simp_all

theorem findings_eq_nil :
    tally.findings = [] ↔ ∀ domain ∈ backupDomains, tally.finding domain = none := by
  rw [Tally.findings, List.filterMap_eq_nil_iff]

/-- The maps are completable exactly when no domain has a finding. -/
theorem status_eq_completable :
    tally.status = .completable ↔ ∀ domain ∈ backupDomains, tally.finding domain = none := by
  have hfindings : tally.findings = [] ↔ _ := findings_eq_nil
  rw [← hfindings, Tally.status]
  constructor
  · intro h
    split at h
    · cases h
    · split at h
      · cases h
      · next hnil => simpa using hnil
  · intro h
    rw [if_neg, if_neg (by simp [h])]
    intro hany
    obtain ⟨domain, hmem, hsome⟩ := List.any_eq_true.1 hany
    rw [(finding_eq_none.1 (hfindings.1 h domain hmem)).1] at hsome
    cases hsome

/-- The evidence of a domain without a finding. -/
theorem settled_of_finding (hfree : CollisionFree j.codec receipts)
    (hall : ∀ r ∈ receipts, j.invalidReceipt r = false)
    (h : (j.tally receipts).finding domain = none) : j.Settled receipts domain := by
  obtain ⟨hincident, hpending, r, hseen⟩ := finding_eq_none.1 h
  have hcons : ∃ vs, j.verifiedOf receipts domain = r :: vs := List.head?_eq_some_iff.1 hseen
  obtain ⟨vs, hvs⟩ := hcons
  have hincident' : incidentOf j.codec (j.deadlineOf domain) (r :: vs) = none := by
    rw [← hvs]
    exact hincident
  obtain ⟨hcopies, hsucceeded, htime⟩ := incidentOf_eq_none hincident'
  have hmem (q : CustodianReceipt) : q ∈ r :: vs ↔ q ∈ receipts ∧ q.domain = domain ∧
      j.verified q = true := by
    rw [← hvs, mem_verifiedOf]
  obtain ⟨hr, hdomain, hverified⟩ := (hmem r).1 (by simp)
  refine ⟨r, hr, hdomain, hverified, hsucceeded, htime, fun q hq hqdomain => ?_⟩
  have hchecked : j.unverifiable q = false := by
    by_contra hu
    have hany : (receipts.any fun receipt =>
        receipt.domain == domain && j.unverifiable receipt) = true :=
      List.any_eq_true.2 ⟨q, hq, by simpa [hqdomain] using hu⟩
    have hsome : (j.tally receipts).pending domain =
        some .verificationUnavailable := if_pos hany
    rw [hpending] at hsome
    cases hsome
  have hqverified : j.verified q = true := by
    have hsound := hall q hq
    simpa [Judge.invalidReceipt, hchecked] using hsound
  rcases List.mem_cons.1 ((hmem q).2 ⟨hq, hqdomain, hqverified⟩) with rfl | hin
  · rfl
  · exact (retry_isOk_iff hfree hr hq (validateCustodianReceipt_of_verified hverified)
      (validateCustodianReceipt_of_verified hqverified)).1 (hcopies q hin)

/-- A domain with settled evidence has no finding. -/
theorem finding_of_settled (hfree : CollisionFree j.codec receipts)
    (h : j.Settled receipts domain) : (j.tally receipts).finding domain = none := by
  obtain ⟨r, hr, hdomain, hverified, hsucceeded, htime, hcopies⟩ := h
  have hvs : ∀ q, q ∈ j.verifiedOf receipts domain ↔ q ∈ [r] := by
    intro q
    rw [mem_verifiedOf, List.mem_singleton]
    constructor
    · exact fun ⟨hq, hqdomain, _⟩ => hcopies q hq hqdomain
    · rintro rfl
      exact ⟨hr, hdomain, hverified⟩
  refine finding_eq_none.2 ⟨?_, ?_, ?_⟩
  · refine Eq.trans (incidentOf_congr (hfree.subset fun q hq => (mem_verifiedOf.1 hq).1)
      (fun q hq => validateCustodianReceipt_of_verified (mem_verifiedOf.1 hq).2.2) hvs) ?_
    exact firstReason_eq_none.2 ⟨hsucceeded, htime⟩
  · refine if_neg fun hany => ?_
    obtain ⟨q, hq, hu⟩ := List.any_eq_true.1 hany
    simp only [Bool.and_eq_true, beq_iff_eq] at hu
    obtain rfl := hcopies q hq hu.1
    have hboth := hu.2
    simp only [Judge.verified, Judge.unverifiable, Bool.and_eq_true] at hverified hboth
    split at hverified
    · next hok =>
      rw [hok] at hboth
      cases hboth.2
    · cases hverified.2
  · cases hlist : j.verifiedOf receipts domain with
    | nil => exact absurd ((hvs r).2 (by simp)) (by simp [hlist])
    | cons q vs => exact ⟨q, by simp [Judge.tally, hlist]⟩

/-! ## Incidents -/

/-- Further receipts do not undo an incident. -/
theorem incidentOf_append (h : (incidentOf codec deadline vs).isSome)
    (more : List CustodianReceipt) : (incidentOf codec deadline (vs ++ more)).isSome := by
  cases vs with
  | nil => cases h
  | cons r vs =>
    rw [incidentOf] at h
    rw [List.cons_append, incidentOf, List.all_append]
    split
    · next hall =>
      rw [if_pos (Bool.and_eq_true _ _ ▸ hall).1] at h
      exact h
    · rfl

theorem status_eq_incident : tally.status = .incident ↔
    ∃ domain ∈ backupDomains, (tally.incidents domain).isSome := by
  rw [← List.any_eq_true, Tally.status]
  split
  · next h => simp [h]
  · next h =>
    split <;> simp [h]

/-! ## What `ValidateBackupRecovery` accepts -/

theorem isIncident_of_incidentOf {reason : RecoveryReason}
    (h : incidentOf codec deadline vs = some reason) : reason.isIncident := by
  unfold incidentOf at h
  split at h
  · cases h
  · split at h
    · unfold firstReason at h
      split at h
      · cases h
        rfl
      · split at h
        · cases h
          rfl
        · cases h
    · cases h
      rfl

theorem validReason_of_isIncident {reason : RecoveryReason} (h : reason.isIncident) :
    validReason .incident reason := by
  cases reason <;> first | rfl | cases h

/-- The reasons of the maps: those of incidents are such, and those of pending domains are that a
signature could not be checked. -/
structure Tally.Reasoned (tally : Tally) : Prop where
  incidents : ∀ domain reason, tally.incidents domain = some reason → reason.isIncident
  pending : ∀ domain reason, tally.pending domain = some reason → reason = .verificationUnavailable

theorem reasoned_of : (j.tally receipts).Reasoned where
  incidents _ _ h := isIncident_of_incidentOf h
  pending domain reason h := by
    simp only [Judge.tally] at h
    split at h
    · exact (Option.some.inj h).symm
    · cases h

theorem status_ne_corrupt : tally.status ≠ .corrupt := by
  unfold Tally.status
  split
  · simp
  · split <;> simp

/-- A finding is of its domain, with a reason that the status allows. -/
theorem finding_valid (hreasoned : tally.Reasoned) (hmem : domain ∈ backupDomains)
    {finding : RecoveryFinding} (h : tally.finding domain = some finding) :
    finding.domain = domain ∧ validReason tally.status finding.reason := by
  have hpending (reason : RecoveryReason)
      (hreason : reason = .evidenceMissing ∨ reason = .verificationUnavailable)
      (hcompletable : tally.status ≠ .completable) : validReason tally.status reason = true := by
    rcases hreason with rfl | rfl <;> cases hs : tally.status <;>
      first | rfl | exact absurd hs status_ne_corrupt
  have hcompletable : tally.status ≠ .completable := fun hs => by
    rw [status_eq_completable.1 hs domain hmem] at h
    cases h
  cases hincident : tally.incidents domain with
  | some reason =>
    simp only [Tally.finding, hincident, Option.some.injEq] at h
    have hstatus : tally.status = .incident :=
      status_eq_incident.2 ⟨domain, hmem, by rw [hincident]; rfl⟩
    rw [← h, hstatus]
    exact ⟨rfl, validReason_of_isIncident (hreasoned.incidents _ _ hincident)⟩
  | none =>
    cases hpend : tally.pending domain with
    | some reason =>
      simp only [Tally.finding, hincident, hpend, Option.some.injEq] at h
      rw [← h]
      exact ⟨rfl, hpending reason (.inr (hreasoned.pending _ _ hpend)) hcompletable⟩
    | none =>
      cases hseen : tally.seen domain with
      | none =>
        simp only [Tally.finding, hincident, hpend, hseen, Option.some.injEq] at h
        rw [← h]
        exact ⟨rfl, hpending _ (.inl rfl) hcompletable⟩
      | some r => simp [Tally.finding, hincident, hpend, hseen] at h

/-- The findings are in the order of the domains, each with a reason that the status allows. -/
theorem validFindings_of (hreasoned : tally.Reasoned) : tally.findings.length ≤ 3 ∧
    validFindings tally.status (-1) tally.findings := by
  have hfinding (domain : BackupDomain) (hmem : domain ∈ backupDomains) :
      tally.finding domain = none ∨ ∃ reason, tally.finding domain = some ⟨domain, reason⟩ ∧
        validReason tally.status reason = true := by
    cases hf : tally.finding domain with
    | none => exact .inl rfl
    | some finding =>
      obtain ⟨rfl, hvalid⟩ := finding_valid hreasoned hmem hf
      exact .inr ⟨finding.reason, rfl, hvalid⟩
  rcases hfinding .event (by decide) with he | ⟨_, he, hev⟩ <;>
    rcases hfinding .identity (by decide) with hi | ⟨_, hi, hiv⟩ <;>
    rcases hfinding .audit (by decide) with ha | ⟨_, ha, hav⟩ <;>
    simp [Tally.findings, backupDomains, validFindings, validBackupDomain, indexDomain, *]

theorem validateBackupRecovery_recovered (href : validateOperationReference reference)
    (hreasoned : tally.Reasoned) : validateBackupRecovery (recovered reference (.ok tally)) := by
  obtain ⟨hlength, hvalid⟩ := validFindings_of hreasoned
  simp only [recovered, validateBackupRecovery, href, Option.getD_some, hlength, hvalid,
    beq_self_eq_true, decide_true, Bool.and_self, Bool.true_and]
  cases hs : tally.status with
  | corrupt => rfl
  | completable => simpa using findings_eq_nil.2 (status_eq_completable.1 hs)
  | pending =>
    unfold Tally.status at hs
    split at hs
    · cases hs
    · split at hs
      · assumption
      · cases hs
  | incident =>
    obtain ⟨domain, hdomain, hsome⟩ := status_eq_incident.1 hs
    obtain ⟨reason, hincident⟩ := Option.isSome_iff_exists.1 hsome
    have hmem : (⟨domain, reason⟩ : RecoveryFinding) ∈ tally.findings :=
      List.mem_filterMap.2 ⟨domain, hdomain, by simp [Tally.finding, hincident]⟩
    refine Bool.and_eq_true_iff.2 ⟨?_, List.any_eq_true.2 ⟨_, hmem, ?_⟩⟩
    · simpa using List.ne_nil_of_mem hmem
    · exact hreasoned.incidents _ _ hincident

/-- Every classification of a well formed reference is accepted. -/
theorem validateBackupRecovery_recoveryOf (href : validateOperationReference reference) :
    validateBackupRecovery (j.recoveryOf reference receipts) := by
  by_cases hob : obligationsOf reference j.obligations = true
  · obtain ⟨_, hpassed, heq⟩ := recoveryOf_passed hob receipts
    rw [heq]
    cases hpassed with
    | all => exact validateBackupRecovery_recovered href reasoned_of
    | @invalid _ r _ _ hdomain =>
      have hindex : -1 < (indexDomain r.domain : Int) := by omega
      simp [recovered, validateBackupRecovery, href, validFindings, validReason, hdomain, hindex]
    | refused => simp [recovered, validateBackupRecovery, href, validFindings]
  · rw [Judge.recoveryOf, classifyBackupRecovery, if_pos (by simp [hob])]
    simp [validateBackupRecovery, href, validFindings, pure]

/-- A classification with obligations of another operation is corrupt. -/
theorem recoveryOf_of_not (hob : ¬ obligationsOf reference j.obligations) :
    j.recoveryOf reference receipts =
      ⟨backupRecoveryProfile, reference.operationID, reference.intentDigest, .corrupt, none⟩ := by
  rw [Judge.recoveryOf, classifyBackupRecovery, if_pos (by simp [hob])]
  rfl

/-- The order of receipts that are not invalid does not matter. -/
theorem recoveryOf_perm (hfree : CollisionFree j.codec receipts) (hperm : receipts.Perm receipts')
    (hall : ∀ r ∈ receipts, j.invalidReceipt r = false) :
    j.recoveryOf reference receipts' = j.recoveryOf reference receipts := by
  by_cases hob : obligationsOf reference j.obligations = true
  · have hvalid {receipts'' before : List CustodianReceipt} {r : CustodianReceipt}
        (hsub : receipts'' ⊆ receipts) (hbegins : before ++ [r] <+: receipts'')
        (hinvalid : j.invalidReceipt r = true) : False := by
      rw [hall r (hsub (hbegins.subset (by simp)))] at hinvalid
      cases hinvalid
    have hall' : ∀ r ∈ receipts', j.invalidReceipt r = false :=
      fun r hr => hall r (hperm.mem_iff.2 hr)
    obtain ⟨hstatus, hfindings⟩ := @of_congr j receipts receipts' hfree fun r => hperm.mem_iff
    obtain ⟨_, hpassed, heq⟩ := recoveryOf_passed hob receipts
    obtain ⟨_, hpassed', heq'⟩ := recoveryOf_passed hob receipts'
    rw [heq, heq']
    cases hpassed with
    | all _ hone =>
      cases hpassed' with
      | all => simp [recovered, hstatus, hfindings]
      | invalid _ hbegins _ _ _ hinvalid => exact (hvalid hperm.symm.subset hbegins hinvalid).elim
      | refused hno =>
        exact absurd hno (not_refused_of_all hall' (hone.subset hperm.symm.subset))
    | invalid _ hbegins _ _ _ hinvalid => exact (hvalid (List.Subset.refl _) hbegins hinvalid).elim
    | refused hno =>
      cases hpassed' with
      | all _ hone => exact absurd hno (not_refused_of_all hall (hone.subset hperm.subset))
      | invalid _ hbegins _ _ _ hinvalid => exact (hvalid hperm.symm.subset hbegins hinvalid).elim
      | refused => rfl
  · rw [recoveryOf_of_not hob, recoveryOf_of_not hob]

/-- A receipt of a settled domain is not invalid. -/
theorem Judge.Settled.not_invalid (h : j.Settled receipts receipt.domain)
    (hr : receipt ∈ receipts) : j.invalidReceipt receipt = false := by
  obtain ⟨q, -, -, hverified, -, -, hcopies⟩ := h
  rw [hcopies receipt hr rfl, Judge.invalidReceipt, hverified]
  rfl

/-- The evidence is completable exactly when the obligations are those of the operation, the
receipts are of the three domains, no receipt id is used for two of them and each one is settled. -/
theorem recoveryOf_completable (hfree : CollisionFree j.codec receipts) :
    (j.recoveryOf reference receipts).status = .completable ↔
      obligationsOf reference j.obligations ∧ (∀ r ∈ receipts, r.domain ∈ backupDomains) ∧
        OneDomainEach receipts ∧
        ∀ domain ∈ backupDomains, j.Settled receipts domain := by
  by_cases hob : obligationsOf reference j.obligations = true
  · obtain ⟨_, hpassed, heq⟩ := recoveryOf_passed hob receipts
    rw [heq]
    constructor
    · intro h
      cases hpassed with
      | all hall hone =>
        refine ⟨hob, fun r hr => mem_backupDomains.2 ?_, hone, fun domain hmem =>
          settled_of_finding hfree hall (status_eq_completable.1 h domain hmem)⟩
        by_contra hno
        rw [Bool.not_eq_true] at hno
        have hvalid := hall r hr
        rw [invalidReceipt_of_unknown hno] at hvalid
        cases hvalid
      | invalid | refused => cases h
    · rintro ⟨-, hdomains, hone, hsettled⟩
      have hall : ∀ r ∈ receipts, j.invalidReceipt r = false :=
        fun r hr => (hsettled r.domain (hdomains r hr)).not_invalid hr
      cases hpassed with
      | all => exact status_eq_completable.2 fun domain hmem =>
          finding_of_settled hfree (hsettled domain hmem)
      | @invalid _ r hbegins _ _ _ hinvalid =>
        rw [hall r (hbegins.subset (by simp))] at hinvalid
        cases hinvalid
      | refused hno => exact absurd hno (not_refused_of_all hall hone)
  · rw [recoveryOf_of_not hob]
    exact ⟨fun h => (by cases h), fun h => absurd h.1 hob⟩

/-- Further receipts leave an incident, or make the evidence corrupt. -/
theorem recoveryOf_incident (h : (j.recoveryOf reference receipts).status = .incident)
    (more : List CustodianReceipt) :
    (j.recoveryOf reference (receipts ++ more)).status = .incident ∨
      (j.recoveryOf reference (receipts ++ more)).status = .corrupt := by
  by_cases hob : obligationsOf reference j.obligations = true
  · obtain ⟨_, hpassed, heq⟩ := recoveryOf_passed hob receipts
    obtain ⟨_, hpassed', heq'⟩ := recoveryOf_passed hob (receipts ++ more)
    rw [heq] at h
    rw [heq']
    cases hpassed' with
    | all =>
      cases hpassed with
      | all =>
        obtain ⟨domain, hmem, hsome⟩ := status_eq_incident.1 h
        refine .inl (status_eq_incident.2 ⟨domain, hmem, ?_⟩)
        simp only [Judge.tally, List.nil_append, verifiedOf_append] at hsome ⊢
        exact incidentOf_append hsome _
      | invalid | refused => cases h
    | invalid | refused => exact .inr rfl
  · rw [recoveryOf_of_not hob] at h
    cases h

/-- The laws of the classification: the order of receipts that are not invalid does not matter, the
status is completable exactly for settled evidence, an incident stays, and the result is well
formed. -/
structure RecoveryLaws (j : Judge) (reference : OperationReference)
    (receipts : List CustodianReceipt) : Prop where
  order : ∀ receipts', receipts.Perm receipts' → (∀ r ∈ receipts, j.invalidReceipt r = false) →
    j.recoveryOf reference receipts' = j.recoveryOf reference receipts
  completable : (j.recoveryOf reference receipts).status = .completable ↔
    obligationsOf reference j.obligations ∧ (∀ r ∈ receipts, r.domain ∈ backupDomains) ∧
      OneDomainEach receipts ∧
      ∀ domain ∈ backupDomains, j.Settled receipts domain
  incident : (j.recoveryOf reference receipts).status = .incident → ∀ more,
      (j.recoveryOf reference (receipts ++ more)).status = .incident ∨
      (j.recoveryOf reference (receipts ++ more)).status = .corrupt
  accepted : validateBackupRecovery (j.recoveryOf reference receipts)

/-- **The classification of backup evidence.** -/
theorem backup_recovery_laws (href : validateOperationReference reference = true)
    (hfree : CollisionFree j.codec receipts) : RecoveryLaws j reference receipts where
  order _ hperm hall := recoveryOf_perm hfree hperm hall
  completable := recoveryOf_completable hfree
  incident h more := recoveryOf_incident h more
  accepted := validateBackupRecovery_recoveryOf href

/-! ## The canonical form of a recovery -/

/-- There is something to find: the obligations are those of the operation, the pass is not
refused and some domain is not settled. -/
def Judge.Finds (j : Judge) (reference : OperationReference) (receipts : List CustodianReceipt) :
    Prop :=
  obligationsOf reference j.obligations = true ∧ ¬ j.Refused [] receipts ∧
    ∃ domain ∈ backupDomains, ¬ j.Settled receipts domain

/-- The recovery has a finding exactly when there is something to find. -/
theorem recoveryOf_findings (hfree : CollisionFree j.codec receipts) :
    (j.recoveryOf reference receipts).findings.getD [] ≠ [] ↔ j.Finds reference receipts := by
  by_cases hob : obligationsOf reference j.obligations = true
  · obtain ⟨_, hpassed, heq⟩ := recoveryOf_passed hob receipts
    rw [heq]
    cases hpassed with
    | all hall hone =>
      rw [List.nil_append] at hone
      have hsettled {domain : BackupDomain} : (j.tally receipts).finding domain = none ↔
            j.Settled receipts domain :=
        ⟨settled_of_finding hfree hall, finding_of_settled hfree⟩
      simp only [recovered, Option.getD_some, List.nil_append, ne_eq, findings_eq_nil, hsettled,
        Judge.Finds, hob, not_refused_of_all hall hone, not_false_eq_true, true_and, not_forall,
        exists_prop]
    | @invalid _ r hbegins hbefore hdomain hone hinvalid =>
      refine iff_of_true (List.cons_ne_nil _ _)
        ⟨hob, not_refused_of_invalid hbegins hbefore hdomain hone hinvalid, r.domain,
          mem_backupDomains.2 hdomain, fun hsettled => ?_⟩
      rw [hsettled.not_invalid (hbegins.subset (by simp))] at hinvalid
      cases hinvalid
    | refused hno => exact iff_of_false (fun h => h rfl) fun h => h.2.1 hno
  · rw [recoveryOf_of_not hob]
    exact iff_of_false (fun h => h rfl) fun h => hob h.1

/-- A recovery has a canonical form, its clone has the same bytes, and the findings in them are an
array. -/
def KeepsForm (digest : String → String) (value : BackupRecovery) : Prop :=
  ∃ body, canonicalBackupRecovery digest value = .ok body ∧
    canonicalBackupRecovery digest (cloneBackupRecovery value) = .ok body ∧ FindingsArray body.1

/-- Of valid recoveries, those with a finding keep their form: the clone of another one has `null`
for its findings. -/
theorem keepsForm_iff {digest : String → String} {value : BackupRecovery} :
    KeepsForm digest value ↔ validateBackupRecovery value ∧ value.findings.getD [] ≠ [] := by
  constructor
  · rintro ⟨body, hbody, hclone, rest, hrest⟩
    refine ⟨(ensure_bind.1 hbody).1, fun hnil => ?_⟩
    obtain ⟨-, h⟩ := ensure_bind.1 hclone
    cases h
    rw [cloneBackupRecovery, if_pos hnil] at hrest
    have hlist := congrArg String.toList hrest
    simp [canonicalText, findingsText] at hlist
  · rintro ⟨hvalid, hfindings⟩
    have hcanonical : canonicalBackupRecovery digest value = .ok _ := ensure_bind.2 ⟨hvalid, rfl⟩
    have hclone : cloneBackupRecovery value = value := by
      rw [cloneBackupRecovery, if_neg hfindings]
    refine ⟨_, hcanonical, by rw [hclone, hcanonical], ?_⟩
    cases hvalue : value.findings with
    | none =>
      rw [hvalue] at hfindings
      exact absurd rfl hfindings
    | some findings =>
      have hopen : "\x7b\"findings\":[" = "\x7b\"findings\":" ++ "[" := rfl
      simp only [FindingsArray, canonicalText, hvalue, findingsText, hopen, String.append_assoc]
      exact ⟨_, rfl⟩

/-- A classification keeps its form exactly when there is something to find. -/
theorem keepsForm_recoveryOf {digest : String → String} (hfree : CollisionFree j.codec receipts) :
    KeepsForm digest (j.recoveryOf reference receipts) ↔ j.Finds reference receipts := by
  rw [keepsForm_iff, recoveryOf_findings hfree, and_iff_right_iff_imp]
  rintro ⟨hob, -⟩
  refine validateBackupRecovery_recoveryOf ?_
  simp only [obligationsOf, Bool.and_eq_true] at hob
  exact hob.1.1

end

/-! ## One receipt id for three domains -/

/-- A digest to classify evidence with. -/
def evidenceDigest : String :=
  "sha-256:aaaaaaaaaaaaaaaaaaaaaaaaaaaaaaaaaaaaaaaaaaaaaaaaaaaaaaaaaaaaaaaa"

/-- The operation of the evidence. -/
def evidenceReference : OperationReference :=
  ⟨"0190c5d1-0000-7000-8000-000000000001", evidenceDigest⟩

/-- The obligation of a domain. -/
def evidenceObligation (domain : BackupDomain) : BackupObligation where
  profile := "yukh-transcript-backup-obligation/v0.1"
  operationID := evidenceReference.operationID
  intentDigest := evidenceDigest
  policyDigest := evidenceDigest
  domain := domain
  deadline := "2026-02-01T00:00:00.000Z"
  bindingKind := .generation
  bindingDigest := evidenceDigest

/-- A receipt in time for the obligation of a domain. -/
def evidenceReceipt (domain : BackupDomain) (receiptID : String) : CustodianReceipt where
  profile := "yukh-transcript-backup-custodian-receipt/v0.1"
  receiptID := receiptID
  obligationDigest := evidenceDigest
  operationID := evidenceReference.operationID
  intentDigest := evidenceDigest
  policyDigest := evidenceDigest
  domain := domain
  backupIdentityDigest := evidenceDigest
  evidenceTime := "2026-01-01T00:00:00.000Z"
  method := .generationRetired
  outcome := .succeeded
  custodianReference := "custodian"
  verificationKeyID := "key"
  signatureAlgorithm := "ed25519"
  detachedSignature := String.ofList (List.replicate 86 'A')

/-- A codec that gives the receipts of two domains different digests. -/
def evidenceCodec : Codec where
  eventDigest _ := evidenceDigest
  identifierDigest _ value := value
  removalDigest _ := evidenceDigest
  policyDigest _ := evidenceDigest
  intentDigest _ := evidenceDigest
  intentSize _ := 1
  markerDigest _ := evidenceDigest
  decodeMarker _ := none
  decodePreimage _ := none
  receiptSigning _ := []
  obligationDigest _ := evidenceDigest
  obligationSize _ := 1
  obligationSetDigest _ := evidenceDigest
  obligationSetSize _ := 1
  custodianReceiptDigest receipt := toString (indexDomain receipt.domain)
  custodianReceiptSize _ := 1
  custodianReceiptSigning _ := []
  completionDigest _ := evidenceDigest
  completionSize _ := 1
  channelMetadata _ := none

/-- A receipt for each domain. -/
def evidenceReceipts (receiptID : BackupDomain → String) : List CustodianReceipt :=
  backupDomains.map fun domain => evidenceReceipt domain (receiptID domain)

/-- A verifier that accepts every signature, and an obligation for each domain. -/
def evidenceJudge : Judge :=
  ⟨evidenceCodec, fun _ _ _ _ => .ok (), backupDomains.map evidenceObligation⟩

/-- Receipt ids that differ by domain. -/
def evidenceID (domain : BackupDomain) : String :=
  "0190c5d1-0000-7000-8000-00000000001" ++ toString (indexDomain domain)

theorem collisionFree_evidence (receiptID : BackupDomain → String) :
    CollisionFree evidenceCodec (evidenceReceipts receiptID) := by
  intro r hr r' hr' hdigest
  obtain ⟨domain, hmem, rfl⟩ := List.mem_map.1 hr
  obtain ⟨domain', hmem', rfl⟩ := List.mem_map.1 hr'
  have hdistinct : ∀ d ∈ backupDomains, ∀ d' ∈ backupDomains,
      toString (indexDomain d) = toString (indexDomain d') → d = d' := by decide
  rw [hdistinct domain hmem domain' hmem' hdigest]

theorem validDigest_evidence : validDigest evidenceDigest := rfl

theorem valid_evidenceReference : validateOperationReference evidenceReference :=
  Bool.and_eq_true_iff.2 ⟨by rfl, validDigest_evidence⟩

/-- The documents of the three domains differ in their domain only. -/
theorem valid_evidence {domain : BackupDomain} (hmem : domain ∈ backupDomains) :
    validateCustodianReceipt (evidenceReceipt domain (evidenceID .event)) ∧
      validateBackupObligation (evidenceObligation domain) := by
  have hdomain := mem_backupDomains.1 hmem
  have hreference : validateOperationReference ⟨evidenceReference.operationID, evidenceDigest⟩ =
      true := valid_evidenceReference
  have hid : validUUIDv7 (evidenceID .event) = true := rfl
  have htimes : validTime "2026-01-01T00:00:00.000Z" = true ∧
      validTime "2026-02-01T00:00:00.000Z" = true := by decide
  have htexts : validReference "custodian" = true ∧ validIdentifier "key" = true ∧
      validSignatureText (String.ofList (List.replicate 86 'A')) = true := by decide
  simp only [validateCustodianReceipt, evidenceReceipt, validateBackupObligation,
    evidenceObligation, validDigest_evidence, hreference, hid, hdomain, htimes, htexts,
    beq_self_eq_true, Bool.and_self, and_self]

theorem obligationsOf_evidence : obligationsOf evidenceReference evidenceJudge.obligations := by
  simp only [obligationsOf, valid_evidenceReference, Bool.true_and, Bool.and_eq_true,
    List.all_eq_true]
  refine ⟨rfl, fun o ho => ?_⟩
  obtain ⟨domain, hmem, rfl⟩ := List.mem_map.1 ho
  rw [(valid_evidence hmem).2]
  simp [evidenceObligation, evidenceReference, evidenceJudge, backupDomains]

theorem backup_recovery_laws_sample : validateOperationReference evidenceReference = true ∧
    RecoveryLaws evidenceJudge evidenceReference (evidenceReceipts evidenceID) :=
  ⟨valid_evidenceReference, backup_recovery_laws valid_evidenceReference (collisionFree_evidence _)⟩

/-- A valid receipt with the fields of its obligation whose signature is accepted. -/
theorem verified_of_fields {j : Judge} (haccepts : j.verify = fun _ _ _ _ => .ok ())
    {receipt : CustodianReceipt} (hvalid : validateCustodianReceipt receipt)
    (hobligation : validateBackupObligation obligation)
    (hmem : j.obligations[indexDomain receipt.domain]? = some obligation)
    (hfields : (receipt.obligationDigest, receipt.operationID, receipt.intentDigest,
        receipt.policyDigest, receipt.domain, receipt.backupIdentityDigest) =
      (j.codec.obligationDigest obligation, obligation.operationID, obligation.intentDigest,
        obligation.policyDigest, obligation.domain, obligation.bindingDigest))
    (hmethod : obligation.bindingKind = .generation ∧ receipt.method = .generationRetired) :
    j.verified receipt := by
  have hmeets : j.meetsObligation receipt = true := by
    simp only [Prod.mk.injEq] at hfields
    obtain ⟨h1, h2, h3, h4, h5, h6⟩ := hfields
    unfold Judge.meetsObligation
    rw [hmem]
    unfold validateReceiptObligation
    simp only [hvalid, hobligation, h1, h2, h3, h4, h5, h6, hmethod, beq_self_eq_true,
      Bool.and_self]
    rfl
  have hsignature : signatureOf j.codec j.verify receipt = .ok () := by
    unfold signatureOf validateCustodianReceiptSignature
    rw [canonicalCustodianReceipt_eq hvalid, haccepts]
    rfl
  unfold Judge.verified
  rw [hmeets, hsignature]
  rfl

/-- Three receipts with one id settle every domain and are not completable. -/
theorem not_completable_of_shared_id : ¬ ∀ (j : Judge) (reference : OperationReference)
    (receipts : List CustodianReceipt), obligationsOf reference j.obligations = true →
    CollisionFree j.codec receipts →
    ((j.recoveryOf reference receipts).status = .completable ↔
      ∀ domain ∈ backupDomains, j.Settled receipts domain) := by
  intro hall
  have hfree := collisionFree_evidence fun _ => evidenceID .event
  have hcompletable := (hall evidenceJudge evidenceReference _ obligationsOf_evidence hfree).2
    fun domain hmem => ?_
  · obtain ⟨-, -, hone, -⟩ := (recoveryOf_completable hfree).1 hcompletable
    have hin (d : BackupDomain) (hd : d ∈ backupDomains) : evidenceReceipt d (evidenceID .event) ∈
        evidenceReceipts fun _ => evidenceID .event := List.mem_map.2 ⟨d, hd, rfl⟩
    exact absurd (hone _ (hin .event (by decide)) _ (hin .audit (by decide)) rfl) (by decide)
  · obtain ⟨hreceipt, hobligation⟩ := valid_evidence hmem
    have hindex : ∀ d ∈ backupDomains, evidenceJudge.obligations[indexDomain d]? =
        some (evidenceObligation d) := by decide
    refine ⟨evidenceReceipt domain (evidenceID .event), ?_, rfl, ?_, rfl, ?_, ?_⟩
    · exact List.mem_map.2 ⟨domain, hmem, rfl⟩
    · exact verified_of_fields rfl hreceipt hobligation (hindex domain hmem) rfl ⟨rfl, rfl⟩
    · rw [Judge.deadlineOf, hindex domain hmem]
      exact (by decide : "2026-01-01T00:00:00.000Z" ≤ "2026-02-01T00:00:00.000Z")
    · intro r hr hdomain
      obtain ⟨domain', -, rfl⟩ := List.mem_map.1 hr
      obtain rfl : domain' = domain := hdomain
      rfl

end YukhCoordination.Relay.Lifecycle
