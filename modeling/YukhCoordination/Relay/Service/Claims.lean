import YukhCoordination.Relay.Protocol.Validator
import YukhCoordination.Relay.Service.Handoff

/-!
# The lifecycle of a claim

What an event does to the claims is a `ClaimStep`, for the validator and for replay engines. A
claim's key determines its id where the envelope schema holds (`eventsAt_claimKey`).
-/

namespace YukhCoordination.Relay.Service

open Protocol Transaction

/-! ## Events of a claim -/

/-- The types of the events of a claim. -/
def isLifecycle : EventType → Bool
  | .claim | .progress | .handoffOffer | .handoffAccept | .release => true
  | _ => false

theorem isLifecycle_iff {type : EventType} : isLifecycle type ↔
    type = .claim ∨ type = .progress ∨ type = .release ∨ type = .handoffOffer ∨
      type = .handoffAccept := by
  cases type <;> simp [isLifecycle]

/-- The claim id and the generation that an event names. -/
def TransitionEvent.claim (event : TransitionEvent) : String × String :=
  (text event.data "claim_id", text event.data "generation")

/-- The events of a claim. -/
def claimEvents (events : List TransitionEvent) (claim : String × String) : List TransitionEvent :=
  events.filter fun event => isLifecycle event.kind && event.claim == claim

/-- The claims on a work item that have no release. -/
def activeIn (events : List TransitionEvent) (work : String) : List TransitionEvent :=
  events.filter fun event => event.kind == .claim && event.work == work &&
    !(events.any fun e => e.kind == .release && e.claim == event.claim)

/-- The offers behind the last acceptance or release. -/
def openOffers (history : List TransitionEvent) : List String := history.foldl (fun offers event =>
      match event.kind with
      | .handoffOffer => offers ++ [event.id]
      | .handoffAccept | .release => []
      | _ => offers)
    []

/-- The events of one claim: the claim itself, and then events each of which names the one before
it, or accepts an open offer. Nothing comes after a release. -/
inductive ClaimHistory : List TransitionEvent → Prop
  | claimed {event : TransitionEvent} : event.kind = .claim → ClaimHistory [event]
  | followed {past : List TransitionEvent} {last event : TransitionEvent} :
      ClaimHistory (past ++ [last]) → last.kind ≠ .release →
      event.kind = .progress ∨ event.kind = .handoffOffer ∨ event.kind = .release →
      event.causation = last.id → ClaimHistory (past ++ [last] ++ [event])
  | accepted {past : List TransitionEvent} {last event : TransitionEvent} :
      ClaimHistory (past ++ [last]) → last.kind ≠ .release → event.kind = .handoffAccept →
      event.offerID ∈ openOffers (past ++ [last]) → ClaimHistory (past ++ [last] ++ [event])

/-- The lifecycles of the claims of a transcript. -/
structure Lifecycles (events : List TransitionEvent) : Prop where
  /-- At every moment a work item has at most 32 active claims. -/
  active : ∀ pre post work, events = pre ++ post → (activeIn pre work).length ≤ 32
  /-- At every moment a claim has at most 32 open offers. -/
  offers : ∀ pre post claim, events = pre ++ post → (openOffers (claimEvents pre claim)).length ≤ 32
  /-- No claim is made twice. -/
  claimedOnce : events.Pairwise fun a b => a.kind = .claim → b.kind = .claim → a.claim ≠ b.claim
  /-- The events of a claim are a history. -/
  history : ∀ claim, claimEvents events claim ≠ [] → ClaimHistory (claimEvents events claim)
  /-- No event of a claim comes after its release. -/
  released : events.Pairwise fun a b => a.kind = .release → isLifecycle b.kind → a.claim ≠ b.claim

/-! ## Histories -/

@[simp] theorem openOffers_snoc (history : List TransitionEvent) (event : TransitionEvent) :
    openOffers (history ++ [event]) =
      match event.kind with
      | .handoffOffer => openOffers history ++ [event.id]
      | .handoffAccept | .release => []
      | _ => openOffers history := by
  simp only [openOffers, List.foldl_append, List.foldl_cons, List.foldl_nil]

section
variable {history past : List TransitionEvent} {last event : TransitionEvent}

/-- A history has one claim, at its beginning. -/
theorem ClaimHistory.head (h : ClaimHistory history) : ∃ root rest, history = root :: rest ∧
    root.kind = .claim ∧ ∀ event ∈ rest, event.kind ≠ .claim := by
  have hsnoc {past : List TransitionEvent} {event : TransitionEvent}
      (hex : ∃ root rest, past = root :: rest ∧ root.kind = .claim ∧
        ∀ event ∈ rest, event.kind ≠ .claim) (hk : event.kind ≠ .claim) :
      ∃ root rest, past ++ [event] = root :: rest ∧ root.kind = .claim ∧
        ∀ event ∈ rest, event.kind ≠ .claim := by
    obtain ⟨root, rest, rfl, hroot, hrest⟩ := hex
    refine ⟨root, rest ++ [event], rfl, hroot, fun event' he => ?_⟩
    rcases List.mem_append.1 he with he | he
    · exact hrest event' he
    · rwa [List.mem_singleton.1 he]
  induction h with
  | claimed hk => exact ⟨_, [], rfl, hk, nofun⟩
  | followed _ _ hk _ ih =>
    refine hsnoc ih ?_
    rcases hk with hk | hk | hk <;> simp [hk]
  | accepted _ _ hk _ ih => exact hsnoc ih (by simp [hk])

/-- The claims of a history are one event. -/
theorem ClaimHistory.claim_unique (h : ClaimHistory history) {a b : TransitionEvent}
    (ha : a ∈ history) (hb : b ∈ history) (hka : a.kind = .claim) (hkb : b.kind = .claim) :
    a = b := by
  obtain ⟨root, rest, rfl, -, hrest⟩ := h.head
  have hroot {c : TransitionEvent} (hc : c ∈ root :: rest) (hk : c.kind = .claim) : c = root := by
    rcases List.mem_cons.1 hc with hc | hc
    · exact hc
    · exact absurd hk (hrest c hc)
  rw [hroot ha hka, hroot hb hkb]

/-- A history that does not end with a release has none. -/
theorem ClaimHistory.unreleased (h : ClaimHistory history) (heq : history = past ++ [last])
    (hlast : last.kind ≠ .release) : ∀ event ∈ history, event.kind ≠ .release := by
  have hsnoc {past : List TransitionEvent} {event : TransitionEvent}
      (hpast : ∀ event ∈ past, event.kind ≠ .release) (hk : event.kind ≠ .release) :
      ∀ event' ∈ past ++ [event], event'.kind ≠ .release := by
    intro event' he
    rcases List.mem_append.1 he with he | he
    · exact hpast event' he
    · rwa [List.mem_singleton.1 he]
  induction h generalizing past last with
  | @claimed event hk =>
    intro event' he
    rw [List.mem_singleton.1 he, hk]
    nofun
  | followed _ hne _ _ ih =>
    obtain ⟨-, hev⟩ := List.append_inj' heq rfl
    exact hsnoc (ih rfl hne) (List.singleton_inj.1 hev ▸ hlast)
  | accepted _ hne hk _ ih => exact hsnoc (ih rfl hne) (by simp [hk])

end

/-! ## Claims with their events -/

/-- What an event does to the claims, whoever replays it. -/
inductive ClaimStep (claims : Dict String ClaimState) (event : TransitionEvent) :
    Dict String ClaimState → Prop
  | claimed : event.kind = .claim → claims.get? (payloadKey event.data) = none →
      activeClaims claims event.work < 32 →
      ClaimStep claims event (claims.set (payloadKey event.data) (newClaim event))
  | progressed {claim : ClaimState} : event.kind = .progress → Continues claims event claim →
      ClaimStep claims event (claims.set (payloadKey event.data) { claim with last := event.id })
  | released {claim : ClaimState} : event.kind = .release → Continues claims event claim →
      ClaimStep claims event (claims.set (payloadKey event.data)
        { claim with active := false, last := event.id, offers := [] })
  | offered {claim : ClaimState} : event.kind = .handoffOffer → Continues claims event claim →
      claim.offers.length < 32 →
      ClaimStep claims event (claims.set (payloadKey event.data)
        { claim with offers := claim.offers ++ [event.id], last := event.id })
  | accepted {claim : ClaimState} : event.kind = .handoffAccept →
      claims.get? (payloadKey event.data) = some claim → claim.active →
      claim.work = event.work → event.offerID ∈ claim.offers →
      ClaimStep claims event (claims.set (payloadKey event.data)
        { claim with last := event.id, offers := [] })
  | other : isLifecycle event.kind = false → ClaimStep claims event claims

/-- Events one after the other, and the claims they lead to. -/
inductive ClaimRun : List TransitionEvent → Dict String ClaimState → Prop
  | nil : ClaimRun [] .empty
  | snoc {events : List TransitionEvent} {claims claims' : Dict String ClaimState}
      {event : TransitionEvent} : ClaimRun events claims → ClaimStep claims event claims' →
      ClaimRun (events ++ [event]) claims'

/-- The events that a key finds. -/
def eventsAt (events : List TransitionEvent) (key : String) : List TransitionEvent :=
  events.filter fun event => isLifecycle event.kind && payloadKey event.data == key

theorem mem_eventsAt {events : List TransitionEvent} {key : String} {event : TransitionEvent} :
    event ∈ eventsAt events key ↔
      event ∈ events ∧ isLifecycle event.kind ∧ payloadKey event.data = key := by
  simp [eventsAt]

theorem eventsAt_snoc (events : List TransitionEvent) (event : TransitionEvent) (key : String) :
    eventsAt (events ++ [event]) key = eventsAt events key ++
      if isLifecycle event.kind ∧ payloadKey event.data = key then [event] else [] := by
  simp only [eventsAt, List.filter_append, List.filter_singleton, cond_eq_ite, Bool.and_eq_true,
    beq_iff_eq]

/-- The state of a claim, in terms of its history. -/
structure ClaimOf (history : List TransitionEvent) (claim : ClaimState) : Prop where
  isHistory : ClaimHistory history
  root : ∃ event ∈ history, event.kind = .claim ∧ claim.root = event.id ∧
    claim.id = text event.data "claim_id" ∧ claim.generation = text event.data "generation"
  works : ∀ event ∈ history, event.work = claim.work
  last : ∃ past event, history = past ++ [event] ∧ event.id = claim.last ∧
    (claim.active ↔ event.kind ≠ .release)
  isOpen : claim.offers = openOffers history

/-- The claims that events led to, in terms of the events. -/
structure Chained (events : List TransitionEvent) (claims : Dict String ClaimState) : Prop where
  fresh : ∀ key, claims.get? key = none → eventsAt events key = []
  history : ∀ key claim, claims.get? key = some claim → ClaimOf (eventsAt events key) claim
  offers : ∀ key claim, claims.get? key = some claim → claim.offers.length ≤ 32
  active : ∀ work, activeClaims claims work ≤ 32

theorem Chained.nil : Chained [] .empty where
  fresh _ _ := rfl
  history := nofun
  offers := nofun
  active _ := Nat.zero_le _

section
variable {claims : Dict String ClaimState} {key : String} {claim claim' : ClaimState}

theorem activeClaims_new (hnone : claims.get? key = none) (work : String) :
    activeClaims (claims.set key claim) work =
      activeClaims claims work + if claim.active && claim.work == work then 1 else 0 := by
  rw [activeClaims, activeClaims, Dict.set_of_none hnone, List.countP_append, List.countP_singleton]

/-- A change of a claim counts as the change from its old state to its new one. -/
theorem activeClaims_set (hget : claims.get? key = some claim) (claim' : ClaimState)
    (work : String) :
    activeClaims (claims.set key claim') work +
      (if claim.active && claim.work == work then 1 else 0)
      = activeClaims claims work + if claim'.active && claim'.work == work then 1 else 0 := by
  obtain ⟨before, after, hentries, hset⟩ := Dict.set_in_place hget
  rw [activeClaims, activeClaims, hset, hentries, List.countP_append, List.countP_append,
    List.countP_cons, List.countP_cons]
  dsimp only
  omega

/-- A change of a claim that does not revive or move it does not add to the active claims. -/
theorem activeClaims_update (hget : claims.get? key = some claim)
    (hactive : claim'.active → claim.active) (hwork : claim'.work = claim.work)
    (work : String) : activeClaims (claims.set key claim') work ≤ activeClaims claims work := by
  have hset := activeClaims_set hget claim' work
  rw [hwork] at hset
  by_cases hc : claim'.active = true
  · rw [hc, hactive hc] at hset
    omega
  · rw [Bool.eq_false_iff.2 hc, Bool.false_and, if_neg Bool.false_ne_true] at hset
    omega

end

section
variable {events : List TransitionEvent} {event : TransitionEvent}
  {claims claims' : Dict String ClaimState} {claim claim' : ClaimState}

/-- An event of a claim changes the claim under its key, which then has the longer history. -/
theorem Chained.set (h : Chained events claims) (hk : isLifecycle event.kind)
    (hof : ClaimOf (eventsAt events (payloadKey event.data) ++ [event]) claim')
    (hoffers : claim'.offers.length ≤ 32)
    (hactive : ∀ work, activeClaims (claims.set (payloadKey event.data) claim') work ≤ 32) :
    Chained (events ++ [event]) (claims.set (payloadKey event.data) claim') where
  fresh key hnone := by
    rw [Dict.get?_set] at hnone
    split at hnone
    · cases hnone
    · next hne =>
      rw [eventsAt_snoc, if_neg (fun hc => hne hc.2.symm), List.append_nil]
      exact h.fresh key hnone
  history key claim hget := by
    rw [Dict.get?_set] at hget
    rw [eventsAt_snoc]
    split at hget
    · next heq =>
      obtain rfl := Option.some.inj hget
      rw [if_pos ⟨hk, heq.symm⟩, heq]
      exact hof
    · next hne =>
      rw [if_neg (fun hc => hne hc.2.symm), List.append_nil]
      exact h.history key claim hget
  offers key claim hget := by
    rw [Dict.get?_set] at hget
    split at hget
    · obtain rfl := Option.some.inj hget
      exact hoffers
    · exact h.offers key claim hget
  active := hactive

/-- An event of a claim that was made: it neither revives nor moves the claim. -/
theorem Chained.update (h : Chained events claims) (hk : isLifecycle event.kind)
    (hget : claims.get? (payloadKey event.data) = some claim)
    (hactive : claim'.active → claim.active) (hwork : claim'.work = claim.work)
    (hof : ClaimOf (eventsAt events (payloadKey event.data) ++ [event]) claim')
    (hoffers : claim'.offers.length ≤ 32) :
    Chained (events ++ [event]) (claims.set (payloadKey event.data) claim') :=
  h.set hk hof hoffers fun work =>
    (activeClaims_update hget hactive hwork work).trans (h.active work)

/-- An event of no claim leaves the claims with their histories. -/
theorem Chained.skip (h : Chained events claims) (hk : isLifecycle event.kind = false) :
    Chained (events ++ [event]) claims := by
  have heq (key : String) : eventsAt (events ++ [event]) key = eventsAt events key := by
    rw [eventsAt_snoc, if_neg (by simp [hk]), List.append_nil]
  exact ⟨fun key hnone => (heq key).trans (h.fresh key hnone),
    fun key claim hget => (heq key) ▸ h.history key claim hget, h.offers, h.active⟩

/-- A claim that keeps what it was made with, after one more event. -/
theorem ClaimOf.extend {history : List TransitionEvent} (h : ClaimOf history claim)
    (hhistory : ClaimHistory (history ++ [event])) (hevent : claim.work = event.work)
    (hroot : claim'.root = claim.root)
    (hid : claim'.id = claim.id) (hgen : claim'.generation = claim.generation)
    (hwork : claim'.work = claim.work) (hlast : claim'.last = event.id)
    (hactive : claim'.active ↔ event.kind ≠ .release)
    (hoffers : claim'.offers = openOffers (history ++ [event])) :
    ClaimOf (history ++ [event]) claim' := by
  obtain ⟨root, hmem, hk, h₁, h₂, h₃⟩ := h.root
  refine ⟨hhistory, ⟨root, List.mem_append_left _ hmem, hk, hroot.trans h₁, hid.trans h₂,
    hgen.trans h₃⟩, fun event' hmem' => ?_, ⟨history, event, rfl, hlast.symm, hactive⟩, hoffers⟩
  rw [hwork]
  rcases List.mem_append.1 hmem' with hmem' | hmem'
  · exact h.works event' hmem'
  · rw [List.mem_singleton.1 hmem', hevent]

/-- An event that follows the last one of an active claim extends its history. -/
theorem ClaimOf.followed {history : List TransitionEvent} (h : ClaimOf history claim)
    (hf : Continues claims event claim)
    (hk : event.kind = .progress ∨ event.kind = .handoffOffer ∨ event.kind = .release) :
    ClaimHistory (history ++ [event]) := by
  obtain ⟨past, last, rfl, hid, hactive⟩ := h.last
  exact .followed h.isHistory (hactive.1 hf.active) hk (hf.causation.trans hid.symm)

theorem ClaimOf.accepted {history : List TransitionEvent} (h : ClaimOf history claim)
    (hactive : claim.active) (hopen : event.offerID ∈ claim.offers)
    (hk : event.kind = .handoffAccept) : ClaimHistory (history ++ [event]) := by
  obtain ⟨past, last, rfl, hid, hlast⟩ := h.last
  exact .accepted h.isHistory (hlast.1 hactive) hk (h.isOpen ▸ hopen)

/-- **One event.** The claims keep to the histories of the events. -/
theorem Chained.step (h : Chained events claims) (hs : ClaimStep claims event claims') :
    Chained (events ++ [event]) claims' := by
  cases hs with
  | claimed hk hnone hlimit =>
    refine h.set (by simp [isLifecycle, hk]) ?_ (Nat.zero_le _) fun work => ?_
    · rw [h.fresh _ hnone]
      exact ⟨.claimed hk, ⟨event, List.mem_singleton_self _, hk, rfl, rfl, rfl⟩,
        fun event' hmem => by rw [List.mem_singleton.1 hmem]; rfl,
        ⟨[], event, rfl, rfl, by simp [newClaim, hk]⟩, by simp [newClaim, openOffers, hk]⟩
    · rw [activeClaims_new hnone]
      have hbound := h.active work
      split
      · next hc =>
        simp only [newClaim, Bool.true_and, beq_iff_eq] at hc
        rw [← hc]
        omega
      · exact hbound
  | @progressed claim hk hf =>
    have hof := h.history _ claim hf.get
    refine h.update (by simp [isLifecycle, hk]) hf.get id rfl
      (hof.extend (hof.followed hf (.inl hk)) hf.work rfl rfl rfl rfl rfl (by simp [hf.active, hk])
        ?_)
      (h.offers _ claim hf.get)
    rw [openOffers_snoc, hk]
    exact hof.isOpen
  | @released claim hk hf =>
    have hof := h.history _ claim hf.get
    refine h.update (by simp [isLifecycle, hk]) hf.get (fun _ => hf.active) rfl
      (hof.extend (hof.followed hf (.inr (.inr hk))) hf.work rfl rfl rfl rfl rfl (by simp [hk]) ?_)
      (Nat.zero_le _)
    rw [openOffers_snoc, hk]
  | @offered claim hk hf hlimit =>
    have hof := h.history _ claim hf.get
    refine h.update (by simp [isLifecycle, hk]) hf.get id rfl
      (hof.extend (hof.followed hf (.inr (.inl hk))) hf.work rfl rfl rfl rfl rfl
        (by simp [hf.active, hk]) ?_) ?_
    · rw [openOffers_snoc, hk, ← hof.isOpen]
    · rw [List.length_append, List.length_singleton]
      exact hlimit
  | @accepted claim hk hget hactive hwork hopen =>
    have hof := h.history _ claim hget
    refine h.update (by simp [isLifecycle, hk]) hget id rfl
      (hof.extend (hof.accepted hactive hopen hk) hwork rfl rfl rfl rfl rfl
        (by simp [hactive, hk]) ?_) (Nat.zero_le _)
    rw [openOffers_snoc, hk]
  | other hk => exact h.skip hk

/-- **The invariant.** The claims that events lead to keep to their histories. -/
theorem ClaimRun.chained (h : ClaimRun events claims) : Chained events claims := by
  induction h with
  | nil => exact .nil
  | snoc _ hs ih => exact ih.step hs

/-! ## Whole runs -/

/-- A beginning of a run is a run. -/
theorem ClaimRun.of_append {pre post : List TransitionEvent} (h : ClaimRun (pre ++ post) claims) :
    ∃ claims₀, ClaimRun pre claims₀ := by
  induction post using List.reverseRecOn generalizing claims with
  | nil => exact ⟨claims, by simpa using h⟩
  | append_singleton post e ih =>
    rw [← List.append_assoc] at h
    generalize hes : pre ++ post ++ [e] = events at h
    cases h with
    | nil => simp at hes
    | snoc hpre _ =>
      obtain ⟨rfl, -⟩ := List.append_inj' hes rfl
      exact ih hpre

/-- An event of a claim that does not make it finds the claim active. -/
theorem ClaimStep.active (hs : ClaimStep claims event claims')
    (hk : isLifecycle event.kind) (hne : event.kind ≠ .claim) :
    ∃ claim, claims.get? (payloadKey event.data) = some claim ∧ claim.active := by
  cases hs with
  | claimed hc _ _ => exact absurd hc hne
  | progressed _ hf | released _ hf | offered _ hf _ => exact ⟨_, hf.get, hf.active⟩
  | accepted _ hget hactive _ _ => exact ⟨_, hget, hactive⟩
  | other hk' =>
    rw [hk'] at hk
    cases hk

/-- A claim that is made was not there. -/
theorem ClaimStep.unclaimed (hs : ClaimStep claims event claims') (hk : event.kind = .claim) :
    claims.get? (payloadKey event.data) = none := by
  cases hs with
  | claimed _ hnone _ => exact hnone
  | other hk' => simp [isLifecycle, hk] at hk'
  | _ => simp_all

theorem ClaimRun.claimedOnce (h : ClaimRun events claims) : events.Pairwise fun a b =>
    a.kind = .claim → b.kind = .claim → payloadKey a.data ≠ payloadKey b.data := by
  induction h with
  | nil => exact .nil
  | @snoc events claims claims' event hrun hs ih =>
    refine List.pairwise_append.2 ⟨ih, List.pairwise_singleton _ _, fun a ha b hb hka hkb heq => ?_⟩
    obtain rfl := List.mem_singleton.1 hb
    have hmem : a ∈ eventsAt events (payloadKey b.data) :=
      mem_eventsAt.2 ⟨ha, by simp [isLifecycle, hka], heq⟩
    rw [hrun.chained.fresh _ (hs.unclaimed hkb)] at hmem
    cases hmem

theorem ClaimRun.released (h : ClaimRun events claims) : events.Pairwise fun a b =>
    a.kind = .release → isLifecycle b.kind → payloadKey a.data ≠ payloadKey b.data := by
  induction h with
  | nil => exact .nil
  | @snoc events claims claims' event hrun hs ih =>
    refine List.pairwise_append.2 ⟨ih, List.pairwise_singleton _ _, fun a ha b hb hka hkb heq => ?_⟩
    obtain rfl := List.mem_singleton.1 hb
    have hmem : a ∈ eventsAt events (payloadKey b.data) :=
      mem_eventsAt.2 ⟨ha, by simp [isLifecycle, hka], heq⟩
    by_cases hclaim : b.kind = .claim
    · rw [hrun.chained.fresh _ (hs.unclaimed hclaim)] at hmem
      cases hmem
    · obtain ⟨claim, hget, hactive⟩ := hs.active hkb hclaim
      have hof := hrun.chained.history _ claim hget
      obtain ⟨past, last, heq, -, hlast⟩ := hof.last
      exact hof.isHistory.unreleased heq (hlast.1 hactive) _ hmem hka

end

/-! ## Claims by id and generation -/

/-- A claim key determines the claim, if the claim id is an identifier. -/
theorem claimKey_inj {id id' generation generation' : String} (h : uuidv7 id)
    (h' : uuidv7 id') (heq : claimKey id generation = claimKey id' generation') :
    id = id' ∧ generation = generation' := by
  have hlist := congrArg String.toList heq
  simp only [claimKey, String.toList_append, List.append_assoc] at hlist
  obtain ⟨hid, hrest⟩ := List.append_inj hlist ((uuidv7_length h).trans (uuidv7_length h').symm)
  exact ⟨String.toList_inj.1 hid, String.toList_inj.1 (List.append_cancel_left hrest)⟩

/-- The claim that a claim or an event of its lifecycle names. -/
theorem claimID_hasText {event : Event} (h : Conforms event) (hk : isLifecycle event.type) :
    HasText event.data "claim_id" ∧ uuidv7 (text event.data "claim_id") := by
  have hp := h.payload
  rcases isLifecycle_iff.1 hk with ht | ht | ht | ht | ht <;> rw [ht] at hp <;>
    exact validPayload_hasText hp (by simp [payloadMembers, identifier])

/-- The claim ids of the events are identifiers. -/
def Identified (events : List TransitionEvent) : Prop :=
  ∀ event ∈ events, isLifecycle event.kind = true → uuidv7 (text event.data "claim_id") = true

section
variable {events : List TransitionEvent} {claims : Dict String ClaimState}

theorem Identified.of_append {pre post : List TransitionEvent} (h : Identified (pre ++ post)) :
    Identified pre := fun e he => h e (List.mem_append_left _ he)

/-- Two events with one key name one claim. -/
theorem Identified.claim_eq (h : Identified events) {a b : TransitionEvent} (ha : a ∈ events)
    (hb : b ∈ events) (hka : isLifecycle a.kind) (hkb : isLifecycle b.kind) :
    a.claim = b.claim ↔ payloadKey a.data = payloadKey b.data := by
  constructor
  · intro heq
    obtain ⟨hid, hgen⟩ := Prod.mk.inj heq
    rw [payloadKey, payloadKey, hid, hgen]
  · intro heq
    obtain ⟨hid, hgen⟩ := claimKey_inj (h a ha hka) (h b hb hkb) heq
    exact Prod.ext hid hgen

/-- The events of a claim are those under its key. -/
theorem eventsAt_claimKey (h : Identified events) {claim : String × String}
    (hne : claimEvents events claim ≠ []) :
    claimEvents events claim = eventsAt events (claimKey claim.1 claim.2) := by
  obtain ⟨event, hmem⟩ := List.exists_mem_of_ne_nil _ hne
  simp only [claimEvents, List.mem_filter, Bool.and_eq_true, beq_iff_eq] at hmem
  obtain ⟨hmem, hk, rfl⟩ := hmem
  refine List.filter_congr fun event' hmem' => ?_
  cases hk' : isLifecycle event'.kind with
  | false => rfl
  | true =>
    simp only [Bool.true_and]
    rw [Bool.eq_iff_iff, beq_iff_eq, beq_iff_eq]
    exact h.claim_eq hmem' hmem hk' hk

/-- A claim that has events is one of the claims, in the state that the events led to. -/
theorem ClaimRun.claim_of (h : ClaimRun events claims) (hid : Identified events)
    {claim : String × String} (hne : claimEvents events claim ≠ []) : ∃ state,
      claims.get? (claimKey claim.1 claim.2) = some state ∧
        ClaimOf (claimEvents events claim) state := by
  have heq := eventsAt_claimKey hid hne
  cases hget : claims.get? (claimKey claim.1 claim.2) with
  | none => exact absurd (heq.trans (h.chained.fresh _ hget)) hne
  | some state => exact ⟨state, rfl, heq ▸ h.chained.history _ state hget⟩

theorem ClaimRun.openOffers_length (h : ClaimRun events claims) (hid : Identified events)
    (claim : String × String) : (openOffers (claimEvents events claim)).length ≤ 32 := by
  by_cases hne : claimEvents events claim = []
  · rw [hne]
    exact Nat.zero_le _
  · obtain ⟨state, hget, hof⟩ := h.claim_of hid hne
    rw [← hof.isOpen]
    exact h.chained.offers _ state hget

theorem ClaimRun.history (h : ClaimRun events claims) (hid : Identified events)
    {claim : String × String} (hne : claimEvents events claim ≠ []) :
    ClaimHistory (claimEvents events claim) := by
  obtain ⟨state, -, hof⟩ := h.claim_of hid hne
  exact hof.isHistory

/-- The keys of the claims are those of the events that made them, in order. -/
theorem ClaimRun.keys (h : ClaimRun events claims) : claims.entries.map (·.1) =
    (events.filter fun event => event.kind == .claim).map fun event => payloadKey event.data := by
  induction h with
  | nil => rfl
  | @snoc events claims claims' event _ hs ih =>
    have hold (hk : event.kind ≠ .claim) :
        ((events ++ [event]).filter fun event => event.kind == .claim) =
          events.filter fun event => event.kind == .claim := by
      rw [List.filter_append, List.filter_singleton, beq_false_of_ne hk]
      exact List.append_nil _
    cases hs with
    | claimed hk hnone _ =>
      rw [Dict.set_of_none hnone, List.filter_append, List.filter_singleton, hk, List.map_append,
        List.map_append, ih]
      rfl
    | progressed hk hf | released hk hf | offered hk hf _ =>
      rw [Dict.keys_set_of_some hf.get, hold (by simp [hk]), ih]
    | accepted hk hget _ _ _ => rw [Dict.keys_set_of_some hget, hold (by simp [hk]), ih]
    | other hk =>
      rw [hold, ih]
      rintro hc
      simp [isLifecycle, hc] at hk

/-- The claim that an event made, and whether it is active. -/
theorem ClaimRun.claim_made (h : ClaimRun events claims) {event : TransitionEvent}
    (hmem : event ∈ events) (hk : event.kind = .claim) : ∃ claim,
      claims.get? (payloadKey event.data) = some claim ∧ claim.root = event.id ∧
      claim.id = text event.data "claim_id" ∧ claim.work = event.work ∧
      (claim.active ↔
        ∀ e ∈ events, e.kind = .release → payloadKey e.data ≠ payloadKey event.data) := by
  have hat : event ∈ eventsAt events (payloadKey event.data) :=
    mem_eventsAt.2 ⟨hmem, by simp [isLifecycle, hk], rfl⟩
  cases hget : claims.get? (payloadKey event.data) with
  | none =>
    rw [h.chained.fresh _ hget] at hat
    cases hat
  | some claim =>
    have hof := h.chained.history _ claim hget
    obtain ⟨root, hroot, hkroot, hid, hclaim, -⟩ := hof.root
    obtain rfl := hof.isHistory.claim_unique hroot hat hkroot hk
    refine ⟨claim, rfl, hid, hclaim, (hof.works _ hroot).symm, ?_⟩
    obtain ⟨past, last, heq, -, hlast⟩ := hof.last
    rw [hlast]
    constructor
    · intro hne e he hrelease hkey
      refine hof.isHistory.unreleased heq hne e (mem_eventsAt.2 ⟨he, ?_, hkey⟩) hrelease
      simp [isLifecycle, hrelease]
    · intro hall hrelease
      have hin : last ∈ eventsAt events (payloadKey root.data) := by simp [heq]
      obtain ⟨hlast, -, hkey⟩ := mem_eventsAt.1 hin
      exact hall last hlast hrelease hkey

/-- The active claims on a work item are those without a release, in the order of the events. -/
theorem ClaimRun.active_keys (h : ClaimRun events claims) (hid : Identified events)
    (work : String) :
    (claims.entries.filter fun e => e.2.active && e.2.work == work).map (·.1) =
      (activeIn events work).map fun event => payloadKey event.data := by
  have hsplit : activeIn events work = (events.filter fun event => event.kind == .claim).filter
      fun event => (claims.get? (payloadKey event.data)).any
        fun claim => claim.active && claim.work == work := by
    rw [activeIn, List.filter_filter]
    refine List.filter_congr fun event hmem => ?_
    by_cases hk : event.kind = .claim
    · obtain ⟨claim, hget, -, -, hwork, hactive⟩ := h.claim_made hmem hk
      rw [hget, Option.any_some, Bool.eq_iff_iff]
      simp only [hk, beq_self_eq_true, Bool.true_and, Bool.and_eq_true, beq_iff_eq, hwork, hactive,
        Bool.not_eq_true', List.any_eq_false, not_and, Bool.and_true]
      rw [and_comm]
      refine and_congr_left fun _ => forall₂_congr fun e he => imp_congr_right fun hrelease =>
        not_congr (hid.claim_eq he hmem ?_ ?_)
      · simp [isLifecycle, hrelease]
      · simp [isLifecycle, hk]
    · rw [beq_false_of_ne hk]
      simp
  rw [Dict.keys_filter claims fun claim => claim.active && claim.work == work, h.keys, hsplit,
    List.filter_map]
  rfl

theorem ClaimRun.activeClaims_eq (h : ClaimRun events claims) (hid : Identified events)
    (work : String) : activeClaims claims work = (activeIn events work).length := by
  have heq := congrArg List.length (h.active_keys hid work)
  rwa [List.length_map, List.length_map, ← List.countP_eq_length_filter] at heq

/-- **Claims go through one lifecycle**, whoever replays them. -/
theorem ClaimRun.lifecycles (h : ClaimRun events claims) (hid : Identified events) :
    Lifecycles events where
  active pre post work heq := by
    subst heq
    obtain ⟨claims₀, hpre⟩ := h.of_append
    rw [← hpre.activeClaims_eq hid.of_append work]
    exact hpre.chained.active work
  offers pre post claim heq := by
    subst heq
    obtain ⟨claims₀, hpre⟩ := h.of_append
    exact hpre.openOffers_length hid.of_append claim
  claimedOnce := by
    refine h.claimedOnce.imp_of_mem fun {a b} ha hb hab hka hkb heq => hab hka hkb ?_
    exact (hid.claim_eq ha hb (by simp [isLifecycle, hka]) (by simp [isLifecycle, hkb])).1 heq
  history claim hne := h.history hid hne
  released := by
    refine h.released.imp_of_mem fun {a b} ha hb hab hka hkb heq => hab hka hkb ?_
    exact (hid.claim_eq ha hb (by simp [isLifecycle, hka]) hkb).1 heq

end

/-! ## The claims of the validator -/

section
variable {codec : Codec} {es : List Entry} {s s' : TranscriptState}

/-- The key of an acceptance is the one of the claim that its offer is on. -/
theorem Handoffs.accepts_key (h : Handoffs es s) {event : TransitionEvent} {participant : String}
    {offer : OfferState} {claim : ClaimState} (ha : Accepts s event participant offer claim) :
    offer.claim = payloadKey event.data := by
  obtain ⟨root, -, hstarts⟩ := h.claims _ _ ha.getClaim
  rw [← hstarts.key, payloadKey, payloadKey, ha.claimID, ha.generation, hstarts.id,
    hstarts.generation]

/-- A claim under a new key is not one of the validator's. -/
theorem Handoffs.unclaimed (h : Handoffs es s) {key : String} (hused : key ∉ s.used) :
    s.claims.get? key = none := by
  cases hget : s.claims.get? key with
  | none => rfl
  | some claim => exact absurd (h.used key claim hget) hused

theorem Refers.not_lifecycle {event : TransitionEvent} (h : Refers codec s event) :
    isLifecycle event.kind = false := by
  unfold Refers at h
  cases hk : event.kind <;> simp_all [isLifecycle]

/-- An acceptance is on the work of the claim that its offer is on. -/
theorem Tracks.accepts_work (h : Tracks es s) (hids : ∀ e ∈ es, e.event.id ≠ "")
    (hrun : ClaimRun (es.map (·.event)) s.claims) {e : Entry}
    (hc : checkCausation s e.event = .ok ()) {offer : OfferState} {claim : ClaimState}
    (ha : Accepts s e.event e.participant offer claim) : claim.work = e.event.work := by
  obtain ⟨made, hmade, hkind, hid, heq⟩ := h.offers _ _ ha.getOffer
  have hkey : offer.claim = payloadKey made.event.data := by rw [heq]; rfl
  have hcause : e.event.causation = made.event.id := by
    rw [ha.causation, h.eventID ha.getOffer, hid]
  -- The causation is the offer, which is on the work of the claim.
  obtain ⟨parent, hparent⟩ := checkCausation_ok hc (hcause ▸ hids made hmade)
  obtain ⟨hparentID, other, hother, rfl⟩ := h.events _ _ hparent.get
  obtain rfl := List.inj_on_of_nodup_map h.ids hother hmade (hparentID.trans hcause)
  rw [← hparent.work]
  refine ((hrun.chained.history _ claim ha.getClaim).works _ (mem_eventsAt.2 ⟨?_, ?_, ?_⟩)).symm
  · exact List.mem_map.2 ⟨other, hmade, rfl⟩
  · simp [isLifecycle, hkind]
  · exact hkey.symm

/-- What a transition does to the claims. -/
theorem Tracks.claimStep (h : Tracks es s) (hids : ∀ e ∈ es, e.event.id ≠ "")
    (hrun : ClaimRun (es.map (·.event)) s.claims) {e : Entry}
    (hc : checkCausation s e.event = .ok ())
    (ht : Transition codec s e.event e.participant s') : ClaimStep s.claims e.event s'.claims := by
  cases ht with
  | claimed hk hused _ hlimit => exact .claimed hk (h.unclaimed hused) hlimit
  | progressed hk hf => exact .progressed hk hf.toContinues
  | released hk hf => exact .released hk hf.toContinues
  | offered hk hf hlimit => exact .offered hk hf.toContinues hlimit
  | @accepted offer claim hk ha =>
    have hwork := h.accepts_work hids hrun hc ha
    have hget := ha.getClaim
    have hopen := ha.isOpen
    rw [h.eventID ha.getOffer] at hopen
    simp only [h.accepts_key ha] at hget ⊢
    exact .accepted hk hget ha.active hwork hopen
  | referred hr => exact .other hr.not_lifecycle

theorem Admits.claimRun (h : Admits codec es s) (hids : ∀ e ∈ es, e.event.id ≠ "") :
    ClaimRun (es.map (·.event)) s.claims := by
  induction h with
  | nil => exact .nil
  | @snoc es s s' e hes _ _ happly ih =>
    obtain ⟨hc, s₁, ht, rfl⟩ := apply_transition happly
    have hids' : ∀ e ∈ es, e.event.id ≠ "" := fun e he => hids e (List.mem_append_left _ he)
    have hstep : ClaimStep s.claims e.event s₁.claims := hes.tracks.claimStep hids' (ih hids') hc ht
    rw [List.map_append, List.map_singleton]
    exact (ih hids').snoc hstep

/-- An acceptance names the offer that it accepts. -/
theorem Admits.acceptance_causation (h : Admits codec es s) :
    ∀ e ∈ es, e.event.kind = .handoffAccept → e.event.causation = e.event.offerID := by
  induction h with
  | nil => nofun
  | @snoc es s s' e hes _ _ happly ih =>
    refine forall_mem_snoc ih fun hk => ?_
    obtain ⟨-, s₁, ht, -⟩ := apply_transition happly
    obtain ⟨offer, claim, ha, -⟩ := hes.tracks.accepts_open ht hk
    exact ha.causation.trans (hes.tracks.eventID ha.getOffer)

/-- The events of records that the schema accepts. -/
theorem entries_conform {records : List AcceptedRecord} (hes : Entries codec records es)
    (hschema : ∀ r ∈ records, ∀ event, codec.decodeEvent r.canonicalEvent = some event →
      Conforms event) : ∀ e ∈ es, ∃ event, e.event = .of event ∧ Conforms event := by
  intro e he
  have hin : some e ∈ records.map (Entry.of codec) := by
    rw [hes]
    exact List.mem_map.2 ⟨e, he, rfl⟩
  obtain ⟨r, hr, hof⟩ := List.mem_map.1 hin
  obtain ⟨event, hdec, hevent, -⟩ := Entry.of_eq_some hof
  exact ⟨event, hevent, hschema r hr event hdec⟩

/-- Events that the schema accepts name their claims by identifiers. -/
theorem Identified.of_conforms {events : List TransitionEvent}
    (h : ∀ event ∈ events, ∃ document, event = .of document ∧ Conforms document) :
    Identified events := by
  intro event hmem hk
  obtain ⟨document, rfl, hconforms⟩ := h event hmem
  exact (claimID_hasText hconforms hk).2

/-- **Claims go through one lifecycle.** In a transcript of events that the envelope schema accepts,
each of which `Validate` admitted against the records before it: at every moment a work item has at
most 32 active claims and a claim at most 32 open offers, no claim is made twice, the events of a
claim are a history, none comes after its release, and the offer that an acceptance accepts is the
event that it names. -/
theorem claim_lifecycle {records : List AcceptedRecord} (h : Admitted codec records)
    (hes : Entries codec records es) (hschema : ∀ r ∈ records, ∀ event,
      codec.decodeEvent r.canonicalEvent = some event → Conforms event) :
    Lifecycles (es.map (·.event)) ∧
      ∀ e ∈ es, e.event.kind = .handoffAccept → e.event.causation = e.event.offerID := by
  have hconform := entries_conform hes hschema
  have hids : ∀ e ∈ es, e.event.id ≠ "" := by
    intro e he
    obtain ⟨event, hevent, hconforms⟩ := hconform e he
    rw [hevent]
    exact uuidv7_ne_empty hconforms.id
  have hidentified : Identified (es.map (·.event)) :=
    Identified.of_conforms (List.forall_mem_map.2 hconform)
  obtain ⟨es', s, hes', hadm⟩ := h.admits
  obtain rfl : es = es' :=
    List.map_injective_iff.2 (fun _ _ => Option.some.inj) (hes.symm.trans hes')
  exact ⟨(hadm.claimRun hids).lifecycles hidentified, hadm.acceptance_causation⟩

end

/-! ### An acceptance behind a progress event -/

/-- The identifiers of the sample. -/
def sampleID (n : Nat) : String := "01890000-0000-7000-8000-0000000000" ++ toString (10 + n)

def sampleDigest : String := "sha-256:" ++ String.ofList (List.replicate 64 '0')

/-- A claim, an offer on it, progress, and the acceptance of the offer. -/
def progressedEvents : List Event :=
  let event (n : Nat) (type : EventType) (causation : Option String) (data : Object) : Event :=
    { specversion := "0.1", id := sampleID n, type, channel := "channel",
      participantID := "participant", work := some "work", correlationID := some (sampleID 0),
      causationID := causation,
      data := [("claim_id", .text (sampleID 7)), ("generation", .text "1")] ++ data,
      evidence := [] }
  [event 0 .claim none
      [("scope", .text "design"), ("boundary", .text "b"), ("expected_active_claims", .texts [])],
    event 1 .handoffOffer (some (sampleID 0))
      [("handoff_id", .text (sampleID 8)), ("parent_claim_event_id", .text (sampleID 0)),
        ("to_participant_instance_id", .text (sampleID 9)), ("boundary", .text "b"),
        ("boundary_digest", .text sampleDigest), ("evidence_set_digest", .text sampleDigest),
        ("next_action", .text "n"), ("unresolved_risks", .texts [])],
    event 2 .progress (some (sampleID 1))
      [("parent_claim_event_id", .text (sampleID 1)), ("status", .text "started"),
        ("summary", .text "s"), ("completed", .texts []), ("remaining", .texts []),
        ("blocked_by", .texts [])],
    event 3 .handoffAccept (some (sampleID 1))
      [("handoff_id", .text (sampleID 8)), ("offer_event_id", .text (sampleID 1)),
        ("source_claim_event_id", .text (sampleID 0)), ("boundary_digest", .text sampleDigest),
        ("evidence_set_digest", .text sampleDigest)]]

/-- The canonical bytes of an event are its index. -/
def progressedCodec : Codec where
  decodeEvent bytes := bytes.head?.bind fun n => progressedEvents[n.toNat]?
  participantInstanceID bytes := if bytes.head?.any (· < 3) then sampleID 6 else sampleID 9
  descriptorDigest _ := ""
  evidenceDigest _ := sampleDigest
  boundaryDigest _ _ _ _ _ _ := sampleDigest

def progressedEntries : List Entry :=
  progressedEvents.mapIdx fun n event => ⟨.of event, if n < 3 then sampleID 6 else sampleID 9⟩

theorem progressed_admitted : Admitted progressedCodec ((List.range 4).map sampleRecord) ∧
      Entries progressedCodec ((List.range 4).map sampleRecord) progressedEntries :=
  ⟨admitted_of_validate (fun _ => rfl) (by decide), by rfl⟩

theorem progressed_conforms : ∀ r ∈ (List.range 4).map sampleRecord, ∀ event,
    progressedCodec.decodeEvent r.canonicalEvent = some event → Conforms event := by
  have hvalid : ∀ event ∈ progressedEvents, validEnvelope event = true := by decide
  intro r _ event h
  obtain ⟨n, -, hget⟩ := Option.bind_eq_some_iff.1 h
  exact validEnvelope_conforms (hvalid event (List.mem_of_getElem? hget))

/-- The events of a claim need not name each other in order: an acceptance names its offer, which
may be older than the last event of the claim. -/
theorem acceptance_behind_progress : ¬ ∀ (codec : Codec) (records : List AcceptedRecord)
    (es : List Entry), Admitted codec records → Entries codec records es →
      (∀ r ∈ records, ∀ event, codec.decodeEvent r.canonicalEvent = some event → Conforms event) →
      ∀ claim, (claimEvents (es.map (·.event)) claim).IsChain fun a b => b.causation = a.id := by
  intro h
  have hchain := h progressedCodec _ progressedEntries progressed_admitted.1 progressed_admitted.2
    progressed_conforms (sampleID 7, "1")
  revert hchain
  decide

/-- The lifecycle of that claim. -/
theorem claim_lifecycle_progressed :
    (claimEvents (progressedEntries.map (·.event)) (sampleID 7, "1")).map (·.kind) =
      [.claim, .handoffOffer, .progress, .handoffAccept] ∧
    Lifecycles (progressedEntries.map (·.event)) ∧
      ∀ e ∈ progressedEntries, e.event.kind = .handoffAccept →
        e.event.causation = e.event.offerID :=
  ⟨by rfl, claim_lifecycle progressed_admitted.1 progressed_admitted.2 progressed_conforms⟩

/-! ## Causes -/

/-- **Causes come first.** The event that an event of an admitted transcript names as its cause is
an earlier one of the same channel and work, and of the same correlation, except for a claim whose
cause is the acceptance that it consumes. -/
theorem causes_come_first {codec : Codec} {records : List AcceptedRecord} {pre post : List Entry}
    {e : Entry} (h : Admitted codec records) (hes : Entries codec records (pre ++ e :: post))
    (hcause : e.event.causation ≠ "") : ∃ cause ∈ pre, cause.event.id = e.event.causation ∧
      cause.event.channel = e.event.channel ∧ cause.event.work = e.event.work ∧
      (cause.event.correlation = e.event.correlation ∨
        e.event.kind = .claim ∧ e.event.predecessor = e.event.causation) := by
  obtain ⟨es, s, hes', hadm⟩ := h.admits
  obtain rfl : pre ++ e :: post = es :=
    List.map_injective_iff.2 (fun _ _ => Option.some.inj) (hes.symm.trans hes')
  obtain ⟨s₀, s₁, hpre, -, hc, -⟩ := hadm.at
  obtain ⟨_, hcaused⟩ := checkCausation_ok hc hcause
  obtain ⟨hid, cause, hmem, rfl⟩ := hpre.tracks.events _ _ hcaused.get
  exact ⟨cause, hmem, hid, hcaused.channel, hcaused.work, hcaused.correlation⟩

theorem causes_come_first_progressed :
    ∃ cause ∈ progressedEntries.take 3, cause.event.id = sampleID 1 := by
  have hes : Entries progressedCodec _ (progressedEntries.take 3 ++ _ :: []) :=
    progressed_admitted.2
  obtain ⟨cause, hmem, hid, -⟩ := causes_come_first progressed_admitted.1 hes (by decide)
  exact ⟨cause, hmem, hid⟩

end YukhCoordination.Relay.Service
