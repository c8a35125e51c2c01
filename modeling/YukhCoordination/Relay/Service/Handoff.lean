import Mathlib.Data.List.Induction
import YukhCoordination.Relay.Service.Replay

/-!
# Handoffs

`Tracks` relates the validator's state to the entries before it. Offers leave a claim only together,
so offers that were open together exclude each other (`Excludes`).
-/

namespace YukhCoordination.Relay.Service

open Protocol Transaction

/-- The offer that an acceptance names. -/
abbrev TransitionEvent.offerID (event : TransitionEvent) : String :=
  text event.data "offer_event_id"

/-- The acceptance that a claim names. -/
abbrev TransitionEvent.predecessor (event : TransitionEvent) : String :=
  text event.data "predecessor_handoff_event"

/-- An event of the entries accepts the offer. -/
def AcceptedIn (es : List Entry) (offer : String) : Prop :=
  ∃ e ∈ es, e.event.kind = .handoffAccept ∧ e.event.offerID = offer

/-- The claim was started by the entry. -/
structure Starts (e : Entry) (key : String) (claim : ClaimState) : Prop where
  kind : e.event.kind = .claim
  key : payloadKey e.event.data = key
  root : claim.root = e.event.id
  id : claim.id = text e.event.data "claim_id"
  generation : claim.generation = text e.event.data "generation"
  work : claim.work = e.event.work

/-- The claims, offers and acceptances that entries led to, in terms of the entries. -/
structure Handoffs (es : List Entry) (s : TranscriptState) : Prop where
  used : ∀ key claim, s.claims.get? key = some claim → key ∈ s.used
  claims : ∀ key claim, s.claims.get? key = some claim → ∃ e ∈ es, Starts e key claim
  offers : ∀ id offer, s.offers.get? id = some offer → ∃ e ∈ es,
    e.event.kind = .handoffOffer ∧ e.event.id = id ∧
      offer = { newOffer e.event with accepted := offer.accepted }
  isOpen : ∀ key claim, s.claims.get? key = some claim → ∀ id ∈ claim.offers,
    ∃ offer, s.offers.get? id = some offer ∧ offer.claim = key ∧ offer.accepted = false
  acceptedOffer : ∀ e ∈ es, e.event.kind = .handoffAccept →
    ∃ offer, s.offers.get? e.event.offerID = some offer ∧ offer.accepted
  accepted : ∀ id participant, s.accepted.get? id = some participant → ∃ e ∈ es,
    e.event.kind = .handoffAccept ∧ e.event.id = id ∧ e.participant = participant
  consumed : ∀ e ∈ es, e.event.kind = .claim → e.event.predecessor ≠ "" →
    s.accepted.get? e.event.predecessor = none ∧
      ∃ e' ∈ es, e'.event.kind = .handoffAccept ∧ e'.event.id = e.event.predecessor

/-- The state that entries led to, in terms of the entries. -/
structure Tracks (es : List Entry) (s : TranscriptState) : Prop extends Handoffs es s where
  ids : (es.map (·.event.id)).Nodup
  events : ∀ id event, s.events.get? id = some event → event.id = id ∧ ∃ e ∈ es, e.event = event

theorem Tracks.nil : Tracks [] {} where
  used := nofun
  claims := nofun
  offers := nofun
  isOpen := nofun
  acceptedOffer := nofun
  accepted := nofun
  consumed := nofun
  ids := List.nodup_nil
  events := nofun

section
variable {codec : Codec} {es : List Entry} {s s' : TranscriptState} {e : Entry}

theorem exists_mem_snoc {P : Entry → Prop} (h : ∃ e' ∈ es, P e') : ∃ e' ∈ es ++ [e], P e' := by
  obtain ⟨e', he', hp⟩ := h
  exact ⟨e', List.mem_append_left _ he', hp⟩

theorem forall_mem_snoc {P : Entry → Prop} (h : ∀ e' ∈ es, P e') (he : P e) :
    ∀ e' ∈ es ++ [e], P e' := by
  intro e' he'
  rcases List.mem_append.1 he' with he' | he'
  · exact h e' he'
  · rwa [List.mem_singleton.1 he']

/-! ## One event -/

/-- An event that neither claims nor accepts adds nothing to what was claimed and accepted. -/
theorem Handoffs.extend (h : Handoffs es s) (hclaim : e.event.kind ≠ .claim)
    (haccept : e.event.kind ≠ .handoffAccept) : Handoffs (es ++ [e]) s where
  used := h.used
  claims key claim hget := exists_mem_snoc (h.claims key claim hget)
  offers id offer hget := exists_mem_snoc (h.offers id offer hget)
  isOpen := h.isOpen
  acceptedOffer := forall_mem_snoc h.acceptedOffer fun hk => absurd hk haccept
  accepted id participant hget := exists_mem_snoc (h.accepted id participant hget)
  consumed := by
    refine forall_mem_snoc (fun e' he' hk hp => ?_) fun hk => absurd hk hclaim
    obtain ⟨hnone, hex⟩ := h.consumed e' he' hk hp
    exact ⟨hnone, exists_mem_snoc hex⟩

variable {key participant id o o' : String} {claim : ClaimState} {accepted : Dict String String}
  {event : TransitionEvent} {offer : OfferState} {pre post : List Entry}

/-- A change of a claim that keeps what it was started with. -/
theorem Handoffs.setClaim (h : Handoffs es s) {claim' : ClaimState}
    (hget : s.claims.get? key = some claim) (hroot : claim'.root = claim.root)
    (hid : claim'.id = claim.id) (hgen : claim'.generation = claim.generation)
    (hwork : claim'.work = claim.work) (hopen : ∀ id ∈ claim'.offers,
      ∃ offer, s.offers.get? id = some offer ∧ offer.claim = key ∧ offer.accepted = false) :
    Handoffs es { s with claims := s.claims.set key claim' } where
  used := by
    intro key₁ claim₁ h₁
    rw [Dict.get?_set] at h₁
    split at h₁
    · next hk => exact hk ▸ h.used key claim hget
    · exact h.used key₁ claim₁ h₁
  claims := by
    intro key₁ claim₁ h₁
    rw [Dict.get?_set] at h₁
    split at h₁
    · next hk =>
      obtain rfl := Option.some.inj h₁
      obtain ⟨e', he', hs⟩ := h.claims key claim hget
      exact ⟨e', he', hs.kind, hs.key.trans hk.symm, hroot.trans hs.root, hid.trans hs.id,
        hgen.trans hs.generation, hwork.trans hs.work⟩
    · exact h.claims key₁ claim₁ h₁
  offers := h.offers
  isOpen := by
    intro key₁ claim₁ h₁
    rw [Dict.get?_set] at h₁
    split at h₁
    · next hk =>
      obtain rfl := Option.some.inj h₁
      exact hk ▸ hopen
    · exact h.isOpen key₁ claim₁ h₁
  acceptedOffer := h.acceptedOffer
  accepted := h.accepted
  consumed := h.consumed

/-- A new offer, under the id of an event that has none. -/
theorem Handoffs.setOffer (h : Handoffs es s) (he : e ∈ es) (hkind : e.event.kind = .handoffOffer)
    (hnone : s.offers.get? e.event.id = none) :
    Handoffs es { s with offers := s.offers.set e.event.id (newOffer e.event) } where
  used := h.used
  claims := h.claims
  offers := by
    intro id offer hget
    rw [Dict.get?_set] at hget
    split at hget
    · next hid =>
      obtain rfl := Option.some.inj hget
      exact ⟨e, he, hkind, hid.symm, rfl⟩
    · exact h.offers id offer hget
  isOpen := by
    intro key claim hget id hid
    obtain ⟨offer, ho, hrest⟩ := h.isOpen key claim hget id hid
    refine ⟨offer, ?_, hrest⟩
    rw [Dict.get?_set, if_neg (fun heq => by simp [heq, hnone] at ho)]
    exact ho
  acceptedOffer := by
    intro e' he' hk
    obtain ⟨offer, ho, hacc⟩ := h.acceptedOffer e' he' hk
    refine ⟨offer, ?_, hacc⟩
    rw [Dict.get?_set, if_neg (fun heq => by simp [heq, hnone] at ho)]
    exact ho
  accepted := h.accepted
  consumed := h.consumed

/-- An event whose id is new has made no offer. -/
theorem Handoffs.no_offer (h : Handoffs es s) (hfresh : ∀ e' ∈ es, e'.event.id ≠ e.event.id) :
    s.offers.get? e.event.id = none := by
  cases hget : s.offers.get? e.event.id with
  | none => rfl
  | some offer =>
    obtain ⟨e', he', -, hid, -⟩ := h.offers _ _ hget
    exact absurd hid (hfresh e' he')

/-- What is left of the acceptances was there before. -/
theorem Consumes.get? (hc : Consumes s event participant accepted)
    {who : String} (hget : accepted.get? id = some who) : s.accepted.get? id = some who := by
  cases hc with
  | nothing => exact hget
  | one =>
    rw [Dict.get?_erase] at hget
    split at hget
    · cases hget
    · exact hget

/-- A claim that names an acceptance consumes one by its publisher. -/
theorem Consumes.predecessor (hc : Consumes s event participant accepted)
    (hparticipant : participant ≠ "") (hp : event.predecessor ≠ "") :
    event.causation = event.predecessor ∧ s.accepted.get? event.predecessor = some participant := by
  cases hc with
  | nothing hnone => exact absurd hnone hp
  | one _ hby hcause =>
    refine ⟨hcause, ?_⟩
    cases hget : s.accepted.get? event.predecessor with
    | none =>
      rw [hget] at hby
      exact absurd hby.symm hparticipant
    | some who =>
      rw [hget] at hby
      exact congrArg some hby

theorem Handoffs.claimed (h : Handoffs es s) (hkind : e.event.kind = .claim)
    (hc : Consumes s e.event e.participant accepted) (hparticipant : e.participant ≠ "") :
    Handoffs (es ++ [e]) { s with
      accepted, used := s.used ++ [payloadKey e.event.data],
      claims := s.claims.set (payloadKey e.event.data) (newClaim e.event) } where
  used := by
    intro key claim hget
    rw [Dict.get?_set] at hget
    split at hget
    · next hk => simp [hk]
    · exact List.mem_append_left _ (h.used key claim hget)
  claims := by
    intro key claim hget
    rw [Dict.get?_set] at hget
    split at hget
    · next hk =>
      obtain rfl := Option.some.inj hget
      exact ⟨e, by simp, hkind, hk.symm, rfl, rfl, rfl, rfl⟩
    · exact exists_mem_snoc (h.claims key claim hget)
  offers id offer hget := exists_mem_snoc (h.offers id offer hget)
  isOpen := by
    intro key claim hget id hid
    rw [Dict.get?_set] at hget
    split at hget
    · obtain rfl := Option.some.inj hget
      cases hid
    · exact h.isOpen key claim hget id hid
  acceptedOffer := forall_mem_snoc h.acceptedOffer fun hk => by simp [hkind] at hk
  accepted id participant hget := exists_mem_snoc (h.accepted id participant (hc.get? hget))
  consumed := by
    refine forall_mem_snoc (fun e' he' hk hp => ?_) fun _ hp => ?_
    · obtain ⟨hnone, hex⟩ := h.consumed e' he' hk hp
      refine ⟨?_, exists_mem_snoc hex⟩
      refine Option.eq_none_iff_forall_ne_some.2 fun participant hget => ?_
      rw [hc.get? hget] at hnone
      cases hnone
    · obtain ⟨e', he', hk', hid', -⟩ := h.accepted _ _ (hc.predecessor hparticipant hp).2
      refine ⟨?_, exists_mem_snoc ⟨e', he', hk', hid'⟩⟩
      cases hc with
      | nothing hnone => exact absurd hnone hp
      | one => simp [Dict.get?_erase]

/-- An offer is found under the id of its event. -/
theorem Handoffs.eventID (h : Handoffs es s)
    (hget : s.offers.get? id = some offer) : offer.eventID = id := by
  obtain ⟨e', -, -, hid, heq⟩ := h.offers id offer hget
  rw [heq]
  exact hid

theorem Handoffs.accepted_offer (h : Handoffs es s) (hkind : e.event.kind = .handoffAccept)
    (hfresh : ∀ e' ∈ es, e'.event.id ≠ e.event.id)
    (ha : Accepts s e.event e.participant offer claim) :
    Handoffs (es ++ [e]) { s with
      offers := s.offers.map fun id o =>
        if id = offer.eventID ∨ id ∈ claim.offers then { o with accepted := true } else o,
      claims := s.claims.set offer.claim { claim with last := e.event.id, offers := [] },
      accepted := s.accepted.set e.event.id e.participant } := by
  have h₁ : Handoffs es { s with
      claims := s.claims.set offer.claim { claim with last := e.event.id, offers := [] } } :=
    h.setClaim ha.getClaim rfl rfl rfl rfl nofun
  refine ⟨h₁.used, fun key claim₁ hget => exists_mem_snoc (h₁.claims key claim₁ hget),
    fun id o hget => ?_, fun key claim₁ hget id hid => ?_, ?_, fun id participant hget => ?_, ?_⟩
  · rw [Dict.get?_map] at hget
    obtain ⟨o₀, ho₀, rfl⟩ := Option.map_eq_some_iff.1 hget
    obtain ⟨e', he', hk', hid', heq⟩ := h.offers id o₀ ho₀
    refine exists_mem_snoc ⟨e', he', hk', hid', ?_⟩
    split <;> rw [heq]
  · -- The offers of other claims are not among those that are marked.
    have hne : key ≠ offer.claim := by
      rintro rfl
      simp only [Dict.get?_set, if_true, Option.some.injEq] at hget
      rw [← hget] at hid
      cases hid
    obtain ⟨o, ho, hkey, hpending⟩ := h₁.isOpen key claim₁ hget id hid
    refine ⟨o, ?_, hkey, hpending⟩
    rw [Dict.get?_map, ho, Option.map_some, if_neg]
    have hother : id ∉ claim.offers := by
      intro hmem
      obtain ⟨o', ho', hkey', -⟩ := h.isOpen offer.claim claim ha.getClaim id hmem
      rw [ho] at ho'
      obtain rfl := Option.some.inj ho'
      exact hne (hkey.symm.trans hkey')
    rintro (rfl | hmem)
    · exact hother ha.isOpen
    · exact hother hmem
  · refine forall_mem_snoc (fun e' he' hk' => ?_) fun _ => ?_
    · obtain ⟨o, ho, hacc⟩ := h.acceptedOffer e' he' hk'
      refine ⟨_, by rw [Dict.get?_map, ho, Option.map_some], ?_⟩
      split
      · rfl
      · exact hacc
    · refine ⟨_, by rw [Dict.get?_map, ha.getOffer, Option.map_some], ?_⟩
      rw [if_pos (.inl (h.eventID ha.getOffer).symm)]
  · rw [Dict.get?_set] at hget
    split at hget
    · next hid => exact ⟨e, by simp, hkind, hid.symm, Option.some.inj hget⟩
    · exact exists_mem_snoc (h.accepted id participant hget)
  · refine forall_mem_snoc (fun e' he' hk' hp => ?_) fun hk' => by simp [hkind] at hk'
    obtain ⟨hnone, e₁, he₁, hk₁, hid₁⟩ := h.consumed e' he' hk' hp
    refine ⟨?_, exists_mem_snoc ⟨e₁, he₁, hk₁, hid₁⟩⟩
    rw [Dict.get?_set, if_neg (hid₁ ▸ hfresh e₁ he₁)]
    exact hnone

theorem Refers.kind_ne (h : Refers codec s event) :
    event.kind ≠ .claim ∧ event.kind ≠ .handoffAccept := by
  unfold Refers at h
  constructor <;> intro hk <;> simp [hk] at h

/-- **One event.** What the state says of the entries is kept by every transition. -/
theorem Handoffs.transition (h : Handoffs es s) (hfresh : ∀ e' ∈ es, e'.event.id ≠ e.event.id)
    (hparticipant : e.participant ≠ "") (ht : Transition codec s e.event e.participant s') :
    Handoffs (es ++ [e]) s' := by
  cases ht with
  | claimed hk _ hc _ => exact h.claimed hk hc hparticipant
  | @progressed claim hk hf =>
    exact (h.extend (by simp [hk]) (by simp [hk])).setClaim hf.get rfl rfl rfl rfl
      (h.isOpen _ claim hf.get)
  | released hk hf =>
    exact (h.extend (by simp [hk]) (by simp [hk])).setClaim hf.get rfl rfl rfl rfl nofun
  | @offered claim hk hf =>
    have hnone := h.no_offer hfresh
    have h₁ := (h.extend (e := e) (by simp [hk]) (by simp [hk])).setOffer (by simp) hk hnone
    refine h₁.setClaim hf.get rfl rfl rfl rfl fun id hid => ?_
    rcases List.mem_append.1 hid with hid | hid
    · exact h₁.isOpen _ claim hf.get id hid
    · obtain rfl := List.mem_singleton.1 hid
      exact ⟨newOffer e.event, by simp [Dict.get?_set], rfl, rfl⟩
  | accepted hk ha => exact h.accepted_offer hk hfresh ha
  | referred hr => exact h.extend hr.kind_ne.1 hr.kind_ne.2

theorem Handoffs.record (h : Handoffs es s) (event : TransitionEvent) :
    Handoffs es (s.record event) :=
  ⟨h.used, h.claims, h.offers, h.isOpen, h.acceptedOffer, h.accepted, h.consumed⟩

/-- The switch of `apply` leaves the events alone. -/
theorem Transition.events_eq
    (ht : Transition codec s event participant s') : s'.events = s.events := by
  cases ht <;> rfl

/-! ## Whole transcripts -/

/-- An admitted event made a transition and was recorded. -/
theorem apply_transition (h : apply codec s e.event e.participant true true = .ok s') :
    checkCausation s e.event = .ok () ∧
      ∃ s₁, Transition codec s e.event e.participant s₁ ∧ s' = s₁.record e.event := by
  obtain ⟨hc, s₁, hk, hs'⟩ := apply_eq.1 h
  exact ⟨hc, s₁, applyKind_ok hk, hs'⟩

/-- **The invariant.** The state that an admitted transcript leads to tracks its entries. -/
theorem Admits.tracks (h : Admits codec es s) : Tracks es s := by
  induction h with
  | nil => exact .nil
  | @snoc es s s' e _ hfresh hparticipant happly ih =>
    obtain ⟨-, s₁, ht, rfl⟩ := apply_transition happly
    refine ⟨(ih.transition hfresh hparticipant ht).record _, ?_, fun id event hget => ?_⟩
    · rw [List.map_append, List.map_singleton, List.nodup_append]
      refine ⟨ih.ids, List.nodup_singleton _, fun id hid id' hid' => ?_⟩
      obtain ⟨e', he', rfl⟩ := List.mem_map.1 hid
      obtain rfl := List.mem_singleton.1 hid'
      exact hfresh e' he'
    · rw [TranscriptState.record, ht.events_eq, Dict.get?_set] at hget
      split at hget
      · next hid =>
        obtain rfl := Option.some.inj hget
        exact ⟨hid.symm, e, by simp, rfl⟩
      · obtain ⟨hid, hex⟩ := ih.events id event hget
        exact ⟨hid, exists_mem_snoc hex⟩

/-- A beginning of an admitted transcript was admitted. -/
theorem Admits.of_append (h : Admits codec (pre ++ post) s) : ∃ s₀, Admits codec pre s₀ := by
  induction post using List.reverseRecOn generalizing s with
  | nil => exact ⟨s, by simpa using h⟩
  | append_singleton post e ih =>
    rw [← List.append_assoc] at h
    generalize hes : pre ++ post ++ [e] = es at h
    cases h with
    | nil => simp at hes
    | snoc hpre _ _ _ =>
      obtain ⟨rfl, -⟩ := List.append_inj' hes rfl
      exact ih hpre

/-- The last event of an admitted transcript was admitted in the state before it. -/
theorem Admits.last (h : Admits codec (es ++ [e]) s') :
    ∃ s, Admits codec es s ∧ (∀ e' ∈ es, e'.event.id ≠ e.event.id) ∧ e.participant ≠ "" ∧
      apply codec s e.event e.participant true true = .ok s' := by
  generalize hes : es ++ [e] = es' at h
  cases h with
  | nil => simp at hes
  | snoc hpre hfresh hparticipant happly =>
    obtain ⟨rfl, hlast⟩ := List.append_inj' hes rfl
    obtain rfl := List.singleton_inj.1 hlast
    exact ⟨_, hpre, hfresh, hparticipant, happly⟩

/-- A transcript leads to one state. -/
theorem Admits.unique (h : Admits codec es s) (h' : Admits codec es s') : s = s' := by
  induction h generalizing s' with
  | nil =>
    generalize hes : ([] : List Entry) = es at h'
    cases h' with
    | nil => rfl
    | snoc => simp at hes
  | snoc _ _ _ happly ih =>
    obtain ⟨s₀, hs₀, -, -, happly'⟩ := h'.last
    rw [← ih hs₀, happly] at happly'
    exact Except.ok.inj happly'

/-! ## Offers that are open together -/

/-- The offer is open on the claim at `key`. -/
def OpenOn (s : TranscriptState) (key offer : String) : Prop :=
  ∃ claim, s.claims.get? key = some claim ∧ offer ∈ claim.offers

/-- The event closes the offers of the claim at `key`: it releases the claim or accepts an offer on
it. -/
def Closes (s : TranscriptState) (event : TransitionEvent) (key : String) : Prop :=
  event.kind = .release ∧ payloadKey event.data = key ∨
    event.kind = .handoffAccept ∧ ∃ offer, s.offers.get? event.offerID = some offer ∧
      offer.claim = key

/-- Setting a claim changes what is open on it and nothing else. -/
theorem openOn_set {used : List String} {offers : Dict String OfferState} {key₁ : String} :
    OpenOn { s with accepted, used, offers, claims := s.claims.set key₁ claim } key id ↔
      if key = key₁ then id ∈ claim.offers else OpenOn s key id := by
  unfold OpenOn
  simp only [Dict.get?_set]
  split <;> simp

theorem openOn_iff (hget : s.claims.get? key = some claim) :
    OpenOn s key id ↔ id ∈ claim.offers := by
  simp [OpenOn, hget]

/-- **One event.** An event keeps the offers of a claim open or closes all of them. -/
theorem Handoffs.openOn (h : Handoffs es s) (ht : Transition codec s event participant s')
    (hid : id ≠ event.id) : OpenOn s' key id ↔ OpenOn s key id ∧ ¬ Closes s event key := by
  have hstays (hr : event.kind ≠ .release) (ha : event.kind ≠ .handoffAccept) :
      ¬ Closes s event key := by
    rintro (⟨hk, -⟩ | ⟨hk, -⟩)
    · exact hr hk
    · exact ha hk
  cases ht with
  | claimed hk hused _ _ =>
    rw [openOn_set, and_iff_left (hstays (by simp [hk]) (by simp [hk]))]
    split
    · next hkey =>
      subst hkey
      refine iff_of_false (by simp [newClaim]) ?_
      rintro ⟨claim, hget, -⟩
      exact hused (h.used _ claim hget)
    · rfl
  | progressed hk hf =>
    rw [openOn_set, and_iff_left (hstays (by simp [hk]) (by simp [hk]))]
    split
    · next hkey => rw [hkey, openOn_iff hf.get]
    · rfl
  | released hk hf =>
    rw [openOn_set]
    split
    · next hkey => simp [Closes, hk, hkey]
    · next hkey => simp [Closes, hk, Ne.symm hkey]
  | offered hk hf _ =>
    rw [openOn_set, and_iff_left (hstays (by simp [hk]) (by simp [hk]))]
    split
    · next hkey => simp [hkey, openOn_iff hf.get, hid]
    · rfl
  | accepted hk ha =>
    rw [openOn_set]
    split
    · next hkey => simp [Closes, hk, hkey, ha.getOffer]
    · next hkey => simp [Closes, hk, Ne.symm hkey, ha.getOffer]
  | referred hr =>
    rw [and_iff_left (hstays ?_ hr.kind_ne.2)]
    intro hk
    simp [Refers, hk] at hr

/-- What an acceptance needs: its offer is open on the claim that it closes. -/
theorem Handoffs.accepts_open (h : Handoffs es s)
    (ht : Transition codec s event participant s') (hk : event.kind = .handoffAccept) :
    ∃ offer claim, Accepts s event participant offer claim ∧
      OpenOn s offer.claim event.offerID := by
  cases ht with
  | accepted _ ha =>
    have hopen := ha.isOpen
    rw [h.eventID ha.getOffer] at hopen
    exact ⟨_, _, ha, _, ha.getClaim, hopen⟩
  | referred hr => exact absurd hk hr.kind_ne.2
  | _ => simp_all

/-- An open offer was made, is open on one claim, and was not accepted. -/
theorem Handoffs.of_open (h : Handoffs es s) (ho : OpenOn s key id) :
    id ∈ es.map (·.event.id) ∧ (∀ key', OpenOn s key' id → key' = key) ∧ ¬ AcceptedIn es id := by
  obtain ⟨claim, hget, hid⟩ := ho
  obtain ⟨offer, hoffer, hkey, hpending⟩ := h.isOpen key claim hget id hid
  refine ⟨?_, ?_, ?_⟩
  · obtain ⟨e, he, -, heid, -⟩ := h.offers id offer hoffer
    exact List.mem_map.2 ⟨e, he, heid⟩
  · rintro key' ⟨claim', hget', hid'⟩
    obtain ⟨offer', hoffer', hkey', -⟩ := h.isOpen key' claim' hget' id hid'
    rw [hoffer] at hoffer'
    rw [← hkey', ← hkey, Option.some.inj hoffer']
  · rintro ⟨e, he, hk, rfl⟩
    obtain ⟨offer', hoffer', hacc⟩ := h.acceptedOffer e he hk
    rw [hoffer] at hoffer'
    rw [Option.some.inj hoffer', hacc] at hpending
    cases hpending

/-- Two offers of the entries are open on one claim, or closed and not both accepted. -/
structure Excludes (es : List Entry) (s : TranscriptState) (o o' : String) : Prop where
  left : o ∈ es.map (·.event.id)
  right : o' ∈ es.map (·.event.id)
  state : (∃ key, OpenOn s key o ∧ OpenOn s key o') ∨
    (∀ key, ¬ OpenOn s key o ∧ ¬ OpenOn s key o') ∧ ¬ (AcceptedIn es o ∧ AcceptedIn es o')

theorem Excludes.not_both (h : Handoffs es s) (hx : Excludes es s o o') :
    ¬ (AcceptedIn es o ∧ AcceptedIn es o') := by
  rcases hx.state with ⟨key, ho, -⟩ | ⟨-, hboth⟩
  · exact fun hacc => (h.of_open ho).2.2 hacc.1
  · exact hboth

theorem acceptedIn_snoc : AcceptedIn (es ++ [e]) o ↔
    AcceptedIn es o ∨ e.event.kind = .handoffAccept ∧ e.event.offerID = o := by
  simp [AcceptedIn, or_and_right, exists_or]

/-- **One event.** Offers that exclude each other go on doing so. -/
theorem Excludes.transition (h : Handoffs es s) (hfresh : ∀ e' ∈ es, e'.event.id ≠ e.event.id)
    (ht : Transition codec s e.event e.participant s') (hne : o ≠ o')
    (hx : Excludes es s o o') : Excludes (es ++ [e]) s' o o' := by
  have hnew {id : String} (hid : id ∈ es.map (·.event.id)) : id ≠ e.event.id := by
    obtain ⟨e', he', rfl⟩ := List.mem_map.1 hid
    exact hfresh e' he'
  have hold {id : String} (hid : id ∈ es.map (·.event.id)) : id ∈ (es ++ [e]).map (·.event.id) := by
    rw [List.map_append]
    exact List.mem_append_left _ hid
  refine ⟨hold hx.left, hold hx.right, ?_⟩
  rcases hx.state with ⟨key, ho, ho'⟩ | ⟨hshut, hboth⟩
  · by_cases hcloses : Closes s e.event key
    · refine .inr ⟨fun key' => ⟨fun hopen => ?_, fun hopen => ?_⟩, ?_⟩
      · obtain ⟨hopen, hkeeps⟩ := (h.openOn ht (hnew hx.left)).1 hopen
        exact hkeeps ((h.of_open ho).2.1 key' hopen ▸ hcloses)
      · obtain ⟨hopen, hkeeps⟩ := (h.openOn ht (hnew hx.right)).1 hopen
        exact hkeeps ((h.of_open ho').2.1 key' hopen ▸ hcloses)
      · -- Neither was accepted before, and the event accepts one of them at most.
        rw [acceptedIn_snoc, acceptedIn_snoc]
        rintro ⟨hacc | ⟨-, rfl⟩, hacc' | ⟨-, hid⟩⟩
        · exact (h.of_open ho).2.2 hacc
        · exact (h.of_open ho).2.2 hacc
        · exact (h.of_open ho').2.2 hacc'
        · exact hne hid
    · exact .inl ⟨key, (h.openOn ht (hnew hx.left)).2 ⟨ho, hcloses⟩,
        (h.openOn ht (hnew hx.right)).2 ⟨ho', hcloses⟩⟩
  · refine .inr ⟨fun key => ⟨fun hopen => ?_, fun hopen => ?_⟩, ?_⟩
    · exact (hshut key).1 ((h.openOn ht (hnew hx.left)).1 hopen).1
    · exact (hshut key).2 ((h.openOn ht (hnew hx.right)).1 hopen).1
    · rw [acceptedIn_snoc, acceptedIn_snoc]
      rintro ⟨hacc, hacc'⟩
      refine hboth ⟨hacc.resolve_right ?_, hacc'.resolve_right ?_⟩
      · rintro ⟨hk, rfl⟩
        obtain ⟨offer, -, -, hopen⟩ := h.accepts_open ht hk
        exact (hshut _).1 hopen
      · rintro ⟨hk, rfl⟩
        obtain ⟨offer, -, -, hopen⟩ := h.accepts_open ht hk
        exact (hshut _).2 hopen

/-- Offers that are open on one claim exclude each other from then on. -/
theorem Admits.excludes (hpre : Admits codec pre s)
    (h : Admits codec (pre ++ post) s') (ho : OpenOn s key o)
    (ho' : OpenOn s key o') (hne : o ≠ o') : Excludes (pre ++ post) s' o o' := by
  induction post using List.reverseRecOn generalizing s' with
  | nil =>
    rw [List.append_nil] at h ⊢
    obtain rfl := hpre.unique h
    exact ⟨(hpre.tracks.of_open ho).1, (hpre.tracks.of_open ho').1, .inl ⟨key, ho, ho'⟩⟩
  | append_singleton post e ih =>
    rw [← List.append_assoc] at h ⊢
    obtain ⟨s₁, hs₁, hfresh, -, happly⟩ := h.last
    obtain ⟨-, s₂, ht, rfl⟩ := apply_transition happly
    obtain ⟨hleft, hright, hstate⟩ := (ih hs₁).transition hs₁.tracks.toHandoffs hfresh ht hne
    exact ⟨hleft, hright, hstate⟩

/-! ## Compare and set -/

/-- The acceptance repeats the offer and the claim that the offer is on, which `root` started. -/
structure Repeats (root offer acceptance : Entry) : Prop where
  kind : offer.event.kind = .handoffOffer
  id : offer.event.id = acceptance.event.offerID
  recipient : acceptance.participant = text offer.event.data "to_participant_instance_id"
  handoffID : text acceptance.event.data "handoff_id" = text offer.event.data "handoff_id"
  boundaryDigest :
    text acceptance.event.data "boundary_digest" = text offer.event.data "boundary_digest"
  evidenceDigest :
    text acceptance.event.data "evidence_set_digest" = text offer.event.data "evidence_set_digest"
  claim : payloadKey offer.event.data = payloadKey root.event.data
  sourceClaim : text acceptance.event.data "source_claim_event_id" = root.event.id
  claimID : text acceptance.event.data "claim_id" = text root.event.data "claim_id"
  generation : text acceptance.event.data "generation" = text root.event.data "generation"

/-- The handoffs of a transcript are compare-and-set. -/
structure CompareAndSet (codec : Codec) (es : List Entry) : Prop where
  /-- No offer is accepted twice. -/
  acceptedOnce : es.Pairwise fun a b => a.event.kind = .handoffAccept →
    b.event.kind = .handoffAccept → a.event.offerID ≠ b.event.offerID
  /-- Of two offers that are open on a claim at one moment, one at most is accepted in all. -/
  exclusive : ∀ pre post s key claim o o', es = pre ++ post → Admits codec pre s →
    s.claims.get? key = some claim → o ∈ claim.offers → o' ∈ claim.offers → o ≠ o' →
    ¬ (AcceptedIn es o ∧ AcceptedIn es o')
  /-- An acceptance repeats an offer to its publisher that is open on an active claim. -/
  acceptance : ∀ pre a post, es = pre ++ a :: post → a.event.kind = .handoffAccept →
    ∃ s key claim, Admits codec pre s ∧ s.claims.get? key = some claim ∧ claim.active ∧
      a.event.offerID ∈ claim.offers ∧
      ∃ root ∈ pre, Starts root key claim ∧ ∃ offer ∈ pre, Repeats root offer a
  /-- No acceptance is the predecessor of two claims. -/
  consumedOnce : es.Pairwise fun a b => a.event.kind = .claim → b.event.kind = .claim →
    a.event.predecessor ≠ "" → a.event.predecessor ≠ b.event.predecessor
  /-- A claim with a predecessor is on the work of an acceptance by its publisher. -/
  successor : ∀ pre c post, es = pre ++ c :: post → c.event.kind = .claim →
    c.event.predecessor ≠ "" → ∃ a ∈ pre, a.event.kind = .handoffAccept ∧
      a.event.id = c.event.predecessor ∧ a.participant = c.participant ∧
      a.event.work = c.event.work

/-- What was checked of an event of an admitted transcript. -/
theorem Admits.at (h : Admits codec (pre ++ e :: post) s') :
    ∃ s s₁, Admits codec pre s ∧ e.participant ≠ "" ∧ checkCausation s e.event = .ok () ∧
      Transition codec s e.event e.participant s₁ := by
  rw [List.append_cons] at h
  obtain ⟨s₁, hs₁⟩ := h.of_append
  obtain ⟨s, hs, -, hparticipant, happly⟩ := hs₁.last
  obtain ⟨hc, s₂, ht, -⟩ := apply_transition happly
  exact ⟨s, s₂, hs, hparticipant, hc, ht⟩

/-- A claim with a predecessor consumes an acceptance by its publisher. -/
theorem Transition.predecessor (ht : Transition codec s event participant s')
    (hparticipant : participant ≠ "") (hk : event.kind = .claim) (hp : event.predecessor ≠ "") :
    event.causation = event.predecessor ∧ s.accepted.get? event.predecessor = some participant := by
  cases ht with
  | claimed _ _ hc _ => exact hc.predecessor hparticipant hp
  | referred hr => exact absurd hk hr.kind_ne.1
  | _ => simp_all

theorem Admits.acceptedOnce (h : Admits codec es s) : es.Pairwise fun a b =>
    a.event.kind = .handoffAccept → b.event.kind = .handoffAccept →
      a.event.offerID ≠ b.event.offerID := by
  induction h with
  | nil => exact .nil
  | @snoc es s s' e hes _ _ happly ih =>
    refine List.pairwise_append.2 ⟨ih, List.pairwise_singleton _ _, fun a ha b hb hka hkb => ?_⟩
    obtain rfl := List.mem_singleton.1 hb
    obtain ⟨-, s₁, ht, -⟩ := apply_transition happly
    obtain ⟨offer, claim, hacc, hopen⟩ := hes.tracks.accepts_open ht hkb
    exact fun heq => (hes.tracks.of_open hopen).2.2 ⟨a, ha, hka, heq⟩

theorem Admits.consumedOnce (h : Admits codec es s) : es.Pairwise fun a b =>
    a.event.kind = .claim → b.event.kind = .claim → a.event.predecessor ≠ "" →
      a.event.predecessor ≠ b.event.predecessor := by
  induction h with
  | nil => exact .nil
  | @snoc es s s' e hes _ hparticipant happly ih =>
    refine List.pairwise_append.2 ⟨ih, List.pairwise_singleton _ _,
      fun a ha b hb hka hkb hp heq => ?_⟩
    obtain rfl := List.mem_singleton.1 hb
    obtain ⟨-, s₁, ht, -⟩ := apply_transition happly
    obtain ⟨-, hget⟩ := ht.predecessor hparticipant hkb (heq ▸ hp)
    obtain ⟨hnone, -⟩ := hes.tracks.consumed a ha hka hp
    rw [heq, hget] at hnone
    cases hnone

theorem Handoffs.repeats (h : Handoffs es s) (ha : Accepts s e.event e.participant offer claim) :
    ∃ root ∈ es, Starts root offer.claim claim ∧ ∃ o ∈ es, Repeats root o e := by
  obtain ⟨root, hroot, hstarts⟩ := h.claims _ _ ha.getClaim
  obtain ⟨o, ho, hk, hid, heq⟩ := h.offers _ _ ha.getOffer
  refine ⟨root, hroot, hstarts, o, ho, ?_⟩
  have hclaim : offer.claim = payloadKey o.event.data := by rw [heq]; rfl
  exact {
    kind := hk
    id := hid
    recipient := ha.recipient.trans (by rw [heq]; rfl)
    handoffID := ha.handoffID.trans (by rw [heq]; rfl)
    boundaryDigest := ha.boundaryDigest.trans (by rw [heq]; rfl)
    evidenceDigest := ha.evidenceDigest.trans (by rw [heq]; rfl)
    claim := hclaim.symm.trans hstarts.key.symm
    sourceClaim := ha.root.trans hstarts.root
    claimID := ha.claimID.trans hstarts.id
    generation := ha.generation.trans hstarts.generation }

/-- An acceptance that a claim consumes was published on the work of the claim. -/
theorem Tracks.work (h : Tracks es s) (hc : checkCausation s e.event = .ok ())
    (hcause : e.event.causation = e.event.predecessor) (hp : e.event.predecessor ≠ "") {a : Entry}
    (ha : a ∈ es) (hid : a.event.id = e.event.predecessor) : a.event.work = e.event.work := by
  obtain ⟨parent, hcaused⟩ := checkCausation_ok hc (hcause ▸ hp)
  obtain ⟨hparent, a', ha', rfl⟩ := h.events _ _ hcaused.get
  have heq : a.event.id = a'.event.id := by rw [hid, hparent, hcause]
  rw [List.inj_on_of_nodup_map h.ids ha ha' heq]
  exact hcaused.work

/-- **Handoffs are compare-and-set.** In a transcript each of whose events `Validate` admitted
against the records before it, an offer is accepted at most once, of the offers that are open on a
claim at one moment at most one is ever accepted, an acceptance is by the recipient of an offer that
is open on an active claim and repeats the offer and the claim, and an acceptance is the predecessor
of at most one claim, on the same work and by the participant that accepted. -/
theorem handoff_compare_and_set {records : List AcceptedRecord} (h : Admitted codec records)
    (hes : Entries codec records es) : CompareAndSet codec es := by
  obtain ⟨es', s, hes', hadm⟩ := h.admits
  obtain rfl : es = es' :=
    List.map_injective_iff.2 (fun _ _ => Option.some.inj) (hes.symm.trans hes')
  refine ⟨hadm.acceptedOnce, ?_, ?_, hadm.consumedOnce, ?_⟩
  · rintro pre post s₀ key claim o o' rfl hpre hget ho ho' hne
    exact (hpre.excludes hadm ⟨claim, hget, ho⟩ ⟨claim, hget, ho'⟩ hne).not_both
      hadm.tracks.toHandoffs
  · rintro pre a post rfl hk
    obtain ⟨s₀, s₁, hpre, -, -, ht⟩ := hadm.at
    obtain ⟨offer, claim, ha, claim', hget, hopen⟩ := hpre.tracks.accepts_open ht hk
    obtain rfl : claim' = claim := Option.some.inj (hget.symm.trans ha.getClaim)
    exact ⟨s₀, offer.claim, claim', hpre, hget, ha.active, hopen, hpre.tracks.repeats ha⟩
  · rintro pre c post rfl hk hp
    obtain ⟨s₀, s₁, hpre, hparticipant, hc, ht⟩ := hadm.at
    obtain ⟨hcause, hget⟩ := ht.predecessor hparticipant hk hp
    obtain ⟨a, ha, hka, hid, hby⟩ := hpre.tracks.accepted _ _ hget
    exact ⟨a, ha, hka, hid, hby, hpre.tracks.work hc hcause hp ha hid⟩

end

/-! ### A handoff with its successor -/

/-- A transcript in which a claim is handed off and taken up again. -/
def sampleEvents : List Event :=
  let event (id : String) (type : EventType) (correlation : String) (causation : Option String)
      (data : List (String × String)) : Event :=
    { specversion := "0.1", id, type, channel := "channel", participantID := "participant",
      work := some "work", correlationID := some correlation, causationID := causation,
      data := data.map fun (key, value) => (key, .text value), evidence := [] }
  [event "1" .claim "1" none [("claim_id", "a"), ("generation", "1")],
    event "2" .handoffOffer "1" (some "1")
      [("claim_id", "a"), ("generation", "1"), ("parent_claim_event_id", "1"),
        ("handoff_id", "h"), ("to_participant_instance_id", "q"), ("boundary_digest", "b"),
        ("evidence_set_digest", "e")],
    event "3" .handoffAccept "1" (some "2")
      [("offer_event_id", "2"), ("handoff_id", "h"), ("source_claim_event_id", "1"),
        ("claim_id", "a"), ("generation", "1"), ("boundary_digest", "b"),
        ("evidence_set_digest", "e")],
    event "4" .claim "4" (some "3")
      [("claim_id", "b"), ("generation", "1"), ("predecessor_handoff_event", "3")]]

/-- The canonical bytes of an event are its index. -/
def sampleHandoffCodec : Codec where
  decodeEvent bytes := bytes.head?.bind fun n => sampleEvents[n.toNat]?
  participantInstanceID bytes := if bytes.head?.any (· < 2) then "p" else "q"
  descriptorDigest _ := ""
  evidenceDigest _ := "e"
  boundaryDigest _ _ _ _ _ _ := "b"

def sampleEntry (n : Nat) : Option Entry :=
  sampleEvents[n]?.map fun event => ⟨.of event, if n < 2 then "p" else "q"⟩

def sampleRecord (n : Nat) : AcceptedRecord where
  channel := ⟨"tenant", "channel", "1"⟩
  sequence := n + 1
  eventID := toString (n + 1)
  canonicalEvent := [UInt8.ofNat n]
  eventDigest := ""
  authenticatedBinding := []
  authorizationBinding := []
  receiptID := ""
  signingKeyID := ""
  signatureAlgorithm := ""
  unsignedReceiptPreimage := [UInt8.ofNat n]
  signature := []

/-- The view of a list of records. -/
def viewOf (records : List AcceptedRecord) : AdmissionView where
  lookup _ := .error .eventNotFound
  read after limit := .ok ((records.filter fun r => after < r.sequence).take limit)

/-- Records each of which validates against those before it are admitted. -/
theorem admitted_of_validate {codec : Codec} {record : Nat → AcceptedRecord} {count : Nat}
    (hseq : ∀ n, (record n).sequence = n + 1)
    (h : ∀ n < count, ∃ e, Entry.of codec (record n) = some e ∧
      (∀ m < n, (Entry.of codec (record m)).map (·.event.id) ≠ some e.event.id) ∧
      validate codec 1 (viewOf ((List.range n).map record)) (record n).canonicalEvent
        e.participant = some (.ok ())) : Admitted codec ((List.range count).map record) := by
  induction count with
  | zero => exact .nil
  | succ n ih =>
    obtain ⟨e, hentry, hids, hvalid⟩ := h n (Nat.lt_succ_self n)
    rw [List.range_succ, List.map_append]
    refine .snoc (ih fun m hm => h m (by omega)) (fun _ _ _ _ _ => rfl) hentry hvalid ?_ ?_
    · intro r hr
      obtain ⟨m, hm, rfl⟩ := List.mem_map.1 hr
      rw [hseq, hseq]
      exact ⟨Nat.succ_pos m, Nat.succ_lt_succ (List.mem_range.1 hm)⟩
    · intro r hr e' hentry'
      obtain ⟨m, hm, rfl⟩ := List.mem_map.1 hr
      have hne := hids m (List.mem_range.1 hm)
      rw [hentry'] at hne
      exact fun heq => hne (congrArg some heq)

theorem sampleRecord_admitted : Admitted sampleHandoffCodec ((List.range 4).map sampleRecord) :=
  admitted_of_validate (fun _ => rfl) (by decide)

/-- The compare-and-set of a claim, an offer on it, its acceptance and the successor claim. -/
theorem handoff_compare_and_set_successor :
    ∃ es, es.map (·.event.kind) = [.claim, .handoffOffer, .handoffAccept, .claim] ∧
      Admitted sampleHandoffCodec ((List.range 4).map sampleRecord) ∧
      Entries sampleHandoffCodec ((List.range 4).map sampleRecord) es ∧
      CompareAndSet sampleHandoffCodec es :=
  ⟨(List.range 4).filterMap sampleEntry, by rfl, sampleRecord_admitted,
    by rfl, handoff_compare_and_set (sampleRecord_admitted) (by rfl)⟩

end YukhCoordination.Relay.Service
