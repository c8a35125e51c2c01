import YukhCoordination.Coordination.JetStreamKV.Store

/-!
# Single use of a nonce

An entry is never overwritten, so its author is the one call that consumed it, unless a reconcile
read took equal bytes for its own (`consume_twice`).
-/

namespace YukhCoordination.JetStreamKV

open Coordination Interleave CasBucket

/-! ## What the calls rely on -/

/-- What call `i` relies on: the history of the nonce bucket, and that the entry of `key` stays. -/
structure NonceRely (key : Digest) (i : CallId) (w w' : World) : Prop where
  bucket : Bucket.Rely i w.nonces w'.nonces
  entry : ∀ e, w.nonces.entry key = some e → w'.nonces.entry key = some e

/-- The entry of `key` was committed by call `i`. -/
def Consumed (key : Digest) (i : CallId) (w : World) : Prop :=
  ∃ e, w.nonces.entry key = some e ∧ w.nonces.author e.revision = some i

section
variable {key : Digest} {i j : CallId} {w w' w'' : World}

theorem NonceRely.of_eq (h : w'.nonces = w.nonces) : NonceRely key i w w' :=
  ⟨h ▸ .refl i _, fun e he => by rw [h]; exact he⟩

theorem NonceRely.trans (h₁ : NonceRely key i w w') (h₂ : NonceRely key i w' w'') :
    NonceRely key i w w'' :=
  ⟨h₁.bucket.trans h₂.bucket, fun e he => h₂.entry e (h₁.entry e he)⟩

theorem NonceRely.consumed (h : NonceRely key i w w') (hw : w.nonces.WF)
    (hc : Consumed key j w) : Consumed key j w' := by
  obtain ⟨e, he, ha⟩ := hc
  exact ⟨e, h.entry e he, h.bucket.author hw ha⟩

/-- The retention of other keys keeps what every call relies on. -/
theorem NonceRely.expiry (h : Expiry (· ≠ key) w w') : NonceRely key i w w' := by
  cases h with
  | @nonce k hk => exact ⟨.drop, fun e he => (Bucket.drop_entry_of_ne (Ne.symm hk)).trans he⟩
  | lease => exact .of_eq rfl

/-- A request of a nonce call keeps the bucket well formed and what every other call relies on. -/
theorem sem_forNonces {r : Request} {ans : r.Answer} (hr : r.ForNonces) (hw : w.nonces.WF)
    (h : sem i r w ans w') : w'.nonces.WF ∧ ∀ j, j ≠ i → NonceRely key j w w' := by
  cases r with
  | nonces op =>
    obtain ⟨b, hb, rfl⟩ := h
    refine ⟨hb.wf hw, fun j hj => ⟨hb.rely hj, fun e he => hb.entry_kept ?_ he⟩⟩
    rintro value revision rfl
    exact hr
  | now =>
    cases h
    exact ⟨hw, fun j _ => .of_eq rfl⟩
  | leases | newLease | lock | unlock => exact hr.elim

/-- A request of a lease call leaves the nonce bucket as it is. -/
theorem sem_forLeases_nonces {r : Request} {ans : r.Answer} (hr : r.ForLeases)
    (h : sem i r w ans w') : w'.nonces = w.nonces := by
  cases r with
  | nonces op => exact hr.elim
  | leases op => obtain ⟨b, -, rfl⟩ := h; rfl
  | now => cases h; rfl
  | newLease object => obtain ⟨-, rfl⟩ := h; rfl
  | lock lease => obtain ⟨-, -, rfl⟩ := h; rfl
  | unlock lease object => cases h; rfl

end

/-! ## One call among others -/

section
variable (store : Store) (key : Digest)

/-- A `Consume` of `key` that is told `consumed`, with every reconcile read meeting `ReadsOwn`, is
the author of the entry. -/
theorem Store.consume_meets (i : CallId) (k : Digest) (nonce : NonceValue) (w : World) :
    (store.consume k nonce).Meets (ownSem i) (fun w => w.nonces.WF) (NonceRely key i)
      (fun t u => ∀ j, j ≠ i → NonceRely key j t u)
      (fun a w => a = .ok .consumed → Consumed k i w) w := by
  have keeps : ∀ {r : Request} {t u : World} {ans : r.Answer}, ownSem i r t ans u →
      t.nonces.WF → r.ForNonces → u.nonces.WF ∧ ∀ j, j ≠ i → NonceRely key j t u :=
    fun h ht hr => sem_forNonces hr ht h.1
  unfold Store.consume
  split
  · intro h; cases h
  refine Program.meets_ask_bind.2 fun t₁ _ hi₁ now u₁ hu₁ => ?_
  obtain ⟨hwf, hrely⟩ := keeps hu₁ hi₁ trivial
  refine ⟨hwf, hrely, ?_⟩
  dsimp only
  split
  · intro h; cases h
  refine Program.meets_ask_bind.2 fun t₂ _ hi₂ ans u₂ hu₂ => ?_
  obtain ⟨hwf, hrely⟩ := keeps hu₂ hi₂ trivial
  refine ⟨hwf, hrely, ?_⟩
  obtain ⟨⟨b, hb, rfl⟩, -⟩ := hu₂
  split
  · rename_i rev
    obtain ⟨-, -, rfl⟩ := hb
    exact fun _ => ⟨_, Bucket.commit_entry_self, Bucket.commit_author_self⟩
  · intro h; cases h
  · rename_i fault hfault
    have hun : b.unacked i = some ⟨k, encode .nonce nonce.valueDigest nonce.expiresAt nonce.epoch
        false, 0⟩ := by
      cases fault with
      | keyExists => exact absurd rfl hfault
      | notFound | other => exact Bucket.Lost.unacked hb
    -- The reconcile read: the entry it finds is compared with what the call tried to write.
    refine Program.meets_ask_bind.2 fun t₃ hr₃ hi₃ ans u₃ hu₃ => ?_
    obtain ⟨hwf, hrely⟩ := keeps hu₃ hi₃ trivial
    refine ⟨hwf, hrely, ?_⟩
    obtain ⟨⟨b₃, hb₃, rfl⟩, hown⟩ := hu₃
    split
    · intro h; cases h
    · rename_i entry
      obtain ⟨he, rfl⟩ := hb₃
      split
      · intro h; cases h
      · rename_i observed hdec
        split
        · intro h; cases h
        · rename_i hex
          intro _
          simp only [Bool.not_eq_true', Bool.not_eq_false] at hex
          have hval := eq_encode_of_exact hdec hex
          exact ⟨entry, he, hown _ entry (hr₃.bucket.unacked.trans hun) rfl he
            (hi₃.entry_le _ _ he).1 hval (by rw [hval]; rfl)⟩

/-- The rely–guarantee argument for the entry of `key`. -/
def nonceArgument : RelyGuarantee ownSem (Expiry (· ≠ key)) store.body where
  inv w := w.nonces.WF
  rely := NonceRely key
  fresh _ _ := True
  post i c a w := ∀ nonce, c = .consume key nonce → a = .nonce (.ok .consumed) → Consumed key i w
  rely_refl _ _ := .of_eq rfl
  rely_trans _ _ _ _ := NonceRely.trans
  env_inv w w' hw h := by
    cases h with
    | nonce => exact hw.drop
    | lease => exact hw
  env_rely _ _ _ _ := NonceRely.expiry
  fresh_stable _ _ _ _ _ := trivial
  post_stable i c a w w' hw hp hr nonce hc ha := hr.consumed hw (hp nonce hc ha)
  meets i c w _ _ := by
    have other : ∀ {α : Type} {p : Proc α} {f : α → Result}, p.Only Request.ForLeases →
        (∀ nonce, c ≠ .consume key nonce) →
        (p >>= fun a => pure (f a)).Meets (ownSem i) (fun w => w.nonces.WF) (NonceRely key i)
          (fun t u => ∀ j, j ≠ i → NonceRely key j t u) (fun a w => ∀ nonce,
            c = .consume key nonce → a = .nonce (.ok .consumed) → Consumed key i w) w := by
      intro α p f hp hc
      have hok : ∀ (r : Request) (t : World) (ans : r.Answer) (u : World), r.ForLeases →
          t.nonces.WF → ownSem i r t ans u →
          u.nonces.WF ∧ ∀ j, j ≠ i → NonceRely key j t u := by
        intro r t ans u hr ht h
        have heq := sem_forLeases_nonces hr h.1
        exact ⟨by rw [heq]; exact ht, fun j _ => .of_eq heq⟩
      exact (Program.Only.bind hp fun a => Program.only_done).meets hok
        (fun a s nonce h => absurd h (hc nonce)) w
    cases c with
    | consume k nonce =>
      refine Program.meets_bind.2 ((store.consume_meets key i k nonce w).mono_post ?_)
      rintro a w' ha nonce' hc ⟨⟩
      cases hc
      exact ha rfl
    | acquire k candidate => exact other (store.acquire_forLeases k candidate) (by simp)
    | renew lease expires => exact other (store.renew_forLeases lease expires) (by simp)
    | valid lease => exact other (Store.valid_forLeases lease) (by simp)
    | release lease => exact other (store.release_forLeases lease) (by simp)

end

/-- Where every reconcile read that finds a call's own bytes finds the call's own commit, at most
one `Consume` of a key is told `consumed` while the entry of the key is retained. -/
theorem consumed_unique (store : Store) (key : Digest) {p : Pool port CallId Call Result World}
    (hp : Reach store ownSem (· ≠ key) p) {i j : CallId} {nonce nonce' : NonceValue}
    (hi : p.Returned i (.consume key nonce) (.nonce (.ok .consumed)))
    (hj : p.Returned j (.consume key nonce') (.nonce (.ok .consumed))) : i = j := by
  have hinit : (nonceArgument store key).inv World.init := Bucket.WF.empty
  have owns := fun {i c a} (h : p.Returned i c a) =>
    (nonceArgument store key).returned hinit (fun _ => trivial) hp h
  obtain ⟨e, he, ha⟩ := owns hi nonce rfl rfl
  obtain ⟨e', he', ha'⟩ := owns hj nonce' rfl rfl
  rw [he, Option.some.injEq] at he'
  subst he'
  rw [ha, Option.some.injEq] at ha'
  exact ha'

/-! ## Runs on equal values -/

/-- The bytes that `Consume` writes. -/
def nonceRaw (nonce : NonceValue) : Value :=
  encode .nonce nonce.valueDigest nonce.expiresAt nonce.epoch false

/-- A nonce that `sampleStore` admits at the start of the epoch. -/
def sampleNonce : NonceValue := ⟨sampleDigest, ⟨5 * second, true⟩, 1⟩

/-- The state after call `0` has consumed the nonce. -/
def consumedWorld : World := { World.init with
    nonces := Bucket.empty.commit 0 sampleDigest (nonceRaw sampleNonce) 1 }

theorem consumedWorld_entry :
    consumedWorld.nonces.entry sampleDigest = some ⟨nonceRaw sampleNonce, 1⟩ :=
  Bucket.commit_entry_self

theorem consume_sampleNonce : (sampleStore.consume sampleDigest sampleNonce).Exec (ownSem 0)
    World.init (.ok .consumed) consumedWorld := by
  refine Program.exec_call.2 ⟨(⟨0, true⟩ : Time), _, ⟨rfl, trivial⟩, ?_⟩
  exact Program.exec_call.2 ⟨.ok 1, _, ⟨⟨_, ⟨rfl, Nat.zero_lt_one, rfl⟩, rfl⟩, trivial⟩, .done⟩

/-- One call consumes the nonce; a second one with the same value, started later, is told
`replayed`, and no call but the first is told `consumed`. -/
theorem consumed_unique_replayed : ∃ p : Pool port CallId Call Result World,
    Reach sampleStore ownSem (· ≠ sampleDigest) p ∧
      p.Returned 0 (.consume sampleDigest sampleNonce) (.nonce (.ok .consumed)) ∧
      p.Returned 1 (.consume sampleDigest sampleNonce) (.nonce (.ok .replayed)) ∧
      ∀ j nonce, p.Returned j (.consume sampleDigest nonce) (.nonce (.ok .consumed)) → 0 = j := by
  have hreplay : (sampleStore.consume sampleDigest sampleNonce).Exec (ownSem 1) consumedWorld
      (.ok .replayed) consumedWorld := by
    refine Program.exec_call.2 ⟨(⟨0, true⟩ : Time), _, ⟨rfl, trivial⟩, ?_⟩
    exact Program.exec_call.2 ⟨.error .keyExists, _,
      ⟨⟨_, ⟨by simp [consumedWorld_entry], rfl⟩, rfl⟩, trivial⟩, .done⟩
  have h₀ : Reach sampleStore ownSem (· ≠ sampleDigest) (Pool.init World.init) := .refl
  have h₁ := h₀.exec (i := 0) (c := .consume sampleDigest sampleNonce) rfl
    (consume_sampleNonce.bind .done)
  have h₂ := h₁.exec (i := 1) (c := .consume sampleDigest sampleNonce) rfl (hreplay.bind .done)
  exact ⟨_, h₂, rfl, rfl, fun j nonce hj => consumed_unique _ _ h₂ rfl hj⟩

/-- Two calls of `Consume` with equal values are both told `consumed`: the second one's create is
answered with an ambiguous error without having been committed, and its reconcile read finds the
bytes that the first one committed. -/
theorem consume_twice : ¬ ∀ (store : Store) (key : Digest) (p : Pool port CallId Call Result World),
    Reach store sem (· ≠ key) p → ∀ (i j : CallId) (nonce nonce' : NonceValue),
      p.Returned i (.consume key nonce) (.nonce (.ok .consumed)) →
      p.Returned j (.consume key nonce') (.nonce (.ok .consumed)) → i = j := by
  intro unique
  have hfirst : (sampleStore.consume sampleDigest sampleNonce).Exec (sem 0) World.init
      (.ok .consumed) consumedWorld :=
    consume_sampleNonce.mono fun _ _ _ _ hs => hs.1
  have hsecond : (sampleStore.consume sampleDigest sampleNonce).Exec (sem 1) consumedWorld
      (.ok .consumed) { consumedWorld with
        nonces := consumedWorld.nonces.unack 1 ⟨sampleDigest, nonceRaw sampleNonce, 0⟩ } := by
    refine Program.exec_call.2 ⟨(⟨0, true⟩ : Time), _, rfl, ?_⟩
    refine Program.exec_call.2 ⟨.error .other, _, ⟨_, .inl rfl, rfl⟩, ?_⟩
    exact Program.exec_call.2 ⟨.ok ⟨nonceRaw sampleNonce, 1⟩, _,
      ⟨_, ⟨consumedWorld_entry, rfl⟩, rfl⟩, .done⟩
  have h₀ : Reach sampleStore sem (· ≠ sampleDigest) (Pool.init World.init) := .refl
  have h₁ := h₀.exec (i := 0) (c := .consume sampleDigest sampleNonce) rfl (hfirst.bind .done)
  have h₂ := h₁.exec (i := 1) (c := .consume sampleDigest sampleNonce) rfl (hsecond.bind .done)
  exact absurd (unique _ _ _ h₂ 0 1 sampleNonce sampleNonce rfl rfl) (by decide)

end YukhCoordination.JetStreamKV
