import YukhCoordination.Coordination.JetStreamKV.Store

/-!
# Mutual exclusion of leases

A call whose mutation was answered with an error takes over an entry with the bytes it tried to
write. Where these are its own, leases exclude each other (`lease_exclusion`).
-/

namespace YukhCoordination.JetStreamKV

open Coordination Interleave CasBucket

/-! ## The invariant and what a call relies on -/

/-- The lease object a call works for: the one whose mutex it has taken, or its own. -/
def World.worksFor (w : World) (j : CallId) : CallId := (w.locked j).getD j

/-- Revision `r` was committed by a call that works for `lease`. -/
def World.Owned (w : World) (lease : CallId) (r : Nat) : Prop :=
  ∃ j, w.leases.author r = some j ∧ w.worksFor j = lease

/-- The lease object is valid at the clock reading `now`, as `lease.Valid` decides it when nothing
fails: not released, not expired, and at the revision of the stored entry of its key. -/
def World.Valid (w : World) (key : Digest) (lease : CallId) (now : Time) : Prop :=
  ∃ held entry, w.object lease = some held ∧ held.key = key ∧ held.released = false ∧
    held.expires.after now.toUTC = true ∧ w.leases.entry key = some entry ∧
    entry.revision = held.revision

variable {lease : CallId} {op : Op Digest Value} {held : LeaseObject}

/-- A revision works for at most one lease object. -/
theorem World.Owned.unique {w : World} {lease' : CallId} {r : Nat} (h : w.Owned lease r)
    (h' : w.Owned lease' r) : lease = lease' := by
  obtain ⟨j, hj, rfl⟩ := h
  obtain ⟨j', hj', rfl⟩ := h'
  rw [hj, Option.some.injEq] at hj'
  rw [hj']

/-- What holds between any two requests: the bucket is well formed, a locked object exists, and an
unreleased object is at a revision that works for it. -/
structure LeaseInv (w : World) : Prop where
  wf : w.leases.WF
  mutex : ∀ lease j, w.mutex lease = some j → w.object lease ≠ none
  owned : ∀ lease held, w.object lease = some held → held.released = false →
    w.Owned lease held.revision

/-- What no one else changes for call `i`, apart from the bucket: the object it works for, that its
own object is not allocated, and an object whose mutex it holds. -/
structure LeaseFrame (i : CallId) (w w' : World) : Prop where
  locked : w'.locked i = w.locked i
  object : w.object i = none → w'.object i = none
  held : ∀ lease, w.mutex lease = some i →
    w'.mutex lease = some i ∧ w'.object lease = w.object lease

/-- What call `i` relies on. -/
structure LeaseRely (i : CallId) (w w' : World) : Prop where
  bucket : Bucket.Rely i w.leases w'.leases
  frame : LeaseFrame i w w'

/-- A call that has not made its first request: it committed nothing, took no mutex and allocated
no object. -/
structure LeaseFresh (i : CallId) (w : World) : Prop where
  author : ∀ r, w.leases.author r ≠ some i
  locked : w.locked i = none
  object : w.object i = none

section
variable {i j : CallId} {w w' w'' : World}

theorem LeaseFrame.refl (i : CallId) (w : World) : LeaseFrame i w w :=
  ⟨rfl, id, fun _ h => ⟨h, rfl⟩⟩

theorem LeaseFrame.trans (h₁ : LeaseFrame i w w') (h₂ : LeaseFrame i w' w'') :
    LeaseFrame i w w'' where
  locked := h₂.locked.trans h₁.locked
  object h := h₂.object (h₁.object h)
  held lease h := by
    obtain ⟨hm, ho⟩ := h₁.held lease h
    obtain ⟨hm', ho'⟩ := h₂.held lease hm
    exact ⟨hm', ho'.trans ho⟩

theorem LeaseRely.refl (i : CallId) (w : World) : LeaseRely i w w := ⟨.refl i _, .refl i w⟩

theorem LeaseRely.trans (h₁ : LeaseRely i w w') (h₂ : LeaseRely i w' w'') : LeaseRely i w w'' :=
  ⟨h₁.bucket.trans h₂.bucket, h₁.frame.trans h₂.frame⟩

theorem LeaseFresh.stable (h : LeaseFresh i w) (hr : LeaseRely i w w') : LeaseFresh i w' where
  author r hr' := h.author r (hr.bucket.author_new r hr')
  locked := hr.frame.locked.trans h.locked
  object := hr.frame.object h.object

/-! ## What one request keeps -/

/-- A bucket operation adds at most revisions of its own call, so what others own stays owned. -/
theorem LeaseInv.leases {b : Bucket Digest Value CallId} {ans : op.Answer} (hw : LeaseInv w)
    (h : Bucket.Apply i op w.leases ans b) : LeaseInv { w with leases := b } where
  wf := h.wf hw.wf
  mutex := hw.mutex
  owned lease held ho hr := by
    obtain ⟨j, hj, hf⟩ := hw.owned lease held ho hr
    refine ⟨j, ?_, hf⟩
    obtain rfl | ⟨a, rfl⟩ | ⟨value, rev, -, hrev, -, hb⟩ := h.cases
    · exact hj
    · exact hj
    · have hne : held.revision ≠ rev := by
        have := hw.wf.author_le _ _ hj
        omega
      have hcommit : (w.leases.commit i op.key value rev).author held.revision = some j :=
        (Function.update_of_ne hne _ _).trans hj
      rcases hb with rfl | ⟨a, rfl⟩ <;> exact hcommit

theorem LeaseRely.leases {b : Bucket Digest Value CallId} {ans : op.Answer}
    (h : Bucket.Apply i op w.leases ans b) (hj : j ≠ i) : LeaseRely j w { w with leases := b } :=
  ⟨h.rely hj, rfl, id, fun _ hm => ⟨hm, rfl⟩⟩

/-- Allocating an object at a revision that call `i` committed. -/
theorem LeaseInv.newLease (hw : LeaseInv w) (hl : w.locked i = none)
    (ha : w.leases.author held.revision = some i) :
    LeaseInv { w with object := Function.update w.object i (some held) } where
  wf := hw.wf
  mutex lease j hm := by
    by_cases hli : lease = i
    · subst hli; simp
    · simpa only [Function.update_of_ne hli] using hw.mutex lease j hm
  owned lease x hx hr := by
    by_cases hli : lease = i
    · subst hli
      simp only [Function.update_self, Option.some.injEq] at hx
      subst hx
      exact ⟨lease, ha, by simp [World.worksFor, hl]⟩
    · simp only [Function.update_of_ne hli] at hx
      exact hw.owned lease x hx hr

theorem LeaseRely.newLease (hw : LeaseInv w) (ho : w.object i = none)
    (hj : j ≠ i) : LeaseRely j w { w with object := Function.update w.object i (some held) } where
  bucket := .refl j _
  frame := by
    refine ⟨rfl, fun h => ?_, fun lease hm => ⟨hm, ?_⟩⟩
    · simpa only [Function.update_of_ne hj] using h
    · have hli : lease ≠ i := by
        rintro rfl
        exact hw.mutex lease j hm ho
      simp only [Function.update_of_ne hli]

/-- Taking a mutex, by a call that committed nothing before. -/
theorem LeaseInv.lock (hw : LeaseInv w)
    (ho : w.object lease = some held) (ha : ∀ r, w.leases.author r ≠ some i) :
    LeaseInv { w with
      mutex := Function.update w.mutex lease (some i)
      locked := Function.update w.locked i (some lease) } where
  wf := hw.wf
  mutex l j hm := by
    by_cases hl : l = lease
    · subst hl; simp [ho]
    · simp only [Function.update_of_ne hl] at hm
      exact hw.mutex l j hm
  owned l x hx hr := by
    obtain ⟨j, hj, hf⟩ := hw.owned l x hx hr
    have hji : j ≠ i := by
      rintro rfl
      exact ha _ hj
    exact ⟨j, hj, by simpa only [World.worksFor, Function.update_of_ne hji] using hf⟩

theorem LeaseRely.lock (hm : w.mutex lease = none) (hj : j ≠ i) : LeaseRely j w { w with
      mutex := Function.update w.mutex lease (some i)
      locked := Function.update w.locked i (some lease) } where
  bucket := .refl j _
  frame := by
    refine ⟨Function.update_of_ne hj _ _, id, fun l hl => ⟨?_, rfl⟩⟩
    have hne : l ≠ lease := by
      rintro rfl
      rw [hm] at hl
      cases hl
    simpa only [Function.update_of_ne hne] using hl

/-- Writing an object back and giving its mutex up, by the call that holds it. -/
theorem LeaseInv.unlock (hw : LeaseInv w)
    (ho : held.released = false → w.Owned lease held.revision) :
    LeaseInv { w with
      object := Function.update w.object lease (some held)
      mutex := Function.update w.mutex lease none } where
  wf := hw.wf
  mutex l j hm := by
    by_cases hl : l = lease
    · subst hl; simp
    · simp only [Function.update_of_ne hl] at hm ⊢
      exact hw.mutex l j hm
  owned l x hx hr := by
    by_cases hl : l = lease
    · subst hl
      simp only [Function.update_self, Option.some.injEq] at hx
      subst hx
      exact ho hr
    · simp only [Function.update_of_ne hl] at hx
      exact hw.owned l x hx hr

theorem LeaseRely.unlock (hw : LeaseInv w) (hm : w.mutex lease = some i) (hj : j ≠ i) :
    LeaseRely j w { w with
      object := Function.update w.object lease (some held)
      mutex := Function.update w.mutex lease none } where
  bucket := .refl j _
  frame := by
    refine ⟨rfl, fun h => ?_, fun l hl => ?_⟩
    · have hne : j ≠ lease := by
        rintro rfl
        exact hw.mutex j i hm h
      simpa only [Function.update_of_ne hne] using h
    · have hne : l ≠ lease := by
        rintro rfl
        rw [hm, Option.some.injEq] at hl
        exact hj hl.symm
      exact ⟨(Function.update_of_ne hne _ _).trans hl, Function.update_of_ne hne _ _⟩

end

/-! ## The calls among others -/

/-- The program of call `i` keeps `LeaseInv` and what the others rely on, and returns within
`post`. -/
abbrev LeaseMeets {α : Type} (i : CallId) (post : α → World → Prop) (p : Proc α) (w : World) :
    Prop :=
  p.Meets (ownSem i) LeaseInv (LeaseRely i) (fun t u => ∀ j, j ≠ i → LeaseRely j t u) post w

namespace Store

section
variable {i : CallId} {w : World}

/-- One operation of the lease bucket. -/
theorem leases_meets {α : Type} {f : op.Answer → Proc α} {post : α → World → Prop}
    (h : ∀ t, LeaseRely i w t → LeaseInv t → ReadsOwn i t (.leases op) → ∀ ans b,
      Bucket.Apply i op t.leases ans b → LeaseInv { t with leases := b } →
      LeaseMeets i post (f ans) { t with leases := b }) :
    LeaseMeets i post (ask (.leases op) >>= f) w := by
  refine Program.meets_ask_bind.2 fun t ht hi ans u hu => ?_
  obtain ⟨⟨b, hb, rfl⟩, hown⟩ := hu
  exact ⟨hi.leases hb, fun j hj => .leases hb hj, h t ht hi hown ans b hb (hi.leases hb)⟩

/-- Reading the clock changes nothing. -/
theorem validExpiry_meets (store : Store) (expires : Time) :
    LeaseMeets i (fun _ u => LeaseRely i w u) (store.validExpiry expires) w := by
  refine Program.meets_ask_bind.2 fun t ht hi now u hu => ?_
  obtain ⟨rfl, -⟩ := hu
  exact ⟨hi, fun j _ => .refl j _, ht⟩

theorem stillHeld_meets (observed : Value) (expires : Time) :
    LeaseMeets i (fun _ u => LeaseRely i w u) (stillHeld observed expires) w := by
  unfold stillHeld
  split
  · exact .refl i w
  · refine Program.meets_ask_bind.2 fun t ht hi now u hu => ?_
    obtain ⟨rfl, -⟩ := hu
    exact ⟨hi, fun j _ => .refl j _, ht⟩

variable {key : Digest} {candidate : LeaseValue} {revision : Nat} {raw : Value}

/-- Call `i` allocates its object at a revision it committed. -/
theorem newLease_meets (hw : LeaseInv w) (hl : w.locked i = none) (ho : w.object i = none)
    (ha : w.leases.author revision = some i) :
    LeaseMeets i (fun a u => ∀ acquired, a = .ok acquired →
      u.leases.author acquired.fencingToken = some i) (newLease key candidate revision) w := by
  refine Program.meets_ask_bind.2 fun t ht hi lease u hu => ?_
  obtain ⟨⟨rfl, rfl⟩, -⟩ := hu
  have hl' := ht.frame.locked.trans hl
  have ha' := ht.bucket.author hw.wf ha
  refine ⟨hi.newLease hl' ha', fun j hj => .newLease hi (ht.frame.object ho) hj, ?_⟩
  rintro acquired ⟨⟩
  exact ha'

/-- A compare-and-set of call `i` that succeeds, reconciled or not, gives an unreleased value a
revision that `i` committed. -/
theorem updateLease_meets :
    LeaseMeets i (fun a u => LeaseFrame i w u ∧ ∀ rev, a = .ok rev → raw.released = false →
      u.leases.author rev = some i) (updateLease key raw revision) w := by
  refine leases_meets fun t ht hi _ ans b hb hib => ?_
  rcases ans with fault | rev
  · have hun : b.unacked i = some ⟨key, raw, revision⟩ := by
      cases fault <;> exact Bucket.Lost.unacked hb
    -- The reconcile read: the entry must be above the old revision and hold the same bytes.
    refine leases_meets fun t' ht' hi' hown ans' b' hb' _ => ?_
    have hframe : LeaseFrame i w { t' with leases := b' } :=
      ht.frame.trans ⟨ht'.frame.locked, ht'.frame.object, ht'.frame.held⟩
    rcases ans' with _ | entry
    · exact ⟨hframe, fun _ h => by cases h⟩
    · obtain ⟨he, rfl⟩ := hb'
      dsimp only
      split
      · exact ⟨hframe, fun _ h => by cases h⟩
      · next hcond =>
        simp only [Bool.or_eq_true, decide_eq_true_eq, bne_iff_ne, ne_eq, not_or, Nat.not_le,
          Decidable.not_not] at hcond
        refine ⟨hframe, ?_⟩
        rintro rev ⟨⟩ hrel
        exact hown _ entry (ht'.bucket.unacked.trans hun) rfl he hcond.1 hcond.2
          (by rw [hcond.2]; exact hrel)
  · obtain ⟨-, -, rfl⟩ := hb
    refine ⟨⟨ht.frame.locked, ht.frame.object, ht.frame.held⟩, ?_⟩
    rintro rev' ⟨⟩ -
    exact Bucket.commit_author_self

theorem takeOver_meets {observed : Value} (hw : LeaseInv w) (hl : w.locked i = none)
    (ho : w.object i = none) (hraw : raw.released = false) :
    LeaseMeets i (fun a u => ∀ acquired, a = .ok acquired →
      u.leases.author acquired.fencingToken = some i)
      (takeOver key candidate raw observed revision) w := by
  unfold takeOver
  split
  · rintro acquired ⟨⟩
  · refine Program.Meets.bind hw (stillHeld_meets observed _) fun live t ht hrt => ?_
    split
    · rintro acquired ⟨⟩
    · refine Program.Meets.bind ht updateLease_meets fun a u hu hframe => ?_
      obtain ⟨hframe, hauthor⟩ := hframe
      rcases a with err | rev
      · rintro acquired ⟨⟩
      · exact newLease_meets hu (hframe.locked.trans (hrt.frame.locked.trans hl))
          (hframe.object (hrt.frame.object ho)) (hauthor rev rfl hraw)

/-- The token that an `Acquire` returns is a revision that the call committed. -/
theorem acquire_meets (store : Store) (hw : LeaseInv w)
    (hl : w.locked i = none) (ho : w.object i = none) :
    LeaseMeets i (fun a u => ∀ acquired, a = .ok acquired →
      u.leases.author acquired.fencingToken = some i) (store.acquire key candidate) w := by
  unfold acquire
  split
  · rintro acquired ⟨⟩
  refine Program.Meets.bind hw (store.validExpiry_meets _) fun ok t ht hrt => ?_
  split
  · rintro acquired ⟨⟩
  refine leases_meets fun t₁ ht₁ hi₁ _ ans b hb hib => ?_
  have hl₁ := ht₁.frame.locked.trans (hrt.frame.locked.trans hl)
  have ho₁ := ht₁.frame.object (hrt.frame.object ho)
  rcases ans with fault | rev
  · have hun : fault ≠ .keyExists → b.unacked i = some ⟨key, encode .lease
        candidate.holderDigest candidate.expiresAt candidate.epoch false, 0⟩ := by
      intro hf
      cases fault with
      | keyExists => exact absurd rfl hf
      | notFound | other => exact Bucket.Lost.unacked hb
    refine leases_meets fun t₂ ht₂ hi₂ hown ans₂ b₂ hb₂ hib₂ => ?_
    have hl₂ := ht₂.frame.locked.trans hl₁
    have ho₂ := ht₂.frame.object ho₁
    rcases ans₂ with _ | entry
    · rintro acquired ⟨⟩
    · obtain ⟨he, rfl⟩ := hb₂
      dsimp only
      split
      · rintro acquired ⟨⟩
      · next observed hdec =>
        split
        · rintro acquired ⟨⟩
        · split
          · next hadopt =>
            -- An ambiguous create whose bytes are read back: by `ReadsOwn` they are the call's.
            simp only [Bool.and_eq_true, bne_iff_ne, ne_eq] at hadopt
            have hval := eq_encode_of_exact hdec hadopt.2
            exact newLease_meets hib₂ hl₂ ho₂ (hown _ entry
              (ht₂.bucket.unacked.trans (hun hadopt.1)) rfl he (hi₂.wf.entry_le _ _ he).1 hval
              (by rw [hval]; rfl))
          · exact takeOver_meets hib₂ hl₂ ho₂ rfl
  · obtain ⟨-, -, rfl⟩ := hb
    exact newLease_meets hib hl₁ ho₁ Bucket.commit_author_self

/-- Taking a mutex as the first request of a call. -/
theorem lock_meets {α : Type} {f : LeaseObject → Proc α}
    {post : α → World → Prop} (hf : LeaseFresh i w)
    (h : ∀ t held, LeaseInv t → t.mutex lease = some i → t.object lease = some held →
      t.locked i = some lease → LeaseMeets i post (f held) t) :
    LeaseMeets i post (ask (.lock lease) >>= f) w := by
  refine Program.meets_ask_bind.2 fun t ht hi held u hu => ?_
  obtain ⟨⟨ho, hm, rfl⟩, -⟩ := hu
  have hi' := hi.lock ho (hf.stable ht).author
  refine ⟨hi', fun j hj => .lock hm hj, h _ held hi' ?_ ho ?_⟩
  · exact Function.update_self _ _ _
  · exact Function.update_self _ _ _

/-- What a call may write back to the object it has locked: the object as it was, a released one,
or one at a revision the call committed. -/
def WritesBack (i lease : CallId) (held : LeaseObject) (w : World) : Prop :=
  w.object lease = some held ∨ held.released = true ∨
    w.leases.author held.revision = some i ∧ w.locked i = some lease

theorem unlock_meets {α : Type} {a : α} {post : α → World → Prop} (hw : LeaseInv w)
    (hm : w.mutex lease = some i) (hback : WritesBack i lease held w)
    (hpost : ∀ u, Bucket.Rely i w.leases u.leases → post a u) :
    LeaseMeets i post (do ask (.unlock lease held); return a) w := by
  refine Program.meets_ask_bind.2 fun t ht hi _ u hu => ?_
  obtain ⟨rfl, -⟩ := hu
  obtain ⟨hm', ho'⟩ := ht.frame.held lease hm
  refine ⟨hi.unlock fun hrel => ?_, fun j hj => .unlock hi hm' hj, hpost _ ht.bucket⟩
  rcases hback with ho | hr | ⟨ha, hl⟩
  · exact hi.owned lease held (ho'.trans ho) hrel
  · rw [hr] at hrel; cases hrel
  · refine ⟨i, ht.bucket.author hw.wf ha, ?_⟩
    simp only [World.worksFor, ht.frame.locked, hl, Option.getD_some]

/-- The compare-and-set of a locked object, and what the call writes back after it. -/
theorem updateHeld_meets (next : Nat → LeaseObject) (hw : LeaseInv w) (hm : w.mutex lease = some i)
    (ho : w.object lease = some held) (hl : w.locked i = some lease)
    (hnext : ∀ rev, (next rev).released = raw.released ∧ (next rev).revision = rev) :
    LeaseMeets i (fun _ _ => True) (do
      match ← updateLease key raw held.revision with
      | .error err =>
        ask (.unlock lease held)
        return .error err
      | .ok revision =>
        ask (.unlock lease (next revision))
        return .ok () : Proc (Except Error Unit)) w := by
  refine Program.Meets.bind hw updateLease_meets fun a t ht hmid => ?_
  obtain ⟨hframe, hauthor⟩ := hmid
  obtain ⟨hm', ho'⟩ := hframe.held lease hm
  rcases a with err | rev
  · exact unlock_meets ht hm' (.inl (ho'.trans ho)) fun _ _ => trivial
  · refine unlock_meets ht hm' (.inr ?_) fun _ _ => trivial
    cases hrel : raw.released with
    | true => exact .inl ((hnext rev).1.trans hrel)
    | false =>
      refine .inr ⟨?_, hframe.locked.trans hl⟩
      rw [(hnext rev).2]
      exact hauthor rev rfl hrel

theorem renew_meets (store : Store) {expires : Time} (hf : LeaseFresh i w) :
    LeaseMeets i (fun _ _ => True) (store.renew lease expires) w := by
  refine lock_meets hf fun t held ht hm ho hl => ?_
  split
  · exact unlock_meets ht hm (.inl ho) fun _ _ => trivial
  refine Program.Meets.bind ht (store.validExpiry_meets _) fun ok u hu hru => ?_
  obtain ⟨hm', ho'⟩ := hru.frame.held lease hm
  split
  · exact unlock_meets hu hm' (.inl (ho'.trans ho)) fun _ _ => trivial
  · next hreleased _ =>
    exact updateHeld_meets (fun revision => { held with revision, expires }) hu hm' (ho'.trans ho)
      (hru.frame.locked.trans hl) fun rev => ⟨by simpa [encode] using hreleased, rfl⟩

/-- `Valid` answers `true` only where the lease was valid at its read of the entry. -/
theorem valid_meets (hf : LeaseFresh i w) :
    LeaseMeets i (fun ans u => ans = .ok true → ∃ (t : World) (key : Digest) (now : Time),
      t.Valid key lease now ∧ Bucket.Rely i t.leases u.leases) (valid lease) w := by
  refine lock_meets hf fun t held ht hm ho hl => ?_
  split
  · exact unlock_meets ht hm (.inl ho) fun _ _ h => nomatch h
  refine Program.meets_ask_bind.2 fun t₁ ht₁ hi₁ now u₁ hu₁ => ?_
  obtain ⟨rfl, -⟩ := hu₁
  obtain ⟨hm₁, ho₁⟩ := ht₁.frame.held lease hm
  refine ⟨hi₁, fun j _ => .refl j _, ?_⟩
  split
  · exact unlock_meets hi₁ hm₁ (.inl (ho₁.trans ho)) fun _ _ h => nomatch h
  next hreleased hexpired =>
  refine leases_meets fun t₂ ht₂ hi₂ _ ans b hb hib => ?_
  obtain ⟨hm₂, ho₂⟩ := ht₂.frame.held lease hm₁
  have ho' := ho₂.trans (ho₁.trans ho)
  rcases ans with _ | entry
  · exact unlock_meets hib hm₂ (.inl ho') fun _ _ h => nomatch h
  · obtain ⟨he, rfl⟩ := hb
    refine unlock_meets hib hm₂ (.inl ho') fun u hu h => ⟨t₂, held.key, now, ?_, hu⟩
    exact ⟨held, entry, ho', rfl, by simpa using hreleased, by simpa using hexpired, he,
      by simpa using h⟩

theorem release_meets (store : Store) (hf : LeaseFresh i w) :
    LeaseMeets i (fun _ _ => True) (store.release lease) w := by
  refine lock_meets hf fun t held ht hm ho hl => ?_
  split
  · exact unlock_meets ht hm (.inl ho) fun _ _ => trivial
  · exact updateHeld_meets (fun revision => { held with revision, released := true }) ht hm ho hl
      fun rev => ⟨rfl, rfl⟩

end

end Store

/-- A request of a nonce call leaves the leases as they are. -/
theorem sem_forNonces_leases {i : CallId} {r : Request} {w w' : World} {ans : r.Answer}
    (hr : r.ForNonces) (h : sem i r w ans w') : ∃ b, w' = { w with nonces := b } := by
  cases r with
  | nonces op => obtain ⟨b, -, rfl⟩ := h; exact ⟨b, rfl⟩
  | now => cases h; exact ⟨w.nonces, rfl⟩
  | leases | newLease | lock | unlock => exact hr.elim

/-- The rely–guarantee argument for the lease bucket and the lease objects. -/
def leaseArgument (store : Store) (free : Digest → Prop) :
    RelyGuarantee ownSem (Expiry free) store.body where
  inv := LeaseInv
  rely := LeaseRely
  fresh := LeaseFresh
  post i c a w := ∀ key candidate acquired, c = .acquire key candidate →
    a = .lease (.ok acquired) → w.leases.author acquired.fencingToken = some i
  rely_refl := .refl
  rely_trans _ _ _ _ := .trans
  env_inv w w' hw h := by
    cases h with
    | nonce => exact ⟨hw.wf, hw.mutex, hw.owned⟩
    | lease => exact ⟨hw.wf.drop, hw.mutex, hw.owned⟩
  env_rely i w w' _ h := by
    cases h with
    | nonce => exact ⟨.refl i _, rfl, id, fun _ hm => ⟨hm, rfl⟩⟩
    | lease => exact ⟨.drop, rfl, id, fun _ hm => ⟨hm, rfl⟩⟩
  fresh_stable _ _ _ := .stable
  post_stable i c a w w' hw hp hr key candidate acquired hc ha :=
    hr.bucket.author hw.wf (hp key candidate acquired hc ha)
  meets i c w hw hf := by
    cases c with
    | consume key nonce =>
      have hok : ∀ (r : Request) (t : World) (ans : r.Answer) (u : World), r.ForNonces →
          LeaseInv t → ownSem i r t ans u → LeaseInv u ∧ ∀ j, j ≠ i → LeaseRely j t u := by
        intro r t ans u hr ht h
        obtain ⟨b, rfl⟩ := sem_forNonces_leases hr h.1
        exact ⟨⟨ht.wf, ht.mutex, ht.owned⟩, fun j _ => ⟨.refl j _, rfl, id, fun _ hm => ⟨hm, rfl⟩⟩⟩
      refine Program.meets_bind.2 ((store.consume_forNonces key nonce).meets hok ?_ w)
      rintro a s key candidate acquired ⟨⟩
    | acquire key candidate =>
      refine Program.meets_bind.2
        ((store.acquire_meets hw hf.locked hf.object).mono_post fun a u ha => ?_)
      rintro key candidate acquired - ⟨⟩
      exact ha acquired rfl
    | renew lease expires =>
      refine Program.meets_bind.2 ((store.renew_meets hf).mono_post fun a u _ => ?_)
      rintro key candidate acquired ⟨⟩
    | valid lease =>
      refine Program.meets_bind.2 ((Store.valid_meets hf).mono_post fun a u _ => ?_)
      rintro key candidate acquired ⟨⟩
    | release lease =>
      refine Program.meets_bind.2 ((store.release_meets hf).mono_post fun a u _ => ?_)
      rintro key candidate acquired ⟨⟩

theorem LeaseInv.init : LeaseInv World.init where
  wf := .empty
  mutex _ _ h := by cases h
  owned _ _ h := by cases h

theorem LeaseFresh.init (i : CallId) : LeaseFresh i World.init where
  author _ h := by cases h
  locked := rfl
  object := rfl

/-- Where every reconcile read that finds a call's own bytes, unreleased, finds the call's own
commit: different calls of `Acquire` never return leases with the same fencing token, and at any
instant at most one lease object of a key is valid. -/
theorem lease_exclusion (store : Store) (free : Digest → Prop)
    {p : Pool port CallId Call Result World} (hp : Reach store ownSem free p) :
    (∀ i j key key' candidate candidate' acquired acquired',
      p.Returned i (.acquire key candidate) (.lease (.ok acquired)) →
      p.Returned j (.acquire key' candidate') (.lease (.ok acquired')) → i ≠ j →
      acquired.fencingToken ≠ acquired'.fencingToken) ∧
    ∀ key lease lease' now now', p.shared.Valid key lease now → p.shared.Valid key lease' now' →
      lease = lease' := by
  have hinit : (leaseArgument store free).inv World.init := LeaseInv.init
  constructor
  · intro i j key key' candidate candidate' acquired acquired' hi hj hne heq
    have ha := (leaseArgument store free).returned hinit LeaseFresh.init hp hi key candidate _
      rfl rfl
    have ha' := (leaseArgument store free).returned hinit LeaseFresh.init hp hj key' candidate' _
      rfl rfl
    rw [heq, ha', Option.some.injEq] at ha
    exact hne ha.symm
  · intro key lease lease' now now' h h'
    have hinv : LeaseInv p.shared := ((leaseArgument store free).reach hinit LeaseFresh.init hp).inv
    obtain ⟨held, entry, ho, -, hr, -, he, hrev⟩ := h
    obtain ⟨held', entry', ho', -, hr', -, he', hrev'⟩ := h'
    rw [he, Option.some.injEq] at he'
    subst he'
    have hown := hinv.owned lease held ho hr
    have hown' := hinv.owned lease' held' ho' hr'
    rw [← hrev] at hown
    rw [← hrev'] at hown'
    exact hown.unique hown'

/-! ## Runs on equal values -/

/-- The bytes that `Acquire` writes. -/
def leaseRaw (candidate : LeaseValue) : Value :=
  encode .lease candidate.holderDigest candidate.expiresAt candidate.epoch false

namespace Store

/-- The object that `newLease` allocates. -/
def leaseObject (key : Digest) (candidate : LeaseValue) (revision : Nat) : LeaseObject :=
  ⟨key, candidate.holderDigest, candidate.expiresAt, revision, false⟩

end Store

/-- A lease value that `sampleStore` admits at the start of the epoch. -/
def sampleCandidate : LeaseValue := ⟨sampleDigest, ⟨5 * second, true⟩, 1⟩

/-- The state after call `0` has acquired the lease. -/
def acquiredWorld : World := { World.init with
    leases := Bucket.empty.commit 0 sampleDigest (leaseRaw sampleCandidate) 1
    object := Function.update World.init.object 0
      (some (Store.leaseObject sampleDigest sampleCandidate 1)) }

theorem acquiredWorld_entry :
    acquiredWorld.leases.entry sampleDigest = some ⟨leaseRaw sampleCandidate, 1⟩ :=
  Bucket.commit_entry_self

theorem acquiredWorld_valid : acquiredWorld.Valid sampleDigest 0 ⟨0, true⟩ :=
  ⟨Store.leaseObject sampleDigest sampleCandidate 1, _, rfl, rfl, rfl, by decide,
    acquiredWorld_entry, rfl⟩

theorem acquire_sampleCandidate : (sampleStore.acquire sampleDigest sampleCandidate).Exec (ownSem 0)
    World.init (.ok ⟨0, 1⟩) acquiredWorld := by
  refine Program.exec_call.2 ⟨(⟨0, true⟩ : Time), _, ⟨rfl, trivial⟩, ?_⟩
  refine Program.exec_call.2 ⟨.ok 1, _, ⟨⟨_, ⟨rfl, Nat.zero_lt_one, rfl⟩, rfl⟩, trivial⟩, ?_⟩
  exact Program.exec_call.2 ⟨0, _, ⟨⟨rfl, rfl⟩, trivial⟩, .done⟩

/-- One call acquires the lease; an exact retry, started later, is refused as a competing
acquisition, and the first call's lease is the only valid one of the key. -/
theorem lease_exclusion_retry : ∃ p : Pool port CallId Call Result World,
    Reach sampleStore ownSem (fun _ => True) p ∧
      p.Returned 0 (.acquire sampleDigest sampleCandidate) (.lease (.ok ⟨0, 1⟩)) ∧
      p.Returned 1 (.acquire sampleDigest sampleCandidate) (.lease (.error .conflict)) ∧
      p.shared.Valid sampleDigest 0 ⟨0, true⟩ ∧
      ∀ lease now, p.shared.Valid sampleDigest lease now → lease = 0 := by
  have hretry : (sampleStore.acquire sampleDigest sampleCandidate).Exec (ownSem 1) acquiredWorld
      (.error .conflict) acquiredWorld := by
    -- The create is refused because the key exists, and the entry is neither released nor expired.
    refine Program.exec_call.2 ⟨(⟨0, true⟩ : Time), _, ⟨rfl, trivial⟩, ?_⟩
    refine Program.exec_call.2 ⟨.error .keyExists, _,
      ⟨⟨_, ⟨by simp [acquiredWorld_entry], rfl⟩, rfl⟩, trivial⟩, ?_⟩
    refine Program.exec_call.2 ⟨.ok ⟨leaseRaw sampleCandidate, 1⟩, _,
      ⟨⟨_, ⟨acquiredWorld_entry, rfl⟩, rfl⟩, fun _ _ ha => nomatch ha⟩, ?_⟩
    exact Program.exec_call.2 ⟨(⟨0, true⟩ : Time), _, ⟨rfl, trivial⟩, .done⟩
  have h₀ : Reach sampleStore ownSem (fun _ => True) (Pool.init World.init) := .refl
  have h₁ := h₀.exec (i := 0) (c := .acquire sampleDigest sampleCandidate) rfl
    (acquire_sampleCandidate.bind .done)
  have h₂ := h₁.exec (i := 1) (c := .acquire sampleDigest sampleCandidate) rfl (hretry.bind .done)
  exact ⟨_, h₂, rfl, rfl, acquiredWorld_valid, fun lease now hl =>
    (lease_exclusion sampleStore _ h₂).2 _ _ _ _ _ hl acquiredWorld_valid⟩

/-- Two calls of `Acquire` with equal arguments return the same fencing token, and their leases are
valid at the same instant: the second one's create is answered with an ambiguous error without
having been committed, and its reconcile read finds the bytes that the first one committed. -/
theorem acquire_shares_token : ∃ p : Pool port CallId Call Result World,
    Reach sampleStore sem (fun _ => True) p ∧
      p.Returned 0 (.acquire sampleDigest sampleCandidate) (.lease (.ok ⟨0, 1⟩)) ∧
      p.Returned 1 (.acquire sampleDigest sampleCandidate) (.lease (.ok ⟨1, 1⟩)) ∧
      p.shared.Valid sampleDigest 0 ⟨0, true⟩ ∧ p.shared.Valid sampleDigest 1 ⟨0, true⟩ := by
  have hfirst : (sampleStore.acquire sampleDigest sampleCandidate).Exec (sem 0) World.init
      (.ok ⟨0, 1⟩) acquiredWorld :=
    acquire_sampleCandidate.mono fun _ _ _ _ hs => hs.1
  have hsecond : (sampleStore.acquire sampleDigest sampleCandidate).Exec (sem 1) acquiredWorld
      (.ok ⟨1, 1⟩) { acquiredWorld with
        leases := acquiredWorld.leases.unack 1 ⟨sampleDigest, leaseRaw sampleCandidate, 0⟩
        object := Function.update acquiredWorld.object 1
          (some (Store.leaseObject sampleDigest sampleCandidate 1)) } := by
    refine Program.exec_call.2 ⟨(⟨0, true⟩ : Time), _, rfl, ?_⟩
    refine Program.exec_call.2 ⟨.error .other, _, ⟨_, .inl rfl, rfl⟩, ?_⟩
    refine Program.exec_call.2 ⟨.ok ⟨leaseRaw sampleCandidate, 1⟩, _,
      ⟨_, ⟨acquiredWorld_entry, rfl⟩, rfl⟩, ?_⟩
    exact Program.exec_call.2 ⟨1, _, ⟨rfl, rfl⟩, .done⟩
  have h₀ : Reach sampleStore sem (fun _ => True) (Pool.init World.init) := .refl
  have h₁ := h₀.exec (i := 0) (c := .acquire sampleDigest sampleCandidate) rfl (hfirst.bind .done)
  have h₂ := h₁.exec (i := 1) (c := .acquire sampleDigest sampleCandidate) rfl (hsecond.bind .done)
  refine ⟨_, h₂, rfl, rfl, acquiredWorld_valid, ?_⟩
  exact ⟨Store.leaseObject sampleDigest sampleCandidate 1, _, rfl, rfl, rfl, by decide,
    acquiredWorld_entry, rfl⟩

end YukhCoordination.JetStreamKV
