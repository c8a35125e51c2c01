import Mathlib.Logic.Function.Basic

/-!
# A compare-and-set bucket with lost acknowledgements

A linearizable map with revisions. An error of a mutation does not say whether it was committed;
`author` and `unacked` record what no operation reads.
-/

namespace CasBucket

/-- The errors an operation can report. `keyExists` and `notFound` are definite: nothing changed,
and the key was present or absent. `other` leaves open whether a mutation was committed. -/
inductive Fault where
  | keyExists
  | notFound
  | other
  deriving DecidableEq, Repr

/-- A stored value with the revision at which it was committed. -/
structure Entry (V : Type) where
  value : V
  revision : Nat
  deriving DecidableEq, Repr

/-- A mutation that was answered with an error: what it tried to store, and the revision the stored
entry was at before it (`0` for a `create`). -/
structure Attempt (K V : Type) where
  key : K
  value : V
  previous : Nat

/-- The operations of a bucket. -/
inductive Op (K V : Type) where
  | create (key : K) (value : V)
  | get (key : K)
  | update (key : K) (value : V) (revision : Nat)

/-- The key an operation is about. -/
def Op.key {K V : Type} : Op K V → K
  | .create key _ => key
  | .get key => key
  | .update key _ _ => key

/-- The value an operation writes. -/
def Op.value? {K V : Type} : Op K V → Option V
  | .create _ value => some value
  | .get _ => none
  | .update _ value _ => some value

/-- The answer to an operation: a mutation gives the new revision, a read the entry. -/
abbrev Op.Answer {K V : Type} : Op K V → Type
  | .create _ _ => Except Fault Nat
  | .get _ => Except Fault (Entry V)
  | .update _ _ _ => Except Fault Nat

/-- The bucket: its live entries and its highest revision, with the author of every revision and
the last unacknowledged mutation of every caller. -/
structure Bucket (K V ι : Type) where
  entry : K → Option (Entry V)
  last : Nat
  author : Nat → Option ι
  unacked : ι → Option (Attempt K V)

namespace Bucket

variable {K V ι : Type}

/-- The bucket nothing was ever written to. -/
def empty : Bucket K V ι := ⟨fun _ => none, 0, fun _ => none, fun _ => none⟩

/-- `i` commits `value` under `key` as revision `rev`. -/
def commit [DecidableEq K] (b : Bucket K V ι) (i : ι) (key : K) (value : V) (rev : Nat) :
    Bucket K V ι :=
  { b with
    entry := Function.update b.entry key (some ⟨value, rev⟩)
    last := rev
    author := Function.update b.author rev (some i) }

/-- `i` gets an error as the answer to a mutation. -/
def unack [DecidableEq ι] (b : Bucket K V ι) (i : ι) (a : Attempt K V) : Bucket K V ι :=
  { b with unacked := Function.update b.unacked i (some a) }

/-- The entry of `key` passes its retention and is dropped. -/
def drop [DecidableEq K] (b : Bucket K V ι) (key : K) : Bucket K V ι :=
  { b with entry := Function.update b.entry key none }

/-- A mutation of `i` answered with an error: committed at some new revision when `free` allows it,
or not at all. -/
def Lost [DecidableEq K] [DecidableEq ι] (b : Bucket K V ι) (i : ι) (a : Attempt K V)
    (free : Prop) (b' : Bucket K V ι) : Prop :=
  b' = b.unack i a ∨ ∃ rev, free ∧ b.last < rev ∧ b' = (b.commit i a.key a.value rev).unack i a

/-- What an operation of `i` can answer, and the bucket it leaves. -/
def Apply [DecidableEq K] [DecidableEq ι] (i : ι) :
    (op : Op K V) → Bucket K V ι → op.Answer → Bucket K V ι → Prop
  | .create key value, b, .ok rev, b' =>
      b.entry key = none ∧ b.last < rev ∧ b' = b.commit i key value rev
  | .create key _, b, .error .keyExists, b' => b.entry key ≠ none ∧ b' = b
  | .create key value, b, .error _, b' => b.Lost i ⟨key, value, 0⟩ (b.entry key = none) b'
  | .get key, b, .ok e, b' => b.entry key = some e ∧ b' = b
  | .get key, b, .error .notFound, b' => b.entry key = none ∧ b' = b
  | .get _, b, .error _, b' => b' = b
  | .update key value revision, b, .ok rev, b' =>
      (∃ e, b.entry key = some e ∧ e.revision = revision) ∧ b.last < rev ∧
        b' = b.commit i key value rev
  | .update key value revision, b, .error _, b' =>
      b.Lost i ⟨key, value, revision⟩ (∃ e, b.entry key = some e ∧ e.revision = revision) b'

/-- A read of `key` by `i` that finds, above the revision `i` started from, exactly the value of
its own unacknowledged mutation finds an entry that `i` committed. -/
def OwnRead (b : Bucket K V ι) (i : ι) (key : K) (p : V → Prop) : Prop :=
  ∀ a e, b.unacked i = some a → a.key = key → b.entry key = some e → a.previous < e.revision →
    e.value = a.value → p e.value → b.author e.revision = some i

/-! ## Well-formedness, and what the operations of others keep -/

/-- Revisions are positive and bounded by the bucket's highest one. -/
structure WF (b : Bucket K V ι) : Prop where
  author_le : ∀ r j, b.author r = some j → r ≤ b.last
  entry_le : ∀ key e, b.entry key = some e → 0 < e.revision ∧ e.revision ≤ b.last

/-- What the operations of callers other than `i` leave alone: the authors of the revisions there
are, the revisions of `i`, and the unacknowledged mutation of `i`. -/
structure Rely (i : ι) (b b' : Bucket K V ι) : Prop where
  last_le : b.last ≤ b'.last
  author_old : ∀ r, r ≤ b.last → b'.author r = b.author r
  author_new : ∀ r, b'.author r = some i → b.author r = some i
  unacked : b'.unacked i = b.unacked i

section
variable {i j : ι} {b b' c : Bucket K V ι}

theorem WF.empty : (Bucket.empty : Bucket K V ι).WF :=
  ⟨fun _ _ h => by simp [Bucket.empty] at h, fun _ _ h => by simp [Bucket.empty] at h⟩

theorem Rely.refl (i : ι) (b : Bucket K V ι) : Rely i b b :=
  ⟨Nat.le_refl _, fun _ _ => rfl, fun _ h => h, rfl⟩

theorem Rely.trans (h₁ : Rely i b b') (h₂ : Rely i b' c) : Rely i b c where
  last_le := Nat.le_trans h₁.last_le h₂.last_le
  author_old r hr := (h₂.author_old r (Nat.le_trans hr h₁.last_le)).trans (h₁.author_old r hr)
  author_new r hr := h₁.author_new r (h₂.author_new r hr)
  unacked := h₂.unacked.trans h₁.unacked

/-- The author of a revision is fixed. -/
theorem Rely.author (h : Rely i b b') (hb : b.WF) {r : Nat} (hr : b.author r = some j) :
    b'.author r = some j := by
  rw [h.author_old r (hb.author_le r j hr)]
  exact hr

end

section
variable [DecidableEq K] {i j : ι} {b b' : Bucket K V ι} {key k : K} {value : V} {rev : Nat}

@[simp] theorem commit_author_self : (b.commit i key value rev).author rev = some i := by
  simp [commit]

@[simp] theorem commit_entry_self : (b.commit i key value rev).entry key = some ⟨value, rev⟩ := by
  simp [commit]

theorem commit_entry_of_ne (h : k ≠ key) : (b.commit i key value rev).entry k = b.entry k := by
  simp only [commit, Function.update_of_ne h]

theorem drop_entry_of_ne (h : k ≠ key) : (b.drop key).entry k = b.entry k := by
  simp only [drop, Function.update_of_ne h]

theorem WF.commit (hb : b.WF) (hr : b.last < rev) : (b.commit i key value rev).WF where
  author_le r j h := by
    by_cases hrr : r = rev
    · subst hrr; exact Nat.le_refl _
    · simp only [Bucket.commit, Function.update_of_ne hrr] at h
      exact Nat.le_trans (hb.author_le r j h) (Nat.le_of_lt hr)
  entry_le k e h := by
    by_cases hk : k = key
    · subst hk
      simp only [commit_entry_self, Option.some.injEq] at h
      subst h
      exact ⟨Nat.lt_of_le_of_lt (Nat.zero_le _) hr, Nat.le_refl _⟩
    · rw [commit_entry_of_ne hk] at h
      exact ⟨(hb.entry_le k e h).1, Nat.le_trans (hb.entry_le k e h).2 (Nat.le_of_lt hr)⟩

theorem WF.drop (hb : b.WF) : (b.drop key).WF := by
  refine ⟨hb.author_le, fun k e h => ?_⟩
  by_cases hk : k = key
  · subst hk; simp [Bucket.drop] at h
  · rw [drop_entry_of_ne hk] at h
    exact hb.entry_le k e h

theorem Rely.commit (hji : j ≠ i) (hr : b.last < rev) : Rely j b (b.commit i key value rev) where
  last_le := Nat.le_of_lt hr
  author_old r hrl := Function.update_of_ne (by omega) _ _
  author_new r h := by
    by_cases hrr : r = rev
    · subst hrr
      simp only [commit_author_self, Option.some.injEq] at h
      exact absurd h.symm hji
    · simpa only [Bucket.commit, Function.update_of_ne hrr] using h
  unacked := rfl

theorem Rely.drop : Rely j b (b.drop key) := ⟨Nat.le_refl _, fun _ _ => rfl, fun _ h => h, rfl⟩

end

section
variable [DecidableEq ι] {i j : ι} {b : Bucket K V ι} {a : Attempt K V}

theorem WF.unack (hb : b.WF) : (b.unack i a).WF := ⟨hb.author_le, hb.entry_le⟩

theorem Rely.unack (hji : j ≠ i) : Rely j b (b.unack i a) :=
  ⟨Nat.le_refl _, fun _ _ => rfl, fun _ h => h, Function.update_of_ne hji _ _⟩

end

section
variable [DecidableEq K] [DecidableEq ι] {i j : ι} {b b' : Bucket K V ι} {key : K} {value : V}

/-- An error leaves the mutation recorded, committed or not. -/
theorem Lost.unacked {a : Attempt K V} {free : Prop} (h : b.Lost i a free b') :
    b'.unacked i = some a := by
  rcases h with rfl | ⟨rev, -, -, rfl⟩ <;> simp [Bucket.unack]

/-- The three ways an operation can leave a bucket: as it was, with one mutation recorded as
unacknowledged, or with one new revision under the operation's key. -/
theorem Apply.cases {op : Op K V} {ans : op.Answer} (h : Apply i op b ans b') :
    b' = b ∨ (∃ a, b' = b.unack i a) ∨ ∃ value rev, op.value? = some value ∧ b.last < rev ∧
        (b.entry op.key = none ∨ ∃ r, op = .update op.key value r) ∧
        (b' = b.commit i op.key value rev ∨ ∃ a, b' = (b.commit i op.key value rev).unack i a) := by
  cases op with
  | create key value =>
    rcases ans with (_ | _ | _) | rev
    · exact .inl h.2
    · rcases h with rfl | ⟨rev, hk, hr, rfl⟩
      · exact .inr (.inl ⟨_, rfl⟩)
      · exact .inr (.inr ⟨value, rev, rfl, hr, .inl hk, .inr ⟨_, rfl⟩⟩)
    · rcases h with rfl | ⟨rev, hk, hr, rfl⟩
      · exact .inr (.inl ⟨_, rfl⟩)
      · exact .inr (.inr ⟨value, rev, rfl, hr, .inl hk, .inr ⟨_, rfl⟩⟩)
    · exact .inr (.inr ⟨value, rev, rfl, h.2.1, .inl h.1, .inl h.2.2⟩)
  | get key =>
    rcases ans with (_ | _ | _) | e
    · exact .inl h
    · exact .inl h.2
    · exact .inl h
    · exact .inl h.2
  | update key value revision =>
    rcases ans with _ | rev
    · rcases h with rfl | ⟨rev, -, hr, rfl⟩
      · exact .inr (.inl ⟨_, rfl⟩)
      · exact .inr (.inr ⟨value, rev, rfl, hr, .inr ⟨revision, rfl⟩, .inr ⟨_, rfl⟩⟩)
    · exact .inr (.inr ⟨value, rev, rfl, h.2.1, .inr ⟨revision, rfl⟩, .inl h.2.2⟩)

theorem Apply.wf {op : Op K V} {ans : op.Answer} (h : Apply i op b ans b') (hb : b.WF) : b'.WF := by
  obtain rfl | ⟨a, rfl⟩ | ⟨value, rev, -, hr, -, rfl | ⟨a, rfl⟩⟩ := h.cases
  · exact hb
  · exact hb.unack
  · exact hb.commit hr
  · exact (hb.commit hr).unack

theorem Apply.rely {op : Op K V} {ans : op.Answer} (h : Apply i op b ans b') (hji : j ≠ i) :
    Rely j b b' := by
  obtain rfl | ⟨a, rfl⟩ | ⟨value, rev, -, hr, -, rfl | ⟨a, rfl⟩⟩ := h.cases
  · exact .refl j _
  · exact .unack hji
  · exact .commit hji hr
  · exact (Rely.commit hji hr).trans (.unack hji)

/-- An entry is there until an `update` of its key (or the retention) changes it. -/
theorem Apply.entry_kept {op : Op K V} {ans : op.Answer} (h : Apply i op b ans b')
    (hop : ∀ value revision, op ≠ .update key value revision) {e : Entry V}
    (he : b.entry key = some e) : b'.entry key = some e := by
  obtain rfl | ⟨a, rfl⟩ | ⟨value, rev, -, -, hfree, hb'⟩ := h.cases
  · exact he
  · exact he
  · have hne : key ≠ op.key := by
      rintro rfl
      rcases hfree with hnone | ⟨r, hupd⟩
      · simp [he] at hnone
      · exact hop _ _ hupd
    have hcommit : (b.commit i op.key value rev).entry key = some e :=
      (commit_entry_of_ne hne).trans he
    rcases hb' with rfl | ⟨a, rfl⟩ <;> exact hcommit

/-- A property of stored values stays when an operation writes only values that have it. -/
theorem Apply.forall_entry {p : K → V → Prop} {op : Op K V} {ans : op.Answer}
    (h : Apply i op b ans b') (hb : ∀ k e, b.entry k = some e → p k e.value)
    (hop : ∀ value, op.value? = some value → p op.key value) :
    ∀ k e, b'.entry k = some e → p k e.value := by
  obtain rfl | ⟨a, rfl⟩ | ⟨value, rev, hval, -, -, hb'⟩ := h.cases
  · exact hb
  · exact hb
  · have hcommit : ∀ k e, (b.commit i op.key value rev).entry k = some e → p k e.value := by
      intro k e he
      by_cases hk : k = op.key
      · subst hk
        rw [commit_entry_self, Option.some.injEq] at he
        subst he
        exact hop value hval
      · rw [commit_entry_of_ne hk] at he
        exact hb k e he
    rcases hb' with rfl | ⟨a, rfl⟩ <;> exact hcommit

end

end Bucket

end CasBucket
