import Mathlib.Data.List.Count
import Mathlib.Data.List.Sort

/-!
# Transactions over tables

A transaction is a function from a state to an error or to a result with the state it would commit.
`Attempt` is what a client can see of one: the transaction commits and is acknowledged, it fails at
some statement and is rolled back, or it commits and the client is told that it failed. `Atomic` is
an attempt whose client is told the truth. A table is a list of rows; `updateOne` and `deleteOne`
are the statements that a transaction insists on touching exactly one row with.
-/

namespace Transaction

variable {σ ε α : Type}

/-- The outcomes of running the transaction `f` from `s`: the answer of the client, and the state
left behind. -/
inductive Attempt (f : σ → Except ε (α × σ)) (s : σ) : Except ε α → σ → Prop
  | committed {a : α} {t : σ} : f s = .ok (a, t) → Attempt f s (.ok a) t
  | rolledBack (e : ε) : Attempt f s (.error e) s
  | unacknowledged {a : α} {t : σ} (e : ε) : f s = .ok (a, t) → Attempt f s (.error e) t

variable {s t : σ}

/-- Whatever the client is told, the state is the old one or the one the transaction commits. -/
theorem Attempt.cases {f : σ → Except ε (α × σ)} {ans : Except ε α}
    (h : Attempt f s ans t) : t = s ∨ ∃ a, f s = .ok (a, t) := by
  cases h with
  | committed h => exact .inr ⟨_, h⟩
  | rolledBack => exact .inl rfl
  | unacknowledged _ h => exact .inr ⟨_, h⟩

/-- The outcomes of a transaction whose failures are all rolled back. -/
inductive Atomic (f : σ → Except ε (α × σ)) (s : σ) : Except ε α → σ → Prop
  | committed {a : α} {t : σ} : f s = .ok (a, t) → Atomic f s (.ok a) t
  | rolledBack (e : ε) : Atomic f s (.error e) s

/-- An acknowledged transaction committed. -/
theorem Attempt.ok {f : σ → Except ε (α × σ)} {a : α} (h : Attempt f s (.ok a) t) :
    f s = .ok (a, t) := by
  cases h with
  | committed h => exact h

/-! ## Writing a transaction -/

/-- Go on if the condition holds, and fail with `e` otherwise. -/
def ensure (cond : Bool) (e : ε) : Except ε Unit := if cond then .ok () else .error e

/-- The value, or the error `e`. -/
def required (value : Option α) (e : ε) : Except ε α :=
  match value with
  | some a => .ok a
  | none => .error e

section
variable {β : Type} {b : β}

variable {x : Except ε α} {f : α → Except ε β} {e : ε} {value : Option α}

theorem map_ok {f : α → β} {b : β} : x.map f = .ok b ↔ ∃ a, x = .ok a ∧ f a = b := by
  cases x <;> simp [Except.map]

theorem map_bind_eq {γ : Type} {g : β → γ} : (x >>= f).map g = x >>= fun a => (f a).map g := by
  cases x <;> rfl

theorem bind_ok : (x >>= f) = .ok b ↔ ∃ a, x = .ok a ∧ f a = .ok b := by
  cases x <;> simp [bind, Except.bind]

/-- Where the first part is the same, what follows it has to succeed. -/
theorem bind_ok_imp {γ : Type} {c : γ} {g : α → Except ε γ} (h : (x >>= f) = .ok b)
    (himp : ∀ a, x = .ok a → f a = .ok b → g a = .ok c) : (x >>= g) = .ok c := by
  obtain ⟨a, hx, hf⟩ := bind_ok.1 h
  exact bind_ok.2 ⟨a, hx, himp a hx hf⟩

theorem exists_ok (h : x.isOk) : ∃ a, x = .ok a := by
  cases x with
  | ok a => exact ⟨a, rfl⟩
  | error e => cases h

theorem pure_ok {a : β} : (pure a : Except ε β) = .ok b ↔ a = b := by
  simp [pure, Except.pure]

theorem ensure_ok {cond : Bool} {u : Unit} : ensure cond e = .ok u ↔ cond := by
  cases cond <;> simp [ensure]

theorem ensure_bind {cond : Bool} {f : Unit → Except ε β} :
    (ensure cond e >>= f) = .ok b ↔ cond ∧ f () = .ok b := by
  cases cond <;> simp [ensure, bind, Except.bind]

/-- What a loop over a list has collected was computed from the elements of the list. -/
theorem mem_of_mapM_ok {as : List α} {bs : List β}
    (h : as.mapM f = .ok bs) : ∀ b ∈ bs, ∃ a ∈ as, f a = .ok b := by
  induction as generalizing bs with
  | nil =>
    cases h
    simp
  | cons a as ih =>
    rw [List.mapM_cons] at h
    obtain ⟨b, hb, h⟩ := bind_ok.1 h
    obtain ⟨bs', hbs, h⟩ := bind_ok.1 h
    cases h
    intro b' hb'
    rcases List.mem_cons.1 hb' with rfl | hb'
    · exact ⟨a, List.mem_cons_self, hb⟩
    · obtain ⟨a', ha', hf⟩ := ih hbs b' hb'
      exact ⟨a', List.mem_cons_of_mem a ha', hf⟩

/-- A `mapM` whose results tell what they are for keeps the order. -/
theorem map_of_mapM_ok {g : β → α} (hg : ∀ a b, f a = .ok b → g b = a)
    {as : List α} {bs : List β} (h : as.mapM f = .ok bs) : bs.map g = as := by
  induction as generalizing bs with
  | nil =>
    cases h
    rfl
  | cons a as ih =>
    rw [List.mapM_cons] at h
    obtain ⟨b, hb, h⟩ := bind_ok.1 h
    obtain ⟨bs', hbs, h⟩ := bind_ok.1 h
    cases h
    rw [List.map_cons, hg a b hb, ih hbs]

theorem required_ok {a : α} : required value e = .ok a ↔ value = some a := by
  cases value <;> simp [required]

theorem required_map_bind {γ : Type} {g : α → γ} {f : γ → Except ε β} :
    required (value.map g) e >>= f = required value e >>= fun a => f (g a) := by
  cases value <;> rfl

theorem required_bind : (required value e >>= f) = .ok b ↔ ∃ a, value = some a ∧ f a = .ok b := by
  simp [bind_ok, required_ok]

end

/-! ## Statements that touch exactly one row -/

/-- Change the one row that satisfies `p`, and fail unless there is exactly one. -/
def updateOne (p : α → Bool) (f : α → α) (rows : List α) : Option (List α) :=
  if rows.countP p = 1 then some (rows.map fun r => if p r then f r else r) else none

/-- Delete the one row that satisfies `p`, and fail unless there is exactly one. -/
def deleteOne (p : α → Bool) (rows : List α) : Option (List α) :=
  if rows.countP p = 1 then some (rows.filter fun r => !p r) else none

section
variable {p q : α → Bool} {f : α → α} {rows rows' : List α}

theorem updateOne_eq_some (h : updateOne p f rows = some rows') :
    rows.countP p = 1 ∧ rows' = rows.map fun r => if p r then f r else r := by
  unfold updateOne at h
  split at h
  · next hc => exact ⟨hc, (Option.some.inj h).symm⟩
  · cases h

theorem deleteOne_eq_some (h : deleteOne p rows = some rows') :
    rows.countP p = 1 ∧ rows' = rows.filter fun r => !p r := by
  unfold deleteOne at h
  split at h
  · next hc => exact ⟨hc, (Option.some.inj h).symm⟩
  · cases h

/-- The one row of a statement. -/
theorem exists_of_countP_eq_one (h : rows.countP p = 1) : ∃ r ∈ rows, p r :=
  List.countP_pos_iff.1 (by omega)

/-- A row of a table that a statement finds alone is that row. -/
theorem eq_of_countP_le_one (h : rows.countP p ≤ 1) {r r' : α} (hr : r ∈ rows) (hr' : r' ∈ rows)
    (hp : p r) (hp' : p r') : r = r' := by
  induction rows with
  | nil => cases hr
  | cons x rows ih =>
    have none_left : p x = true → ∀ y ∈ rows, p y = false := by
      intro hx y hy
      rw [List.countP_cons_of_pos hx] at h
      exact Bool.eq_false_iff.2 (List.countP_eq_zero.1 (by omega) y hy)
    rcases List.mem_cons.1 hr with rfl | hm <;> rcases List.mem_cons.1 hr' with rfl | hm'
    · rfl
    · rw [none_left hp r' hm'] at hp'; cases hp'
    · rw [none_left hp' r hm] at hp; cases hp
    · exact ih (Nat.le_trans (by rw [List.countP_cons]; omega) h) hm hm'

/-- Deleting the rows that satisfy `p` leaves, of those that satisfy `q`, the ones that do not
satisfy `p`. -/
theorem countP_filter_not (p q : α → Bool) (rows : List α) :
    (rows.filter fun r => !p r).countP q + rows.countP (fun r => q r && p r) = rows.countP q := by
  induction rows with
  | nil => rfl
  | cons x rows ih =>
    cases hp : p x <;> cases hq : q x <;> simp [hp, hq] <;> omega

end

/-! ## Statements that insert a row or replace it -/

/-- Replace the rows that satisfy `same`, or insert the row if there is none. -/
def upsert (same : α → Bool) (row : α) (rows : List α) : List α :=
  if rows.any same then rows.map fun other => if same other then row else other else rows ++ [row]

section
variable {same q : α → Bool} {row r : α} {rows : List α}

theorem mem_upsert (h : r ∈ upsert same row rows) : r = row ∨ r ∈ rows ∧ same r = false := by
  unfold upsert at h
  split at h
  · obtain ⟨other, ho, hr⟩ := List.mem_map.1 h
    cases hs : same other with
    | true =>
      rw [hs, if_pos rfl] at hr
      exact .inl hr.symm
    | false =>
      rw [hs, if_neg (by simp)] at hr
      subst hr
      exact .inr ⟨ho, hs⟩
  · next hnone =>
    rcases List.mem_append.1 h with h | h
    · exact .inr ⟨h, by simpa using fun hs => hnone (List.any_eq_true.2 ⟨r, h, hs⟩)⟩
    · exact .inl (List.mem_singleton.1 h)

theorem find?_upsert_self (hrow : same row) : (upsert same row rows).find? same = some row := by
  unfold upsert
  split
  · next hany =>
    induction rows with
    | nil => simp at hany
    | cons other rows ih =>
      cases hs : same other with
      | true => simp [hs, hrow]
      | false =>
        rw [List.any_cons, hs, Bool.false_or] at hany
        simpa [hs] using ih hany
  · next hnone =>
    have hfind : rows.find? same = none := by
      simpa [List.find?_eq_none] using hnone
    simp [List.find?_append, hfind, hrow]

/-- Rows of another key are found as before. -/
theorem find?_upsert_other (hq : ∀ r, same r → q r = false) (hrow : same row) :
    (upsert same row rows).find? q = rows.find? q := by
  unfold upsert
  split
  · next hany =>
    clear hany
    induction rows with
    | nil => rfl
    | cons other rows ih =>
      rw [List.map_cons, List.find?_cons, List.find?_cons, ih]
      cases hs : same other with
      | true => simp [hq row hrow, hq other hs]
      | false => simp
  · simp [List.find?_append, hq row hrow]

end

/-! ## Ordered queries -/

/-- A row that belongs after every other one is the last of an ordered query. -/
theorem insertionSort_concat {r : α → α → Prop} [DecidableRel r] {rows : List α} {row : α}
    (h : ∀ row' ∈ rows, r row' row) :
    (rows ++ [row]).insertionSort r = rows.insertionSort r ++ [row] := by
  have hinsert (row' : α) (hr : r row' row) (rows : List α) :
      (rows ++ [row]).orderedInsert r row' = rows.orderedInsert r row' ++ [row] := by
    induction rows with
    | nil => simp [hr]
    | cons head rows ih =>
      simp only [List.cons_append, List.orderedInsert_cons]
      split
      · rfl
      · rw [ih, List.cons_append]
  induction rows with
  | nil => rfl
  | cons head rows ih =>
    rw [List.cons_append, List.insertionSort_cons,
      ih fun row' hr => h row' (List.mem_cons_of_mem _ hr),
      hinsert head (h head List.mem_cons_self), List.insertionSort_cons]

/-- A strictly increasing list of exactly the numbers from `a` on below `b`. -/
theorem eq_range'_of_pairwise {values : List Nat} {a b : Nat} (h : values.Pairwise (· < ·))
    (hmem : ∀ n, n ∈ values ↔ a ≤ n ∧ n < b) : values = List.range' a (b - a) := by
  have hperm : values.Perm (List.range' a (b - a)) := by
    refine (List.perm_ext_iff_of_nodup (h.imp fun hlt => Nat.ne_of_lt hlt) List.nodup_range').2
      fun n => ?_
    rw [hmem, List.mem_range'_1]
    omega
  exact hperm.eq_of_pairwise' h List.pairwise_lt_range'

/-- Lists in strict order of a key that have the same members are equal. -/
theorem eq_of_pairwise_key {key : α → Nat} {rows rows' : List α}
    (h : rows.Pairwise fun a b => key a < key b) (h' : rows'.Pairwise fun a b => key a < key b)
    (hmem : ∀ row, row ∈ rows ↔ row ∈ rows') : rows = rows' := by
  have : Std.Irrefl fun a b : α => key a < key b := ⟨fun a => Nat.lt_irrefl (key a)⟩
  have : Std.Antisymm fun a b : α => key a < key b :=
    ⟨fun a b hab hba => absurd hba (Nat.lt_asymm hab)⟩
  exact h.eq_of_mem_iff h' hmem

/-- The first numbers of an interval. -/
theorem take_range' {a n k : Nat} : (List.range' a n).take k = List.range' a (min k n) :=
  List.ext_getElem (by simp) fun i h h' => by simp

/-! ## Loops over rows -/

/-- A loop with another step that succeeds wherever the first one does. -/
theorem foldlM_ok_of_forall {f g : σ → α → Except ε σ} {rows : List α}
    (hstep : ∀ row ∈ rows, ∀ s t, f s row = .ok t → g s row = .ok t)
    (h : rows.foldlM f s = .ok t) : rows.foldlM g s = .ok t := by
  induction rows generalizing s with
  | nil => exact h
  | cons row rows ih =>
    rw [List.foldlM_cons] at h ⊢
    obtain ⟨u, hrow, h⟩ := bind_ok.1 h
    exact bind_ok.2 ⟨u, hstep row List.mem_cons_self s u hrow,
      ih (fun row' hr => hstep row' (List.mem_cons_of_mem _ hr)) h⟩

/-- What each step of a loop keeps holds where the loop ends. -/
theorem foldlM_ok_invariant {f : σ → α → Except ε σ} {I : σ → Prop}
    (hstep : ∀ s row t, I s → f s row = .ok t → I t) {rows : List α} (hs : I s)
    (h : rows.foldlM f s = .ok t) : I t := by
  induction rows generalizing s with
  | nil =>
    cases h
    exact hs
  | cons row rows ih =>
    rw [List.foldlM_cons] at h
    obtain ⟨u, hrow, h⟩ := bind_ok.1 h
    exact ih (hstep s row u hs hrow) h

/-- What each step of a loop says of the rows so far holds of all rows where the loop ends. -/
theorem foldlM_ok_rows {f : σ → α → Except ε σ} {I : List α → σ → Prop}
    (hstep : ∀ seen s row t, I seen s → f s row = .ok t → I (seen ++ [row]) t) {rows seen : List α}
    (hs : I seen s) (h : rows.foldlM f s = .ok t) : I (seen ++ rows) t := by
  induction rows generalizing seen s with
  | nil =>
    cases h
    rwa [List.append_nil]
  | cons row rows ih =>
    rw [List.foldlM_cons] at h
    obtain ⟨u, hrow, h⟩ := bind_ok.1 h
    rw [List.append_cons]
    exact ih (hstep seen s row u hs hrow) h

/-- A loop each of whose steps checks its row against the rows before it succeeds if the rows are
compatible with each other. -/
theorem foldlM_checks {f : σ → α → Except ε σ} {I : List α → σ → Prop} {fits : α → Prop}
    {compatible : α → α → Prop} (hok : ∀ seen s row, I seen s →
      ((∃ t, f s row = .ok t) ↔ fits row ∧ ∀ other ∈ seen, compatible other row))
    (hstep : ∀ seen s row t, I seen s → f s row = .ok t → I (seen ++ [row]) t) {rows seen : List α}
    (hs : I seen s) : (∃ t, rows.foldlM f s = .ok t) ↔
      (∀ row ∈ rows, fits row) ∧ rows.Pairwise compatible ∧
        ∀ other ∈ seen, ∀ row ∈ rows, compatible other row := by
  induction rows generalizing seen s with
  | nil => exact iff_of_true ⟨s, rfl⟩ ⟨nofun, .nil, fun _ _ => nofun⟩
  | cons row rows ih =>
    rw [List.foldlM_cons]
    constructor
    · rintro ⟨t, h⟩
      obtain ⟨u, hrow, h⟩ := bind_ok.1 h
      obtain ⟨hfits, hpast⟩ := (hok seen s row hs).1 ⟨u, hrow⟩
      obtain ⟨hall, hpair, hrest⟩ := (ih (hstep seen s row u hs hrow)).1 ⟨t, h⟩
      refine ⟨List.forall_mem_cons.2 ⟨hfits, hall⟩,
        List.pairwise_cons.2 ⟨hrest row (by simp), hpair⟩, fun other ho => ?_⟩
      exact List.forall_mem_cons.2 ⟨hpast other ho, hrest other (by simp [ho])⟩
    · rintro ⟨hall, hpair, hrest⟩
      obtain ⟨hfits, hall⟩ := List.forall_mem_cons.1 hall
      obtain ⟨hnext, hpair⟩ := List.pairwise_cons.1 hpair
      obtain ⟨u, hrow⟩ := (hok seen s row hs).2 ⟨hfits, fun other ho =>
        hrest other ho row (by simp)⟩
      obtain ⟨t, h⟩ := (ih (hstep seen s row u hs hrow)).2 ⟨hall, hpair, fun other ho row' hr => by
        rcases List.mem_append.1 ho with ho | ho
        · exact hrest other ho row' (by simp [hr])
        · rw [List.mem_singleton.1 ho]
          exact hnext row' hr⟩
      exact ⟨t, bind_ok.2 ⟨u, hrow, h⟩⟩

/-- A loop that only checks. -/
theorem forM_ok {f : α → Except ε Unit} {rows : List α} :
    rows.forM f = .ok () ↔ ∀ row ∈ rows, f row = .ok () := by
  induction rows with
  | nil => exact iff_of_true rfl (fun _ h => absurd h List.not_mem_nil)
  | cons row rows ih =>
    rw [show (row :: rows).forM f = (f row >>= fun _ => rows.forM f) from rfl, bind_ok,
      List.forall_mem_cons]
    refine ⟨fun ⟨_, hrow, h⟩ => ⟨hrow, ih.1 h⟩, fun ⟨hrow, h⟩ => ⟨(), hrow, ih.2 h⟩⟩

/-! ## Unique columns -/

/-- A unique column stays unique when a row with a new value is inserted. -/
theorem unique_concat {β : Type} {column : α → β} {rows : List α} {row : α}
    (h : (rows.map column).Nodup) (hnew : ∀ other ∈ rows, column other ≠ column row) :
    ((rows ++ [row]).map column).Nodup := by
  rw [List.map_append, List.nodup_append]
  refine ⟨h, List.nodup_singleton _, fun value hmem value' hmem' heq => ?_⟩
  obtain ⟨other, ho, rfl⟩ := List.mem_map.1 hmem
  exact hnew other ho (heq.trans (List.mem_singleton.1 hmem'))

/-- A row is found by its value of a unique column. -/
theorem find?_of_unique {β : Type} [BEq β] [LawfulBEq β] {column : α → β} {rows : List α} {row : α}
    {value : β} (h : (rows.map column).Nodup) (hr : row ∈ rows) (hvalue : column row = value) :
    rows.find? (fun other => column other == value) = some row := by
  cases hfind : rows.find? (fun other => column other == value) with
  | none => exact absurd (beq_iff_eq.2 hvalue) (List.find?_eq_none.1 hfind row hr)
  | some found =>
    have hfound : column found = value := by simpa using List.find?_some hfind
    exact congrArg some (List.inj_on_of_nodup_map h (List.mem_of_find?_eq_some hfind) hr
      (hfound.trans hvalue.symm))

/-- A value that no row has is not found. -/
theorem find?_eq_none_of_ne {β : Type} [BEq β] [LawfulBEq β] {column : α → β} {rows : List α}
    {value : β} (h : ∀ row ∈ rows, column row ≠ value) :
    rows.find? (fun row => column row == value) = none :=
  List.find?_eq_none.2 fun row hr hvalue => h row hr (beq_iff_eq.1 hvalue)

/-- A row with new values violates neither of two unique columns. -/
theorem not_any_of_ne {β γ : Type} [BEq β] [LawfulBEq β] [BEq γ] [LawfulBEq γ] {column : α → β}
    {column' : α → γ} {rows : List α} {value : β} {value' : γ}
    (h : ∀ row ∈ rows, column row ≠ value ∧ column' row ≠ value') :
    ¬ rows.any (fun row => column row == value || column' row == value') := by
  intro hany
  obtain ⟨row, hr, hsame⟩ := List.any_eq_true.1 hany
  rw [Bool.or_eq_true, beq_iff_eq, beq_iff_eq] at hsame
  exact hsame.elim (h row hr).1 (h row hr).2

/-- The rows that a table has for one row of another, in a join over a unique column. -/
theorem filter_flatMap_of_unique {β γ : Type} [BEq γ] [LawfulBEq γ] {column : α → γ}
    {column' : β → γ} {f : α → List β} {rows : List α} {row : α} (h : (rows.map column).Nodup)
    (hf : ∀ other ∈ rows, ∀ b ∈ f other, column' b = column other) (hr : row ∈ rows) :
    (rows.flatMap f).filter (fun b => column' b == column row) = f row := by
  induction rows with
  | nil => cases hr
  | cons first rows ih =>
    rw [List.map_cons, List.nodup_cons] at h
    rw [List.forall_mem_cons] at hf
    rw [List.flatMap_cons, List.filter_append]
    rcases List.mem_cons.1 hr with rfl | hr
    · have hself : (f row).filter (fun b => column' b == column row) = f row :=
        List.filter_eq_self.2 fun b hb => beq_iff_eq.2 (hf.1 b hb)
      have hnone : (rows.flatMap f).filter (fun b => column' b == column row) = [] := by
        refine List.filter_eq_nil_iff.2 fun b hb heq => ?_
        obtain ⟨other, ho, hb⟩ := List.mem_flatMap.1 hb
        exact h.1 (List.mem_map.2 ⟨other, ho, (hf.2 other ho b hb).symm.trans (beq_iff_eq.1 heq)⟩)
      rw [hself, hnone, List.append_nil]
    · have hnone : (f first).filter (fun b => column' b == column row) = [] := by
        refine List.filter_eq_nil_iff.2 fun b hb heq => ?_
        exact h.1 (List.mem_map.2 ⟨row, hr, (beq_iff_eq.1 heq).symm.trans (hf.1 b hb)⟩)
      rw [hnone, List.nil_append]
      exact ih h.2 hf.2 hr

end Transaction
