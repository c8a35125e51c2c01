import Mathlib.Algebra.Order.Group.Nat
import Mathlib.Tactic.Ring

/-!
# Splitting lists and walking up hash trees

A hash tree splits its leaves at the largest power of two below their number (`split_induction`). A
verifier walks up from a leaf by the bits of two indices (`climb`).
-/

namespace MerkleTree

variable {α σ : Type}

/-! ## The split -/

/-- A list of two elements or more has a left part of a power of two elements, and a right part that
is not longer. -/
theorem exists_split {n : Nat} (hn : 2 ≤ n) : ∃ h, 2 ^ h < n ∧ n ≤ 2 ^ (h + 1) := by
  refine ⟨(n - 1).log2, ?_, ?_⟩
  · have := Nat.log2_self_le (n := n - 1) (by omega)
    omega
  · have := Nat.lt_log2_self (n := n - 1)
    omega

/-- The parts of a split. -/
theorem exists_append (leaves : List α) (hlen : 2 ≤ leaves.length) : ∃ h l r, leaves = l ++ r ∧
    l.length = 2 ^ h ∧ r ≠ [] ∧ r.length ≤ 2 ^ h := by
  obtain ⟨h, hlt, hle⟩ := exists_split hlen
  rw [pow_succ] at hle
  refine ⟨h, leaves.take (2 ^ h), leaves.drop (2 ^ h), (List.take_append_drop _ _).symm, ?_, ?_, ?_⟩
  · rw [List.length_take]
    omega
  · rw [Ne, List.drop_eq_nil_iff]
    omega
  · rw [List.length_drop]
    omega

/-- Induction over the splits of a list. -/
@[elab_as_elim]
theorem split_induction {motive : (leaves : List α) → leaves ≠ [] → Prop}
    (single : ∀ a, motive [a] (List.cons_ne_nil a []))
    (node : ∀ h l r, l.length = 2 ^ h → ∀ (hr : r ≠ []), r.length ≤ 2 ^ h → ∀ hl : l ≠ [],
      motive l hl → motive r hr → motive (l ++ r) (List.append_ne_nil_of_right_ne_nil l hr))
    (leaves : List α) (hne : leaves ≠ []) : motive leaves hne := by
  generalize hn : leaves.length = n
  induction n using Nat.strong_induction_on generalizing leaves with
  | _ n ih =>
    have hpos := List.length_pos_iff.2 hne
    by_cases hone : leaves.length = 1
    · obtain ⟨a, rfl⟩ := List.length_eq_one_iff.1 hone
      exact single a
    · obtain ⟨h, l, r, rfl, hl, hr, hr'⟩ := exists_append leaves (by omega)
      have hlpos := Nat.two_pow_pos h
      have hrpos := List.length_pos_iff.2 hr
      rw [List.length_append] at hn
      have hlne : l ≠ [] := List.length_pos_iff.1 (by omega)
      exact node h l r hl hr hr' hlne (ih l.length (by omega) l hlne rfl)
        (ih r.length (by omega) r hr rfl)

/-! ## The walk -/

/-- Shift both numbers to the right until the first is odd or zero. -/
def shiftEven (fn sn : Nat) : Nat × Nat :=
  if fn ≠ 0 ∧ fn % 2 = 0 then shiftEven (fn / 2) (sn / 2) else (fn, sn)
termination_by fn
decreasing_by omega

/-- Shift both numbers to the right until the first is even. -/
def shiftOdd (fn sn : Nat) : Nat × Nat :=
  if fn % 2 = 1 then shiftOdd (fn / 2) (sn / 2) else (fn, sn)
termination_by fn
decreasing_by omega

/-- The walk up from a node at index `fn` in a level whose last index is `sn`: `left` takes a
sibling that stands to the left, and `right` one that stands to the right. It fails if there is a
sibling too many or too few. -/
def climb (left right : σ → α → σ) : (fn sn : Nat) → σ → List α → Option σ
  | _, sn, acc, [] => if sn = 0 then some acc else none
  | fn, sn, acc, sibling :: path =>
    if sn = 0 then none
    else if fn % 2 = 1 ∨ fn = sn then
      let s := if fn % 2 = 0 then shiftEven fn sn else (fn, sn)
      climb left right (s.1 / 2) (s.2 / 2) (left acc sibling) path
    else climb left right (fn / 2) (sn / 2) (right acc sibling) path

section
variable {left right : σ → α → σ} {fn sn : Nat} {acc x : σ} {path : List α}

@[simp] theorem climb_zero : climb left right fn 0 acc path = some x ↔ path = [] ∧ acc = x := by
  cases path <;> simp [climb]

/-- A walk that is not at the top needs a sibling. -/
theorem climb_nil (hs : sn ≠ 0) : climb left right fn sn acc [] = none := by
  simp [climb, hs]

theorem climb_odd {sibling : α} (hs : sn ≠ 0) (hf : fn % 2 = 1) :
    climb left right fn sn acc (sibling :: path) =
      climb left right (fn / 2) (sn / 2) (left acc sibling) path := by
  simp [climb, hs, hf]

theorem climb_even {sibling : α} (hs : sn ≠ 0) (hf : fn % 2 = 0) (hne : fn ≠ sn) :
    climb left right fn sn acc (sibling :: path) =
      climb left right (fn / 2) (sn / 2) (right acc sibling) path := by
  simp [climb, hs, hf, hne]

theorem climb_last {sibling : α} (hs : sn ≠ 0) (hf : fn % 2 = 0) (heq : fn = sn) :
    climb left right fn sn acc (sibling :: path) =
      climb left right ((shiftEven fn sn).1 / 2) ((shiftEven fn sn).2 / 2) (left acc sibling)
        path := by
  simp [climb, heq, heq ▸ hf, hs]

end

/-- The last element of a list that is not empty is its only one or the last of its tail. -/
theorem exists_snoc_cons {P : List α → α → Prop} {a : α} {rest : List α} :
    (∃ init p, a :: rest = init ++ [p] ∧ P init p) ↔
      rest = [] ∧ P [] a ∨ ∃ init p, rest = init ++ [p] ∧ P (a :: init) p := by
  constructor
  · rintro ⟨init, p, heq, hp⟩
    cases init with
    | nil =>
      obtain ⟨rfl, rfl⟩ := List.cons.inj heq
      exact .inl ⟨rfl, hp⟩
    | cons b init =>
      obtain ⟨rfl, rfl⟩ := List.cons.inj heq
      exact .inr ⟨init, p, rfl, hp⟩
  · rintro (⟨rfl, hp⟩ | ⟨init, p, rfl, hp⟩)
    · exact ⟨[], a, rfl, hp⟩
    · exact ⟨a :: init, p, rfl, hp⟩

/-! ## The walk in the parts of a split -/

section
variable {left right : σ → α → σ} {acc x : σ}

/-- **The left part.** The walk from an index in the left part of a split goes up the left part and
ends with a sibling to the right. -/
theorem climb_left {h fn sn : Nat} {path : List α} (hf : fn < 2 ^ h) (hs : 2 ^ h ≤ sn)
    (hs' : sn < 2 ^ (h + 1)) : climb left right fn sn acc path = some x ↔
      ∃ init p, path = init ++ [p] ∧
        ∃ y, climb left right fn (2 ^ h - 1) acc init = some y ∧ right y p = x := by
  induction h generalizing fn sn acc path with
  | zero =>
    obtain rfl : fn = 0 := by omega
    obtain rfl : sn = 1 := by omega
    cases path with
    | nil => simp [climb_nil]
    | cons p path =>
      rw [exists_snoc_cons, climb_even (by omega) (by omega) (by omega)]
      simp
  | succ h ih =>
    have hpos := Nat.two_pow_pos h
    rw [pow_succ] at hf hs
    rw [pow_succ, pow_succ] at hs'
    have htop : 2 ^ (h + 1) - 1 ≠ 0 := by
      rw [pow_succ]
      omega
    have hhalf : (2 ^ (h + 1) - 1) / 2 = 2 ^ h - 1 := by
      rw [pow_succ]
      omega
    cases path with
    | nil => simp [climb_nil (show sn ≠ 0 by omega)]
    | cons p path =>
      rw [exists_snoc_cons, climb_nil htop]
      rcases Nat.mod_two_eq_zero_or_one fn with hpar | hpar
      · rw [climb_even (by omega) hpar (by omega),
          ih (by omega) (by omega) (by rw [pow_succ]; omega)]
        have heven (init : List α) : climb left right fn (2 ^ (h + 1) - 1) acc (p :: init) =
            climb left right (fn / 2) (2 ^ h - 1) (right acc p) init := by
          rw [climb_even htop hpar (by rw [pow_succ]; omega), hhalf]
        simp [heven]
      · rw [climb_odd (by omega) hpar, ih (by omega) (by omega) (by rw [pow_succ]; omega)]
        have hodd (init : List α) : climb left right fn (2 ^ (h + 1) - 1) acc (p :: init) =
            climb left right (fn / 2) (2 ^ h - 1) (left acc p) init := by
          rw [climb_odd htop hpar, hhalf]
        simp [hodd]

/-- Shifting a number and the number with a higher bit set takes the same number of steps. -/
theorem shiftEven_add {h fn : Nat} (sn : Nat) (hf : fn ≠ 0) (hlt : fn < 2 ^ h) : ∃ t < h,
    shiftEven fn sn = (fn / 2 ^ t, sn / 2 ^ t) ∧
    shiftEven (2 ^ h + fn) (2 ^ h + sn) = (2 ^ (h - t) + fn / 2 ^ t, 2 ^ (h - t) + sn / 2 ^ t) := by
  induction h generalizing fn sn with
  | zero => omega
  | succ h ih =>
    rcases Nat.mod_two_eq_zero_or_one fn with hpar | hpar
    · rw [pow_succ] at hlt
      obtain ⟨t, ht, h1, h2⟩ := ih (sn / 2) (show fn / 2 ≠ 0 by omega) (by omega)
      have hhalf (n : Nat) : (2 ^ (h + 1) + n) / 2 = 2 ^ h + n / 2 := by
        rw [pow_succ]
        omega
      have heven : (2 ^ (h + 1) + fn) % 2 = 0 := by
        rw [pow_succ]
        omega
      have hdiv (n : Nat) : n / 2 / 2 ^ t = n / 2 ^ (t + 1) := by
        rw [Nat.div_div_eq_div_mul, ← pow_succ']
      refine ⟨t + 1, by omega, ?_, ?_⟩
      · rw [shiftEven, if_pos ⟨hf, hpar⟩, h1, hdiv, hdiv]
      · rw [shiftEven, if_pos ⟨by omega, heven⟩, hhalf, hhalf, h2, hdiv, hdiv,
          Nat.add_sub_add_right]
    · have hodd : (2 ^ (h + 1) + fn) % 2 = 1 := by
        rw [pow_succ]
        omega
      refine ⟨0, by omega, ?_, ?_⟩
      · rw [shiftEven, if_neg (by omega)]
        simp
      · rw [shiftEven, if_neg (by omega)]
        simp

/-- A power of two is shifted to one. -/
theorem shiftEven_two_pow (h : Nat) : shiftEven (2 ^ h) (2 ^ h) = (1, 1) := by
  induction h with
  | zero =>
    rw [shiftEven]
    simp
  | succ h ih =>
    have hpos := Nat.two_pow_pos h
    have hhalf : 2 ^ (h + 1) / 2 = 2 ^ h := by
      rw [pow_succ]
      omega
    rw [shiftEven, if_pos ⟨by omega, by rw [pow_succ]; omega⟩, hhalf, ih]

/-- The walk from the last node of a level with a power of two before it. -/
theorem climb_two_pow {h : Nat} {path : List α} :
    climb left right (2 ^ h) (2 ^ h) acc path = some x ↔ ∃ p, path = [p] ∧ left acc p = x := by
  have hpos := Nat.two_pow_pos h
  cases path with
  | nil => simp [climb_nil (Nat.pos_iff_ne_zero.1 hpos)]
  | cons p path =>
    cases h with
    | zero =>
      rw [pow_zero, climb_odd (by omega) (by omega)]
      simp
    | succ h =>
      rw [climb_last (by omega) (by rw [pow_succ]; omega) rfl, shiftEven_two_pow]
      simp

/-- **The right part.** The walk from an index in the right part of a split goes up the right part
and ends with a sibling to the left. -/
theorem climb_right {h fn sn : Nat} {path : List α} (hf : fn ≤ sn) (hs : sn < 2 ^ h) :
    climb left right (2 ^ h + fn) (2 ^ h + sn) acc path = some x ↔ ∃ init p, path = init ++ [p] ∧
        ∃ y, climb left right fn sn acc init = some y ∧ left y p = x := by
  induction h using Nat.strong_induction_on generalizing fn sn acc path with
  | _ h ih =>
    by_cases hzero : sn = 0
    · obtain rfl : fn = 0 := by omega
      subst hzero
      rw [Nat.add_zero, climb_two_pow]
      simp
    · obtain ⟨h, rfl⟩ : ∃ h', h = h' + 1 := by
        refine ⟨h - 1, ?_⟩
        rcases h with _ | h
        · omega
        · rfl
      have hhalf (n : Nat) : (2 ^ (h + 1) + n) / 2 = 2 ^ h + n / 2 := by
        rw [pow_succ]
        omega
      have hpar' : (2 ^ (h + 1) + fn) % 2 = fn % 2 := by
        rw [pow_succ]
        omega
      have hsn : 2 ^ (h + 1) + sn ≠ 0 := by omega
      have hle : fn / 2 ≤ sn / 2 := by omega
      have hlt : sn / 2 < 2 ^ h := by
        rw [pow_succ] at hs
        omega
      cases path with
      | nil => simp [climb_nil hsn]
      | cons p path =>
        rw [exists_snoc_cons, climb_nil hzero]
        rcases Nat.mod_two_eq_zero_or_one fn with hpar | hpar
        · by_cases heq : fn = sn
          · obtain ⟨t, ht, h1, h2⟩ := shiftEven_add sn (show fn ≠ 0 by omega)
              (show fn < 2 ^ (h + 1) by omega)
            have hlevel (n : Nat) : (2 ^ (h + 1 - t) + n / 2 ^ t) / 2 =
                2 ^ (h - t) + n / 2 ^ t / 2 := by
              rw [show h + 1 - t = h - t + 1 by omega, pow_succ]
              omega
            have hbound : sn / 2 ^ t / 2 < 2 ^ (h - t) := by
              rw [Nat.div_div_eq_div_mul, ← pow_succ, Nat.div_lt_iff_lt_mul (Nat.two_pow_pos _),
                ← pow_add, show h - t + (t + 1) = h + 1 by omega]
              exact hs
            rw [climb_last hsn (hpar'.trans hpar) (by rw [heq]), h2, hlevel, hlevel,
              ih (h - t) (by omega) (by rw [heq]) hbound]
            have hlast (init : List α) : climb left right fn sn acc (p :: init) =
                climb left right (fn / 2 ^ t / 2) (sn / 2 ^ t / 2) (left acc p) init := by
              rw [climb_last hzero hpar heq, h1]
            simp [hlast]
          · rw [climb_even hsn (hpar'.trans hpar) (by omega), hhalf, hhalf, ih h (by omega) hle hlt]
            have heven (init : List α) : climb left right fn sn acc (p :: init) =
                climb left right (fn / 2) (sn / 2) (right acc p) init :=
              climb_even hzero hpar heq
            simp [heven]
        · rw [climb_odd hsn (hpar'.trans hpar), hhalf, hhalf, ih h (by omega) hle hlt]
          have hodd (init : List α) : climb left right fn sn acc (p :: init) =
              climb left right (fn / 2) (sn / 2) (left acc p) init := climb_odd hzero hpar
          simp [hodd]

end

/-! ## Where a walk starts -/

/-- Shifting away the ones at the end of a number takes as many steps as there are. -/
theorem shiftOdd_eq {h fn : Nat} (hf : fn < 2 ^ h) :
    ∃ t ≤ h, ∀ sn, shiftOdd fn sn = (fn / 2 ^ t, sn / 2 ^ t) := by
  induction h generalizing fn with
  | zero =>
    refine ⟨0, le_rfl, fun sn => ?_⟩
    rw [shiftOdd, if_neg (by omega)]
    simp
  | succ h ih =>
    rw [pow_succ] at hf
    rcases Nat.mod_two_eq_zero_or_one fn with hpar | hpar
    · refine ⟨0, by omega, fun sn => ?_⟩
      rw [shiftOdd, if_neg (by omega)]
      simp
    · obtain ⟨t, ht, heq⟩ := ih (show fn / 2 < 2 ^ h by omega)
      refine ⟨t + 1, by omega, fun sn => ?_⟩
      rw [shiftOdd, if_pos hpar, heq, Nat.div_div_eq_div_mul, Nat.div_div_eq_div_mul, ← pow_succ']

/-- The same number of steps for the number with a higher bit set, if it is not all ones. -/
theorem shiftOdd_add {h fn : Nat} (hf : fn + 1 < 2 ^ h) : ∃ t < h, ∀ sn,
    shiftOdd fn sn = (fn / 2 ^ t, sn / 2 ^ t) ∧
    shiftOdd (2 ^ h + fn) (2 ^ h + sn) = (2 ^ (h - t) + fn / 2 ^ t, 2 ^ (h - t) + sn / 2 ^ t) := by
  induction h generalizing fn with
  | zero => omega
  | succ h ih =>
    rw [pow_succ] at hf
    have hhalf (n : Nat) : (2 ^ (h + 1) + n) / 2 = 2 ^ h + n / 2 := by
      rw [pow_succ]
      omega
    have hpar' : (2 ^ (h + 1) + fn) % 2 = fn % 2 := by
      rw [pow_succ]
      omega
    rcases Nat.mod_two_eq_zero_or_one fn with hpar | hpar
    · refine ⟨0, by omega, fun sn => ⟨?_, ?_⟩⟩
      · rw [shiftOdd, if_neg (by omega)]
        simp
      · rw [shiftOdd, if_neg (by omega)]
        simp
    · obtain ⟨t, ht, heq⟩ := ih (show fn / 2 + 1 < 2 ^ h by omega)
      have hdiv (n : Nat) : n / 2 / 2 ^ t = n / 2 ^ (t + 1) := by
        rw [Nat.div_div_eq_div_mul, ← pow_succ']
      refine ⟨t + 1, by omega, fun sn => ⟨?_, ?_⟩⟩
      · rw [shiftOdd, if_pos hpar, (heq _).1, hdiv, hdiv]
      · rw [shiftOdd, if_pos (hpar'.trans hpar), hhalf, hhalf, (heq _).2, hdiv, hdiv,
          Nat.add_sub_add_right]

/-- The start of a walk for a prefix of the left part of a split. -/
theorem shiftOdd_left {h fn sn : Nat} (hf : fn < 2 ^ h) (hs : 2 ^ h ≤ sn) (hs' : sn < 2 ^ (h + 1)) :
    ∃ j f s, shiftOdd fn sn = (f, s) ∧ shiftOdd fn (2 ^ h - 1) = (f, 2 ^ j - 1) ∧ f < 2 ^ j ∧
      2 ^ j ≤ s ∧ s < 2 ^ (j + 1) := by
  obtain ⟨t, ht, heq⟩ := shiftOdd_eq hf
  have hsplit (j : Nat) : 2 ^ (j - t) * 2 ^ t = 2 ^ (j - t + t) := (pow_add 2 (j - t) t).symm
  have hpos := Nat.two_pow_pos t
  refine ⟨h - t, fn / 2 ^ t, sn / 2 ^ t, heq sn, ?_, ?_, ?_, ?_⟩
  · rw [heq, Prod.mk.injEq]
    refine ⟨rfl, ?_⟩
    rw [Nat.div_eq_iff hpos]
    have h1 : 2 ^ (h - t) * 2 ^ t = 2 ^ h := by rw [hsplit, Nat.sub_add_cancel ht]
    have h2 : 0 < 2 ^ (h - t) := Nat.two_pow_pos _
    have h3 : (2 ^ (h - t) - 1) * 2 ^ t = 2 ^ h - 2 ^ t := by
      rw [Nat.sub_mul, h1, Nat.one_mul]
    have h4 : 2 ^ t ≤ 2 ^ h := Nat.pow_le_pow_right (by omega) ht
    omega
  · rw [Nat.div_lt_iff_lt_mul hpos, hsplit, Nat.sub_add_cancel ht]
    exact hf
  · rw [Nat.le_div_iff_mul_le hpos, hsplit, Nat.sub_add_cancel ht]
    exact hs
  · rw [Nat.div_lt_iff_lt_mul hpos, ← pow_add, show h - t + 1 + t = h + 1 by omega]
    exact hs'

/-- The start of a walk for a prefix that ends in the right part of a split. -/
theorem shiftOdd_right {h fn sn : Nat} (hf : fn + 1 < 2 ^ h) (hs : fn ≤ sn) (hs' : sn < 2 ^ h) :
    ∃ j f s, shiftOdd fn sn = (f, s) ∧
      shiftOdd (2 ^ h + fn) (2 ^ h + sn) = (2 ^ j + f, 2 ^ j + s) ∧ f ≤ s ∧ s < 2 ^ j := by
  obtain ⟨t, ht, heq⟩ := shiftOdd_add hf
  refine ⟨h - t, fn / 2 ^ t, sn / 2 ^ t, (heq sn).1, (heq sn).2, Nat.div_le_div_right hs, ?_⟩
  rw [Nat.div_lt_iff_lt_mul (Nat.two_pow_pos t), ← pow_add, Nat.sub_add_cancel ht.le]
  exact hs'

/-- A number of ones is shifted to zero. -/
theorem shiftOdd_two_pow (h : Nat) : shiftOdd (2 ^ h - 1) (2 ^ h - 1) = (0, 0) := by
  induction h with
  | zero =>
    rw [shiftOdd]
    simp
  | succ h ih =>
    have hpos := Nat.two_pow_pos h
    have hhalf : (2 ^ (h + 1) - 1) / 2 = 2 ^ h - 1 := by
      rw [pow_succ]
      omega
    rw [shiftOdd, if_pos (by rw [pow_succ]; omega), hhalf, ih]

end MerkleTree
