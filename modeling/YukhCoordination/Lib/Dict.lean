import Mathlib.Data.List.Nodup

/-!
# Dictionaries

A dictionary is a list of entries with distinct keys, in the order in which the keys were first set.
Setting a key that is there replaces its value in place. `get?` is determined by membership
(`get?_eq_some`), and the lemmas below say what each operation does to it.
-/

/-- A dictionary with the entries in insertion order. -/
structure Dict (κ ν : Type) where
  entries : List (κ × ν)
  nodup : (entries.map (·.1)).Nodup

namespace Dict

variable {κ ν : Type}

/-- The dictionary without entries. -/
def empty : Dict κ ν := ⟨[], List.nodup_nil⟩

/-- Change every value, given its key. -/
def map (d : Dict κ ν) (f : κ → ν → ν) : Dict κ ν where
  entries := d.entries.map fun e => (e.1, f e.1 e.2)
  nodup := by
    rw [List.map_map]
    exact d.nodup

variable [DecidableEq κ]

/-- The value at a key. -/
def get? (d : Dict κ ν) (k : κ) : Option ν := (d.entries.find? (·.1 == k)).map (·.2)

/-- Remove a key. -/
def erase (d : Dict κ ν) (k : κ) : Dict κ ν where
  entries := d.entries.filter (·.1 != k)
  nodup := d.nodup.sublist (List.filter_sublist.map _)

/-- Change the value at a key. -/
def modify (d : Dict κ ν) (k : κ) (f : ν → ν) : Dict κ ν :=
  d.map fun k' v => if k' = k then f v else v

variable {d : Dict κ ν} {k : κ} {v v₀ : ν}

theorem get?_eq_some : d.get? k = some v ↔ (k, v) ∈ d.entries := by
  constructor
  · intro h
    obtain ⟨⟨k', v'⟩, he, rfl⟩ := Option.map_eq_some_iff.1 h
    obtain rfl : k' = k := by simpa using List.find?_some he
    exact List.mem_of_find?_eq_some he
  · intro h
    cases hf : d.entries.find? (·.1 == k) with
    | none => exact absurd (List.find?_eq_none.1 hf _ h) (by simp)
    | some e =>
      have hk : e.1 = k := by simpa using List.find?_some hf
      have := List.inj_on_of_nodup_map d.nodup (List.mem_of_find?_eq_some hf) h hk
      simp [get?, hf, this]

theorem get?_eq_none : d.get? k = none ↔ ∀ v, (k, v) ∉ d.entries := by
  simp only [← get?_eq_some, Option.eq_none_iff_forall_ne_some, ne_eq]

/-- Set a key: in place if it is there, and at the end if it is not. -/
def set (d : Dict κ ν) (k : κ) (v : ν) : Dict κ ν :=
  if h : d.get? k = none then
    { entries := d.entries ++ [(k, v)]
      nodup := by
        rw [List.map_append, List.map_singleton, List.nodup_append]
        refine ⟨d.nodup, List.nodup_singleton _, fun k₁ hk₁ k₂ hk₂ heq => ?_⟩
        obtain ⟨⟨k', v'⟩, he, rfl⟩ := List.mem_map.1 hk₁
        obtain rfl := List.mem_singleton.1 hk₂
        exact get?_eq_none.1 h v' (heq ▸ he) }
  else d.modify k fun _ => v

@[simp] theorem get?_empty (k : κ) : (empty : Dict κ ν).get? k = none := rfl

theorem get?_map (d : Dict κ ν) (f : κ → ν → ν) (k : κ) :
    (d.map f).get? k = (d.get? k).map (f k) := by
  refine Option.ext fun v => ?_
  rw [get?_eq_some, Option.map_eq_some_iff]
  constructor
  · intro h
    obtain ⟨⟨k', v'⟩, he, heq⟩ := List.mem_map.1 h
    obtain ⟨rfl, rfl⟩ := Prod.mk.inj heq
    exact ⟨v', get?_eq_some.2 he, rfl⟩
  · rintro ⟨v', hv, rfl⟩
    exact List.mem_map.2 ⟨(k, v'), get?_eq_some.1 hv, rfl⟩

theorem get?_modify (d : Dict κ ν) (k k' : κ) (f : ν → ν) :
    (d.modify k f).get? k' = if k' = k then (d.get? k).map f else d.get? k' := by
  rw [modify, get?_map]
  split
  · next h => subst h; rfl
  · exact Option.map_id'

theorem get?_set (d : Dict κ ν) (k k' : κ) (v : ν) :
    (d.set k v).get? k' = if k' = k then some v else d.get? k' := by
  unfold set
  split
  · next h =>
    refine Option.ext fun v' => ?_
    rw [get?_eq_some, List.mem_append, List.mem_singleton, Prod.mk.injEq]
    split
    · next hk =>
      subst hk
      have hnone := get?_eq_none.1 h v'
      simp [hnone, eq_comm]
    · next hk => simp [hk, get?_eq_some]
  · next h =>
    obtain ⟨v', hv⟩ := Option.ne_none_iff_exists'.1 h
    rw [get?_modify, hv]
    rfl

theorem get?_erase (d : Dict κ ν) (k k' : κ) :
    (d.erase k).get? k' = if k' = k then none else d.get? k' := by
  refine Option.ext fun v => ?_
  rw [get?_eq_some, erase, List.mem_filter]
  split
  · next hk => simp [hk]
  · next hk => simp [hk, get?_eq_some]

theorem set_of_none (h : d.get? k = none) : (d.set k v).entries = d.entries ++ [(k, v)] := by
  rw [set, dif_pos h]

theorem set_of_some (h : d.get? k = some v₀) :
    (d.set k v).entries = d.entries.map fun e => (e.1, if e.1 = k then v else e.2) := by
  rw [set, dif_neg (by simp [h])]
  rfl

omit [DecidableEq κ] in
theorem ext_entries {d' : Dict κ ν} (h : d.entries = d'.entries) : d = d' := by
  obtain ⟨entries, hn⟩ := d
  obtain ⟨entries', hn'⟩ := d'
  obtain rfl : entries = entries' := h
  rfl

omit [DecidableEq κ] in
theorem map_entries (d : Dict κ ν) (f : κ → ν → ν) :
    (d.map f).entries = d.entries.map fun e => (e.1, f e.1 e.2) := rfl

/-- Changing every value commutes with setting one. -/
theorem map_set (d : Dict κ ν) (f : κ → ν → ν) (k : κ) (v : ν) :
    (d.set k v).map f = (d.map f).set k (f k v) := by
  refine ext_entries ?_
  cases hget : d.get? k with
  | none =>
    have hget' : (d.map f).get? k = none := by rw [get?_map, hget]; rfl
    rw [set_of_none hget', map_entries, set_of_none hget, List.map_append, map_entries]
    rfl
  | some v₀ =>
    have hget' : (d.map f).get? k = some (f k v₀) := by rw [get?_map, hget]; rfl
    rw [set_of_some hget', map_entries, set_of_some hget, map_entries, List.map_map, List.map_map]
    refine List.map_congr_left fun e _ => ?_
    simp only [Function.comp_apply]
    split
    · next heq => rw [heq]
    · rfl

/-- Setting a key that is there changes its entry in place. -/
theorem set_in_place (h : d.get? k = some v₀) : ∃ before after,
    d.entries = before ++ (k, v₀) :: after ∧
      ∀ v, (d.set k v).entries = before ++ (k, v) :: after := by
  obtain ⟨before, after, hsplit⟩ := List.append_of_mem (get?_eq_some.1 h)
  have hnodup := d.nodup
  rw [hsplit, List.map_append, List.map_cons, List.nodup_append] at hnodup
  obtain ⟨-, hafter, hbefore⟩ := hnodup
  have hother {l : List (κ × ν)} (hl : ∀ e ∈ l, e.1 ≠ k) (v : ν) :
      l.map (fun e => (e.1, if e.1 = k then v else e.2)) = l := by
    conv_rhs => rw [← List.map_id l]
    refine List.map_congr_left fun e he => ?_
    rw [if_neg (hl e he)]
    rfl
  refine ⟨before, after, hsplit, fun v => ?_⟩
  rw [set_of_some h, hsplit, List.map_append, List.map_cons, hother, hother, if_pos rfl]
  · intro e he heq
    exact (List.nodup_cons.1 hafter).1 (List.mem_map.2 ⟨e, he, heq⟩)
  · intro e he
    exact hbefore _ (List.mem_map_of_mem he) _ (List.mem_cons_self ..)

/-- Setting a key that is there keeps the keys. -/
theorem keys_set_of_some (h : d.get? k = some v₀) :
    (d.set k v).entries.map (·.1) = d.entries.map (·.1) := by
  rw [set_of_some h, List.map_map]
  rfl

/-- The keys of the entries that satisfy a condition are the keys whose value does. -/
theorem keys_filter (d : Dict κ ν) (keep : ν → Bool) :
    (d.entries.filter fun e => keep e.2).map (·.1) =
      (d.entries.map (·.1)).filter fun k => (d.get? k).any keep := by
  rw [List.filter_map]
  congr 1
  refine List.filter_congr fun e he => ?_
  rw [Function.comp_apply, get?_eq_some.2 he, Option.any_some]

end Dict
