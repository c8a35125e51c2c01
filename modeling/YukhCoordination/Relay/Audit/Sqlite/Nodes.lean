import YukhCoordination.Relay.Audit.Sqlite.Ledger

/-!
# The cached nodes of the tree

The nodes that `insertMerkleLeaf` caches against the nodes that `addExpectedLeaf` recomputes, and
both against the tree hash of the leaves.

Two dictionaries that agree on every coordinate stay so when a leaf is added to both
(`insertMerkleLeaf_agree`), and have the same subtree hashes (`subtreeHash_agree`). Nodes that are
complete for a list of leaves stay so when a leaf is added (`insertMerkleLeaf_complete`), and their
subtree hashes are tree hashes (`Complete.subtreeHash`).
-/

namespace YukhCoordination.Relay.Audit.Sqlite

open Transaction MerkleTree

section
variable {Hash : Type} {codec : Codec Hash}

theorem trailingZeros64_two_pow (h : Nat) : trailingZeros64 (2 ^ h) = h := by
  induction h with
  | zero => rw [trailingZeros64]; simp
  | succ h ih =>
    have hpos := Nat.two_pow_pos h
    rw [trailingZeros64, dif_neg (Nat.two_pow_pos _).ne', if_neg (by rw [pow_succ]; omega),
      pow_succ, Nat.mul_div_cancel _ (by decide), ih]

variable {nodes nodes' expected : Dict NodeCoordinate Hash} {level index start size : Nat}
  {hash current leaf : Hash} {leaves : List Hash}

theorem readNode_ok :
    readNode nodes level index = .ok hash ↔ nodes.get? (level, index) = some hash := required_ok

theorem insertNode_ok [DecidableEq Hash] (h : insertNode nodes level index hash = .ok nodes') :
    nodes.get? (level, index) = none ∧ nodes' = nodes.set (level, index) hash := by
  obtain ⟨-, h⟩ := ensure_bind.1 h
  obtain ⟨hnew, h⟩ := ensure_bind.1 h
  cases h
  rw [Bool.and_eq_true, Option.isNone_iff_eq_none] at hnew
  exact ⟨hnew.1, rfl⟩

/-! ## Stored and expected nodes -/

theorem verifyStoredNodes_ok [DecidableEq Hash] :
    verifyStoredNodes nodes expected = .ok () ↔ ∀ k, nodes.get? k = expected.get? k := by
  rw [verifyStoredNodes, ensure_bind, ensure_ok, List.all_eq_true, beq_iff_eq]
  constructor
  · rintro ⟨hall, hlen⟩
    have hsub : nodes.entries ⊆ expected.entries := fun e he =>
      Dict.get?_eq_some.1 (beq_iff_eq.1 (hall e he))
    have hperm : nodes.entries.Perm expected.entries :=
      (List.subperm_of_subset (List.Nodup.of_map _ nodes.nodup) hsub).perm_of_length_le hlen.ge
    intro k
    refine Option.ext fun hash => ?_
    rw [Dict.get?_eq_some, Dict.get?_eq_some, hperm.mem_iff]
  · intro hagree
    have hperm : nodes.entries.Perm expected.entries := by
      refine (List.perm_ext_iff_of_nodup (List.Nodup.of_map _ nodes.nodup)
        (List.Nodup.of_map _ expected.nodup)).2 fun e => ?_
      rw [← Dict.get?_eq_some, ← Dict.get?_eq_some, hagree]
    refine ⟨fun e he => ?_, hperm.length_eq⟩
    rw [← hagree, Dict.get?_eq_some.2 he, beq_self_eq_true]

theorem insertMerkleLevel_agree [DecidableEq Hash] [Inhabited Hash]
    (hagree : ∀ k, nodes.get? k = expected.get? k)
    (h : insertMerkleLevel codec nodes level index current = .ok nodes') :
    ∀ k, nodes'.get? k = (addExpectedLevel codec expected level index current).get? k := by
  induction index using Nat.strongRecOn generalizing nodes expected level current with
  | ind index ih =>
    rw [insertMerkleLevel] at h
    obtain ⟨inserted, hinsert, h⟩ := bind_ok.1 h
    obtain ⟨-, rfl⟩ := insertNode_ok hinsert
    have hset (k : NodeCoordinate) : (nodes.set (level, index) current).get? k =
        (expected.set (level, index) current).get? k := by
      rw [Dict.get?_set, Dict.get?_set, hagree]
    rw [addExpectedLevel]
    by_cases hodd : index % 2 = 1
    · rw [dif_pos hodd] at h ⊢
      obtain ⟨left, hleft, h⟩ := bind_ok.1 h
      rw [readNode_ok, hset] at hleft
      rw [hleft]
      exact ih (index / 2) (by omega) hset h
    · rw [dif_neg hodd] at h ⊢
      cases h
      exact hset

/-- A leaf is added to the stored and to the expected nodes alike. -/
theorem insertMerkleLeaf_agree [DecidableEq Hash] [Inhabited Hash]
    (hagree : ∀ k, nodes.get? k = expected.get? k)
    (h : insertMerkleLeaf codec nodes index leaf = .ok nodes') :
    ∀ k, nodes'.get? k = (addExpectedLeaf codec expected index leaf).get? k :=
  insertMerkleLevel_agree hagree h

/-- The hash of a subtree is the one of the expected nodes. -/
theorem subtreeHash_agree [DecidableEq Hash] [Inhabited Hash]
    (hagree : ∀ k, nodes.get? k = expected.get? k) (hpos : 0 < size)
    (h : subtreeHash codec nodes start size = .ok hash) :
    expectedSubtree codec expected start size = hash := by
  induction size using Nat.strongRecOn generalizing start hash with
  | ind size ih =>
    rw [subtreeHash, if_neg (by omega)] at h
    rw [expectedSubtree]
    split at h
    · cases h
    · split at h
      · next hfull =>
        rw [if_pos hfull, ← hagree, readNode_ok.1 h, Option.getD_some]
      · next hfull =>
        rw [if_neg hfull]
        split at h
        · next htwo =>
          rw [dif_pos htwo]
          obtain ⟨left, hleft, h⟩ := bind_ok.1 h
          obtain ⟨right, hright, h⟩ := bind_ok.1 h
          cases h
          have hlt := largestPowerLessThan_lt htwo
          have hk := largestPowerLessThan_pos size
          simp only [ih _ hlt hk hleft, ih _ (by omega) (by omega) hright]
        · cases h

/-! ## Growing nodes -/

/-- A leaf adds nodes and changes none. -/
theorem insertMerkleLevel_grows [DecidableEq Hash]
    (h : insertMerkleLevel codec nodes level index current = .ok nodes') {k : NodeCoordinate}
    (hk : nodes.get? k = some hash) : nodes'.get? k = some hash := by
  induction index using Nat.strongRecOn generalizing nodes level current with
  | ind index ih =>
    rw [insertMerkleLevel] at h
    obtain ⟨inserted, hinsert, h⟩ := bind_ok.1 h
    obtain ⟨hnew, rfl⟩ := insertNode_ok hinsert
    have hset : (nodes.set (level, index) current).get? k = some hash := by
      rw [Dict.get?_set, if_neg, hk]
      rintro rfl
      rw [hnew] at hk
      cases hk
    by_cases hodd : index % 2 = 1
    · rw [dif_pos hodd] at h
      obtain ⟨left, -, h⟩ := bind_ok.1 h
      exact ih (index / 2) (by omega) h hset
    · rw [dif_neg hodd] at h
      cases h
      exact hset

/-- More nodes have the same subtree hashes. -/
theorem subtreeHash_grows (hgrows : ∀ k hash, nodes.get? k = some hash → nodes'.get? k = some hash)
    (h : subtreeHash codec nodes start size = .ok hash) :
    subtreeHash codec nodes' start size = .ok hash := by
  induction size using Nat.strongRecOn generalizing start hash with
  | ind size ih =>
    rw [subtreeHash] at h ⊢
    split at h
    · next hzero => rwa [if_pos hzero]
    · next hzero =>
      rw [if_neg hzero]
      split at h
      · cases h
      · next hmax =>
        rw [if_neg hmax]
        split at h
        · next hfull =>
          rw [if_pos hfull]
          exact readNode_ok.2 (hgrows _ _ (readNode_ok.1 h))
        · next hfull =>
          rw [if_neg hfull]
          split at h
          · next htwo =>
            rw [dif_pos htwo]
            obtain ⟨left, hleft, h⟩ := bind_ok.1 h
            obtain ⟨right, hright, h⟩ := bind_ok.1 h
            have hk := largestPowerLessThan_pos size
            exact bind_ok.2 ⟨left, ih _ (largestPowerLessThan_lt htwo) hleft,
              bind_ok.2 ⟨right, ih _ (by omega) hright, h⟩⟩
          · cases h

/-! ## Nodes and leaves -/

/-- The leaves under a node. -/
def under (leaves : List Hash) (level index : Nat) : List Hash :=
  (leaves.drop (index * 2 ^ level)).take (2 ^ level)

/-- Every full subtree of the leaves has its node. -/
def Complete (codec : Codec Hash) (nodes : Dict NodeCoordinate Hash) (leaves : List Hash) : Prop :=
  ∀ level index, (index + 1) * 2 ^ level ≤ leaves.length →
    nodes.get? (level, index) = some (merkleRoot codec.sha256 (under leaves level index))

theorem length_under (h : (index + 1) * 2 ^ level ≤ leaves.length) :
    (under leaves level index).length = 2 ^ level := by
  rw [Nat.add_mul, Nat.one_mul] at h
  rw [under, List.length_take, List.length_drop]
  omega

theorem under_append (leaf : Hash) (h : (index + 1) * 2 ^ level ≤ leaves.length) :
    under (leaves ++ [leaf]) level index = under leaves level index := by
  rw [Nat.add_mul, Nat.one_mul] at h
  have hdrop : index * 2 ^ level ≤ leaves.length := (Nat.le_add_right _ _).trans h
  have htake : 2 ^ level ≤ (leaves.drop (index * 2 ^ level)).length := by
    rw [List.length_drop]
    omega
  rw [under, under, List.drop_append_of_le_length hdrop, List.take_append_of_le_length htake]

/-- The leaves under a node are those under its two children. -/
theorem under_succ (leaves : List Hash) (level index : Nat) : under leaves (level + 1) index =
      under leaves level (2 * index) ++ under leaves level (2 * index + 1) := by
  rw [under, under, under, pow_succ, show index * (2 ^ level * 2) = 2 * index * 2 ^ level by ring,
    show (2 * index + 1) * 2 ^ level = 2 * index * 2 ^ level + 2 ^ level by ring, ← List.drop_drop,
    Nat.mul_two]
  exact List.take_add

/-- The root over the leaves under a node is the hash of those under its children. -/
theorem merkleRoot_under_succ (h : (index + 1) * 2 ^ (level + 1) ≤ leaves.length) :
    merkleRoot codec.sha256 (under leaves (level + 1) index) =
      merkleNodeHash codec.sha256 (merkleRoot codec.sha256 (under leaves level (2 * index)))
        (merkleRoot codec.sha256 (under leaves level (2 * index + 1))) := by
  have hpos := Nat.two_pow_pos level
  have heq : (2 * index + 1 + 1) * 2 ^ level = (index + 1) * 2 ^ (level + 1) := by ring
  have hleft : (2 * index + 1) * 2 ^ level ≤ leaves.length := by
    refine Nat.le_trans (Nat.mul_le_mul_right _ ?_) (heq.trans_le h)
    omega
  have hright := length_under (heq.trans_le h)
  rw [under_succ]
  refine merkleRoot_append (length_under hleft) ?_ hright.le
  intro hnil
  rw [hnil, List.length_nil] at hright
  omega

/-- The loop that adds a leaf, at a level: the nodes below the level and those of the leaves before
are there, and the current node is the last one of its level. -/
theorem addExpectedLevel_complete [Inhabited Hash]
    (hnodes : ∀ l i, (i + 1) * 2 ^ l ≤ leaves.length + 1 →
      l < level ∨ (i + 1) * 2 ^ l ≤ leaves.length →
      nodes.get? (l, i) = some (merkleRoot codec.sha256 (under (leaves ++ [leaf]) l i)))
    (hindex : (index + 1) * 2 ^ level = leaves.length + 1)
    (hcurrent : current = merkleRoot codec.sha256 (under (leaves ++ [leaf]) level index)) :
    Complete codec (addExpectedLevel codec nodes level index current) (leaves ++ [leaf]) := by
  induction index using Nat.strongRecOn generalizing nodes level current with
  | ind index ih =>
    have hpow := Nat.two_pow_pos level
    have hset (l i : Nat) (hle : (i + 1) * 2 ^ l ≤ leaves.length + 1)
        (hdone : l < level + 1 ∨ (i + 1) * 2 ^ l ≤ leaves.length) :
        (nodes.set (level, index) current).get? (l, i) =
          some (merkleRoot codec.sha256 (under (leaves ++ [leaf]) l i)) := by
      rw [Dict.get?_set]
      split
      · next heq =>
        obtain ⟨rfl, rfl⟩ := Prod.mk.inj heq
        rw [hcurrent]
      · next hne =>
        refine hnodes l i hle ?_
        rcases hdone with hlt | hold
        · rcases Nat.lt_succ_iff_lt_or_eq.1 hlt with hlt | rfl
          · exact .inl hlt
          · -- The last node of the level is the one that was set.
            have hi : i + 1 ≤ index + 1 := Nat.le_of_mul_le_mul_right (hle.trans hindex.ge) hpow
            have hi' : i + 1 ≤ index := by
              have : i ≠ index := fun heq => hne (by rw [heq])
              omega
            have := Nat.mul_le_mul_right (2 ^ l) hi'
            rw [Nat.add_mul, Nat.one_mul] at hindex
            exact .inr (by omega)
        · exact .inr hold
    rw [addExpectedLevel]
    by_cases hodd : index % 2 = 1
    · rw [dif_pos hodd]
      have hparent : (index / 2 + 1) * 2 ^ (level + 1) = leaves.length + 1 := by
        rw [← hindex, pow_succ, ← Nat.mul_assoc, Nat.mul_right_comm]
        congr 1
        omega
      have hle : (index - 1 + 1) * 2 ^ level ≤ leaves.length := by
        rw [Nat.add_mul, Nat.one_mul] at hindex
        rw [Nat.sub_add_cancel (by omega)]
        omega
      refine ih (index / 2) (by omega) hset hparent ?_
      rw [hset level (index - 1) (by omega) (.inr hle), Option.getD_some,
        merkleRoot_under_succ (by rw [List.length_append]; exact hparent.le),
        show 2 * (index / 2) = index - 1 by omega, Nat.sub_add_cancel (by omega), hcurrent]
    · rw [dif_neg hodd]
      intro l i hle
      rw [List.length_append] at hle
      refine hset l i hle ?_
      rcases Nat.lt_or_ge l (level + 1) with hlt | hge
      · exact .inl hlt
      · -- A node above would have an odd last child.
        refine .inr (Nat.le_of_lt_succ (Nat.lt_of_le_of_ne hle fun (heq : _ = _ + 1) => hodd ?_))
        obtain ⟨d, rfl⟩ := Nat.exists_eq_add_of_le hge
        have hmul : index + 1 = (i + 1) * 2 ^ d * 2 := by
          refine Nat.eq_of_mul_eq_mul_right hpow ?_
          rw [hindex, ← heq, pow_add, pow_succ]
          ring
        omega

/-- Adding an expected leaf keeps the nodes complete. -/
theorem addExpectedLeaf_complete [Inhabited Hash] (hnodes : Complete codec nodes leaves)
    (leaf : Hash) :
    Complete codec (addExpectedLeaf codec nodes leaves.length leaf) (leaves ++ [leaf]) := by
  refine addExpectedLevel_complete (fun l i _ hold => ?_) (by simp) ?_
  · have hle := hold.resolve_left (Nat.not_lt_zero l)
    rw [hnodes l i hle, under_append leaf hle]
  · rw [under, pow_zero, Nat.mul_one, List.drop_left]
    exact (merkleRoot.eq_2 codec.sha256 leaf).symm

/-- Adding a leaf keeps the nodes complete. -/
theorem insertMerkleLeaf_complete [DecidableEq Hash] [Inhabited Hash]
    (hnodes : Complete codec nodes leaves)
    (h : insertMerkleLeaf codec nodes leaves.length leaf = .ok nodes') :
    Complete codec nodes' (leaves ++ [leaf]) := by
  intro level index hle
  rw [insertMerkleLeaf_agree (fun _ => rfl) h]
  exact addExpectedLeaf_complete hnodes leaf level index hle

theorem complete_nil (nodes : Dict NodeCoordinate Hash) : Complete codec nodes [] := by
  intro level index h
  have hpos := Nat.two_pow_pos level
  have hle : (index + 1) * 2 ^ level ≤ 0 := h
  rw [Nat.add_mul, Nat.one_mul] at hle
  omega

/-- Where a range of leaves is split. -/
theorem exists_range_split
    (hsize : start + size ≤ leaves.length) (htwo : 2 ≤ size) : ∃ h, 2 ^ h < size ∧
      largestPowerLessThan size = 2 ^ h ∧
      (leaves.drop start).take size =
        (leaves.drop start).take (2 ^ h) ++ (leaves.drop (start + 2 ^ h)).take (size - 2 ^ h) ∧
      ((leaves.drop start).take (2 ^ h)).length = 2 ^ h ∧
      (leaves.drop (start + 2 ^ h)).take (size - 2 ^ h) ≠ [] ∧
      ((leaves.drop (start + 2 ^ h)).take (size - 2 ^ h)).length ≤ 2 ^ h := by
  obtain ⟨h, hlt, hle⟩ := exists_split htwo
  have hr : ((leaves.drop (start + 2 ^ h)).take (size - 2 ^ h)).length = size - 2 ^ h := by
    rw [List.length_take, List.length_drop]
    omega
  refine ⟨h, hlt, largestPowerLessThan_eq hlt hle, ?_, ?_, List.length_pos_iff.1 (by omega), ?_⟩
  · rw [← List.drop_drop, ← List.take_add, Nat.add_sub_cancel' hlt.le]
  · rw [List.length_take, List.length_drop]
    omega
  · rw [pow_succ] at hle
    omega

/-- The hash of a range of leaves is the tree hash of the range. -/
theorem Complete.subtreeHash (hnodes : Complete codec nodes leaves)
    (hmax : leaves.length ≤ maxJSONSafeSequence) (hsize : start + size ≤ leaves.length) :
    Sqlite.subtreeHash codec nodes start size =
      .ok (merkleRoot codec.sha256 ((leaves.drop start).take size)) := by
  induction size using Nat.strongRecOn generalizing start with
  | ind size ih =>
    rw [Sqlite.subtreeHash]
    split
    · next hzero =>
      rw [hzero, List.take_zero, merkleRoot]
    · next hzero =>
      rw [if_neg (by omega)]
      split
      · next hfull =>
        obtain ⟨h, rfl⟩ := (land_pred_eq_zero (by omega)).1 hfull.1
        have hstart : start / 2 ^ h * 2 ^ h = start :=
          Nat.div_mul_cancel (Nat.dvd_of_mod_eq_zero hfull.2)
        rw [trailingZeros64_two_pow, readNode_ok, hnodes h (start / 2 ^ h), under, hstart]
        rw [Nat.add_mul, Nat.one_mul, hstart]
        exact hsize
      · next hfull =>
        have htwo : 2 ≤ size := by
          rcases Nat.lt_or_ge size 2 with hlt | hge
          · obtain rfl : size = 1 := by omega
            exact absurd ⟨rfl, Nat.mod_one start⟩ hfull
          · exact hge
        obtain ⟨h, hlt, hk, hrange, hl, hr, hr'⟩ := exists_range_split hsize htwo
        have hpos := Nat.two_pow_pos h
        have hleft := @ih _ hlt start (by omega)
        have hright := @ih (size - 2 ^ h) (by omega) (start + 2 ^ h) (by omega)
        rw [hrange, merkleRoot_append hl hr hr', dif_pos htwo, hk]
        simp only [hleft, hright]
        rfl

/-- The root that is recomputed from complete nodes is the tree hash of the leaves. -/
theorem Complete.rootFromExpected [DecidableEq Hash] [Inhabited Hash]
    (hnodes : Complete codec nodes leaves) (hmax : leaves.length ≤ maxJSONSafeSequence) :
    Sqlite.rootFromExpected codec nodes leaves.length = merkleRoot codec.sha256 leaves := by
  have hroot := hnodes.subtreeHash hmax (Nat.zero_add leaves.length).le
  rw [List.drop_zero, List.take_length] at hroot
  unfold Sqlite.rootFromExpected
  split
  · next hzero => rw [List.length_eq_zero_iff.1 hzero, merkleRoot]
  · next hzero => exact subtreeHash_agree (fun _ => rfl) (Nat.pos_of_ne_zero hzero) hroot

end

end YukhCoordination.Relay.Audit.Sqlite
