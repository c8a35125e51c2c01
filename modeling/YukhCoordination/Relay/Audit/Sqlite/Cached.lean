import Mathlib.Data.List.Induction
import YukhCoordination.Relay.Audit.Sqlite.Append
import YukhCoordination.Relay.Audit.Sqlite.Checkpoint

/-!
# The proofs that are read from the cached nodes

What is read from the cached nodes is what the leaves give (`insertMerkleLeaves_cached`).
-/

namespace YukhCoordination.Relay.Audit.Sqlite

open Transaction MerkleTree

section
variable {Hash : Type} {codec : Codec Hash} {nodes nodes' : Dict NodeCoordinate Hash}
  {leaves : List Hash} {level index start size : Nat} {leaf hash current : Hash}

/-! ## Paths -/

/-- The inclusion path that is read from complete nodes is the one of the leaves. -/
theorem Complete.inclusionPath (hnodes : Complete codec nodes leaves)
    (hmax : leaves.length ≤ maxJSONSafeSequence) (hsize : start + size ≤ leaves.length)
    (hindex : index < size) :
    Sqlite.inclusionPath codec nodes start size index =
      .ok (buildInclusionPath codec.sha256 ((leaves.drop start).take size) index) := by
  induction size using Nat.strongRecOn generalizing start index with
  | ind size ih =>
    rw [Sqlite.inclusionPath]
    by_cases hone : size = 1
    · have hlength : ((leaves.drop start).take size).length = 1 := by
        rw [List.length_take, List.length_drop]
        omega
      obtain ⟨leaf, hleaf⟩ := List.length_eq_one_iff.1 hlength
      rw [if_pos hone, hleaf, buildInclusionPath]
    · have htwo : 2 ≤ size := by omega
      obtain ⟨h, hlt, hk, hrange, hl, hr, hr'⟩ := exists_range_split hsize htwo
      have hpow := Nat.two_pow_pos h
      rw [if_neg hone, dif_pos htwo, hk, hrange, buildInclusionPath_append hl hr hr', hl]
      by_cases hleft : index < 2 ^ h
      · rw [if_pos hleft, if_pos hleft]
        have hpath := ih _ hlt (show start + 2 ^ h ≤ _ by omega) hleft
        have hsibling := hnodes.subtreeHash hmax
          (show start + 2 ^ h + (size - 2 ^ h) ≤ leaves.length by omega)
        simp only [hpath, hsibling]
        rfl
      · rw [if_neg hleft, if_neg hleft]
        have hpath := ih (size - 2 ^ h) (by omega)
          (show start + 2 ^ h + (size - 2 ^ h) ≤ _ by omega) (show index - 2 ^ h < _ by omega)
        have hsibling := hnodes.subtreeHash hmax (show start + 2 ^ h ≤ leaves.length by omega)
        simp only [hpath, hsibling]
        rfl

/-- The path that is read from complete nodes is the one of the leaves. -/
theorem Complete.consistencyPath (hnodes : Complete codec nodes leaves)
    (hmax : leaves.length ≤ maxJSONSafeSequence) {firstSize : Nat}
    (hsize : start + size ≤ leaves.length) (hpos : 0 < firstSize)
    (hle : firstSize ≤ size) (complete : Bool) :
    Sqlite.consistencyPath codec nodes start size firstSize complete =
      .ok (buildConsistencyPath codec.sha256 ((leaves.drop start).take size) firstSize
        complete) := by
  induction size using Nat.strongRecOn generalizing start firstSize complete with
  | ind size ih =>
    have hlength : ((leaves.drop start).take size).length = size := by
      rw [List.length_take, List.length_drop]
      omega
    rw [Sqlite.consistencyPath]
    by_cases hfull : firstSize = size
    · have hbuild := @buildConsistencyPath_full _ codec.sha256 ((leaves.drop start).take size)
        (List.length_pos_iff.1 (by omega)) complete
      rw [hlength, ← hfull] at hbuild
      rw [if_pos hfull, ← hfull, hbuild]
      cases complete with
      | true => rfl
      | false => rw [hnodes.subtreeHash hmax (hfull ▸ hsize)]; rfl
    · have htwo : 2 ≤ size := by omega
      obtain ⟨h, hlt, hk, hrange, hl, hr, hr'⟩ := exists_range_split hsize htwo
      have hpow := Nat.two_pow_pos h
      have hne : firstSize ≠ ((leaves.drop start).take (2 ^ h) ++
          (leaves.drop (start + 2 ^ h)).take (size - 2 ^ h)).length := by
        rwa [← hrange, hlength]
      rw [if_neg hfull, dif_pos htwo, hk, hrange, buildConsistencyPath_append hl hr hr' hne, hl]
      by_cases hfirst : firstSize ≤ 2 ^ h
      · rw [if_pos hfirst, if_pos hfirst]
        have hleft := ih _ hlt (show start + 2 ^ h ≤ _ by omega) hpos hfirst complete
        have hright := hnodes.subtreeHash hmax
          (show start + 2 ^ h + (size - 2 ^ h) ≤ leaves.length by omega)
        simp only [hleft, hright]
        rfl
      · rw [if_neg hfirst, if_neg hfirst]
        have hright := ih (size - 2 ^ h) (by omega)
          (show start + 2 ^ h + (size - 2 ^ h) ≤ _ by omega)
          (show 0 < firstSize - 2 ^ h by omega) (by omega) false
        have hleft := hnodes.subtreeHash hmax (show start + 2 ^ h ≤ leaves.length by omega)
        simp only [hleft, hright]
        rfl

/-! ## Proofs -/

variable {db : Db Hash}

theorem Complete.merkleInclusionProof (hnodes : Complete codec db.nodes leaves)
    (hmax : leaves.length ≤ maxJSONSafeSequence) (hmerkle : db.metadata.merkleSize = leaves.length)
    (hsize : size ≤ leaves.length) :
    Sqlite.merkleInclusionProof codec index size db =
      buildInclusionProof codec.sha256 (leaves.take size) index := by
  have hlength : (leaves.take size).length = size := List.length_take_of_le hsize
  unfold Sqlite.merkleInclusionProof buildInclusionProof
  by_cases hindex : index < size
  · have hpath := hnodes.inclusionPath hmax (show 0 + size ≤ _ by omega) hindex
    have hshort := @length_buildInclusionPath _ codec.sha256 (leaves.take size) 54
      (List.length_pos_iff.1 (by omega))
      (by rw [hlength]; exact (hsize.trans hmax).trans (by decide))
      index
    rw [hlength, if_neg (by omega)]
    refine ensure_bind.2 ⟨by simp; omega, ensure_bind.2 ⟨by simp; omega, ?_⟩⟩
    exact bind_ok.2 ⟨_, orUnavailable_ok.2 hpath, ensure_bind.2 ⟨decide_eq_true hshort, rfl⟩⟩
  · rw [if_pos (by omega), decide_eq_false hindex, Bool.and_false]
    rfl

theorem Complete.merkleConsistencyProof (hnodes : Complete codec db.nodes leaves)
    (hmax : leaves.length ≤ maxJSONSafeSequence) (hmerkle : db.metadata.merkleSize = leaves.length)
    (hsize : size ≤ leaves.length) (firstSize : Nat) :
    Sqlite.merkleConsistencyProof codec firstSize size db =
      buildConsistencyProof codec.sha256 (leaves.take size) firstSize := by
  have hlength : (leaves.take size).length = size := List.length_take_of_le hsize
  unfold Sqlite.merkleConsistencyProof buildConsistencyProof
  rw [hlength]
  by_cases hle : firstSize ≤ size
  · rw [if_neg (show ¬ (size > maxJSONSafeSequence ∨ firstSize > size) by omega)]
    have hchecks : (decide (firstSize ≤ size) && decide (size ≤ maxJSONSafeSequence)) = true ∧
        decide (size ≤ db.metadata.merkleSize) = true := by simp; omega
    by_cases hempty : firstSize = 0 ∨ firstSize = size
    · rw [if_pos hempty, if_pos hempty]
      exact ensure_bind.2 ⟨hchecks.1, ensure_bind.2 ⟨hchecks.2, rfl⟩⟩
    · rw [if_neg hempty, if_neg hempty]
      have hpath := hnodes.consistencyPath hmax (show 0 + size ≤ _ by omega)
        (show 0 < firstSize by omega) hle true
      have hshort := @length_buildConsistencyPath _ codec.sha256 (leaves.take size) 53
        (List.length_pos_iff.1 (by omega))
        (by rw [hlength]; exact (hsize.trans hmax).trans (by decide)) firstSize true
      refine ensure_bind.2 ⟨hchecks.1, ensure_bind.2 ⟨hchecks.2, ?_⟩⟩
      exact bind_ok.2 ⟨_, orUnavailable_ok.2 hpath, ensure_bind.2 ⟨decide_eq_true hshort, rfl⟩⟩
  · rw [if_pos (show size > maxJSONSafeSequence ∨ firstSize > size by omega), decide_eq_false hle,
      Bool.false_and]
    rfl

/-! ## Expected nodes -/

/-- The nodes that are expected for the leaves. -/
def addExpectedLeaves [Inhabited Hash] (codec : Codec Hash) (leaves : List Hash) :
    Dict NodeCoordinate Hash :=
  leaves.zipIdx.foldl (fun nodes e => addExpectedLeaf codec nodes e.2 e.1) Dict.empty

theorem addExpectedLeaves_concat [Inhabited Hash] (leaves : List Hash) (leaf : Hash) :
    addExpectedLeaves codec (leaves ++ [leaf]) =
      addExpectedLeaf codec (addExpectedLeaves codec leaves) leaves.length leaf := by
  rw [addExpectedLeaves, List.zipIdx_append, List.foldl_append]
  simp only [List.zipIdx_singleton, List.foldl_cons, List.foldl_nil, Nat.zero_add]
  rfl

theorem addExpectedLeaves_complete [Inhabited Hash] (leaves : List Hash) :
    Complete codec (addExpectedLeaves codec leaves) leaves := by
  induction leaves using List.reverseRecOn with
  | nil => exact complete_nil _
  | append_singleton leaves leaf ih =>
    rw [addExpectedLeaves_concat]
    exact addExpectedLeaf_complete ih leaf

/-- A right child ends where its parent does. -/
theorem parent_mul (hodd : index % 2 = 1) (level : Nat) :
    (index / 2 + 1) * 2 ^ (level + 1) = (index + 1) * 2 ^ level := by
  rw [pow_succ, ← Nat.mul_assoc, Nat.mul_right_comm]
  congr 1
  omega

/-- Distinct full subtrees have distinct hashes. -/
def Distinct (codec : Codec Hash) (leaves : List Hash) : Prop :=
  ∀ l i l' i', (i + 1) * 2 ^ l ≤ leaves.length → (i' + 1) * 2 ^ l' ≤ leaves.length →
    merkleRoot codec.sha256 (under leaves l i) = merkleRoot codec.sha256 (under leaves l' i') →
    (l, i) = (l', i')

theorem Distinct.of_concat (h : Distinct codec (leaves ++ [leaf])) : Distinct codec leaves := by
  intro l i l' i' hle hle' heq
  refine h l i l' i' ?_ ?_ ?_
  · exact hle.trans (by simp)
  · exact hle'.trans (by simp)
  · rw [under_append leaf hle, under_append leaf hle', heq]

theorem Distinct.of_expected [Inhabited Hash]
    (h : ((addExpectedLeaves codec leaves).entries.map (·.2)).Nodup) : Distinct codec leaves := by
  intro l i l' i' hle hle' heq
  have hcomplete : Complete codec _ leaves := addExpectedLeaves_complete leaves
  have hmem := Dict.get?_eq_some.1 (hcomplete l i hle)
  have hmem' := Dict.get?_eq_some.1 (hcomplete l' i' hle')
  exact congrArg Prod.fst (List.inj_on_of_nodup_map h hmem hmem' heq)

/-- Every node is the one of a full subtree of the leaves. -/
def Only (codec : Codec Hash) (nodes : Dict NodeCoordinate Hash) (leaves : List Hash) : Prop :=
  ∀ l i hash, nodes.get? (l, i) = some hash →
    (i + 1) * 2 ^ l ≤ leaves.length ∧ hash = merkleRoot codec.sha256 (under leaves l i)

/-! ## One leaf after the other -/

variable [DecidableEq Hash]

/-- Leaves are inserted one by one, the first one at index zero. -/
def insertMerkleLeaves (codec : Codec Hash) (leaves : List Hash) :
    Except Error (Dict NodeCoordinate Hash) :=
  leaves.zipIdx.foldlM (fun nodes e => insertMerkleLeaf codec nodes e.2 e.1) Dict.empty

theorem insertMerkleLeaves_concat (leaves : List Hash) (leaf : Hash) :
    insertMerkleLeaves codec (leaves ++ [leaf]) = insertMerkleLeaves codec leaves >>= fun nodes =>
      insertMerkleLeaf codec nodes leaves.length leaf := by
  rw [insertMerkleLeaves, List.zipIdx_append, List.foldlM_append]
  simp only [List.zipIdx_singleton, List.foldlM_cons, List.foldlM_nil, Nat.zero_add, bind_pure]
  rfl

/-- A leaf that would complete a node of level 53 is not inserted. -/
theorem insertMerkleLevel_bound (h : insertMerkleLevel codec nodes level index current =
    .ok nodes') : ¬ 2 ^ 53 ∣ (index + 1) * 2 ^ level := by
  induction index using Nat.strongRecOn generalizing nodes level current with
  | ind index ih =>
    rw [insertMerkleLevel] at h
    obtain ⟨inserted, hinsert, h⟩ := bind_ok.1 h
    obtain ⟨hlevel, -⟩ := ensure_bind.1 hinsert
    rw [Bool.and_eq_true, decide_eq_true_iff] at hlevel
    by_cases hodd : index % 2 = 1
    · rw [dif_pos hodd] at h
      obtain ⟨left, -, h⟩ := bind_ok.1 h
      rw [← parent_mul hodd]
      exact ih (index / 2) (by omega) h
    · intro hdvd
      -- The last node of its level is a left child, so no power of two is left over.
      rw [show 2 ^ 53 = 2 ^ (53 - level) * 2 ^ level by rw [← pow_add]; congr 1; omega] at hdvd
      have htwo : 2 ∣ index + 1 := (dvd_pow_self 2 (by omega)).trans
        (Nat.dvd_of_mul_dvd_mul_right (Nat.two_pow_pos level) hdvd)
      omega

/-- What an insertion of leaves leaves behind. -/
theorem insertMerkleLeaves_ok [Inhabited Hash] (h : insertMerkleLeaves codec leaves = .ok nodes) :
    leaves.length ≤ maxJSONSafeSequence ∧
      ∀ k, nodes.get? k = (addExpectedLeaves codec leaves).get? k := by
  induction leaves using List.reverseRecOn generalizing nodes with
  | nil =>
    cases h
    exact ⟨Nat.zero_le _, fun _ => rfl⟩
  | append_singleton leaves leaf ih =>
    rw [insertMerkleLeaves_concat] at h
    obtain ⟨nodes, hnodes, h⟩ := bind_ok.1 h
    obtain ⟨hmax, hagree⟩ := ih hnodes
    rw [addExpectedLeaves_concat]
    refine ⟨?_, insertMerkleLeaf_agree hagree h⟩
    have hbound := insertMerkleLevel_bound h
    rw [List.length_append, List.length_singleton]
    refine Nat.lt_of_le_of_ne hmax fun hfull => hbound ?_
    rw [hfull]
    decide

theorem insertNode_of (hlevel : level ≤ 52) (hindex : index ≤ maxJSONSafeSequence)
    (hnew : nodes.get? (level, index) = none) (hunique : ∀ k, nodes.get? k ≠ some hash) :
    insertNode nodes level index hash = .ok (nodes.set (level, index) hash) := by
  refine ensure_bind.2 ⟨by simp [hlevel, hindex], ensure_bind.2 ⟨?_, rfl⟩⟩
  rw [hnew, Option.isNone_none, Bool.true_and, List.all_eq_true]
  intro e he
  rw [bne_iff_ne]
  rintro rfl
  exact hunique e.1 (Dict.get?_eq_some.2 he)

/-- The loop that inserts a leaf, at a level: the nodes of the leaves before are there, and beyond
them only nodes below the level. -/
theorem insertMerkleLevel_succeeds (hdistinct : Distinct codec (leaves ++ [leaf]))
    (hmax : leaves.length < maxJSONSafeSequence) (hnodes : ∀ l i, (i + 1) * 2 ^ l ≤ leaves.length →
      nodes.get? (l, i) = some (merkleRoot codec.sha256 (under (leaves ++ [leaf]) l i)))
    (honly : ∀ l i hash, nodes.get? (l, i) = some hash →
      ((i + 1) * 2 ^ l ≤ leaves.length ∨ l < level ∧ (i + 1) * 2 ^ l ≤ leaves.length + 1) ∧
        hash = merkleRoot codec.sha256 (under (leaves ++ [leaf]) l i))
    (hindex : (index + 1) * 2 ^ level = leaves.length + 1)
    (hcurrent : current = merkleRoot codec.sha256 (under (leaves ++ [leaf]) level index)) :
    ∃ nodes', insertMerkleLevel codec nodes level index current = .ok nodes' ∧
      Only codec nodes' (leaves ++ [leaf]) := by
  induction index using Nat.strongRecOn generalizing nodes level current with
  | ind index ih =>
    have hlength : (leaves ++ [leaf]).length = leaves.length + 1 := List.length_append
    have hpow : 2 ^ level ≤ leaves.length + 1 :=
      hindex ▸ Nat.le_mul_of_pos_left _ (Nat.succ_pos index)
    have hlevel : level < 53 := by
      refine (Nat.pow_lt_pow_iff_right (a := 2) (by omega)).1 (hpow.trans_lt ?_)
      exact (Nat.succ_le_of_lt hmax).trans_lt (by decide)
    have hle : index + 1 ≤ leaves.length + 1 :=
      hindex ▸ Nat.le_mul_of_pos_right _ (Nat.two_pow_pos level)
    have hnew : nodes.get? (level, index) = none := by
      refine Option.eq_none_iff_forall_ne_some.2 fun hash hsome => ?_
      have hdone := (honly _ _ _ hsome).1
      omega
    have hunique (k : NodeCoordinate) : nodes.get? k ≠ some current := by
      intro hsome
      obtain ⟨hdone, heq⟩ := honly k.1 k.2 _ hsome
      have hsame := hdistinct k.1 k.2 level index (by omega) (by omega) (heq ▸ hcurrent)
      have hk : k = (level, index) := hsame
      rw [hk, hnew] at hsome
      cases hsome
    rw [insertMerkleLevel, insertNode_of (by omega) (by omega) hnew hunique]
    have hset (l i : Nat) (hle : (i + 1) * 2 ^ l ≤ leaves.length) :
        (nodes.set (level, index) current).get? (l, i) =
          some (merkleRoot codec.sha256 (under (leaves ++ [leaf]) l i)) := by
      rw [Dict.get?_set, if_neg, hnodes l i hle]
      intro heq
      obtain ⟨rfl, rfl⟩ := Prod.mk.inj heq
      omega
    have honly' (l i : Nat) (hash : Hash)
        (hsome : (nodes.set (level, index) current).get? (l, i) = some hash) :
        ((i + 1) * 2 ^ l ≤ leaves.length ∨ l < level + 1 ∧ (i + 1) * 2 ^ l ≤ leaves.length + 1) ∧
          hash = merkleRoot codec.sha256 (under (leaves ++ [leaf]) l i) := by
      rw [Dict.get?_set] at hsome
      split at hsome
      · next heq =>
        obtain ⟨rfl, rfl⟩ := Prod.mk.inj heq
        cases hsome
        exact ⟨.inr ⟨Nat.lt_succ_self _, hindex.le⟩, hcurrent⟩
      · obtain ⟨hdone, heq⟩ := honly l i hash hsome
        exact ⟨hdone.imp_right fun h => ⟨h.1.trans (Nat.lt_succ_self _), h.2⟩, heq⟩
    by_cases hodd : index % 2 = 1
    · have hparent : (index / 2 + 1) * 2 ^ (level + 1) = leaves.length + 1 :=
        (parent_mul hodd level).trans hindex
      have hprev : (index - 1 + 1) * 2 ^ level ≤ leaves.length := by
        have hpos := Nat.two_pow_pos level
        rw [Nat.add_mul, Nat.one_mul] at hindex
        rw [Nat.sub_add_cancel (by omega)]
        omega
      have hroot := @merkleRoot_under_succ _ codec _ (index / 2) _ (hlength ▸ hparent.le)
      rw [show 2 * (index / 2) = index - 1 by omega, Nat.sub_add_cancel (by omega),
        ← hcurrent] at hroot
      obtain ⟨nodes', hnodes', hdone⟩ := ih (index / 2) (by omega) hset honly' hparent hroot.symm
      refine ⟨nodes', ?_, hdone⟩
      refine bind_ok.2 ⟨_, rfl, ?_⟩
      rw [dif_pos hodd]
      exact bind_ok.2 ⟨_, readNode_ok.2 (hset level (index - 1) hprev), hnodes'⟩
    · refine ⟨nodes.set (level, index) current, bind_ok.2 ⟨_, rfl, ?_⟩, fun l i hash hsome => ?_⟩
      · rw [dif_neg hodd]
        rfl
      · obtain ⟨hdone, heq⟩ := honly' l i hash hsome
        exact ⟨by omega, heq⟩

theorem insertMerkleLeaves_succeeds [Inhabited Hash] (hmax : leaves.length ≤ maxJSONSafeSequence)
    (hdistinct : Distinct codec leaves) :
    ∃ nodes, insertMerkleLeaves codec leaves = .ok nodes ∧ Only codec nodes leaves := by
  induction leaves using List.reverseRecOn with
  | nil => exact ⟨Dict.empty, rfl, fun _ _ _ h => nomatch h⟩
  | append_singleton leaves leaf ih =>
    rw [List.length_append, List.length_singleton] at hmax
    obtain ⟨nodes, hnodes, honly⟩ := ih (by omega) hdistinct.of_concat
    have hcomplete : Complete codec nodes leaves := fun level index hle =>
      ((insertMerkleLeaves_ok hnodes).2 _).trans (addExpectedLeaves_complete leaves level index hle)
    obtain ⟨nodes', h, honly'⟩ := @insertMerkleLevel_succeeds Hash codec nodes leaves 0
      leaves.length leaf _ _ hdistinct hmax
      (fun l i hle => by rw [hcomplete l i hle, under_append leaf hle])
      (fun l i hash hsome => by
        obtain ⟨hle, heq⟩ := honly l i hash hsome
        exact ⟨.inl hle, by rw [heq, under_append leaf hle]⟩)
      (by simp) rfl
    refine ⟨nodes', ?_, honly'⟩
    rw [insertMerkleLeaves_concat]
    refine bind_ok.2 ⟨nodes, hnodes, ?_⟩
    rwa [under, pow_zero, Nat.mul_one, List.drop_left, List.take_of_length_le (by simp),
      merkleRoot] at h

/-- **The cached nodes are those of the tree**: the insertion of leaves one by one succeeds where
the table can hold their nodes, and from the nodes that it leaves the hash of any number of first
leaves, and any inclusion or consistency proof, is read as the leaves give it. -/
theorem insertMerkleLeaves_cached [Inhabited Hash] (leaves : List Hash) :
    (leaves.length ≤ maxJSONSafeSequence →
      ((addExpectedLeaves codec leaves).entries.map (·.2)).Nodup →
      ∃ nodes, insertMerkleLeaves codec leaves = .ok nodes) ∧
    ∀ nodes, insertMerkleLeaves codec leaves = .ok nodes →
      (∀ k, nodes.get? k = (addExpectedLeaves codec leaves).get? k) ∧
      (∀ m ≤ leaves.length,
        subtreeHash codec nodes 0 m = .ok (merkleRoot codec.sha256 (leaves.take m))) ∧
      ∀ db : Db Hash, db.nodes = nodes → db.metadata.merkleSize = leaves.length →
        (∀ m ≤ leaves.length, ∀ index, merkleInclusionProof codec index m db =
          buildInclusionProof codec.sha256 (leaves.take m) index) ∧
        ∀ m ≤ leaves.length, ∀ firstSize, merkleConsistencyProof codec firstSize m db =
          buildConsistencyProof codec.sha256 (leaves.take m) firstSize := by
  constructor
  · intro hmax hunique
    obtain ⟨nodes, hnodes, -⟩ := insertMerkleLeaves_succeeds hmax (.of_expected hunique)
    exact ⟨nodes, hnodes⟩
  · intro nodes h
    obtain ⟨hmax, hagree⟩ := insertMerkleLeaves_ok h
    have hcomplete : Complete codec nodes leaves := fun level index hle =>
      (hagree _).trans (addExpectedLeaves_complete leaves level index hle)
    refine ⟨hagree, fun m hm => ?_, ?_⟩
    · exact hcomplete.subtreeHash hmax (show 0 + m ≤ _ by omega)
    · rintro db rfl hmerkle
      exact ⟨fun m hm index => hcomplete.merkleInclusionProof hmax hmerkle hm,
        fun m hm firstSize => hcomplete.merkleConsistencyProof hmax hmerkle hm firstSize⟩

end

theorem insertMerkleLeaves_cached_three : ∃ nodes,
    insertMerkleLeaves (sampleCodec []) threeLeaves = .ok nodes ∧
      subtreeHash (sampleCodec []) nodes 0 3 = .ok (merkleRoot Symbolic.hash threeLeaves) := by
  obtain ⟨hsucceeds, hcached⟩ := @insertMerkleLeaves_cached Symbolic (sampleCodec []) _ _
    threeLeaves
  obtain ⟨nodes, hnodes⟩ := hsucceeds (by decide) (by
    simp only [addExpectedLeaves, threeLeaves, addExpectedLeaf, List.zipIdx_cons, List.zipIdx_nil,
      List.foldl_cons, List.foldl_nil]
    rw [addExpectedLevel, dif_neg (by decide), addExpectedLevel, dif_pos (by decide),
      addExpectedLevel, dif_neg (by decide), addExpectedLevel, dif_neg (by decide)]
    decide)
  exact ⟨nodes, hnodes, (hcached nodes hnodes).2.1 3 (by decide)⟩

end YukhCoordination.Relay.Audit.Sqlite
