import Mathlib.Logic.Function.Basic
import YukhCoordination.Lib.MerkleTree
import YukhCoordination.Relay.Store

/-!
# The Merkle tree of the audit ledger

The model of `internal/relay/audit/merkle.go`: the tree hash of RFC 9162 and its proofs. SHA-256 is
a function of a `Preimage`, so that it may be assumed injective.
-/

namespace YukhCoordination.Relay.Audit

open MerkleTree

/-- `ErrInvalidRecord`, `ErrConflict` and `ErrUnavailable`. -/
inductive Error where
  | invalidRecord
  | conflict
  | unavailable
  deriving DecidableEq, Repr

/-- `MaxJSONSafeSequence`. -/
def maxJSONSafeSequence : Nat := 9007199254740991

/-- `MaxProofNodes`. -/
def maxProofNodes : Nat := 54

/-- What is hashed. -/
inductive Preimage (Hash : Type) where
  | empty
  | merkleLeaf (sequence : Nat) (chainDigest : Hash)
  | merkleNode (left right : Hash)
  | record (canonical : Bytes)
  | genesis (ledgerID : String)
  | chain (sequence : Nat) (previous record : Hash)
  | checkpointReference (canonical signature : Bytes)
  | recoveryReference (canonical signature : Bytes)
  | witness (canonical : Bytes)
  deriving DecidableEq

/-- Symbolic digests: each is the term of what was hashed, so no two preimages collide. -/
inductive Symbolic where
  | empty
  | merkleLeaf (sequence : Nat) (chainDigest : Symbolic)
  | merkleNode (left right : Symbolic)
  | record (canonical : Bytes)
  | genesis (ledgerID : String)
  | chain (sequence : Nat) (previous record : Symbolic)
  | checkpointReference (canonical signature : Bytes)
  | recoveryReference (canonical signature : Bytes)
  | witness (canonical : Bytes)
  deriving DecidableEq

/-- The hash with symbolic digests. -/
def Symbolic.hash : Preimage Symbolic → Symbolic
  | .empty => .empty
  | .merkleLeaf sequence chainDigest => .merkleLeaf sequence chainDigest
  | .merkleNode left right => .merkleNode left right
  | .record canonical => .record canonical
  | .genesis ledgerID => .genesis ledgerID
  | .chain sequence previous digest => .chain sequence previous digest
  | .checkpointReference canonical signature => .checkpointReference canonical signature
  | .recoveryReference canonical signature => .recoveryReference canonical signature
  | .witness canonical => .witness canonical

theorem Symbolic.hash_injective : Function.Injective Symbolic.hash := by
  intro p q h
  cases p <;> cases q <;> cases h <;> rfl

/-- `InclusionProof`. -/
structure InclusionProof (Hash : Type) where
  leafIndex : Nat
  treeSize : Nat
  path : List Hash

/-- `ConsistencyProof`. -/
structure ConsistencyProof (Hash : Type) where
  firstSize : Nat
  secondSize : Nat
  path : List Hash

/-- `bits.Len64`. -/
def len64 (x : Nat) : Nat := if x = 0 then 0 else x.log2 + 1

/-- `largestPowerLessThan`. -/
def largestPowerLessThan (value : Nat) : Nat := 1 <<< (len64 (value - 1) - 1)

variable {n : Nat}

theorem largestPowerLessThan_eq {h : Nat} (hlt : 2 ^ h < n) (hle : n ≤ 2 ^ (h + 1)) :
    largestPowerLessThan n = 2 ^ h := by
  have hpos := Nat.two_pow_pos h
  have hlog : (n - 1).log2 = h := (Nat.log2_eq_iff (by omega)).2 ⟨by omega, by omega⟩
  rw [largestPowerLessThan, len64, if_neg (by omega), hlog, Nat.one_shiftLeft, Nat.add_sub_cancel]

theorem largestPowerLessThan_pos (n : Nat) : 0 < largestPowerLessThan n := by
  rw [largestPowerLessThan, Nat.one_shiftLeft]
  exact Nat.two_pow_pos _

theorem largestPowerLessThan_lt (hn : 2 ≤ n) : largestPowerLessThan n < n := by
  obtain ⟨h, hlt, hle⟩ := exists_split hn
  rwa [largestPowerLessThan_eq hlt hle]

theorem length_left_lt {α : Type} (a b : α) (rest : List α) :
    ((a :: b :: rest).take (largestPowerLessThan (a :: b :: rest).length)).length <
      (a :: b :: rest).length := by
  rw [List.length_take]
  exact lt_of_le_of_lt (min_le_left _ _) (largestPowerLessThan_lt (by simp))

theorem length_right_lt {α : Type} (a b : α) (rest : List α) :
    ((a :: b :: rest).drop (largestPowerLessThan (a :: b :: rest).length)).length <
      (a :: b :: rest).length := by
  rw [List.length_drop]
  exact Nat.sub_lt (by simp) (largestPowerLessThan_pos _)

section
variable {Hash : Type} (sha256 : Preimage Hash → Hash)

/-- `EmptyMerkleRoot`. -/
def emptyMerkleRoot : Hash := sha256 .empty

/-- `MerkleLeafHash`. -/
def merkleLeafHash (sequence : Nat) (chainDigest : Hash) : Except Error Hash :=
  if sequence = 0 ∨ sequence > maxJSONSafeSequence then .error .unavailable
  else .ok (sha256 (.merkleLeaf sequence chainDigest))

/-- `MerkleNodeHash`. -/
def merkleNodeHash (left right : Hash) : Hash := sha256 (.merkleNode left right)

/-- `MerkleRoot`. -/
def merkleRoot : List Hash → Hash
  | [] => emptyMerkleRoot sha256
  | [leaf] => leaf
  | leaf :: leaf' :: rest =>
    let leaves := leaf :: leaf' :: rest
    let k := largestPowerLessThan leaves.length
    merkleNodeHash sha256 (merkleRoot (leaves.take k)) (merkleRoot (leaves.drop k))
termination_by leaves => leaves.length
decreasing_by
  · exact length_left_lt _ _ _
  · exact length_right_lt _ _ _

/-- `buildInclusionPath`: the siblings from the leaf to the root. -/
def buildInclusionPath : (leaves : List Hash) → (index : Nat) → List Hash
  | [], _ => []
  | [_], _ => []
  | leaf :: leaf' :: rest, index =>
    let leaves := leaf :: leaf' :: rest
    let k := largestPowerLessThan leaves.length
    if index < k then
      buildInclusionPath (leaves.take k) index ++ [merkleRoot sha256 (leaves.drop k)]
    else buildInclusionPath (leaves.drop k) (index - k) ++ [merkleRoot sha256 (leaves.take k)]
termination_by leaves => leaves.length
decreasing_by
  · exact length_left_lt _ _ _
  · exact length_right_lt _ _ _

/-- `BuildInclusionProof`. -/
def buildInclusionProof (leaves : List Hash) (leafIndex : Nat) :
    Except Error (InclusionProof Hash) :=
  if leaves.length = 0 ∨ leaves.length > maxJSONSafeSequence ∨ leafIndex ≥ leaves.length then
    .error .unavailable
  else .ok ⟨leafIndex, leaves.length, buildInclusionPath sha256 leaves leafIndex⟩

/-- `VerifyInclusion`. -/
def verifyInclusion [DecidableEq Hash] (leaf root : Hash) (proof : InclusionProof Hash) : Bool :=
  if proof.treeSize = 0 ∨ proof.treeSize > maxJSONSafeSequence ∨
      proof.leafIndex ≥ proof.treeSize ∨ proof.path.length > maxProofNodes then false
  else
    climb (fun result sibling => merkleNodeHash sha256 sibling result)
      (fun result sibling => merkleNodeHash sha256 result sibling)
      proof.leafIndex (proof.treeSize - 1) leaf proof.path == some root

/-- `buildConsistencyPath`. A path for more leaves than there are does not come up. -/
def buildConsistencyPath : (leaves : List Hash) → (firstSize : Nat) → (complete : Bool) → List Hash
  | [], _, _ => []
  | [leaf], _, complete => if complete then [] else [leaf]
  | leaf :: leaf' :: rest, firstSize, complete =>
    let leaves := leaf :: leaf' :: rest
    if firstSize = leaves.length then
      if complete then [] else [merkleRoot sha256 leaves]
    else
      let k := largestPowerLessThan leaves.length
      if firstSize ≤ k then
        buildConsistencyPath (leaves.take k) firstSize complete ++
          [merkleRoot sha256 (leaves.drop k)]
      else
        buildConsistencyPath (leaves.drop k) (firstSize - k) false ++
          [merkleRoot sha256 (leaves.take k)]
termination_by leaves => leaves.length
decreasing_by
  · exact length_left_lt _ _ _
  · exact length_right_lt _ _ _

/-- `BuildConsistencyProof`. -/
def buildConsistencyProof (leaves : List Hash) (firstSize : Nat) :
    Except Error (ConsistencyProof Hash) :=
  if leaves.length > maxJSONSafeSequence ∨ firstSize > leaves.length then .error .unavailable
  else if firstSize = 0 ∨ firstSize = leaves.length then .ok ⟨firstSize, leaves.length, []⟩
  else .ok ⟨firstSize, leaves.length, buildConsistencyPath sha256 leaves firstSize true⟩

/-- The loop of `VerifyConsistency`, from its first node: the roots of both sizes. -/
def walkConsistency (firstSize secondSize : Nat) (node : Hash) (path : List Hash) :
    Option (Hash × Hash) :=
  let start := shiftOdd (firstSize - 1) (secondSize - 1)
  climb (fun roots node => (merkleNodeHash sha256 node roots.1, merkleNodeHash sha256 node roots.2))
    (fun roots node => (roots.1, merkleNodeHash sha256 roots.2 node))
    start.1 start.2 (node, node) path

/-- `VerifyConsistency`. -/
def verifyConsistency [DecidableEq Hash] (firstRoot secondRoot : Hash)
    (proof : ConsistencyProof Hash) : Bool :=
  if proof.firstSize > proof.secondSize ∨ proof.secondSize > maxJSONSafeSequence ∨
      proof.path.length > maxProofNodes then false
  else if proof.firstSize = 0 then
    proof.path.length == 0 && firstRoot == emptyMerkleRoot sha256
  else if proof.firstSize = proof.secondSize then
    proof.path.length == 0 && firstRoot == secondRoot
  else if proof.path.length = 0 then false
  else
    match if proof.firstSize &&& (proof.firstSize - 1) = 0 then firstRoot :: proof.path
      else proof.path with
    | [] => false
    | node :: path =>
      walkConsistency sha256 proof.firstSize proof.secondSize node path ==
        some (firstRoot, secondRoot)

end

/-- A hash without collisions has none on pairs of digests. -/
theorem merkleNodeHash_injective {Hash : Type} {sha256 : Preimage Hash → Hash}
    (hinj : Function.Injective sha256) : Function.Injective2 (merkleNodeHash sha256) := by
  intro left left' right right' h
  cases hinj h
  exact ⟨rfl, rfl⟩

/-- Three leaves, a tree that is not full. -/
def threeLeaves : List Symbolic := [.record [1], .record [2], .record [3]]

section
variable {Hash : Type} {sha256 : Preimage Hash → Hash} {l r : List Hash} {h : Nat}

/-! ## The functions at a split -/

/-- A list that splits has two elements at least, and splits where the code splits it. -/
theorem split_cons (hl : l.length = 2 ^ h) (hr : r ≠ []) (hr' : r.length ≤ 2 ^ h) :
    ∃ a b rest, l ++ r = a :: b :: rest ∧ largestPowerLessThan (l ++ r).length = l.length := by
  have hpos := Nat.two_pow_pos h
  have hrpos := List.length_pos_iff.2 hr
  have hlen : largestPowerLessThan (l ++ r).length = l.length := by
    rw [hl]
    refine largestPowerLessThan_eq ?_ ?_
    · rw [List.length_append]
      omega
    · rw [List.length_append, pow_succ]
      omega
  match hlr : l ++ r with
  | [] =>
    have := congrArg List.length hlr
    simp only [List.length_append, List.length_nil] at this
    omega
  | [a] =>
    have := congrArg List.length hlr
    simp only [List.length_append, List.length_cons, List.length_nil] at this
    omega
  | a :: b :: rest => exact ⟨a, b, rest, rfl, hlr ▸ hlen⟩

theorem merkleRoot_append (hl : l.length = 2 ^ h) (hr : r ≠ []) (hr' : r.length ≤ 2 ^ h) :
    merkleRoot sha256 (l ++ r) =
      merkleNodeHash sha256 (merkleRoot sha256 l) (merkleRoot sha256 r) := by
  obtain ⟨a, b, rest, heq, hk⟩ := split_cons hl hr hr'
  rw [heq, merkleRoot, ← heq, hk, List.take_left, List.drop_left]

theorem buildInclusionPath_append (hl : l.length = 2 ^ h) (hr : r ≠ []) (hr' : r.length ≤ 2 ^ h)
    (index : Nat) : buildInclusionPath sha256 (l ++ r) index =
      if index < l.length then buildInclusionPath sha256 l index ++ [merkleRoot sha256 r]
      else buildInclusionPath sha256 r (index - l.length) ++ [merkleRoot sha256 l] := by
  obtain ⟨a, b, rest, heq, hk⟩ := split_cons hl hr hr'
  rw [heq, buildInclusionPath, ← heq, hk, List.take_left, List.drop_left]

theorem buildConsistencyPath_append (hl : l.length = 2 ^ h) (hr : r ≠ [])
    (hr' : r.length ≤ 2 ^ h) {firstSize : Nat} (hne : firstSize ≠ (l ++ r).length)
    (complete : Bool) : buildConsistencyPath sha256 (l ++ r) firstSize complete =
      if firstSize ≤ l.length then
        buildConsistencyPath sha256 l firstSize complete ++ [merkleRoot sha256 r]
      else
        buildConsistencyPath sha256 r (firstSize - l.length) false ++ [merkleRoot sha256 l] := by
  obtain ⟨a, b, rest, heq, hk⟩ := split_cons hl hr hr'
  rw [heq] at hne ⊢
  rw [buildConsistencyPath]
  simp only [if_neg hne]
  rw [← heq, hk, List.take_left, List.drop_left]

variable {leaves : List Hash} {m index : Nat} {leaf : Hash}

theorem buildConsistencyPath_full (hne : leaves ≠ []) (complete : Bool) :
    buildConsistencyPath sha256 leaves leaves.length complete =
      if complete then [] else [merkleRoot sha256 leaves] := by
  match leaves, hne with
  | [leaf], _ => simp [buildConsistencyPath, merkleRoot]
  | leaf :: leaf' :: rest, _ => simp [buildConsistencyPath]

/-- A proof for fewer leaves than there are has a node. -/
theorem buildConsistencyPath_ne_nil {firstSize : Nat}
    (hpos : 0 < firstSize) (hlt : firstSize < leaves.length) (complete : Bool) :
    buildConsistencyPath sha256 leaves firstSize complete ≠ [] := by
  obtain ⟨h, l, r, rfl, hl, hr, hr'⟩ := exists_append leaves (by omega)
  rw [buildConsistencyPath_append hl hr hr' (Nat.ne_of_lt hlt)]
  split <;> simp

/-- The exponent of a split is below that of a bound of the length. -/
theorem split_lt (hl : l.length = 2 ^ h) (hr : r ≠ []) (hm : (l ++ r).length ≤ 2 ^ m) :
    ∃ m', m = m' + 1 ∧ 2 ^ h ≤ 2 ^ m' := by
  have hrpos := List.length_pos_iff.2 hr
  rw [List.length_append, hl] at hm
  have hlt : h < m := (Nat.pow_lt_pow_iff_right (by omega)).1 (show 2 ^ h < 2 ^ m by omega)
  exact ⟨m - 1, by omega, Nat.pow_le_pow_right (by omega) (by omega)⟩

/-! ## Inclusion -/

theorem length_buildInclusionPath (hne : leaves ≠ []) (hm : leaves.length ≤ 2 ^ m) (index : Nat) :
    (buildInclusionPath sha256 leaves index).length ≤ m := by
  induction leaves, hne using split_induction generalizing m index with
  | single leaf => simp [buildInclusionPath]
  | node h l r hl hr hr' _ ihl ihr =>
    obtain ⟨m, rfl, hle⟩ := split_lt hl hr hm
    rw [buildInclusionPath_append hl hr hr']
    split
    · rw [List.length_append, List.length_singleton]
      exact Nat.succ_le_succ (ihl (hl ▸ hle) index)
    · rw [List.length_append, List.length_singleton]
      exact Nat.succ_le_succ (ihr (hr'.trans hle) _)

/-- The walk of `VerifyInclusion`. -/
abbrev walkInclusion (sha256 : Preimage Hash → Hash) : (fn sn : Nat) → Hash → List Hash →
    Option Hash :=
  climb (fun result sibling => merkleNodeHash sha256 sibling result)
    (fun result sibling => merkleNodeHash sha256 result sibling)

/-- The walk from a leaf in the left part of a split. -/
theorem walkInclusion_left (hl : l.length = 2 ^ h) (hr : r ≠ []) (hr' : r.length ≤ 2 ^ h)
    (hi : index < l.length) {x : Hash} {path : List Hash} :
    walkInclusion sha256 index ((l ++ r).length - 1) leaf path = some x ↔
      ∃ init p, path = init ++ [p] ∧ ∃ y,
        walkInclusion sha256 index (l.length - 1) leaf init = some y ∧
        merkleNodeHash sha256 y p = x := by
  have hrpos := List.length_pos_iff.2 hr
  rw [hl] at hi
  rw [List.length_append, hl]
  refine climb_left hi (by omega) ?_
  rw [pow_succ]
  omega

/-- The walk from a leaf in the right part of a split. -/
theorem walkInclusion_right (hl : l.length = 2 ^ h) (hr' : r.length ≤ 2 ^ h)
    (hi : index < r.length) {x : Hash} {path : List Hash} :
    walkInclusion sha256 (l.length + index) ((l ++ r).length - 1) leaf path = some x ↔
      ∃ init p, path = init ++ [p] ∧ ∃ y,
        walkInclusion sha256 index (r.length - 1) leaf init = some y ∧
        merkleNodeHash sha256 p y = x := by
  rw [List.length_append, hl, Nat.add_sub_assoc (by omega)]
  exact climb_right (by omega) (by omega)

/-- The walk from a leaf along its siblings ends in the root. -/
theorem walkInclusion_build (hne : leaves ≠ [])
    (hleaf : leaves[index]? = some leaf) : walkInclusion sha256 index (leaves.length - 1) leaf
      (buildInclusionPath sha256 leaves index) = some (merkleRoot sha256 leaves) := by
  induction leaves, hne using split_induction generalizing index with
  | single a =>
    obtain ⟨hi, rfl⟩ := List.getElem?_eq_some_iff.1 hleaf
    obtain rfl : index = 0 := by simpa using hi
    simp [walkInclusion, buildInclusionPath, merkleRoot]
  | node h l r hl hr hr' _ ihl ihr =>
    rw [buildInclusionPath_append hl hr hr', merkleRoot_append hl hr hr']
    split
    · next hlt =>
      rw [List.getElem?_append_left hlt] at hleaf
      exact (walkInclusion_left hl hr hr' hlt).2 ⟨_, _, rfl, _, ihl hleaf, rfl⟩
    · next hge =>
      rw [List.getElem?_append_right (Nat.not_lt.1 hge)] at hleaf
      obtain ⟨hi, -⟩ := List.getElem?_eq_some_iff.1 hleaf
      have hw := (walkInclusion_right hl hr' hi).2 ⟨_, merkleRoot sha256 l, rfl, _, ihr hleaf, rfl⟩
      rwa [Nat.add_sub_cancel' (Nat.not_lt.1 hge)] at hw

/-- A walk that ends in the root started from the leaf at its index. -/
theorem leaf_of_walkInclusion (hinj : Function.Injective2 (merkleNodeHash sha256))
    (hne : leaves ≠ []) (hi : index < leaves.length) {path : List Hash}
    (hw : walkInclusion sha256 index (leaves.length - 1) leaf path =
      some (merkleRoot sha256 leaves)) : leaves[index]? = some leaf := by
  induction leaves, hne using split_induction generalizing index path with
  | single a =>
    obtain rfl : index = 0 := by simpa using hi
    obtain ⟨-, rfl⟩ := climb_zero.1 hw
    simp [merkleRoot]
  | node h l r hl hr hr' _ ihl ihr =>
    rw [merkleRoot_append hl hr hr'] at hw
    by_cases hlt : index < l.length
    · obtain ⟨init, p, rfl, y, hy, heq⟩ := (walkInclusion_left hl hr hr' hlt).1 hw
      obtain ⟨rfl, -⟩ := hinj heq
      rw [List.getElem?_append_left hlt]
      exact ihl hlt hy
    · obtain ⟨index, rfl⟩ := Nat.exists_eq_add_of_le (Nat.not_lt.1 hlt)
      rw [List.length_append, Nat.add_lt_add_iff_left] at hi
      obtain ⟨init, p, rfl, y, hy, heq⟩ := (walkInclusion_right hl hr' hi).1 hw
      obtain ⟨-, rfl⟩ := hinj heq
      rw [List.getElem?_append_right (Nat.le_add_right _ _), Nat.add_sub_cancel_left]
      exact ihr hi hy

/-- **Inclusion proofs are complete.** The proof built for a leaf of a list is accepted for that
leaf, with the root of the list. -/
theorem inclusion_complete [DecidableEq Hash] {leaves : List Hash}
    (hmax : leaves.length ≤ maxJSONSafeSequence) {index : Nat} (hi : index < leaves.length) :
    ∃ proof, buildInclusionProof sha256 leaves index = .ok proof ∧ proof.leafIndex = index ∧
      proof.treeSize = leaves.length ∧
      verifyInclusion sha256 leaves[index] (merkleRoot sha256 leaves) proof = true := by
  have hne : leaves ≠ [] := List.length_pos_iff.1 (by omega)
  have hlen : (buildInclusionPath sha256 leaves index).length ≤ 53 :=
    length_buildInclusionPath hne (hmax.trans (by decide)) index
  refine ⟨⟨index, leaves.length, buildInclusionPath sha256 leaves index⟩, ?_, rfl, rfl, ?_⟩
  · rw [buildInclusionProof, if_neg (by omega)]
  · rw [verifyInclusion, if_neg]
    · exact beq_iff_eq.2 (walkInclusion_build hne (List.getElem?_eq_getElem hi))
    · simp only [maxProofNodes]
      omega

theorem inclusion_complete_three : ∃ proof,
    buildInclusionProof Symbolic.hash threeLeaves 1 = .ok proof ∧ proof.leafIndex = 1 ∧
      proof.treeSize = 3 ∧ verifyInclusion Symbolic.hash (.record [2])
        (merkleRoot Symbolic.hash threeLeaves) proof = true :=
  inclusion_complete (by decide) (show 1 < threeLeaves.length by decide)

/-- **Inclusion proofs are sound.** Whatever the proof, a digest that is accepted for an index with
the size and the root of a list is the leaf at that index. -/
theorem inclusion_sound [DecidableEq Hash]
    (hinj : Function.Injective2 (merkleNodeHash sha256)) {leaves : List Hash} {leaf : Hash}
    {proof : InclusionProof Hash} (hsize : proof.treeSize = leaves.length)
    (hv : verifyInclusion sha256 leaf (merkleRoot sha256 leaves) proof = true) :
    proof.leafIndex < leaves.length ∧ leaves[proof.leafIndex]? = some leaf := by
  unfold verifyInclusion at hv
  split at hv
  · cases hv
  · next hguard =>
    rw [hsize] at hguard hv
    have hi : proof.leafIndex < leaves.length := by omega
    exact ⟨hi, leaf_of_walkInclusion hinj (List.length_pos_iff.1 (by omega)) hi (beq_iff_eq.1 hv)⟩

theorem inclusion_sound_three : verifyInclusion Symbolic.hash (.record [2])
      (merkleRoot Symbolic.hash threeLeaves) ⟨1, 3, [.record [1], .record [3]]⟩ = true ∧
    threeLeaves[1]? = some (.record [2]) := by
  have hv : verifyInclusion Symbolic.hash (.record [2]) (merkleRoot Symbolic.hash threeLeaves)
      ⟨1, 3, [.record [1], .record [3]]⟩ = true := by decide +kernel
  exact ⟨hv, (inclusion_sound (merkleNodeHash_injective Symbolic.hash_injective) (by rfl) hv).2⟩

/-! ## Consistency -/

section
variable {firstSize : Nat} {node x y : Hash} {path : List Hash}

/-- The walk for a prefix of the left part of a split. -/
theorem walkConsistency_left (hl : l.length = 2 ^ h) (hr : r ≠ []) (hr' : r.length ≤ 2 ^ h)
    (hpos : 0 < firstSize) (hle : firstSize ≤ l.length) :
    walkConsistency sha256 firstSize (l ++ r).length node path = some (x, y) ↔
      ∃ init p, path = init ++ [p] ∧ ∃ y',
        walkConsistency sha256 firstSize l.length node init = some (x, y') ∧
        merkleNodeHash sha256 y' p = y := by
  have hrpos := List.length_pos_iff.2 hr
  have hpow : (l ++ r).length - 1 < 2 ^ (h + 1) := by
    rw [List.length_append, pow_succ]
    omega
  obtain ⟨j, f, s, hstart, hstart', hf, hs, hs'⟩ :=
    shiftOdd_left (show firstSize - 1 < 2 ^ h by omega)
      (show 2 ^ h ≤ (l ++ r).length - 1 by rw [List.length_append]; omega) hpow
  simp only [walkConsistency, hstart, hl, hstart']
  rw [climb_left hf hs hs']
  simp

/-- The walk for a prefix that ends in the right part of a split. -/
theorem walkConsistency_right (hl : l.length = 2 ^ h) (hr' : r.length ≤ 2 ^ h)
    (hpos : 0 < firstSize) (hlt : firstSize < r.length) :
    walkConsistency sha256 (l.length + firstSize) (l ++ r).length node path = some (x, y) ↔
      ∃ init p, path = init ++ [p] ∧ ∃ x' y',
        walkConsistency sha256 firstSize r.length node init = some (x', y') ∧
        merkleNodeHash sha256 p x' = x ∧ merkleNodeHash sha256 p y' = y := by
  obtain ⟨j, f, s, hstart, hstart', hf, hs⟩ :=
    shiftOdd_right (show firstSize - 1 + 1 < 2 ^ h by omega)
      (show firstSize - 1 ≤ r.length - 1 by omega) (by omega)
  simp only [walkConsistency, List.length_append, hl,
    show 2 ^ h + firstSize - 1 = 2 ^ h + (firstSize - 1) by omega,
    show 2 ^ h + r.length - 1 = 2 ^ h + (r.length - 1) by omega, hstart, hstart']
  rw [climb_right hf hs]
  simp

/-- The walk for all leaves of a full tree. -/
theorem walkConsistency_full : walkConsistency sha256 (2 ^ h) (2 ^ h) node path = some (x, y) ↔
    path = [] ∧ node = x ∧ node = y := by
  simp [walkConsistency, shiftOdd_two_pow]

end

/-- First leaves that end in the right part of a split. -/
theorem merkleRoot_take_right (hl : l.length = 2 ^ h) (hr' : r.length ≤ 2 ^ h) {firstSize : Nat}
    (hpos : 0 < firstSize) (hr : r ≠ []) :
    merkleRoot sha256 ((l ++ r).take (l.length + firstSize)) =
      merkleNodeHash sha256 (merkleRoot sha256 l) (merkleRoot sha256 (r.take firstSize)) := by
  rw [List.take_length_add_append]
  refine merkleRoot_append hl ?_ ?_
  · rw [Ne, List.take_eq_nil_iff]
    simp only [hr, or_false]
    omega
  · rw [List.length_take]
    omega

/-- First leaves in the left part are fewer than it has, or all of a power of two. -/
theorem first_size (hl : l.length = 2 ^ h) {firstSize : Nat} (hle : firstSize ≤ l.length) :
    firstSize < l.length ∨ firstSize = l.length ∧ ∃ h, l.length = 2 ^ h := by
  rcases Nat.lt_or_eq_of_le hle with hlt | heq
  · exact .inl hlt
  · exact .inr ⟨heq, h, hl⟩

/-- A walk that ends in the root of a list ends in the root of its first leaves. -/
theorem root_of_walkConsistency (hinj : Function.Injective2 (merkleNodeHash sha256))
    (hne : leaves ≠ []) {firstSize : Nat} (hpos : 0 < firstSize)
    (hsize : firstSize < leaves.length ∨ firstSize = leaves.length ∧ ∃ h, leaves.length = 2 ^ h)
    {node x : Hash} {path : List Hash}
    (hw : walkConsistency sha256 firstSize leaves.length node path =
      some (x, merkleRoot sha256 leaves)) : x = merkleRoot sha256 (leaves.take firstSize) := by
  induction leaves, hne using split_induction generalizing firstSize x path with
  | single a =>
    obtain rfl : firstSize = 1 := by
      simp only [List.length_singleton] at hsize
      omega
    obtain ⟨-, rfl, rfl⟩ := (walkConsistency_full (h := 0)).1 hw
    simp
  | node h l r hl hr hr' _ ihl ihr =>
    rcases hsize with hlt | ⟨rfl, h', hfull⟩
    · rw [merkleRoot_append hl hr hr'] at hw
      by_cases hle : firstSize ≤ l.length
      · obtain ⟨init, p, rfl, y', hy', heq⟩ := (walkConsistency_left hl hr hr' hpos hle).1 hw
        obtain ⟨rfl, -⟩ := hinj heq
        rw [List.take_append_of_le_length hle]
        exact ihl hpos (first_size hl hle) hy'
      · obtain ⟨firstSize, rfl⟩ := Nat.exists_eq_add_of_le (Nat.le_of_not_le hle)
        rw [List.length_append, Nat.add_lt_add_iff_left] at hlt
        obtain ⟨init, p, rfl, x', y', hy', rfl, heq⟩ :=
          (walkConsistency_right hl hr' (by omega) hlt).1 hw
        obtain ⟨rfl, rfl⟩ := hinj heq
        rw [ihr (by omega) (.inl hlt) hy', merkleRoot_take_right hl hr' (by omega) hr]
    · rw [hfull] at hw
      obtain ⟨-, rfl, rfl⟩ := walkConsistency_full.1 hw
      rw [List.take_length]

/-- The path that is built for the first leaves of a list, and the walk along it. The node that the
walk starts from is left out if it is the root of the first leaves. -/
structure Builds (sha256 : Preimage Hash → Hash) (leaves : List Hash) (firstSize : Nat)
    (node : Hash) (path : List Hash) : Prop where
  walk : walkConsistency sha256 firstSize leaves.length node path =
    some (merkleRoot sha256 (leaves.take firstSize), merkleRoot sha256 leaves)
  incomplete : buildConsistencyPath sha256 leaves firstSize false = node :: path
  full : (∃ h, firstSize = 2 ^ h) → node = merkleRoot sha256 (leaves.take firstSize) ∧
    buildConsistencyPath sha256 leaves firstSize true = path
  split : (¬ ∃ h, firstSize = 2 ^ h) →
    buildConsistencyPath sha256 leaves firstSize true = node :: path

theorem Builds.all (hne : leaves ≠ []) (hh : leaves.length = 2 ^ h) :
    Builds sha256 leaves leaves.length (merkleRoot sha256 leaves) [] where
  walk := by
    rw [List.take_length, hh]
    exact walkConsistency_full.2 ⟨rfl, rfl, rfl⟩
  incomplete := buildConsistencyPath_full hne false
  full _ := ⟨by rw [List.take_length], buildConsistencyPath_full hne true⟩
  split hn := absurd ⟨h, hh⟩ hn

theorem Builds.left (hl : l.length = 2 ^ h) (hr : r ≠ []) (hr' : r.length ≤ 2 ^ h)
    {firstSize : Nat} (hpos : 0 < firstSize) (hle : firstSize ≤ l.length) {node : Hash}
    {path : List Hash} (hb : Builds sha256 l firstSize node path) :
    Builds sha256 (l ++ r) firstSize node (path ++ [merkleRoot sha256 r]) := by
  have hlt : firstSize ≠ (l ++ r).length := by
    have hrpos := List.length_pos_iff.2 hr
    rw [List.length_append]
    omega
  have hbuild (complete : Bool) : buildConsistencyPath sha256 (l ++ r) firstSize complete =
      buildConsistencyPath sha256 l firstSize complete ++ [merkleRoot sha256 r] := by
    rw [buildConsistencyPath_append hl hr hr' hlt, if_pos hle]
  refine ⟨?_, ?_, fun hp => ?_, fun hn => ?_⟩
  · rw [List.take_append_of_le_length hle, merkleRoot_append hl hr hr']
    exact (walkConsistency_left hl hr hr' hpos hle).2 ⟨_, _, rfl, _, hb.walk, rfl⟩
  · rw [hbuild, hb.incomplete, List.cons_append]
  · rw [List.take_append_of_le_length hle, hbuild, (hb.full hp).2]
    exact ⟨(hb.full hp).1, rfl⟩
  · rw [hbuild, hb.split hn, List.cons_append]

theorem Builds.right (hl : l.length = 2 ^ h) (hr : r ≠ []) (hr' : r.length ≤ 2 ^ h)
    {firstSize : Nat} (hpos : 0 < firstSize) (hlt : firstSize < r.length) {node : Hash}
    {path : List Hash} (hb : Builds sha256 r firstSize node path) :
    Builds sha256 (l ++ r) (l.length + firstSize) node (path ++ [merkleRoot sha256 l]) := by
  have hne : l.length + firstSize ≠ (l ++ r).length := by
    rw [List.length_append]
    omega
  have hbuild (complete : Bool) :
      buildConsistencyPath sha256 (l ++ r) (l.length + firstSize) complete =
        node :: path ++ [merkleRoot sha256 l] := by
    rw [buildConsistencyPath_append hl hr hr' hne, if_neg (by omega), Nat.add_sub_cancel_left,
      hb.incomplete]
  have hpow : ¬ ∃ h, l.length + firstSize = 2 ^ h := by
    rintro ⟨h', hh⟩
    rw [hl] at hh
    have h1 : h < h' := (Nat.pow_lt_pow_iff_right (a := 2) (by omega)).1 (by omega)
    have h2 : h' < h + 1 := (Nat.pow_lt_pow_iff_right (a := 2) (by omega)).1
      (by rw [pow_succ]; omega)
    omega
  refine ⟨?_, hbuild false, fun hp => absurd hp hpow, fun _ => hbuild true⟩
  rw [merkleRoot_take_right hl hr' hpos hr, merkleRoot_append hl hr hr']
  exact (walkConsistency_right hl hr' hpos hlt).2 ⟨_, _, rfl, _, _, hb.walk, rfl, rfl⟩

theorem exists_builds (hne : leaves ≠ []) {firstSize : Nat} (hpos : 0 < firstSize)
    (hsize : firstSize < leaves.length ∨ firstSize = leaves.length ∧ ∃ h, leaves.length = 2 ^ h) :
    ∃ node path, Builds sha256 leaves firstSize node path := by
  induction leaves, hne using split_induction generalizing firstSize with
  | single a =>
    obtain rfl : firstSize = 1 := by
      simp only [List.length_singleton] at hsize
      omega
    have hne : [a] ≠ [] := by simp
    exact ⟨_, _, Builds.all hne (show [a].length = 2 ^ 0 by rfl)⟩
  | node h l r hl hr hr' _ ihl ihr =>
    rcases hsize with hlt | ⟨rfl, h', hh⟩
    · by_cases hle : firstSize ≤ l.length
      · obtain ⟨node, path, hb⟩ := ihl hpos (first_size hl hle)
        exact ⟨node, _, hb.left hl hr hr' hpos hle⟩
      · obtain ⟨firstSize, rfl⟩ := Nat.exists_eq_add_of_le (Nat.le_of_not_le hle)
        rw [List.length_append, Nat.add_lt_add_iff_left] at hlt
        obtain ⟨node, path, hb⟩ := ihr (by omega) (.inl hlt)
        exact ⟨node, _, hb.right hl hr hr' (by omega) hlt⟩
    · exact ⟨_, _, Builds.all (List.append_ne_nil_of_right_ne_nil l hr) hh⟩

theorem length_buildConsistencyPath (hne : leaves ≠ [])
    (hm : leaves.length ≤ 2 ^ m) (firstSize : Nat) (complete : Bool) :
    (buildConsistencyPath sha256 leaves firstSize complete).length ≤ m + 1 := by
  induction leaves, hne using split_induction generalizing m firstSize complete with
  | single leaf => cases complete <;> simp [buildConsistencyPath]
  | node h l r hl hr hr' _ ihl ihr =>
    by_cases hfull : firstSize = (l ++ r).length
    · rw [hfull, buildConsistencyPath_full (List.append_ne_nil_of_right_ne_nil l hr)]
      cases complete <;> simp
    · obtain ⟨m, rfl, hle⟩ := split_lt hl hr hm
      rw [buildConsistencyPath_append hl hr hr' hfull]
      split
      · rw [List.length_append, List.length_singleton]
        exact Nat.succ_le_succ (ihl (hl ▸ hle) _ _)
      · rw [List.length_append, List.length_singleton]
        exact Nat.succ_le_succ (ihr (hr'.trans hle) _ _)

/-- `firstSize & (firstSize - 1) == 0` tests for a power of two. -/
theorem land_pred_eq_zero (hpos : 0 < n) : n &&& (n - 1) = 0 ↔ ∃ h, n = 2 ^ h :=
  Nat.and_sub_one_eq_zero_iff_isPowerOfTwo (by omega)

/-- What `VerifyConsistency` accepts for fewer first leaves than there are. -/
theorem verifyConsistency_iff [DecidableEq Hash] {firstSize secondSize : Nat} (hpos : 0 < firstSize)
    (hlt : firstSize < secondSize) {firstRoot secondRoot : Hash} {path : List Hash} :
    verifyConsistency sha256 firstRoot secondRoot ⟨firstSize, secondSize, path⟩ ↔
      secondSize ≤ maxJSONSafeSequence ∧ path.length ≤ maxProofNodes ∧ path ≠ [] ∧
      ∃ node rest, walkConsistency sha256 firstSize secondSize node rest =
          some (firstRoot, secondRoot) ∧
        ((∃ h, firstSize = 2 ^ h) ∧ node = firstRoot ∧ rest = path ∨
          (¬ ∃ h, firstSize = 2 ^ h) ∧ path = node :: rest) := by
  have hiff := land_pred_eq_zero hpos
  simp only [verifyConsistency]
  rw [if_neg (show firstSize ≠ 0 by omega), if_neg (show firstSize ≠ secondSize by omega)]
  by_cases hguard : secondSize ≤ maxJSONSafeSequence ∧ path.length ≤ maxProofNodes
  · rw [if_neg (by omega)]
    by_cases hnil : path = []
    · simp [hnil]
    · rw [if_neg (by simpa using hnil)]
      by_cases hpow : ∃ h, firstSize = 2 ^ h
      · simp [if_pos (hiff.2 hpow), hpow, hguard, hnil]
      · obtain ⟨node, rest, rfl⟩ := List.exists_cons_of_ne_nil hnil
        simp only [if_neg (mt hiff.1 hpow), beq_iff_eq, hguard, true_and, hpow, false_and,
          false_or, not_false_iff]
        constructor
        · intro hw
          exact ⟨hnil, node, rest, hw, rfl⟩
        · rintro ⟨-, node', rest', hw, heq⟩
          obtain ⟨rfl, rfl⟩ := List.cons.inj heq
          exact hw
  · rw [if_pos (by omega)]
    simp only [Bool.false_eq_true, false_iff]
    rintro ⟨hmax, hlen, -⟩
    exact hguard ⟨hmax, hlen⟩

/-- `VerifyConsistency` for all leaves. -/
theorem verifyConsistency_full [DecidableEq Hash] {size : Nat} (hpos : 0 < size)
    {firstRoot secondRoot : Hash} {path : List Hash} :
    verifyConsistency sha256 firstRoot secondRoot ⟨size, size, path⟩ ↔
      size ≤ maxJSONSafeSequence ∧ path = [] ∧ firstRoot = secondRoot := by
  simp only [verifyConsistency]
  rw [if_neg (show size ≠ 0 by omega)]
  by_cases hmax : size ≤ maxJSONSafeSequence
  · cases path with
    | nil => simp [hmax]
    | cons node path => simp
  · simp [hmax, Nat.lt_of_not_le hmax]

/-- The path that is built for fewer leaves than there are is short enough and accepted. -/
theorem verifyConsistency_build [DecidableEq Hash] {firstSize : Nat} (hpos : 0 < firstSize)
    (hlt : firstSize < leaves.length) (hmax : leaves.length ≤ maxJSONSafeSequence) :
    (buildConsistencyPath sha256 leaves firstSize true).length ≤ maxProofNodes ∧
      verifyConsistency sha256 (merkleRoot sha256 (leaves.take firstSize))
        (merkleRoot sha256 leaves)
        ⟨firstSize, leaves.length, buildConsistencyPath sha256 leaves firstSize true⟩ := by
  have hne : leaves ≠ [] := List.length_pos_iff.1 (by omega)
  have hlen : (buildConsistencyPath sha256 leaves firstSize true).length ≤ 54 :=
    length_buildConsistencyPath hne (hmax.trans (by decide)) firstSize true
  obtain ⟨node, path, hb⟩ : ∃ node path, Builds sha256 leaves firstSize node path :=
    exists_builds hne hpos (.inl hlt)
  refine ⟨hlen, (verifyConsistency_iff hpos hlt).2 ⟨hmax, hlen,
    buildConsistencyPath_ne_nil hpos hlt true, node, path, hb.walk, ?_⟩⟩
  by_cases hpow : ∃ h, firstSize = 2 ^ h
  · obtain ⟨hnode, hpath⟩ := hb.full hpow
    exact .inl ⟨hpow, hnode, hpath.symm⟩
  · exact .inr ⟨hpow, hb.split hpow⟩

/-- **Consistency proofs are complete.** The proof that is built for the first leaves of a list is
accepted with the roots of the first leaves and of the list. -/
theorem consistency_complete [DecidableEq Hash] {leaves : List Hash} {firstSize : Nat}
    (hpos : 0 < firstSize) (hle : firstSize ≤ leaves.length) :
    (leaves.length ≤ maxJSONSafeSequence →
      ∃ proof, buildConsistencyProof sha256 leaves firstSize = .ok proof) ∧
    ∀ proof, buildConsistencyProof sha256 leaves firstSize = .ok proof →
      proof.firstSize = firstSize ∧ proof.secondSize = leaves.length ∧
      verifyConsistency sha256 (merkleRoot sha256 (leaves.take firstSize))
        (merkleRoot sha256 leaves) proof = true := by
  unfold buildConsistencyProof
  refine ⟨fun hmax => ?_, fun proof hproof => ?_⟩
  · rw [if_neg (by omega)]
    split
    · exact ⟨_, rfl⟩
    · exact ⟨_, rfl⟩
  · split at hproof
    · cases hproof
    · next hguard =>
      have hmax : leaves.length ≤ maxJSONSafeSequence := by omega
      split at hproof
      · next hfull =>
        obtain rfl : firstSize = leaves.length := by omega
        cases hproof
        refine ⟨rfl, rfl, (verifyConsistency_full hpos).2 ⟨hmax, rfl, ?_⟩⟩
        rw [List.take_length]
      · next hlt =>
        have hlt : firstSize < leaves.length := by omega
        cases hproof
        exact ⟨rfl, rfl, (verifyConsistency_build hpos hlt hmax).2⟩

theorem consistency_complete_two : ∃ proof,
    buildConsistencyProof Symbolic.hash threeLeaves 2 = .ok proof ∧
      verifyConsistency Symbolic.hash (merkleRoot Symbolic.hash (threeLeaves.take 2))
        (merkleRoot Symbolic.hash threeLeaves) proof = true := by
  obtain ⟨hbuild, hverify⟩ := @consistency_complete Symbolic Symbolic.hash _ threeLeaves 2
    (by decide) (by decide)
  obtain ⟨proof, hproof⟩ := hbuild (by decide)
  exact ⟨proof, hproof, (hverify proof hproof).2.2⟩

/-- **Consistency proofs are sound.** Whatever the proof, an earlier root that is accepted with the
size and the root of a list is the root of the first leaves of the list. -/
theorem consistency_sound [DecidableEq Hash]
    (hinj : Function.Injective2 (merkleNodeHash sha256)) {leaves : List Hash} {firstRoot : Hash}
    {proof : ConsistencyProof Hash} (hpos : 0 < proof.firstSize)
    (hle : proof.firstSize ≤ leaves.length) (hsize : proof.secondSize = leaves.length)
    (hv : verifyConsistency sha256 firstRoot (merkleRoot sha256 leaves) proof = true) :
    firstRoot = merkleRoot sha256 (leaves.take proof.firstSize) := by
  have hne : leaves ≠ [] := List.length_pos_iff.1 (by omega)
  obtain ⟨firstSize, secondSize, path⟩ := proof
  obtain rfl : secondSize = leaves.length := hsize
  rcases Nat.lt_or_eq_of_le hle with hlt | heq
  · obtain ⟨-, -, -, node, rest, hw, -⟩ := (verifyConsistency_iff hpos hlt).1 hv
    exact root_of_walkConsistency hinj hne hpos (.inl hlt) hw
  · obtain rfl : firstSize = leaves.length := heq
    obtain ⟨-, -, heq⟩ := (verifyConsistency_full hpos).1 hv
    rw [heq, List.take_length]

theorem consistency_sound_two : verifyConsistency Symbolic.hash
      (.merkleNode (.record [1]) (.record [2])) (merkleRoot Symbolic.hash threeLeaves)
      ⟨2, 3, [.record [3]]⟩ = true ∧
    .merkleNode (.record [1]) (.record [2]) = merkleRoot Symbolic.hash (threeLeaves.take 2) := by
  have hv : verifyConsistency Symbolic.hash (.merkleNode (.record [1]) (.record [2]))
      (merkleRoot Symbolic.hash threeLeaves) ⟨2, 3, [.record [3]]⟩ = true := by decide +kernel
  exact ⟨hv, consistency_sound (merkleNodeHash_injective Symbolic.hash_injective) (by decide)
    (by decide) (by rfl) hv⟩

end

end YukhCoordination.Relay.Audit
