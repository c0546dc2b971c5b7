import EthereumSettlement.ReferenceDeployment
import Mathlib.Data.Nat.Bitwise

/-!
# Authentication paths of the claim tree

The gateway generates and checks the authentication paths that claimants send
to the bridge. Generation walks the same sparse levels as the root; the check
folds the siblings from the leaf up. Both are compared with the full depth-16
tree over the zero-padded leaves, and the contract's check gives the gateway's
verdict on every input within the tree.
-/

namespace EthereumSettlement.InnerActionProofs

open ByteWords CheckedCalls HashCommitments PastaPoseidon InnerActionCommitment
open ZekoSettlement (Environment)
open EthereumZekoBridge ReferenceDeployment

variable (H : Hashes)

/-- The loop of `merkle_proof`: the sibling of the index among the nodes of each
level, or the level's zero hash, leaf level first. -/
def merkleProofSiblings : ℕ → Bytes32 → List Bytes32 → ℕ → List Bytes32
  | 0, _, _, _ => []
  | levels + 1, zeroHash, nodes, index =>
    nodes.getD (index ^^^ 1) zeroHash ::
      merkleProofSiblings levels (hashNode H zeroHash zeroHash) (levelUp (hashNode H) zeroHash nodes)
        (index >>> 1)

/-- `merkle_proof`. -/
def merkleProof (leaves : List Bytes32) (target : ℕ) : Option (Fin 16 → Bytes32) :=
  if maxLeaves < leaves.length ∨ leaves.length ≤ target then none
  else some fun level => (merkleProofSiblings H treeDepth 0 leaves target).getD level 0

/-- One step of the loop of `verify_merkle_proof`. -/
def verifyStep (step : Bytes32 × ℕ) (sibling : Bytes32) : Bytes32 × ℕ :=
  (if step.2 &&& 1 = 0 then hashNode H step.1 sibling else hashNode H sibling step.1, step.2 >>> 1)

/-- `verify_merkle_proof`. -/
def verifyMerkleProof (leaf : Bytes32) (index : ℕ) (proof : Fin 16 → Bytes32)
    (expectedRoot : Bytes32) : Bool :=
  if maxLeaves ≤ index then false
  else ((List.ofFn proof).foldl (verifyStep H) (leaf, index)).1 = expectedRoot

/-- The flipped low bit leads to the sibling. -/
theorem xor_one_eq_siblingIndex (index : ℕ) : index ^^^ 1 = siblingIndex index := by
  unfold siblingIndex
  by_cases heven : index % 2 = 0
  · rw [if_pos heven]
    exact Nat.xor_one_of_even (Nat.even_iff.mpr heven)
  · rw [if_neg heven]
    have hodd : Odd index := Nat.odd_iff.mpr (by omega)
    exact Nat.xor_one_of_odd hodd

/-- The generated siblings are those of the padded tree. -/
theorem merkleProofSiblings_eq (levels : ℕ) (zeroHash : Bytes32) (nodes : List Bytes32) (index : ℕ) :
    merkleProofSiblings H levels zeroHash nodes index =
      treeSiblings (hashNode H) levels (padded zeroHash nodes) index := by
  induction levels generalizing zeroHash nodes index with
  | zero => rfl
  | succ levels ih =>
    have hlevel : (fun j => hashNode H (padded zeroHash nodes (2 * j))
        (padded zeroHash nodes (2 * j + 1))) =
        padded (hashNode H zeroHash zeroHash) (levelUp (hashNode H) zeroHash nodes) := by
      funext j
      exact (padded_levelUp (hashNode H) zeroHash nodes j).symm
    have hshift : index >>> 1 = index / 2 := Nat.shiftRight_one index
    rw [merkleProofSiblings, treeSiblings, ih, hlevel, xor_one_eq_siblingIndex, hshift]
    rfl

/-- The check recomputes the root of the path. -/
theorem foldl_verifyStep (leaf : Bytes32) (index : ℕ) (siblings : List Bytes32) :
    (siblings.foldl (verifyStep H) (leaf, index)).1 =
      pathRoot (hashNode H) leaf index siblings := by
  induction siblings generalizing leaf index with
  | nil => rfl
  | cons sibling siblings ih =>
    have hstep : verifyStep H (leaf, index) sibling =
        (hashNode H (pathPair leaf index sibling).1 (pathPair leaf index sibling).2, index / 2) := by
      have hbit : index &&& 1 = index % 2 := Nat.and_one_is_mod index
      have hshift : index >>> 1 = index / 2 := Nat.shiftRight_one index
      simp only [verifyStep, pathPair, hbit, hshift]
      by_cases heven : index % 2 = 0
      · rw [if_pos heven, if_pos heven]
      · rw [if_neg heven, if_neg heven]
    rw [List.foldl_cons, hstep, ih]
    rfl

/-- Within the tree the gateway's verdict is the comparison of the path's root. -/
theorem verifyMerkleProof_iff {leaf : Bytes32} {index : ℕ} {proof : Fin 16 → Bytes32}
    {expectedRoot : Bytes32} (h : index < maxLeaves) :
    verifyMerkleProof H leaf index proof expectedRoot = true ↔
      pathRoot (hashNode H) leaf index (List.ofFn proof) = expectedRoot := by
  rw [verifyMerkleProof, if_neg (by omega), foldl_verifyStep, decide_eq_true_eq]

/-- The contract gives the gateway's verdict within the tree. -/
theorem verdicts_agree (env : Environment) (leaf : Bytes32) (index : ℕ) (proof : Fin 16 → Bytes32)
    (expectedRoot : Bytes32) (h : index < maxLeaves) :
    verifyInnerActionMerkleProof env leaf index proof expectedRoot =
      verifyMerkleProof env.hashes leaf index proof expectedRoot := by
  rw [Bool.eq_iff_iff, verifyMerkleProof_iff env.hashes h, verifyInnerActionMerkleProof,
    decide_eq_true_eq]

/-- Sixteen siblings are those of the tree exactly when each is the root of the
subtree beside the path. -/
theorem ofFn_eq_treeSiblings_iff (leaf : ℕ → Bytes32) (index : ℕ) (proof : Fin 16 → Bytes32) :
    List.ofFn proof = treeSiblings (hashNode H) treeDepth leaf index ↔
      ∀ level : Fin 16, proof level =
        subtreeRoot (hashNode H) leaf level (2 ^ (level : ℕ) * siblingIndex (index / 2 ^ (level : ℕ))) := by
  have hrange : (List.range treeDepth).map (fun level =>
      subtreeRoot (hashNode H) leaf level (2 ^ level * siblingIndex (index / 2 ^ level))) =
      List.ofFn fun level : Fin 16 =>
        subtreeRoot (hashNode H) leaf level (2 ^ (level : ℕ) * siblingIndex (index / 2 ^ (level : ℕ))) := by
    rw [List.ofFn_eq_map, ← List.map_coe_finRange_eq_range, List.map_map]
    rfl
  rw [treeSiblings_eq_map, hrange, List.ofFn_inj]
  exact funext_iff

/-- The generated siblings are the siblings of the padded tree. -/
theorem merkleProof_eq_some {leaves : List Bytes32} {target : ℕ} (hcap : leaves.length ≤ maxLeaves)
    (htarget : target < leaves.length) :
    ∃ proof, merkleProof H leaves target = some proof ∧
      List.ofFn proof = treeSiblings (hashNode H) treeDepth (padded 0 leaves) target := by
  have hlength : (treeSiblings (hashNode H) treeDepth (padded 0 leaves) target).length = 16 := by
    rw [treeSiblings_eq_map, List.length_map, List.length_range]
    rfl
  rw [merkleProof, if_neg (by omega), merkleProofSiblings_eq]
  refine ⟨_, rfl, ?_⟩
  apply List.ext_getElem
  · rw [List.length_ofFn, hlength]
  · intro level hleft hright
    rw [List.getElem_ofFn, List.getD_eq_getElem]

/-- The claim tree is right. For every leaf list within the capacity the computed
root is the root of the full depth-16 tree over the leaves padded by the zero
leaf; the generated path of every leaf verifies; a path verifies at an index of
the tree exactly when it carries the padded leaf and the tree's own siblings,
unless hashed pairs collide; and the contract gives the gateway's verdict. -/
theorem inner_action_tree_correct (env : Environment) (leaves : List Bytes32)
    (hcap : leaves.length ≤ maxLeaves) :
    ∃ result, root env.hashes leaves = .ok result ∧
      result = subtreeRoot (hashNode env.hashes) (padded 0 leaves) treeDepth 0 ∧
      (∀ i (hi : i < leaves.length), ∃ proof, merkleProof env.hashes leaves i = some proof ∧
        verifyMerkleProof env.hashes (leaves.get ⟨i, hi⟩) i proof result = true) ∧
      (∀ leaf i proof, i < maxLeaves →
        CollisionFree (fun p : Bytes32 × Bytes32 => hashNode env.hashes p.1 p.2)
          (pathPairs (hashNode env.hashes) leaf i (List.ofFn proof) ++
            treePairs (hashNode env.hashes) treeDepth (padded 0 leaves) i) →
        (verifyMerkleProof env.hashes leaf i proof result = true ↔
          leaf = padded 0 leaves i ∧ ∀ level : Fin 16, proof level =
            subtreeRoot (hashNode env.hashes) (padded 0 leaves) level
              (2 ^ (level : ℕ) * siblingIndex (i / 2 ^ (level : ℕ))))) ∧
      ∀ leaf i proof expectedRoot, i < maxLeaves →
        verifyInnerActionMerkleProof env leaf i proof expectedRoot =
          verifyMerkleProof env.hashes leaf i proof expectedRoot := by
  have hroot := treeRoot_eq_subtreeRoot (hashNode env.hashes) treeDepth (padded 0 leaves)
  refine ⟨_, (root_eq_ok env.hashes).mpr ⟨hcap, hroot.symm⟩, rfl, ?_, ?_, ?_⟩
  · intro i hi
    obtain ⟨proof, hproof, hsiblings⟩ := merkleProof_eq_some env.hashes hcap hi
    refine ⟨proof, hproof, ?_⟩
    have hpadded : leaves.get ⟨i, hi⟩ = padded 0 leaves i := by
      rw [padded, List.getD_eq_getElem _ _ hi]
      rfl
    have hbound : i < maxLeaves := lt_of_lt_of_le hi hcap
    rw [verifyMerkleProof_iff env.hashes hbound, hsiblings, hpadded, ← hroot]
    exact pathRoot_treeSiblings _ _ _ _ hbound
  · intro leaf i proof hi hcf
    have hdepth : (List.ofFn proof).length = treeDepth := List.length_ofFn
    rw [verifyMerkleProof_iff env.hashes hi, ← hroot, ← ofFn_eq_treeSiblings_iff]
    constructor
    · intro hpath
      rw [← hdepth] at hcf hpath
      have hbinding := path_binding hcf (by rw [hdepth]; exact hi) hpath
      rw [hdepth] at hbinding
      exact hbinding
    · rintro ⟨rfl, hsiblings⟩
      rw [hsiblings]
      exact pathRoot_treeSiblings _ _ _ _ hi
  · intro leaf i proof expectedRoot hi
    exact verdicts_agree env leaf i proof expectedRoot hi

/-- The generated path of the second of three leaves. -/
def secondOfThree : Fin 16 → Bytes32 :=
  fun level => (merkleProofSiblings environment.hashes treeDepth 0 [1, 2, 3] 1).getD level 0

/-- No hash collides in the tree of three leaves and in the path from a foreign leaf. -/
theorem threeLeaves_distinct :
    digestsDistinct environment.hashes.keccak256
      ((pathPairs (hashNode environment.hashes) 5 1 (List.ofFn secondOfThree)).map
        (nodeInput environment.hashes) ++ rootInputs environment.hashes [1, 2, 3]) [] = true := by
  decide +kernel

/-- In the tree of three leaves the path of the second leaf verifies, and the same
path with a foreign leaf does not. -/
theorem inner_action_tree_correct_three :
    ∃ result, root environment.hashes [1, 2, 3] = .ok result ∧
      (∃ proof, merkleProof environment.hashes [1, 2, 3] 1 = some proof ∧
        verifyMerkleProof environment.hashes 2 1 proof result = true) ∧
      ¬ verifyMerkleProof environment.hashes 5 1 secondOfThree result = true := by
  obtain ⟨result, hroot, -, hgenerated, hbinding, -⟩ :=
    inner_action_tree_correct environment [1, 2, 3] (by decide)
  refine ⟨result, hroot, hgenerated 1 (by decide), ?_⟩
  intro hforeign
  have hdistinct := collisionFree_of_digests threeLeaves_distinct
  have hcf : CollisionFree
      (fun p : Bytes32 × Bytes32 => hashNode environment.hashes p.1 p.2)
      (pathPairs (hashNode environment.hashes) 5 1 (List.ofFn secondOfThree) ++
        treePairs (hashNode environment.hashes) treeDepth (padded 0 [1, 2, 3]) 1) := by
    apply hashNode_collisionFree environment.hashes hdistinct
    rw [List.map_append]
    have htree := treePairs_subset_rootInputs environment.hashes [1, 2, 3] 1 (by decide)
    exact List.append_subset.mpr ⟨List.subset_append_left _ _,
      List.Subset.trans htree (List.subset_append_right _ _)⟩
  have hleaf := ((hbinding 5 1 secondOfThree (by decide) hcf).mp hforeign).1
  exact absurd hleaf (by decide)

end EthereumSettlement.InnerActionProofs
