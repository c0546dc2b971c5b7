import EthereumSettlement.InnerActionRows

/-!
# When a batch proof is served

The gateway builds the authentication path of a withdrawal from the stored rows of
its batch, and checks the path against the stored root before it serves it. The path
it generates leads to the root of the rows' own leaves, so the check is passed exactly
when the rows reproduce the stored root. Together with the loop over the rows this
says for which rows a proof is served; the bridge's check on Ethereum accepts it.
-/

namespace EthereumSettlement.BatchProofs

open ByteWords CheckedCalls HashCommitments PastaPoseidon InnerActionCommitment InnerActionProofs
open InnerActionRows ZekoSettlement EthereumZekoBridge ReferenceHashes ReferenceDeployment

variable (H : Hashes)

/-- The rows are those of a whole batch: they stand at the offsets from zero on with
consecutive global indices, all under one root and one commit slot, and their leaves
reproduce the root. -/
structure CompleteBatch (rows : List InnerActionLeafRow) (startIndex : BitVec 32)
    (batchRoot : Bytes32) (commitSlotUpper : BitVec 32) : Prop where
  /-- The batch has a row. -/
  nonempty : rows ≠ []
  /-- The rows fit the tree. -/
  capacity : rows.length ≤ maxLeaves
  /-- Each row stands at its own offset. -/
  contiguous : ∀ k row, rows[k]? = some row → RowAt startIndex batchRoot commitSlotUpper k row
  /-- The leaves have the stored root. -/
  reproduced : root H (rows.map InnerActionLeafRow.leaf) = .ok batchRoot

/-- The generated path of a leaf leads to a root exactly when the leaves have it. -/
theorem generated_verifies_iff {leaves : List Bytes32} {target : ℕ} {siblings : Fin 16 → Bytes32}
    {expectedRoot : Bytes32} (hcap : leaves.length ≤ maxLeaves) (htarget : target < leaves.length)
    (hsiblings : merkleProof H leaves target = some siblings) :
    verifyMerkleProof H (leaves.getD target 0) target siblings expectedRoot = true ↔
      root H leaves = .ok expectedRoot := by
  obtain ⟨generated, hgenerated, htree⟩ := merkleProof_eq_some H hcap htarget
  have hsame : siblings = generated := Option.some.inj (hsiblings.symm.trans hgenerated)
  have hbound : target < maxLeaves := lt_of_lt_of_le htarget hcap
  have hpath := pathRoot_treeSiblings (hashNode H) treeDepth (padded 0 leaves) target hbound
  have hleaf : leaves.getD target 0 = padded 0 leaves target := rfl
  rw [verifyMerkleProof_iff H hbound, hsame, htree, hleaf, hpath, root_eq_ok]
  constructor
  · intro h
    exact ⟨hcap, h.symm⟩
  · intro h
    exact h.2.symm

/-- A path is generated exactly for a leaf of a tree within the capacity. -/
theorem merkleProof_isSome {leaves : List Bytes32} {target : ℕ} {siblings : Fin 16 → Bytes32}
    (h : merkleProof H leaves target = some siblings) :
    leaves.length ≤ maxLeaves ∧ target < leaves.length := by
  unfold merkleProof at h
  by_cases houtside : maxLeaves < leaves.length ∨ leaves.length ≤ target
  · rw [if_pos houtside] at h
    cases h
  · omega

/-- A proof is built exactly from the rows of a whole batch for one of its offsets: it
is the path generated from the leaves, beside the target's row, its global index and
the commit slot. -/
theorem buildInnerActionBatchProof_iff {rows : List InnerActionLeafRow} {offset : BitVec 32}
    {proof : InnerActionBatchProof} :
    buildInnerActionBatchProof H rows offset = .ok proof ↔
      ∃ startIndex batchRoot, CompleteBatch H rows startIndex batchRoot proof.commitSlotUpper ∧
        rows[offset.toNat]? = some proof.target ∧
        merkleProof H (rows.map InnerActionLeafRow.leaf) offset.toNat = some proof.siblings ∧
        proof.target.globalActionIndex = proof.globalActionIndex.toNat := by
  cases rows with
  | nil =>
    rw [buildInnerActionBatchProof, throw_eq_ok]
    constructor
    · intro h
      exact h.elim
    · intro h
      obtain ⟨startIndex, batchRoot, hbatch, -⟩ := h
      exact absurd rfl hbatch.nonempty
  | cons first later =>
    simp only [buildInnerActionBatchProof, bind_eq_ok, require_eq_ok, exists_const, pure_eq_ok,
      storedLeaves_eq_ok, context_eq_ok, toU32_eq_ok, Nat.zero_add]
    constructor
    · intro h
      obtain ⟨hcap, startIndex, hstart, slot, hslot, leaves, ⟨hrows, hleaves⟩, siblings, hsiblings,
        hverified, target, htarget, index, hindex, hproof⟩ := h
      rw [← hleaves] at hsiblings hverified
      obtain ⟨hcapacity, hinside⟩ := merkleProof_isSome H hsiblings
      have hroot := (generated_verifies_iff H hcapacity hinside hsiblings).mp hverified
      rw [← hproof]
      exact ⟨startIndex, first.innerActionRoot, ⟨List.cons_ne_nil _ _, hcap, hrows, hroot⟩, htarget,
        hsiblings, hindex⟩
    · intro h
      obtain ⟨startIndex, batchRoot, hbatch, htarget, hsiblings, hindex⟩ := h
      have hfirst := hbatch.contiguous 0 first rfl
      obtain ⟨hcapacity, hinside⟩ := merkleProof_isSome H hsiblings
      refine ⟨hbatch.capacity, startIndex, ?_, proof.commitSlotUpper, hfirst.slot_eq, _, ⟨?_, rfl⟩,
        proof.siblings, hsiblings, ?_, proof.target, htarget, proof.globalActionIndex, hindex, rfl⟩
      · exact hfirst.index_eq
      · rw [hfirst.root_eq]
        exact hbatch.contiguous
      · rw [hfirst.root_eq]
        exact (generated_verifies_iff H hcapacity hinside hsiblings).mpr hbatch.reproduced

/-- A whole batch has a proof for every one of its offsets. -/
theorem CompleteBatch.served {rows : List InnerActionLeafRow} {startIndex commitSlotUpper : BitVec 32}
    {batchRoot : Bytes32} (h : CompleteBatch H rows startIndex batchRoot commitSlotUpper)
    {offset : BitVec 32} (hoffset : offset.toNat < rows.length) :
    ∃ proof, buildInnerActionBatchProof H rows offset = .ok proof := by
  have hcapacity : (rows.map InnerActionLeafRow.leaf).length ≤ maxLeaves := by
    rw [List.length_map]
    exact h.capacity
  have hinside : offset.toNat < (rows.map InnerActionLeafRow.leaf).length := by
    rw [List.length_map]
    exact hoffset
  obtain ⟨siblings, hsiblings, -⟩ := merkleProof_eq_some H hcapacity hinside
  have htarget := List.getElem?_eq_getElem hoffset
  have hrow := h.contiguous offset.toNat _ htarget
  have hindex : rows[offset.toNat].globalActionIndex =
      (BitVec.ofNat 32 (startIndex.toNat + offset.toNat)).toNat := by
    rw [BitVec.toNat_ofNat, Nat.mod_eq_of_lt hrow.index_lt]
    exact hrow.index_eq
  exact ⟨⟨rows[offset.toNat], siblings, BitVec.ofNat 32 (startIndex.toNat + offset.toNat),
      commitSlotUpper⟩,
    (buildInnerActionBatchProof_iff H).mpr
      ⟨startIndex, batchRoot, h, htarget, hsiblings, hindex⟩⟩

/-- The gateway builds a proof exactly when the rows are those of a whole batch and the
offset is one of theirs: at least one row and no more than the tree holds, at the
offsets from zero on with consecutive global indices, all under one root and one commit
slot, with leaves that reproduce the root. Every proof that it builds is about the row
at the offset, names its global index and the batch's commit slot, and its siblings pass
the bridge's check of the row's leaf at the offset against the batch's root. -/
theorem proof_built_iff (env : Environment) (rows : List InnerActionLeafRow) (offset : BitVec 32) :
    ((∃ proof, buildInnerActionBatchProof env.hashes rows offset = .ok proof) ↔
      (∃ startIndex batchRoot commitSlotUpper,
        CompleteBatch env.hashes rows startIndex batchRoot commitSlotUpper) ∧
      offset.toNat < rows.length) ∧
    ∀ proof, buildInnerActionBatchProof env.hashes rows offset = .ok proof →
      ∃ startIndex batchRoot,
        CompleteBatch env.hashes rows startIndex batchRoot proof.commitSlotUpper ∧
        rows[offset.toNat]? = some proof.target ∧
        proof.globalActionIndex.toNat = startIndex.toNat + offset.toNat ∧
        verifyInnerActionMerkleProof env proof.target.leaf offset.toNat proof.siblings batchRoot =
          true := by
  refine ⟨⟨?_, ?_⟩, ?_⟩
  · intro h
    obtain ⟨proof, hproof⟩ := h
    obtain ⟨startIndex, batchRoot, hbatch, htarget, -⟩ :=
      (buildInnerActionBatchProof_iff env.hashes).mp hproof
    have hinside := (List.getElem?_eq_some_iff.mp htarget).1
    exact ⟨⟨startIndex, batchRoot, proof.commitSlotUpper, hbatch⟩, hinside⟩
  · intro h
    obtain ⟨⟨startIndex, batchRoot, commitSlotUpper, hbatch⟩, hinside⟩ := h
    exact hbatch.served env.hashes hinside
  · intro proof hproof
    obtain ⟨startIndex, batchRoot, hbatch, htarget, hsiblings, hindex⟩ :=
      (buildInnerActionBatchProof_iff env.hashes).mp hproof
    obtain ⟨hcapacity, hinside⟩ := merkleProof_isSome env.hashes hsiblings
    have hrow := hbatch.contiguous offset.toNat proof.target htarget
    have hbound : offset.toNat < maxLeaves := lt_of_lt_of_le hinside hcapacity
    have hleaf : (rows.map InnerActionLeafRow.leaf).getD offset.toNat 0 = proof.target.leaf := by
      rw [List.getD_eq_getElem?_getD, List.getElem?_map, htarget]
      rfl
    have hverified := (generated_verifies_iff env.hashes hcapacity hinside hsiblings).mpr
      hbatch.reproduced
    rw [hleaf] at hverified
    have hsum := hindex.symm.trans hrow.index_eq
    refine ⟨startIndex, batchRoot, hbatch, htarget, by omega, ?_⟩
    rw [verdicts_agree env _ _ _ _ hbound]
    exact hverified

/-- The rows stand at the offsets from zero on with consecutive global indices, under a
root that their leaves have. -/
def Contiguous (rows : List InnerActionLeafRow) : Prop :=
  rows ≠ [] ∧ ∃ (startIndex : BitVec 32) (batchRoot : Bytes32),
    (∀ (k : ℕ) row, rows[k]? = some row → row.actionOffset = k ∧
      row.globalActionIndex = (startIndex.toNat + k : ℕ) ∧ row.innerActionRoot = batchRoot) ∧
    root H (rows.map InnerActionLeafRow.leaf) = .ok batchRoot

/-- A stored row of a raw action, with its leaf, its batch's root and a commit slot. -/
def rawRow (offset : ℤ) (leaf batchRoot : Bytes32) (commitSlotUpper : ℤ) : InnerActionLeafRow where
  settlementSequence := 1
  actionOffset := offset
  globalActionIndex := 7 + offset
  actionFields := []
  actionFieldsHash := 0
  leaf := leaf
  innerActionRoot := batchRoot
  commitSlotUpper := commitSlotUpper
  ethereumBlockNumber := 10
  ethereumBlockHash := 11
  ethereumTxHash := 12

/-- The root of the concrete tree of some leaves. -/
def rootOf (leaves : List Bytes32) : Bytes32 := (root referenceHashes leaves).toOption.getD 0

/-- Two rows that differ in their commit slot. -/
def twoSlots : List InnerActionLeafRow :=
  [rawRow 0 1 (rootOf [1, 2]) 5, rawRow 1 2 (rootOf [1, 2]) 6]

/-- A batch of one row. -/
def oneRow : List InnerActionLeafRow := [rawRow 0 1 (rootOf [1]) 5]

/-- Contiguous rows that reproduce their root are refused when they name two commit
slots, and so is every offset behind the last row. -/
theorem contiguous_refused :
    (Contiguous referenceHashes twoSlots ∧
      ¬ Succeeds (buildInnerActionBatchProof referenceHashes twoSlots 0)) ∧
    Contiguous referenceHashes oneRow ∧
      ¬ Succeeds (buildInnerActionBatchProof referenceHashes oneRow 1) := by
  have hroots : root referenceHashes [1, 2] = .ok (rootOf [1, 2]) ∧
      root referenceHashes [1] = .ok (rootOf [1]) ∧
      ¬ Succeeds (buildInnerActionBatchProof referenceHashes twoSlots 0) ∧
      ¬ Succeeds (buildInnerActionBatchProof referenceHashes oneRow 1) := by
    decide +kernel
  obtain ⟨htwo, hone, hslots, houtside⟩ := hroots
  refine ⟨⟨⟨List.cons_ne_nil _ _, 7, rootOf [1, 2], ?_, htwo⟩, hslots⟩,
    ⟨List.cons_ne_nil _ _, 7, rootOf [1], ?_, hone⟩, houtside⟩
  · intro k row hrow
    match k, hrow with
    | 0, hrow =>
      rw [← Option.some.inj hrow]
      exact ⟨rfl, rfl, rfl⟩
    | 1, hrow =>
      rw [← Option.some.inj hrow]
      exact ⟨rfl, rfl, rfl⟩
  · intro k row hrow
    match k, hrow with
    | 0, hrow =>
      rw [← Option.some.inj hrow]
      exact ⟨rfl, rfl, rfl⟩

end EthereumSettlement.BatchProofs
