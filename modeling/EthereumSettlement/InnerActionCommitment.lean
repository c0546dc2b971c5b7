import EthereumSettlement.HashCommitments
import EthereumSettlement.PastaPoseidon

/-!
# Inner-action leaves and their claim tree

The settlement guest and the gateway build one Keccak leaf for each inner
action and commit the leaves of a batch to a depth-16 tree padded by zero
leaves. Every hashed string is a sequence of 32-byte words whose length differs
between leaf kinds and tree nodes, so leaves of different kinds, nodes and
leaves at different indices have different preimages.
-/

namespace EthereumSettlement.InnerActionCommitment

open ByteWords CheckedCalls HashCommitments PastaPoseidon

/-- `NativeWithdrawalV2`. -/
structure NativeWithdrawalV2 where
  /-- Ethereum recipient. -/
  recipient : Address
  /-- Amount in Zeko's nine-decimal unit. -/
  amount : BitVec 64
  deriving DecidableEq

/-- `TokenWithdrawalV3`. -/
structure TokenWithdrawalV3 where
  /-- Version of the encoding of token actions. -/
  encodingVersion : BitVec 32
  /-- Index of the asset's record in the registry. -/
  registryIndex : BitVec 32
  /-- Poseidon commitment of the asset's record. -/
  recordCommitment : Bytes32
  /-- Address of the token, zero for ether. -/
  token : Address
  /-- Identifier of the asset. -/
  assetId : Bytes32
  /-- Who is paid. -/
  recipient : Address
  /-- Amount in the units of the asset on Zeko. -/
  amount : BitVec 64
  /-- Flattened parameter fields of the auxiliary hash. -/
  paramsFields : List Bytes32
  deriving DecidableEq

/-- `TREE_DEPTH`. -/
def treeDepth : ℕ := 16

/-- `MAX_LEAVES`. -/
def maxLeaves : ℕ := 2 ^ treeDepth

/-- `ERC20_ACTION_ENCODING_V2`. -/
def erc20ActionEncodingV2 : BitVec 32 := 2

variable (H : Hashes)

/-- A domain separator: the hash of its text. -/
def domainHash (text : String) : Bytes32 := H.keccak256 (asciiBytes text)

/-- The string hashed by `action_fields_hash`. -/
def actionFieldsInput (fields : List Bytes32) : Bytes :=
  abiEncode (domainHash H "ZEKO_INNER_ACTION_FIELDS_V2" ::
    toWord (BitVec.ofNat 32 fields.length) :: fields)

/-- `action_fields_hash`. -/
def actionFieldsHash (fields : List Bytes32) : Except String Bytes32 := do
  require (fields.length < 2 ^ 32) "field count fits u32"
  pure (H.keccak256 (actionFieldsInput H fields))

/-- The string hashed by `native_withdrawal_leaf`. -/
def nativeWithdrawalInput (chainId : BitVec 64) (bridgeAddress : Address) (globalIndex : BitVec 32)
    (withdrawal : NativeWithdrawalV2) (fieldsHash : Bytes32) : Bytes :=
  abiEncode [domainHash H "ZEKO_NATIVE_WITHDRAWAL_LEAF_V2", toWord chainId, toWord bridgeAddress,
    toWord globalIndex, toWord withdrawal.recipient, toWord withdrawal.amount, fieldsHash]

/-- `native_withdrawal_leaf`. -/
def nativeWithdrawalLeaf (chainId : BitVec 64) (bridgeAddress : Address) (globalIndex : BitVec 32)
    (withdrawal : NativeWithdrawalV2) (fieldsHash : Bytes32) : Bytes32 :=
  H.keccak256 (nativeWithdrawalInput H chainId bridgeAddress globalIndex withdrawal fieldsHash)

/-- The string hashed by `erc20_withdrawal_leaf`. -/
def erc20WithdrawalInput (chainId : BitVec 64) (bridgeAddress : Address) (globalIndex : BitVec 32)
    (withdrawal : TokenWithdrawalV3) (fieldsHash : Bytes32) : Bytes :=
  abiEncode [domainHash H "ZEKO_ERC20_WITHDRAWAL_LEAF_V4", toWord chainId, toWord bridgeAddress,
    toWord globalIndex, toWord withdrawal.token, toWord withdrawal.encodingVersion,
    toWord withdrawal.registryIndex, withdrawal.recordCommitment, withdrawal.assetId,
    toWord withdrawal.recipient, toWord withdrawal.amount, fieldsHash]

/-- `erc20_withdrawal_leaf`. -/
def erc20WithdrawalLeaf (chainId : BitVec 64) (bridgeAddress : Address) (globalIndex : BitVec 32)
    (withdrawal : TokenWithdrawalV3) (fieldsHash : Bytes32) : Except String Bytes32 := do
  require (withdrawal.encodingVersion = erc20ActionEncodingV2)
    "unsupported ERC20 withdrawal encoding version"
  pure (H.keccak256 (erc20WithdrawalInput H chainId bridgeAddress globalIndex withdrawal fieldsHash))

/-- The string hashed by `raw_inner_action_leaf`. -/
def rawInnerActionInput (chainId : BitVec 64) (bridgeAddress : Address) (globalIndex : BitVec 32)
    (fieldsHash : Bytes32) : Bytes :=
  abiEncode [domainHash H "ZEKO_RAW_INNER_ACTION_LEAF_V2", toWord chainId, toWord bridgeAddress,
    toWord globalIndex, fieldsHash]

/-- `raw_inner_action_leaf`. -/
def rawInnerActionLeaf (chainId : BitVec 64) (bridgeAddress : Address) (globalIndex : BitVec 32)
    (fieldsHash : Bytes32) : Bytes32 :=
  H.keccak256 (rawInnerActionInput H chainId bridgeAddress globalIndex fieldsHash)

/-- The string hashed by `hash_node`. -/
def nodeInput (pair : Bytes32 × Bytes32) : Bytes :=
  abiEncode [domainHash H "ZEKO_INNER_ACTION_NODE_V2", pair.1, pair.2]

/-- `hash_node`. -/
def hashNode (left right : Bytes32) : Bytes32 := H.keccak256 (nodeInput H (left, right))

/-- `root`: the nodes are climbed sparsely, each level padded by its zero hash. -/
def root (leaves : List Bytes32) : Except String Bytes32 := do
  require (leaves.length ≤ maxLeaves) "inner action tree exceeds capacity"
  if leaves = [] then pure (zeroHash (hashNode H) 0 treeDepth)
  else do
    let nodes := climb (hashNode H) treeDepth 0 leaves
    require (nodes.length = 1) "invalid inner action tree"
    pure (nodes.headD 0)

/-- Every node string hashed by `root`, those of `zero_hashes` first. -/
def rootInputs (leaves : List Bytes32) : List Bytes :=
  ((List.range treeDepth).map fun level =>
    nodeInput H (zeroHash (hashNode H) 0 level, zeroHash (hashNode H) 0 level)) ++
  (climbPairs (hashNode H) treeDepth 0 leaves).map (nodeInput H)

/-- Node strings determine both children. -/
theorem nodeInput_injective {p q : Bytes32 × Bytes32} (h : nodeInput H p = nodeInput H q) :
    p = q := by
  have hw := abiEncode_injective h
  simp only [List.cons.injEq, and_true, true_and] at hw
  exact Prod.ext hw.1 hw.2

/-- Freedom from collisions on node strings is freedom from collisions of nodes. -/
theorem hashNode_collisionFree {inputs : List Bytes} {pairs : List (Bytes32 × Bytes32)}
    (hcf : CollisionFree H.keccak256 inputs) (hsub : pairs.map (nodeInput H) ⊆ inputs) :
    CollisionFree (fun p : Bytes32 × Bytes32 => hashNode H p.1 p.2) pairs := by
  intro p hp q hq hpq
  have hpi := hsub (List.mem_map_of_mem hp)
  have hqi := hsub (List.mem_map_of_mem hq)
  exact nodeInput_injective H (hcf _ hpi _ hqi hpq)

/-- A successful root is the root of the zero-padded complete tree of depth 16. -/
theorem root_eq_ok {leaves : List Bytes32} {result : Bytes32} :
    root H leaves = .ok result ↔
      leaves.length ≤ maxLeaves ∧ result = treeRoot (hashNode H) treeDepth (padded 0 leaves) := by
  have hroot := climb_root (hashNode H) treeDepth 0 leaves
  unfold root
  rw [require_bind_eq_ok]
  refine and_congr_right fun hcap => ?_
  by_cases hnil : leaves = []
  · rw [if_pos hnil, pure_eq_ok, ← hroot, hnil]
    have hclimb : ∀ depth zero, climb (hashNode H) depth zero [] = [] := by
      intro depth
      induction depth with
      | zero => intro zero; rfl
      | succ depth ih => intro zero; exact ih _
    rw [hclimb]
    exact eq_comm
  · have hlen := climb_length (hashNode H) treeDepth 0 leaves
      (List.length_pos_iff.mpr hnil) hcap
    rw [if_neg hnil, require_bind_eq_ok, pure_eq_ok, ← hroot]
    obtain ⟨node, hnode⟩ := List.length_eq_one_iff.mp hlen
    rw [hnode]
    simp only [List.length_singleton, true_and, List.headD_cons, padded, List.getD_cons_zero]
    exact eq_comm

/-- Every tree pair above a present leaf is among the strings `root` hashes. -/
theorem treePairs_subset_rootInputs (leaves : List Bytes32) (i : ℕ) (hi : i < leaves.length) :
    (treePairs (hashNode H) treeDepth (padded 0 leaves) i).map (nodeInput H) ⊆
      rootInputs H leaves := by
  have hsub := treePairs_subset_climbPairs (hashNode H) treeDepth 0 leaves i hi
  intro input hin
  obtain ⟨p, hp, rfl⟩ := List.mem_map.mp hin
  exact List.mem_append_right _ (List.mem_map_of_mem (hsub hp))

end EthereumSettlement.InnerActionCommitment
