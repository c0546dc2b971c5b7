import EthereumSettlement.ThirdPartyClaims
import EthereumSettlement.BatchProofs

/-!
# Withdrawal proofs as the gateway serves them

For a withdrawal the gateway serves everything that a claim needs: the arguments, the
authentication path, and a status computed from the current slot, the delay and the
recipient's cursor, which it reads from the contracts. The status is a promise about
what the contract would do. Here the gateway's answer for a row of a settled batch is
compared with the contract, in every state that a deployment reaches: a native
withdrawal is claimable exactly when the contract pays it, as far as the escrow, the
pause flag and the recipient allow.

The table holds the rows that are not removed. A column that spells a number or an
address is the value that it spells.
-/

namespace EthereumSettlement.ServedClaims

open ByteWords CheckedCalls TransitionRuns PastaPoseidon InnerActionCommitment InnerActionProofs
open SettlementCodec SettlementReceipt ZekoSettlement EthereumZekoBridge BridgeSystem
open StepEffects SettledReceipts InnerActionRows BatchProofs ReferenceHashes ReferenceDeployment

/-- `HISTORICAL_ERC20_ACTION_ENCODING_V1`. -/
def historicalErc20ActionEncodingV1 : BitVec 32 := 1

/-- `ActionIdentity`. -/
structure ActionIdentity where
  /-- Version of the encoding of token actions. -/
  encodingVersion : BitVec 32
  /-- Registry index, for a token action. -/
  registryIndex : Option (BitVec 32)
  /-- Record commitment, for a token action. -/
  recordCommitment : Option Bytes32
  deriving DecidableEq

/-- `decode_action_identity`. -/
def decodeActionIdentity (encodingVersion : ℤ) (registryIndex : Option ℤ)
    (recordCommitment : Option Bytes32) : Except String ActionIdentity := do
  let version ← toU32 encodingVersion
  if version = 0 ∨ version = historicalErc20ActionEncodingV1 then do
    require (registryIndex = none ∧ recordCommitment = none)
      "unregistered action has registry identity"
    pure ⟨version, none, none⟩
  else if version = erc20ActionEncodingV2 then do
    let stored ← context registryIndex "registry action is missing its index"
    let index ← toU32 stored
    let commitment ← context recordCommitment "registry action is missing its record commitment"
    require (commitment ≠ 0) "registry action record commitment is zero"
    pure ⟨version, some index, some commitment⟩
  else throw ("unsupported action encoding version " ++ toString version.toNat)

/-- `ensure_registry_erc20_action_encoding`. -/
def ensureRegistryErc20ActionEncoding (version : BitVec 32) : Except String Unit :=
  require (version = erc20ActionEncodingV2)
    ("unsupported registry ERC20 action encoding version " ++ toString version.toNat)

/-- `ensure_native_withdrawal_kind`. -/
def ensureNativeWithdrawalKind (token : Option Address) : Except String Unit :=
  require (token = none) "inner action is not a claimable native withdrawal"

/-- `withdrawal_progress`. -/
def withdrawalProgress (globalActionIndex recipientCursor : BitVec 32)
    (currentSlot claimableSlot : BitVec 64) (claimAction : String) : String × String :=
  if globalActionIndex < recipientCursor then ("processed", "none")
  else if currentSlot < claimableSlot then ("waitingForDelay", "waitForWithdrawalDelay")
  else ("claimable", claimAction)

/-- `NativeWithdrawalProof`. -/
structure NativeWithdrawalProof where
  /-- Sequence number of the settlement. -/
  settlementSequence : BitVec 64
  /-- Position in its batch. -/
  offset : BitVec 32
  /-- Position among all inner actions. -/
  globalActionIndex : BitVec 32
  /-- Who is paid. -/
  recipient : Address
  /-- Amount in the units of the asset on Zeko. -/
  amount : BitVec 64
  /-- Keccak hash of the fields of the action. -/
  actionFieldsHash : Bytes32
  /-- Sibling hashes on the path to the root. -/
  siblings : Fin 16 → Bytes32
  /-- Root of the tree of inner actions. -/
  innerActionRoot : Bytes32
  /-- Upper slot bound of the commit that settled the batch. -/
  commitSlotUpper : BitVec 32
  /-- First slot of the claim. -/
  claimableSlot : BitVec 64
  /-- Slot at which the proof was served. -/
  currentVirtualSlot : BitVec 64
  /-- First index that the recipient has not claimed. -/
  recipientCursor : BitVec 32
  /-- Progress of the claim. -/
  status : String
  /-- What the user can do next. -/
  nextAction : String

/-- `TokenWithdrawalProof`. -/
structure TokenWithdrawalProof extends NativeWithdrawalProof where
  /-- Address of the token, zero for ether. -/
  token : Address
  /-- Identifier of the asset. -/
  assetId : Bytes32
  /-- Identity under which the leaf was made. -/
  actionIdentity : ActionIdentity

/-- The answers to the gateway's calls of the contracts. -/
structure EthereumClient where
  /-- Answer for the present slot. -/
  currentVirtualSlot : Except String (BitVec 64)
  /-- Answer for the delay. -/
  withdrawalDelaySlots : Except String (BitVec 32)
  /-- Answer for an account's native cursor. -/
  nextWithdrawalIndex : Address → Except String (BitVec 32)
  /-- Answer for an account's cursor of a token. -/
  nextTokenWithdrawalIndex : Address → Address → Except String (BitVec 32)

/-- Rows in the order of a column. -/
def byColumn (column : InnerActionLeafRow → ℤ) (first second : InnerActionLeafRow) : Prop :=
  column first ≤ column second

instance (column : InnerActionLeafRow → ℤ) : DecidableRel (byColumn column) :=
  fun first second => inferInstanceAs (Decidable (column first ≤ column second))

instance (column : InnerActionLeafRow → ℤ) : Std.Total (byColumn column) :=
  ⟨fun first second => le_total (column first) (column second)⟩

instance (column : InnerActionLeafRow → ℤ) : IsTrans InnerActionLeafRow (byColumn column) :=
  ⟨fun _ _ _ hfirst hsecond => Int.le_trans hfirst hsecond⟩

/-- The rows of a settlement. -/
def rowsOf (table : List InnerActionLeafRow) (sequence : ℤ) : List InnerActionLeafRow :=
  table.filter fun row => row.settlementSequence = sequence

/-- The rows of a settlement in the order of their offsets. -/
def batchRows (table : List InnerActionLeafRow) (sequence : ℤ) : List InnerActionLeafRow :=
  (rowsOf table sequence).insertionSort (byColumn InnerActionLeafRow.actionOffset)

section Gateway

variable (H : Hashes) (client : EthereumClient) (table : List InnerActionLeafRow)

/-- `load_inner_action_batch_proof`. -/
def loadInnerActionBatchProof (sequence : BitVec 64) (offset : BitVec 32) :
    Except String InnerActionBatchProof := do
  let bound ← toI64 sequence.toNat
  buildInnerActionBatchProof H (batchRows table bound) offset

/-- `load_native_withdrawal_proof_at`. -/
def loadNativeWithdrawalProofAt (sequence : BitVec 64) (offset : BitVec 32)
    (currentSlot : BitVec 64) (delay : BitVec 32) : Except String NativeWithdrawalProof := do
  let proof ← loadInnerActionBatchProof H table sequence offset
  ensureNativeWithdrawalKind proof.target.token
  let recipient ← context proof.target.recipient
    "inner action is not a claimable native withdrawal"
  let amount ← context proof.target.zekoAmount "withdrawal amount missing"
  let recipientCursor ← client.nextWithdrawalIndex recipient
  let claimableSlot : BitVec 64 := proof.commitSlotUpper.setWidth 64 + delay.setWidth 64
  let progress := withdrawalProgress proof.globalActionIndex recipientCursor currentSlot
    claimableSlot "claimNativeWithdrawal"
  pure {
    settlementSequence := sequence
    offset := offset
    globalActionIndex := proof.globalActionIndex
    recipient := recipient
    amount := amount
    actionFieldsHash := proof.target.actionFieldsHash
    siblings := proof.siblings
    innerActionRoot := proof.target.innerActionRoot
    commitSlotUpper := proof.commitSlotUpper
    claimableSlot := claimableSlot
    currentVirtualSlot := currentSlot
    recipientCursor := recipientCursor
    status := progress.1
    nextAction := progress.2 }

/-- `load_native_withdrawal_proof`. -/
def loadNativeWithdrawalProof (sequence : BitVec 64) (offset : BitVec 32) :
    Except String NativeWithdrawalProof := do
  let currentSlot ← client.currentVirtualSlot
  let delay ← client.withdrawalDelaySlots
  loadNativeWithdrawalProofAt H client table sequence offset currentSlot delay

/-- `load_token_withdrawal_proof_at`. -/
def loadTokenWithdrawalProofAt (sequence : BitVec 64) (offset : BitVec 32)
    (currentSlot : BitVec 64) (delay : BitVec 32) : Except String TokenWithdrawalProof := do
  let proof ← loadInnerActionBatchProof H table sequence offset
  let token ← context proof.target.token "inner action is not a claimable ERC20 withdrawal"
  let assetId ← context proof.target.assetId "ERC20 withdrawal asset id missing"
  let version ← context proof.target.actionEncodingVersion
    "ERC20 withdrawal action encoding version missing"
  let actionIdentity ← decodeActionIdentity version proof.target.registryIndex
    proof.target.recordCommitment
  ensureRegistryErc20ActionEncoding actionIdentity.encodingVersion
  let recipient ← context proof.target.recipient "ERC20 withdrawal recipient missing"
  let amount ← context proof.target.zekoAmount "ERC20 withdrawal amount missing"
  let recipientCursor ← client.nextTokenWithdrawalIndex token recipient
  let claimableSlot : BitVec 64 := proof.commitSlotUpper.setWidth 64 + delay.setWidth 64
  let progress := withdrawalProgress proof.globalActionIndex recipientCursor currentSlot
    claimableSlot "claimERC20Withdrawal"
  pure {
    settlementSequence := sequence
    offset := offset
    globalActionIndex := proof.globalActionIndex
    token := token
    assetId := assetId
    actionIdentity := actionIdentity
    recipient := recipient
    amount := amount
    actionFieldsHash := proof.target.actionFieldsHash
    siblings := proof.siblings
    innerActionRoot := proof.target.innerActionRoot
    commitSlotUpper := proof.commitSlotUpper
    claimableSlot := claimableSlot
    currentVirtualSlot := currentSlot
    recipientCursor := recipientCursor
    status := progress.1
    nextAction := progress.2 }

/-- `load_token_withdrawal_proof`. -/
def loadTokenWithdrawalProof (sequence : BitVec 64) (offset : BitVec 32) :
    Except String TokenWithdrawalProof := do
  let currentSlot ← client.currentVirtualSlot
  let delay ← client.withdrawalDelaySlots
  loadTokenWithdrawalProofAt H client table sequence offset currentSlot delay

end Gateway

/-- The arguments of the claim that a proof is served for. -/
def NativeWithdrawalProof.claim (proof : NativeWithdrawalProof) : ClaimArguments where
  settlementSequence := proof.settlementSequence
  offset := proof.offset
  recipient := proof.recipient
  amount := proof.amount
  actionFieldsHash := proof.actionFieldsHash
  merkleProof := proof.siblings

variable {env : Environment} {W : TokenWorld}

/-- What the contracts answer in a state. -/
def answers (c : Chain W) (timestamp : BitVec 256) : EthereumClient where
  currentVirtualSlot :=
    match currentVirtualSlot c.settlement timestamp with
    | .ok slot => .ok slot
    | .error _ => .error "execution reverted"
  withdrawalDelaySlots := .ok c.bridge.withdrawalDelaySlots
  nextWithdrawalIndex := fun recipient => .ok (c.bridge.nextWithdrawalIndex recipient)
  nextTokenWithdrawalIndex := fun token recipient =>
    .ok (c.bridge.nextTokenWithdrawalIndex token recipient)

/-- The rows that the gateway stored for a receipt that was settled, of this bridge. -/
structure StoredBatch (d : Deployment env W) (transactions : List Transaction)
    (receipt : SettlementPublicValuesV2) (rows : List InnerActionLeafRow) : Prop where
  /-- The receipt was settled in the run. -/
  settled : ∃ publicValues ∈ settledReceipts (d.history transactions), ∃ values,
    decodePublicValues publicValues = .ok (SettlementPublicValues.decoded values) ∧
    values.innerActionBatch = some receipt
  /-- It names the bridge. -/
  bridge : env.bridgeAddress = receipt.bridgeAddress
  /-- The rows are those that the indexer writes for it. -/
  stored : ∃ batch blockNumber blockHash transactionHash,
    storeInnerActionLeaves env.hashes batch receipt blockNumber blockHash transactionHash = .ok rows

/-- The batch of a receipt is stored on chain. -/
structure OnChain (env : Environment) (s : SettlementStorage) (receipt : SettlementPublicValuesV2) :
    Prop where
  /-- The receipt is for this chain. -/
  chain : env.chainId = toWord receipt.settlement.chainId
  /-- A batch is stored for it. -/
  valid : (s.innerActionBatch receipt.settlement.batchSequence).valid = true
  /-- The root is that of the receipt. -/
  root_eq : (s.innerActionBatch receipt.settlement.batchSequence).root = receipt.innerActionRoot
  /-- The start index is that of the receipt. -/
  start_eq : (s.innerActionBatch receipt.settlement.batchSequence).startIndex =
    receipt.innerActionStartIndex
  /-- The count is that of the receipt. -/
  count_eq : (s.innerActionBatch receipt.settlement.batchSequence).count =
    receipt.innerActionCount
  /-- The slot is that of the receipt. -/
  slot_eq : (s.innerActionBatch receipt.settlement.batchSequence).commitSlotUpper =
    receipt.settlement.slotUpper

/-- What the settled receipts with a batch left in the storage. -/
def BatchesKept (env : Environment) (receipts : List Bytes) (s : SettlementStorage) : Prop :=
  ∀ publicValues ∈ receipts, ∀ decoded, decodePublicValues publicValues = .ok decoded →
    2 ≤ decoded.version →
      toWord decoded.chainId = env.chainId ∧
      decoded.batchSequence.toNat ≤ s.batchSequence.toNat ∧
      s.innerActionBatch decoded.batchSequence = receiptBatch decoded

/-- A transaction keeps what the receipts left, its own included. -/
theorem batchesKept_of_effect {receipts : List Bytes} {c next : Chain W} {ctx : CallContext}
    {call : Call} (hc : BatchesKept env receipts c.settlement) (h : Effect env c ctx call next) :
    BatchesKept env (receipts ++ (callReceipt call).toList) next.settlement := by
  rcases settlement_of_effect h with ⟨hnone, htables⟩ |
    ⟨publicValues, proofBytes, decoded, hsome, -, hdecode, hsettled⟩
  · rw [hnone, Option.toList_none, List.append_nil]
    intro other hother otherDecoded hotherDecode hversion
    have hkept := hc other hother otherDecoded hotherDecode hversion
    rw [htables.batchSequence, htables.innerActionBatch]
    exact hkept
  · rw [hsome]
    have hsequence := hsettled.sequence
    have hcurrent := hsettled.batchSequence_eq
    intro other hother otherDecoded hotherDecode hversion
    rw [hsettled.innerActionBatch_eq, settledBatches, ite_update_apply, hcurrent]
    by_cases hold : other ∈ receipts
    · have hkept := hc other hold otherDecoded hotherDecode hversion
      have hcounted := hkept.2.1
      have hne : otherDecoded.batchSequence ≠ decoded.batchSequence := by
        intro hsame
        rw [hsame] at hcounted
        omega
      rw [if_neg (fun hboth => hne hboth.2)]
      exact ⟨hkept.1, by omega, hkept.2.2⟩
    · have hlast : other = publicValues := by
        rcases List.mem_append.mp hother with hmem | hmem
        · exact absurd hmem hold
        · exact List.mem_singleton.mp hmem
      rw [hlast] at hotherDecode
      have hsame : otherDecoded = decoded := Except.ok.inj (hotherDecode.symm.trans hdecode)
      rw [hsame] at hversion ⊢
      rw [if_pos ⟨hversion, rfl⟩]
      exact ⟨hsettled.chainId, le_refl _, rfl⟩

/-- Every settled receipt with a batch left it in every state reached later. -/
theorem reached_batchesKept (d : Deployment env W) (transactions : List Transaction) :
    BatchesKept env (settledReceipts (d.history transactions))
      (d.reached transactions).settlement := by
  apply reached_induction d (J := fun history c =>
    BatchesKept env (settledReceipts history) c.settlement) (Q := fun _ => True)
  · intro publicValues hmem
    exact absurd hmem List.not_mem_nil
  · intro history c tx next hc _ heffect
    rw [settledReceipts_concat]
    exact batchesKept_of_effect hc heffect
  · intro _ _
    trivial

/-- A receipt with a batch decodes to the batch's version, sequence, chain, slot and
bridge. -/
theorem receipt_decoded {values : SettlementPublicValues} {receipt : SettlementPublicValuesV2}
    (h : values.innerActionBatch = some receipt) :
    2 ≤ values.decoded.version ∧
      values.decoded.batchSequence = receipt.settlement.batchSequence ∧
      values.decoded.chainId = receipt.settlement.chainId ∧
      values.decoded.slotUpper = receipt.settlement.slotUpper ∧
      values.decoded.bridgeAddress = receipt.bridgeAddress := by
  have htwo : (2 : BitVec 16) ≤ 2 ∧ (2 : BitVec 16) ≤ 3 ∧ (2 : BitVec 16) ≤ 4 := by decide
  cases values with
  | v1 => cases h
  | v2 =>
    cases h
    exact ⟨htwo.1, rfl, rfl, rfl, rfl⟩
  | v3 =>
    cases h
    exact ⟨htwo.2.1, rfl, rfl, rfl, rfl⟩
  | v4 =>
    cases h
    exact ⟨htwo.2.2, rfl, rfl, rfl, rfl⟩

/-- The batch of a settled receipt is on chain. -/
theorem StoredBatch.onChain {d : Deployment env W} {transactions : List Transaction}
    {receipt : SettlementPublicValuesV2} {rows : List InnerActionLeafRow}
    (h : StoredBatch d transactions receipt rows) :
    OnChain env (d.reached transactions).settlement receipt := by
  obtain ⟨publicValues, hmem, values, hdecode, hbatch⟩ := h.settled
  obtain ⟨hversion, hsequence, hchain, hslot, -⟩ := receipt_decoded hbatch
  obtain ⟨hroot, hcount, hstart⟩ := ClaimSoundness.decoded_batch hbatch
  obtain ⟨hnames, -, hstored⟩ :=
    reached_batchesKept d transactions publicValues hmem _ hdecode hversion
  rw [hsequence] at hstored
  constructor
  · rw [← hnames, hchain]
  · rw [hstored]
    rfl
  · rw [hstored, ← hroot]
    rfl
  · rw [hstored, ← hstart]
    rfl
  · rw [hstored, ← hcount]
    rfl
  · rw [hstored, ← hslot]
    rfl

/-- Rows that stand at their own offsets are in the order of their offsets, and no two
share one. -/
theorem offsets_increasing {rows : List InnerActionLeafRow}
    (hoffsets : ∀ (k : ℕ) row, rows[k]? = some row → row.actionOffset = k) :
    rows.Pairwise (byColumn InnerActionLeafRow.actionOffset) ∧
      ∀ first ∈ rows, ∀ second ∈ rows, first.actionOffset = second.actionOffset →
        first = second := by
  constructor
  · rw [List.pairwise_iff_getElem]
    intro i j hi hj hlt
    have hfirst := hoffsets i _ (List.getElem?_eq_getElem hi)
    have hsecond := hoffsets j _ (List.getElem?_eq_getElem hj)
    unfold byColumn
    omega
  · intro first hfirst second hsecond hsame
    obtain ⟨i, hi⟩ := List.mem_iff_getElem?.mp hfirst
    obtain ⟨j, hj⟩ := List.mem_iff_getElem?.mp hsecond
    have hleft := hoffsets i first hi
    have hright := hoffsets j second hj
    have hposition : i = j := by omega
    rw [hposition, hj] at hi
    exact (Option.some.inj hi).symm

/-- The rows of a batch are found in their order, wherever they lie in the table. -/
theorem batchRows_eq {table rows : List InnerActionLeafRow} {sequence : ℤ}
    (htable : (rowsOf table sequence).Perm rows)
    (hoffsets : ∀ (k : ℕ) row, rows[k]? = some row → row.actionOffset = k) :
    batchRows table sequence = rows := by
  obtain ⟨hordered, hdistinct⟩ := offsets_increasing hoffsets
  have hperm := (List.perm_insertionSort (byColumn InnerActionLeafRow.actionOffset) _).trans htable
  have hsorted := List.pairwise_insertionSort (byColumn InnerActionLeafRow.actionOffset)
    (rowsOf table sequence)
  refine List.Perm.eq_of_pairwise ?_ hsorted hordered hperm
  intro first second hfirst hsecond hle hge
  exact hdistinct first (hperm.mem_iff.mp hfirst) second hsecond (Int.le_antisymm hle hge)

section Rows

variable {d : Deployment env W} {transactions : List Transaction}
  {receipt : SettlementPublicValuesV2} {rows table : List InnerActionLeafRow}

/-- The rows are as many as the actions that the receipt counts. -/
theorem StoredBatch.length_eq (h : StoredBatch d transactions receipt rows) :
    rows.length = receipt.innerActionCount.toNat := by
  obtain ⟨batch, blockNumber, blockHash, transactionHash, hstored⟩ := h.stored
  obtain ⟨hlength, -⟩ := storeInnerActionLeaves_eq_ok hstored
  simp only [storeInnerActionLeaves, bind_eq_ok, require_eq_ok, exists_const] at hstored
  obtain ⟨-, hcount, -⟩ := hstored
  omega

/-- Every row is the one stored for an action at its position. -/
theorem StoredBatch.storedRow (h : StoredBatch d transactions receipt rows) {k : ℕ}
    {row : InnerActionLeafRow} (hrow : rows[k]? = some row) :
    ∃ action, StoredRow env.hashes receipt k action row := by
  obtain ⟨batch, blockNumber, blockHash, transactionHash, hstored⟩ := h.stored
  obtain ⟨hlength, -, hall⟩ := storeInnerActionLeaves_eq_ok hstored
  obtain ⟨hk, -⟩ := List.getElem?_eq_some_iff.mp hrow
  have haction : k < batch.actions.length := by omega
  obtain ⟨found, hfound, hof⟩ := hall k _ (List.getElem?_eq_getElem haction)
  rw [hrow] at hfound
  rw [Option.some.inj hfound]
  exact ⟨_, hof⟩

/-- Every row stands at its own offset. -/
theorem StoredBatch.offset_eq (h : StoredBatch d transactions receipt rows) (k : ℕ)
    (row : InnerActionLeafRow) (hrow : rows[k]? = some row) : row.actionOffset = k := by
  obtain ⟨action, hof⟩ := h.storedRow hrow
  exact hof.offset_eq

/-- A row names the sequence of the receipt, which fits its column. -/
theorem StoredBatch.sequence_eq (h : StoredBatch d transactions receipt rows)
    {row : InnerActionLeafRow} (hrow : row ∈ rows) :
    row.settlementSequence = receipt.settlement.batchSequence.toNat ∧
      receipt.settlement.batchSequence.toNat < 2 ^ 63 := by
  obtain ⟨batch, blockNumber, blockHash, transactionHash, hstored⟩ := h.stored
  simp only [storeInnerActionLeaves, bind_eq_ok, require_eq_ok, exists_const] at hstored
  obtain ⟨-, -, entries, -, computed, -, -, hrows⟩ := hstored
  have hmap := mapM_eq_ok.mp hrows
  obtain ⟨k, hk⟩ := List.mem_iff_getElem?.mp hrow
  obtain ⟨hlt, hget⟩ := List.getElem?_eq_some_iff.mp hk
  have hentry : k < entries.length := by
    rw [hmap.length_eq]
    exact hlt
  have hwritten := List.forall₂_iff_get.mp hmap |>.2 k hentry hlt
  rw [List.get_eq_getElem, List.get_eq_getElem, hget] at hwritten
  simp only [witnessRow, toI64, bind_eq_ok, require_eq_ok, exists_const, pure_eq_ok] at hwritten
  obtain ⟨columns, -, sequence, hsequence, position, -, number, -, hmade⟩ := hwritten
  rw [← hmade]
  exact ⟨hsequence.2.symm, hsequence.1⟩

/-- The path that is loaded for an offset is about the row at the offset, and the
contract accepts it. -/
theorem StoredBatch.loaded (h : StoredBatch d transactions receipt rows)
    (htable : (rowsOf table receipt.settlement.batchSequence.toNat).Perm rows)
    {offset : BitVec 32} {proof : InnerActionBatchProof}
    (hload : loadInnerActionBatchProof env.hashes table receipt.settlement.batchSequence offset =
      .ok proof) :
    offset.toNat < rows.length ∧ ServedProof env receipt rows offset proof ∧
      LeafOnChain env proof.globalActionIndex proof.target := by
  have hchain := h.onChain.chain
  have hbridge := h.bridge
  have hsorted := batchRows_eq htable h.offset_eq
  obtain ⟨batch, blockNumber, blockHash, transactionHash, hstored⟩ := h.stored
  have hserved := batchServed_of_stored hstored
  simp only [loadInnerActionBatchProof, toI64, bind_eq_ok, require_eq_ok, exists_const,
    pure_eq_ok] at hload
  obtain ⟨bound, ⟨-, hbound⟩, hbuilt⟩ := hload
  rw [← hbound, hsorted] at hbuilt
  obtain ⟨_, _, -, htarget, -⟩ := (buildInnerActionBatchProof_iff env.hashes).mp hbuilt
  obtain ⟨hinside, -⟩ := List.getElem?_eq_some_iff.mp htarget
  have haction : offset.toNat < batch.actions.length := by
    rw [← hserved.length_eq]
    exact hinside
  obtain ⟨found, hfound, hproof, hleaf⟩ := hserved.served offset haction
  rw [hbuilt] at hfound
  rw [Except.ok.inj hfound]
  exact ⟨hinside, hproof, hleaf hchain hbridge⟩

/-- Every offset of the batch has a path. -/
theorem StoredBatch.loads (h : StoredBatch d transactions receipt rows)
    (htable : (rowsOf table receipt.settlement.batchSequence.toNat).Perm rows)
    {offset : BitVec 32} {row : InnerActionLeafRow} (hrow : rows[offset.toNat]? = some row) :
    ∃ proof, loadInnerActionBatchProof env.hashes table receipt.settlement.batchSequence offset =
      .ok proof ∧ proof.target = row := by
  have hsorted := batchRows_eq htable h.offset_eq
  obtain ⟨-, hsequence⟩ := h.sequence_eq (List.mem_of_getElem? hrow)
  obtain ⟨hinside, -⟩ := List.getElem?_eq_some_iff.mp hrow
  obtain ⟨batch, blockNumber, blockHash, transactionHash, hstored⟩ := h.stored
  have hserved := batchServed_of_stored hstored
  have haction : offset.toNat < batch.actions.length := by
    rw [← hserved.length_eq]
    exact hinside
  obtain ⟨proof, hbuilt, hproof, -⟩ := hserved.served offset haction
  refine ⟨proof, ?_, ?_⟩
  · simp only [loadInnerActionBatchProof, toI64, bind_eq_ok, require_eq_ok, exists_const,
      pure_eq_ok]
    refine ⟨_, ⟨hsequence, rfl⟩, ?_⟩
    rw [hsorted]
    exact hbuilt
  · have htarget := hproof.target_eq
    rw [hrow] at htarget
    exact (Option.some.inj htarget).symm

end Rows

/-- The status promises a claim: the cursor has not passed the index, and the slot has
come. -/
theorem withdrawalProgress_claimable {globalActionIndex recipientCursor : BitVec 32}
    {currentSlot claimableSlot : BitVec 64} {claimAction : String} :
    (withdrawalProgress globalActionIndex recipientCursor currentSlot claimableSlot claimAction).1 =
      "claimable" ↔
      recipientCursor.toNat ≤ globalActionIndex.toNat ∧
        claimableSlot.toNat ≤ currentSlot.toNat := by
  have hprocessed : ("processed" : String) ≠ "claimable" := by decide
  have hwaiting : ("waitingForDelay" : String) ≠ "claimable" := by decide
  unfold withdrawalProgress
  by_cases hpassed : globalActionIndex < recipientCursor
  · rw [if_pos hpassed]
    have hlt := BitVec.lt_def.mp hpassed
    constructor
    · intro h
      exact absurd h hprocessed
    · intro h
      omega
  · rw [if_neg hpassed]
    have hle : ¬globalActionIndex.toNat < recipientCursor.toNat :=
      fun h => hpassed (BitVec.lt_def.mpr h)
    by_cases hearly : currentSlot < claimableSlot
    · rw [if_pos hearly]
      have hlt := BitVec.lt_def.mp hearly
      constructor
      · intro h
        exact absurd h hwaiting
      · intro h
        omega
    · rw [if_neg hearly]
      have hslot : ¬currentSlot.toNat < claimableSlot.toNat :=
        fun h => hearly (BitVec.lt_def.mpr h)
      constructor
      · intro _
        omega
      · intro _
        rfl

/-- The slot from which a batch can be claimed does not overflow. -/
theorem claimableSlot_toNat (commitSlotUpper delay : BitVec 32) :
    (commitSlotUpper.setWidth 64 + delay.setWidth 64 : BitVec 64).toNat =
      commitSlotUpper.toNat + delay.toNat := by
  have hcommit := commitSlotUpper.isLt
  have hdelay := delay.isLt
  rw [BitVec.toNat_add, BitVec.toNat_setWidth, BitVec.toNat_setWidth]
  omega

/-- The delay of a batch has passed exactly when its slot has come. -/
theorem checkClaimable_eq_ok {c : Chain W} {timestamp : BitVec 256} {batch : InnerActionBatch} :
    checkClaimable c timestamp batch = .ok () ↔
      ∃ slot, currentVirtualSlot c.settlement timestamp = .ok slot ∧
        batch.commitSlotUpper.toNat + c.bridge.withdrawalDelaySlots.toNat ≤ slot.toNat := by
  have hsum := claimableSlot_toNat batch.commitSlotUpper c.bridge.withdrawalDelaySlots
  have hcommit := batch.commitSlotUpper.isLt
  have hdelay := c.bridge.withdrawalDelaySlots.isLt
  simp only [checkClaimable, bind_eq_ok, callSettlement_eq_ok, require_eq_ok, checkedAdd_eq_ok,
    BitVec.toNat_setWidth, BitVec.le_def]
  constructor
  · intro h
    obtain ⟨slot, hslot, claimable, hclaimable, hle⟩ := h
    exact ⟨slot, hslot, by omega⟩
  · intro h
    obtain ⟨slot, hslot, hle⟩ := h
    have hclaimable := hsum.le.trans hle
    refine ⟨slot, hslot, _, ?_, hclaimable⟩
    rw [hsum]
    omega

/-- The facts of a served withdrawal of either kind. -/
structure Served (H : Hashes) (table : List InnerActionLeafRow) (sequence : BitVec 64)
    (offset : BitVec 32) (slot : BitVec 64) (delay : BitVec 32) (claimAction : String)
    (path : InnerActionBatchProof) (proof : NativeWithdrawalProof) : Prop where
  /-- The path is loaded for the position. -/
  loaded : loadInnerActionBatchProof H table sequence offset = .ok path
  /-- The recipient is that of the row. -/
  recipient_eq : path.target.recipient = some proof.recipient
  /-- The amount is that of the row. -/
  amount_eq : path.target.zekoAmount = some proof.amount
  /-- It is about the asked sequence number. -/
  sequence_eq : proof.settlementSequence = sequence
  /-- It is about the asked offset. -/
  offset_eq : proof.offset = offset
  /-- The index is that of the path. -/
  index_eq : proof.globalActionIndex = path.globalActionIndex
  /-- The hash is that of the row. -/
  fieldsHash_eq : proof.actionFieldsHash = path.target.actionFieldsHash
  /-- The siblings are those of the path. -/
  siblings_eq : proof.siblings = path.siblings
  /-- The delay is added to the slot of the commit. -/
  claimableSlot_eq : proof.claimableSlot.toNat = path.commitSlotUpper.toNat + delay.toNat
  /-- The present slot is the contract's. -/
  slot_eq : proof.currentVirtualSlot = slot
  /-- The status follows from cursor and slots. -/
  progress_eq : (proof.status, proof.nextAction) = withdrawalProgress proof.globalActionIndex
    proof.recipientCursor slot proof.claimableSlot claimAction

/-- The facts of a served native withdrawal. -/
structure NativeServed (H : Hashes) (client : EthereumClient) (table : List InnerActionLeafRow)
    (sequence : BitVec 64) (offset : BitVec 32) (slot : BitVec 64) (delay : BitVec 32)
    (path : InnerActionBatchProof) (proof : NativeWithdrawalProof) : Prop
    extends Served H table sequence offset slot delay "claimNativeWithdrawal" path proof where
  /-- The row has no token. -/
  native : path.target.token = none
  /-- The cursor is the contract's. -/
  cursor_eq : client.nextWithdrawalIndex proof.recipient = .ok proof.recipientCursor

/-- The facts of a served token withdrawal. -/
structure TokenServed (H : Hashes) (client : EthereumClient) (table : List InnerActionLeafRow)
    (sequence : BitVec 64) (offset : BitVec 32) (slot : BitVec 64) (delay : BitVec 32)
    (path : InnerActionBatchProof) (proof : TokenWithdrawalProof) : Prop
    extends Served H table sequence offset slot delay "claimERC20Withdrawal" path
      proof.toNativeWithdrawalProof where
  /-- The token is that of the row. -/
  token_eq : path.target.token = some proof.token
  /-- The asset is that of the row. -/
  assetId_eq : path.target.assetId = some proof.assetId
  /-- The registry's identity is the row's, and its commitment is not zero. -/
  identity_eq : ∃ registryIndex recordCommitment,
    proof.actionIdentity = ⟨erc20ActionEncodingV2, some registryIndex, some recordCommitment⟩ ∧
    path.target.registryIndex = some (registryIndex.toNat : ℤ) ∧
    path.target.recordCommitment = some recordCommitment ∧ recordCommitment ≠ 0
  /-- The cursor is the contract's. -/
  cursor_eq : client.nextTokenWithdrawalIndex proof.token proof.recipient =
    .ok proof.recipientCursor

/-- A native withdrawal is served with these facts. -/
theorem loadNativeWithdrawalProofAt_eq_ok {H : Hashes} {client : EthereumClient}
    {table : List InnerActionLeafRow} {sequence : BitVec 64} {offset : BitVec 32}
    {slot : BitVec 64} {delay : BitVec 32} {proof : NativeWithdrawalProof}
    (h : loadNativeWithdrawalProofAt H client table sequence offset slot delay = .ok proof) :
    ∃ path, NativeServed H client table sequence offset slot delay path proof := by
  simp only [loadNativeWithdrawalProofAt, ensureNativeWithdrawalKind, bind_eq_ok, require_eq_ok,
    exists_const, pure_eq_ok, context_eq_ok] at h
  obtain ⟨path, hload, hkind, recipient, hrecipient, amount, hamount, cursor, hcursor, hproof⟩ := h
  rw [← hproof]
  exact ⟨path, ⟨hload, hrecipient, hamount, rfl, rfl, rfl, rfl, rfl, claimableSlot_toNat _ _,
    rfl, rfl⟩, hkind, hcursor⟩

/-- An action of the registry is decoded from its index and its commitment. -/
theorem decodeActionIdentity_eq_ok {encodingVersion : ℤ} {registryIndex : Option ℤ}
    {recordCommitment : Option Bytes32} {identity : ActionIdentity}
    (hversion : identity.encodingVersion = erc20ActionEncodingV2) :
    decodeActionIdentity encodingVersion registryIndex recordCommitment = .ok identity ↔
      encodingVersion = 2 ∧ ∃ index commitment,
        identity = ⟨erc20ActionEncodingV2, some index, some commitment⟩ ∧
        registryIndex = some (index.toNat : ℤ) ∧ recordCommitment = some commitment ∧
        commitment ≠ 0 := by
  have hother : erc20ActionEncodingV2 ≠ 0 ∧
      erc20ActionEncodingV2 ≠ historicalErc20ActionEncodingV1 := by decide
  have htwo : (erc20ActionEncodingV2.toNat : ℤ) = 2 := rfl
  simp only [decodeActionIdentity, bind_eq_ok, toU32_eq_ok]
  constructor
  · intro h
    obtain ⟨version, hencoded, h⟩ := h
    by_cases hplain : version = 0 ∨ version = historicalErc20ActionEncodingV1
    · rw [if_pos hplain] at h
      simp only [bind_eq_ok, require_eq_ok, exists_const, pure_eq_ok] at h
      rw [← h.2] at hversion
      dsimp only at hversion
      rw [hversion] at hplain
      exact absurd hplain (not_or.mpr hother)
    · rw [if_neg hplain] at h
      by_cases hregistry : version = erc20ActionEncodingV2
      · rw [if_pos hregistry] at h
        simp only [bind_eq_ok, require_eq_ok, exists_const, pure_eq_ok, context_eq_ok,
          toU32_eq_ok] at h
        obtain ⟨stored, hstored, index, hindex, commitment, hcommitment, hne, hidentity⟩ := h
        rw [hregistry] at hencoded hidentity
        rw [hindex] at hstored
        exact ⟨hencoded.trans htwo, index, commitment, hidentity.symm, hstored, hcommitment, hne⟩
      · rw [if_neg hregistry, throw_eq_ok] at h
        exact h.elim
  · intro h
    obtain ⟨hencoded, index, commitment, hidentity, hindex, hcommitment, hne⟩ := h
    refine ⟨erc20ActionEncodingV2, hencoded.trans htwo.symm, ?_⟩
    rw [if_neg (not_or.mpr hother), if_pos rfl]
    simp only [bind_eq_ok, require_eq_ok, exists_const, pure_eq_ok, context_eq_ok, toU32_eq_ok]
    exact ⟨_, hindex, index, rfl, commitment, hcommitment, hne, hidentity.symm⟩

/-- A token withdrawal is served with these facts. -/
theorem loadTokenWithdrawalProofAt_eq_ok {H : Hashes} {client : EthereumClient}
    {table : List InnerActionLeafRow} {sequence : BitVec 64} {offset : BitVec 32}
    {slot : BitVec 64} {delay : BitVec 32} {proof : TokenWithdrawalProof}
    (h : loadTokenWithdrawalProofAt H client table sequence offset slot delay = .ok proof) :
    ∃ path, TokenServed H client table sequence offset slot delay path proof := by
  simp only [loadTokenWithdrawalProofAt, ensureRegistryErc20ActionEncoding, bind_eq_ok,
    require_eq_ok, exists_const, pure_eq_ok, context_eq_ok] at h
  obtain ⟨path, hload, token, htoken, assetId, hassetId, version, -, identity, hidentity,
    hregistry, recipient, hrecipient, amount, hamount, cursor, hcursor, hproof⟩ := h
  obtain ⟨-, hnamed⟩ := (decodeActionIdentity_eq_ok hregistry).mp hidentity
  rw [← hproof]
  exact ⟨path, ⟨hload, hrecipient, hamount, rfl, rfl, rfl, rfl, rfl, claimableSlot_toNat _ _,
    rfl, rfl⟩, htoken, hassetId, hnamed, hcursor⟩

/-- The client answers with the slot of the state. -/
theorem answers_slot {c : Chain W} {timestamp : BitVec 256} {slot : BitVec 64} :
    (answers c timestamp).currentVirtualSlot = .ok slot ↔
      currentVirtualSlot c.settlement timestamp = .ok slot := by
  cases hslot : currentVirtualSlot c.settlement timestamp with
  | ok value => simp only [answers, hslot, Except.ok.injEq]
  | error error => simp only [answers, hslot, reduceCtorEq]

section Agreement

variable {d : Deployment env W} {transactions : List Transaction}
  {receipt : SettlementPublicValuesV2} {rows table : List InnerActionLeafRow}
  {timestamp : BitVec 256} {offset : BitVec 32} {slot : BitVec 64} {delay : BitVec 32}
  {claimAction : String} {path : InnerActionBatchProof}

/-- The leaf of a served withdrawal verifies on chain at its global index. -/
theorem Served.verified {proof : NativeWithdrawalProof}
    (hstored : StoredBatch d transactions receipt rows)
    (htable : (rowsOf table receipt.settlement.batchSequence.toNat).Perm rows)
    (h : Served env.hashes table receipt.settlement.batchSequence offset slot delay claimAction
      path proof) :
    ClaimVerified env (d.reached transactions) proof.claim path.target.leaf
      proof.globalActionIndex := by
  have hchain := hstored.onChain
  obtain ⟨hinside, hserved, -⟩ := hstored.loaded htable h.loaded
  obtain ⟨action, hrow⟩ := hstored.storedRow hserved.target_eq
  have hpath := hserved.verified
  rw [verifyInnerActionMerkleProof, decide_eq_true_eq] at hpath
  have hsequence : proof.claim.settlementSequence = receipt.settlement.batchSequence :=
    h.sequence_eq
  have hoffset : proof.claim.offset = offset := h.offset_eq
  have hsiblings : proof.claim.merkleProof = path.siblings := h.siblings_eq
  constructor
  · rw [hsequence]
    exact hchain.valid
  · rw [hsequence, hchain.count_eq, hoffset, ← hstored.length_eq]
    exact hinside
  · have hlt := hrow.index_lt
    rw [hsequence, hchain.start_eq, hoffset, h.index_eq, hserved.index_eq, BitVec.toNat_add,
      Nat.mod_eq_of_lt hlt]
  · rw [hsequence, hchain.root_eq, hoffset, hsiblings]
    exact hpath

/-- A withdrawal is served as claimable exactly when the contract's checks of the cursor
and of the delay pass. -/
theorem Served.claimable_iff {proof : NativeWithdrawalProof}
    (hstored : StoredBatch d transactions receipt rows)
    (htable : (rowsOf table receipt.settlement.batchSequence.toNat).Perm rows)
    (h : Served env.hashes table receipt.settlement.batchSequence offset slot
      (d.reached transactions).bridge.withdrawalDelaySlots claimAction path proof)
    (hslot : currentVirtualSlot (d.reached transactions).settlement timestamp = .ok slot) :
    proof.status = "claimable" ↔
      proof.recipientCursor.toNat ≤ proof.globalActionIndex.toNat ∧
        checkClaimable (d.reached transactions) timestamp
          ((d.reached transactions).settlement.innerActionBatch proof.claim.settlementSequence) =
            .ok () := by
  have hchain := hstored.onChain
  obtain ⟨-, hserved, -⟩ := hstored.loaded htable h.loaded
  have hsequence : proof.claim.settlementSequence = receipt.settlement.batchSequence :=
    h.sequence_eq
  have hsum := h.claimableSlot_eq
  have hcome : checkClaimable (d.reached transactions) timestamp
      ((d.reached transactions).settlement.innerActionBatch proof.claim.settlementSequence) =
        .ok () ↔ proof.claimableSlot.toNat ≤ slot.toNat := by
    rw [checkClaimable_eq_ok, hsequence, hchain.slot_eq, ← hserved.slot_eq]
    constructor
    · intro hle
      obtain ⟨found, hfound, hle⟩ := hle
      have hsame : slot = found := Except.ok.inj (hslot.symm.trans hfound)
      rw [hsame]
      omega
    · intro hle
      exact ⟨slot, hslot, by omega⟩
  have hprogress := congrArg Prod.fst h.progress_eq
  dsimp only at hprogress
  rw [hprogress, hcome]
  exact withdrawalProgress_claimable

/-- The cursor behind an index that is not the last one. -/
theorem nextIndex_toNat {index : BitVec 32} (h : index.toNat + 1 < 2 ^ 32) :
    (BitVec.ofNat 32 (index.toNat + 1)).toNat = index.toNat + 1 := by
  rw [BitVec.toNat_ofNat, Nat.mod_eq_of_lt h]

/-- What the payment of a served native withdrawal depends on besides its status. -/
structure NativePayable (env : Environment) (c : Chain W) (proof : NativeWithdrawalProof)
    (accepts : Bool) : Prop where
  /-- The bridge is not paused. -/
  unpaused : c.bridge.paused = false
  /-- The recipient is no zero address. -/
  recipient_ne : proof.recipient ≠ 0
  /-- Something is paid. -/
  amount_ne : proof.amount ≠ 0
  /-- The cursor behind the index can be stored. -/
  index_lt : proof.globalActionIndex.toNat + 1 < 2 ^ 32
  /-- The escrow owes the amount. -/
  liability_le : proof.amount.toNat * gwei ≤ c.bridge.nativeEscrowLiability.toNat
  /-- The bridge holds it. -/
  ether_le : proof.amount.toNat * gwei ≤ c.etherBalance
  /-- The recipient is not the bridge. -/
  receiver_ne : proof.recipient ≠ env.bridgeAddress
  /-- The recipient takes the ether. -/
  accepts_eq : accepts = true

/-- The leaf of a served native withdrawal is the one that the contract computes. -/
theorem NativeServed.leaf_eq {client : EthereumClient} {proof : NativeWithdrawalProof}
    (hstored : StoredBatch d transactions receipt rows)
    (htable : (rowsOf table receipt.settlement.batchSequence.toNat).Perm rows)
    (h : NativeServed env.hashes client table receipt.settlement.batchSequence offset slot delay
      path proof) :
    path.target.leaf = computeNativeWithdrawalLeaf env proof.globalActionIndex proof.recipient
      proof.amount proof.actionFieldsHash := by
  obtain ⟨-, -, hleaf⟩ := hstored.loaded htable h.loaded
  rw [h.index_eq, h.fieldsHash_eq]
  exact hleaf.native proof.recipient proof.amount h.native h.recipient_eq h.amount_eq

/-- A native withdrawal that is served as claimable is paid, and no other. -/
theorem NativeServed.accepted_iff {proof : NativeWithdrawalProof}
    (hstored : StoredBatch d transactions receipt rows)
    (htable : (rowsOf table receipt.settlement.batchSequence.toNat).Perm rows)
    (h : NativeServed env.hashes (answers (d.reached transactions) timestamp) table
      receipt.settlement.batchSequence offset slot
      (d.reached transactions).bridge.withdrawalDelaySlots path proof)
    (hslot : currentVirtualSlot (d.reached transactions).settlement timestamp = .ok slot)
    {ctx : CallContext} (hctx : ctx.timestamp = timestamp) (accepts : Bool) :
    (∃ next, claimNativeWithdrawal env (d.reached transactions) ctx proof.claim accepts =
      .ok next) ↔
      proof.status = "claimable" ∧ NativePayable env (d.reached transactions) proof accepts := by
  have hverified := h.verified hstored htable
  rw [h.leaf_eq hstored htable] at hverified
  have hstatus := h.claimable_iff hstored htable hslot
  have hcursor : (d.reached transactions).bridge.nextWithdrawalIndex proof.claim.recipient =
      proof.recipientCursor := Except.ok.inj h.cursor_eq
  have htotal := (EscrowAccounting.reached_accounted d transactions 0).total
  rw [EscrowAccounting.liabilityOf_zero] at htotal
  rw [hstatus, ← hcursor, ← hctx]
  constructor
  · intro hok
    obtain ⟨next, hok⟩ := hok
    obtain ⟨index, nextIndex, liability, total, hclaimed, -⟩ :=
      (claimNativeWithdrawal_eq_ok env).mp hok
    have hindex : index.toNat = proof.globalActionIndex.toNat := by
      rw [hclaimed.verified.index_eq, hverified.index_eq]
    have hle := hclaimed.cursor_le
    have hnext := hclaimed.nextIndex_eq
    have hbound := nextIndex.isLt
    have hliability : proof.amount.toNat * gwei ≤
        (d.reached transactions).bridge.nativeEscrowLiability.toNat := by
      rw [← hclaimed.liability_eq]
      exact Nat.le_add_left _ _
    exact ⟨⟨by omega, hclaimed.claimable⟩, hclaimed.unpaused, hclaimed.recipient_ne,
      hclaimed.amount_ne, by omega, hliability, hclaimed.ether_le, hclaimed.receiver_ne,
      hclaimed.accepts_eq⟩
  · intro hpayable
    obtain ⟨⟨hle, hcome⟩, hpayable⟩ := hpayable
    obtain ⟨rest, hrest⟩ := ThirdPartyClaims.exists_rest hpayable.liability_le
    have hnext := nextIndex_toNat hpayable.index_lt
    have hpaid : rest.toNat + proof.claim.amount.toNat * gwei =
        ((d.reached transactions).bridge.totalDepositedByToken 0).toNat := by
      rw [htotal]
      exact hrest
    exact ⟨_, (claimNativeWithdrawal_eq_ok env).mpr ⟨proof.globalActionIndex, _, rest, rest,
      ⟨hverified, hpayable.unpaused, hpayable.recipient_ne, hpayable.amount_ne, hle, hcome, hnext,
        hrest, hpaid, hpayable.ether_le, hpayable.receiver_ne, hpayable.accepts_eq⟩, rfl⟩⟩

/-- A stored row has a recipient exactly when it has an amount. -/
theorem amount_of_recipient {action : InnerActionWitnessV2} {columns : WithdrawalColumns}
    {recipient : Address} (h : witnessColumns action = .ok columns)
    (hrecipient : columns.recipient = some recipient) :
    ∃ amount, columns.zekoAmount = some amount := by
  unfold witnessColumns at h
  cases hnative : action.withdrawal with
  | some withdrawal =>
    cases htoken : action.tokenWithdrawal with
    | some token => simp only [hnative, htoken, throw_eq_ok] at h
    | none =>
      simp only [hnative, htoken, pure_eq_ok] at h
      rw [← h]
      exact ⟨_, rfl⟩
  | none =>
    cases htoken : action.tokenWithdrawal with
    | some withdrawal =>
      simp only [hnative, htoken, bind_eq_ok, pure_eq_ok] at h
      obtain ⟨version, -, hcolumns⟩ := h
      rw [← hcolumns]
      exact ⟨_, rfl⟩
    | none =>
      simp only [hnative, htoken, pure_eq_ok] at h
      rw [← h] at hrecipient
      cases hrecipient

/-- What the gateway reads before it serves a native withdrawal. -/
theorem loadNativeWithdrawalProof_iff {c : Chain W} {sequence : BitVec 64}
    {proof : NativeWithdrawalProof} :
    loadNativeWithdrawalProof env.hashes (answers c timestamp) table sequence offset =
        .ok proof ↔
      ∃ slot, currentVirtualSlot c.settlement timestamp = .ok slot ∧
        loadNativeWithdrawalProofAt env.hashes (answers c timestamp) table sequence offset slot
          c.bridge.withdrawalDelaySlots = .ok proof := by
  simp only [loadNativeWithdrawalProof, bind_eq_ok, answers_slot]
  constructor
  · intro h
    obtain ⟨slot, hslot, delay, hdelay, hproof⟩ := h
    cases hdelay
    exact ⟨slot, hslot, hproof⟩
  · intro h
    obtain ⟨slot, hslot, hproof⟩ := h
    exact ⟨slot, hslot, _, rfl, hproof⟩

/-- In every state that a deployment reaches, for the rows stored for a receipt that was
settled before: a proof is served for exactly the native withdrawals among the rows, while
the slot can be read; and the contract accepts the claim with the served arguments, in a
block of that time, exactly when the served status is that it is claimable and the escrow,
the pause flag and the recipient allow the payment. -/
theorem native_status_agrees (d : Deployment env W) (transactions : List Transaction)
    (hstored : StoredBatch d transactions receipt rows)
    (htable : (rowsOf table receipt.settlement.batchSequence.toNat).Perm rows)
    (timestamp : BitVec 256) (offset : BitVec 32) :
    ((∃ proof, loadNativeWithdrawalProof env.hashes (answers (d.reached transactions) timestamp)
        table receipt.settlement.batchSequence offset = .ok proof) ↔
      (∃ slot, currentVirtualSlot (d.reached transactions).settlement timestamp = .ok slot) ∧
        ∃ row recipient, rows[offset.toNat]? = some row ∧ row.token = none ∧
          row.recipient = some recipient) ∧
    ∀ proof, loadNativeWithdrawalProof env.hashes (answers (d.reached transactions) timestamp)
        table receipt.settlement.batchSequence offset = .ok proof →
      ∀ ctx : CallContext, ctx.timestamp = timestamp → ∀ accepts,
        ((∃ next, claimNativeWithdrawal env (d.reached transactions) ctx proof.claim accepts =
            .ok next) ↔
          proof.status = "claimable" ∧
            NativePayable env (d.reached transactions) proof accepts) := by
  refine ⟨⟨?_, ?_⟩, ?_⟩
  · intro h
    obtain ⟨proof, hproof⟩ := h
    obtain ⟨slot, hslot, hat⟩ := loadNativeWithdrawalProof_iff.mp hproof
    obtain ⟨path, hserved⟩ := loadNativeWithdrawalProofAt_eq_ok hat
    obtain ⟨-, hpath, -⟩ := hstored.loaded htable hserved.loaded
    exact ⟨⟨slot, hslot⟩, path.target, proof.recipient, hpath.target_eq, hserved.native,
      hserved.recipient_eq⟩
  · intro h
    obtain ⟨⟨slot, hslot⟩, row, recipient, hrow, hnative, hrecipient⟩ := h
    obtain ⟨path, hpath, htarget⟩ := hstored.loads htable hrow
    obtain ⟨action, hof⟩ := hstored.storedRow hrow
    obtain ⟨amount, hamount⟩ := amount_of_recipient hof.columns_eq hrecipient
    rw [← htarget] at hnative hrecipient hamount
    have hserved : ∃ proof, loadNativeWithdrawalProofAt env.hashes
        (answers (d.reached transactions) timestamp) table receipt.settlement.batchSequence offset
        slot (d.reached transactions).bridge.withdrawalDelaySlots = .ok proof := by
      simp only [loadNativeWithdrawalProofAt, ensureNativeWithdrawalKind, bind_eq_ok,
        require_eq_ok, exists_const, pure_eq_ok, context_eq_ok]
      exact ⟨_, path, hpath, hnative, recipient, hrecipient, amount, hamount, _, rfl, rfl⟩
    obtain ⟨proof, hproof⟩ := hserved
    exact ⟨proof, loadNativeWithdrawalProof_iff.mpr ⟨slot, hslot, hproof⟩⟩
  · intro proof hproof ctx hctx accepts
    obtain ⟨slot, hslot, hat⟩ := loadNativeWithdrawalProof_iff.mp hproof
    obtain ⟨path, hserved⟩ := loadNativeWithdrawalProofAt_eq_ok hat
    exact hserved.accepted_iff hstored htable hslot hctx accepts

/-- The bridge knows the token under the identity that the proof names. -/
structure TokenNamed (c : Chain W) (proof : TokenWithdrawalProof) : Prop where
  /-- The registry index is the stored one. -/
  registryIndex_eq : proof.actionIdentity.registryIndex =
    some (c.bridge.registryIndexByToken proof.token)
  /-- The record commitment is the stored one. -/
  commitment_eq : proof.actionIdentity.recordCommitment =
    some (c.bridge.recordCommitmentByToken proof.token)
  /-- The asset is the stored one. -/
  assetId_eq : proof.assetId = c.bridge.assetIdByToken proof.token

/-- What the payment of a served token withdrawal depends on besides its status. -/
structure TokenPayable (env : Environment) (c : Chain W) (proof : TokenWithdrawalProof) :
    Prop where
  /-- The bridge is not paused. -/
  unpaused : c.bridge.paused = false
  /-- The token is registered. -/
  registered : c.bridge.canonicalTokenRegistered proof.token = true
  /-- The recipient is no zero address. -/
  recipient_ne : proof.recipient ≠ 0
  /-- Something is paid. -/
  amount_ne : proof.amount ≠ 0
  /-- The cursor behind the index can be stored. -/
  index_lt : proof.globalActionIndex.toNat + 1 < 2 ^ 32
  /-- The escrow owes the amount. -/
  liability_le : proof.amount.toNat ≤ (c.bridge.escrowLiabilityByToken proof.token).toNat
  /-- The token moves it. -/
  paid : ∃ tokens, TokenPaid env c.tokens proof.token proof.recipient (toWord proof.amount) tokens

/-- The leaf of a served token withdrawal is the one that the contract computes, if the
bridge knows the token under the same identity. -/
theorem TokenServed.leaf_eq {client : EthereumClient} {c : Chain W} {proof : TokenWithdrawalProof}
    (hstored : StoredBatch d transactions receipt rows)
    (htable : (rowsOf table receipt.settlement.batchSequence.toNat).Perm rows)
    (h : TokenServed env.hashes client table receipt.settlement.batchSequence offset slot delay
      path proof)
    (hnamed : TokenNamed c proof) :
    path.target.leaf = computeERC20WithdrawalLeaf env proof.globalActionIndex proof.token
      (c.bridge.registryIndexByToken proof.token) (c.bridge.recordCommitmentByToken proof.token)
      (c.bridge.assetIdByToken proof.token) proof.recipient proof.amount proof.actionFieldsHash ∧
      c.bridge.recordCommitmentByToken proof.token ≠ 0 := by
  obtain ⟨-, -, hleaf⟩ := hstored.loaded htable h.loaded
  obtain ⟨index, commitment, assetId, recipient, amount, hindex, hcommitment, hassetId,
    hrecipient, hamount, hcomputed⟩ := hleaf.token proof.token h.token_eq
  obtain ⟨registryIndex, recordCommitment, hidentity, hsameIndex, hsameCommitment, hne⟩ :=
    h.identity_eq
  have hregistryEq := hnamed.registryIndex_eq
  have hcommitmentEq := hnamed.commitment_eq
  rw [hidentity] at hregistryEq hcommitmentEq
  have hindexNat : (registryIndex.toNat : ℤ) = index.toNat :=
    Option.some.inj (hsameIndex.symm.trans hindex)
  have hindexEq : registryIndex = index := BitVec.eq_of_toNat_eq (by omega)
  have hcommitmentSame : recordCommitment = commitment :=
    Option.some.inj (hsameCommitment.symm.trans hcommitment)
  have hassetSame : proof.assetId = assetId :=
    Option.some.inj (h.assetId_eq.symm.trans hassetId)
  have hrecipientSame : proof.recipient = recipient :=
    Option.some.inj (h.recipient_eq.symm.trans hrecipient)
  have hamountSame : proof.amount = amount := Option.some.inj (h.amount_eq.symm.trans hamount)
  rw [← Option.some.inj hregistryEq, ← Option.some.inj hcommitmentEq, ← hnamed.assetId_eq,
    hindexEq, hcommitmentSame, hassetSame, hrecipientSame, hamountSame, h.index_eq,
    h.fieldsHash_eq]
  rw [hcommitmentSame] at hne
  exact ⟨hcomputed, hne⟩

/-- A token withdrawal is accepted only if it is served as claimable; if the bridge knows
the token under the served identity, exactly then, as far as the escrow and the token
allow. -/
theorem TokenServed.accepted_iff {proof : TokenWithdrawalProof}
    (hstored : StoredBatch d transactions receipt rows)
    (htable : (rowsOf table receipt.settlement.batchSequence.toNat).Perm rows)
    (h : TokenServed env.hashes (answers (d.reached transactions) timestamp) table
      receipt.settlement.batchSequence offset slot
      (d.reached transactions).bridge.withdrawalDelaySlots path proof)
    (hslot : currentVirtualSlot (d.reached transactions).settlement timestamp = .ok slot)
    {ctx : CallContext} (hctx : ctx.timestamp = timestamp) :
    (∀ next, claimERC20Withdrawal env (d.reached transactions) ctx proof.token proof.claim =
      .ok next → proof.status = "claimable" ∧ TokenPayable env (d.reached transactions) proof) ∧
    (TokenNamed (d.reached transactions) proof → proof.status = "claimable" →
      TokenPayable env (d.reached transactions) proof →
      ∃ next, claimERC20Withdrawal env (d.reached transactions) ctx proof.token proof.claim =
        .ok next) := by
  have hverified := h.verified hstored htable
  have hstatus := h.claimable_iff hstored htable hslot
  have hcursor : (d.reached transactions).bridge.nextTokenWithdrawalIndex proof.token
      proof.claim.recipient = proof.recipientCursor := Except.ok.inj h.cursor_eq
  rw [hstatus, ← hcursor, ← hctx]
  constructor
  · intro next hok
    obtain ⟨index, nextIndex, liability, total, tokens, hclaimed, -⟩ :=
      (claimERC20Withdrawal_eq_ok env).mp hok
    have hindex : index.toNat = proof.globalActionIndex.toNat := by
      rw [hclaimed.verified.index_eq, hverified.index_eq]
    have hle := hclaimed.cursor_le
    have hnext := hclaimed.nextIndex_eq
    have hbound := nextIndex.isLt
    have hliability : proof.amount.toNat ≤
        ((d.reached transactions).bridge.escrowLiabilityByToken proof.token).toNat := by
      rw [← hclaimed.liability_eq]
      exact Nat.le_add_left _ _
    exact ⟨⟨by omega, hclaimed.claimable⟩, hclaimed.unpaused, hclaimed.registered,
      hclaimed.recipient_ne, hclaimed.amount_ne, by omega, hliability, tokens, hclaimed.paid⟩
  · intro hnamed hready hpayable
    obtain ⟨hleaf, hcommitment⟩ := h.leaf_eq hstored htable hnamed
    rw [hleaf] at hverified
    obtain ⟨hle, hcome⟩ := hready
    obtain ⟨rest, hrest⟩ := ThirdPartyClaims.exists_rest hpayable.liability_le
    obtain ⟨tokens, hpaid⟩ := hpayable.paid
    have hnext := nextIndex_toNat hpayable.index_lt
    have hregistry := RunInvariants.reached_registrySound d transactions
    have hne : proof.token ≠ 0 := by
      intro hzero
      have hregistered := hpayable.registered
      rw [hzero, hregistry.zero] at hregistered
      cases hregistered
    have htotal := (EscrowAccounting.reached_accounted d transactions proof.token).total
    rw [EscrowAccounting.liabilityOf_token _ hne] at htotal
    have hpaidTotal : rest.toNat + proof.claim.amount.toNat =
        ((d.reached transactions).bridge.totalDepositedByToken proof.token).toNat := by
      rw [htotal]
      exact hrest
    exact ⟨_, (claimERC20Withdrawal_eq_ok env).mpr ⟨proof.globalActionIndex, _, rest, rest, tokens,
      ⟨hverified, hpayable.unpaused, hpayable.registered, hcommitment, hpayable.recipient_ne,
        hpayable.amount_ne, hle, hcome, hnext, hrest, hpaidTotal, hpaid⟩, rfl⟩⟩

/-- The columns of a stored token withdrawal of the supported encoding. -/
theorem tokenColumns {action : InnerActionWitnessV2} {columns : WithdrawalColumns}
    {found : Address} (h : witnessColumns action = .ok columns)
    (hsupported : ∀ withdrawal, action.tokenWithdrawal = some withdrawal →
      withdrawal.encodingVersion = 2)
    (hfound : columns.token = some found) :
    ∃ (registryIndex : BitVec 32) (recordCommitment assetId : Bytes32) (recipient : Address)
      (amount : BitVec 64), columns = {
        token := some found, assetId := some assetId, actionEncodingVersion := some 2,
        registryIndex := some (registryIndex.toNat : ℤ),
        recordCommitment := some recordCommitment, recipient := some recipient,
        zekoAmount := some amount } := by
  unfold witnessColumns at h
  cases hnative : action.withdrawal with
  | some withdrawal =>
    cases htoken : action.tokenWithdrawal with
    | some token => simp only [hnative, htoken, throw_eq_ok] at h
    | none =>
      simp only [hnative, htoken, pure_eq_ok] at h
      rw [← h] at hfound
      cases hfound
  | none =>
    cases htoken : action.tokenWithdrawal with
    | some withdrawal =>
      have hversion := hsupported withdrawal htoken
      simp only [hnative, htoken, toI32, bind_eq_ok, require_eq_ok, exists_const, pure_eq_ok,
        hversion, if_true] at h
      obtain ⟨version, ⟨-, hencoded⟩, hcolumns⟩ := h
      have htwo : version = 2 := hencoded.symm
      rw [← hcolumns] at hfound
      rw [← hcolumns, ← Option.some.inj hfound, htwo]
      exact ⟨_, _, _, _, _, rfl⟩
    | none =>
      simp only [hnative, htoken, pure_eq_ok] at h
      rw [← h] at hfound
      cases hfound

/-- What the gateway reads before it serves a token withdrawal. -/
theorem loadTokenWithdrawalProof_iff {c : Chain W} {sequence : BitVec 64}
    {proof : TokenWithdrawalProof} :
    loadTokenWithdrawalProof env.hashes (answers c timestamp) table sequence offset =
        .ok proof ↔
      ∃ slot, currentVirtualSlot c.settlement timestamp = .ok slot ∧
        loadTokenWithdrawalProofAt env.hashes (answers c timestamp) table sequence offset slot
          c.bridge.withdrawalDelaySlots = .ok proof := by
  simp only [loadTokenWithdrawalProof, bind_eq_ok, answers_slot]
  constructor
  · intro h
    obtain ⟨slot, hslot, delay, hdelay, hproof⟩ := h
    cases hdelay
    exact ⟨slot, hslot, hproof⟩
  · intro h
    obtain ⟨slot, hslot, hproof⟩ := h
    exact ⟨slot, hslot, _, rfl, hproof⟩

/-- In every state that a deployment reaches, for the rows stored for a receipt that was
settled before: a proof is served for exactly the token withdrawals among the rows whose
record commitment is not zero, while the slot can be read. The contract accepts the claim
with the served arguments, in a block of that time, only if the served status is that it
is claimable and the payment is allowed; and if the bridge knows the token under the served
identity, it accepts it then. -/
theorem token_status_agrees (d : Deployment env W) (transactions : List Transaction)
    (hstored : StoredBatch d transactions receipt rows)
    (htable : (rowsOf table receipt.settlement.batchSequence.toNat).Perm rows)
    (timestamp : BitVec 256) (offset : BitVec 32) :
    ((∃ proof, loadTokenWithdrawalProof env.hashes (answers (d.reached transactions) timestamp)
        table receipt.settlement.batchSequence offset = .ok proof) ↔
      (∃ slot, currentVirtualSlot (d.reached transactions).settlement timestamp = .ok slot) ∧
        ∃ row found, rows[offset.toNat]? = some row ∧ row.token = some found ∧
          row.recordCommitment ≠ some 0) ∧
    ∀ proof, loadTokenWithdrawalProof env.hashes (answers (d.reached transactions) timestamp)
        table receipt.settlement.batchSequence offset = .ok proof →
      ∀ ctx : CallContext, ctx.timestamp = timestamp →
        (∀ next, claimERC20Withdrawal env (d.reached transactions) ctx proof.token proof.claim =
          .ok next →
          proof.status = "claimable" ∧ TokenPayable env (d.reached transactions) proof) ∧
        (TokenNamed (d.reached transactions) proof → proof.status = "claimable" →
          TokenPayable env (d.reached transactions) proof →
          ∃ next, claimERC20Withdrawal env (d.reached transactions) ctx proof.token proof.claim =
            .ok next) := by
  refine ⟨⟨?_, ?_⟩, ?_⟩
  · intro h
    obtain ⟨proof, hproof⟩ := h
    obtain ⟨slot, hslot, hat⟩ := loadTokenWithdrawalProof_iff.mp hproof
    obtain ⟨path, hserved⟩ := loadTokenWithdrawalProofAt_eq_ok hat
    obtain ⟨-, hpath, -⟩ := hstored.loaded htable hserved.loaded
    obtain ⟨_, commitment, -, -, hcommitment, hne⟩ := hserved.identity_eq
    refine ⟨⟨slot, hslot⟩, path.target, proof.token, hpath.target_eq, hserved.token_eq, ?_⟩
    rw [hcommitment]
    intro hzero
    exact hne (Option.some.inj hzero)
  · intro h
    obtain ⟨⟨slot, hslot⟩, row, found, hrow, hfound, hcommitment⟩ := h
    obtain ⟨path, hpath, htarget⟩ := hstored.loads htable hrow
    obtain ⟨action, hof⟩ := hstored.storedRow hrow
    obtain ⟨index, commitment, assetId, recipient, amount, hcolumns⟩ :=
      tokenColumns hof.columns_eq hof.supported hfound
    rw [← htarget] at hcolumns hcommitment
    have hne : commitment ≠ 0 := by
      intro hzero
      rw [hcolumns, hzero] at hcommitment
      exact hcommitment rfl
    have hidentity : decodeActionIdentity 2 (some (index.toNat : ℤ)) (some commitment) =
        .ok ⟨erc20ActionEncodingV2, some index, some commitment⟩ :=
      (decodeActionIdentity_eq_ok rfl).mpr ⟨rfl, index, commitment, rfl, rfl, rfl, hne⟩
    have hserved : ∃ proof, loadTokenWithdrawalProofAt env.hashes
        (answers (d.reached transactions) timestamp) table receipt.settlement.batchSequence offset
        slot (d.reached transactions).bridge.withdrawalDelaySlots = .ok proof := by
      simp only [loadTokenWithdrawalProofAt, ensureRegistryErc20ActionEncoding, bind_eq_ok,
        require_eq_ok, exists_const, pure_eq_ok, context_eq_ok]
      refine ⟨_, path, hpath, found, ?_, assetId, ?_, 2, ?_,
        ⟨erc20ActionEncodingV2, some index, some commitment⟩, ?_, rfl, recipient, ?_, amount, ?_, _,
        rfl, rfl⟩
      all_goals rw [hcolumns]
      exact hidentity
    obtain ⟨proof, hproof⟩ := hserved
    exact ⟨proof, loadTokenWithdrawalProof_iff.mpr ⟨slot, hslot, hproof⟩⟩
  · intro proof hproof ctx hctx
    obtain ⟨slot, hslot, hat⟩ := loadTokenWithdrawalProof_iff.mp hproof
    obtain ⟨path, hserved⟩ := loadTokenWithdrawalProofAt_eq_ok hat
    exact hserved.accepted_iff hstored htable hslot hctx

end Agreement

/-- The receipt with the batch of the setup. -/
def setupReceipt : SettlementPublicValuesV2 where
  settlement := {
    daMode := .multisig
    chainId := 1
    settlementContract := settlementAddress
    batchSequence := 1
    vkHash := vkHash
    appStatement := 0x3963ab208cdda3f3d2c215f8bcaf9c0591a6cfcba655cb09129580629edf539d
    minaTransactionHash := 0
    stateBefore := ⟨fun _ => 0⟩
    stateAfter := ⟨fun index => [0, 0, 0, innerActionState, 3, 0, 0, 0].getD index 0⟩
    outerActionStateBefore := 1
    outerActionStateAfter := settledActionState
    outerActionStateLengthBefore := 0
    outerActionStateLengthAfter := 1
    synchronizedOuterActionState := 1
    synchronizedOuterActionStateLength := 0
    slotLower := 0
    slotUpper := 0 }
  bridgeAddress := bridgeAddress
  innerActionRoot := claimRoot
  innerActionStartIndex := 0
  innerActionCount := 3

/-- The rows that the gateway stores for it. -/
def setupRows : List InnerActionLeafRow :=
  (storeInnerActionLeaves referenceHashes ⟨bridgeAddress, innerActions⟩ setupReceipt 100 1
    2).toOption.getD []

/-- A list that is there is the one that was returned. -/
theorem eq_ok_getD {ε α : Type} {result : Except ε (List α)}
    (h : result.toOption.isSome = true) : result = .ok (result.toOption.getD []) := by
  cases result with
  | ok value => rfl
  | error e => cases h

/-- A result that is there was returned. -/
theorem eq_ok_of_toOption {ε α : Type} {result : Except ε α} {value : α}
    (h : result.toOption = some value) : result = .ok value := by
  cases result with
  | ok found => rw [Option.some.inj h]
  | error e => cases h

/-- What is served for a native withdrawal of the setup, and whether the contract pays it. -/
def servedNative (offset : BitVec 32) : Option (String × Bool) :=
  (loadNativeWithdrawalProof referenceHashes (answers (deployment.reached setup) 1020) setupRows 1
    offset).toOption.map fun proof => (proof.status,
      (claimNativeWithdrawal environment (deployment.reached setup) claimant proof.claim
        true).toOption.isSome)

/-- What is served for a token withdrawal of the setup, and whether the contract pays it. -/
def servedToken (offset : BitVec 32) : Option (String × Bool) :=
  (loadTokenWithdrawalProof referenceHashes (answers (deployment.reached setup) 1020) setupRows 1
    offset).toOption.map fun proof => (proof.status,
      (claimERC20Withdrawal environment (deployment.reached setup) claimant proof.token
        proof.claim).toOption.isSome)

/-- The rows of the setup are stored, and both kinds of withdrawals are served as claimable and
paid. -/
theorem setup_served :
    (storeInnerActionLeaves referenceHashes ⟨bridgeAddress, innerActions⟩ setupReceipt 100 1
      2).toOption.isSome = true ∧
    settlementReceipt ∈ settledReceipts (deployment.history setup) ∧
    servedNative 0 = some ("claimable", true) ∧ servedToken 2 = some ("claimable", true) := by
  decide +kernel

/-- The rows are those of the receipt that the setup settles. -/
theorem setupRows_stored : StoredBatch deployment setup setupReceipt setupRows := by
  obtain ⟨hrows, hsettled, -⟩ := setup_served
  have hdecode : decodePublicValues settlementReceipt =
      .ok (SettlementPublicValues.decoded (.v3 ⟨setupReceipt, registryRoot, 1, 1,
        checkpoint.recordHash, recordCommitment⟩)) := decodePublicValues_encode _
  exact ⟨⟨settlementReceipt, hsettled, _, hdecode, rfl⟩, rfl, ⟨bridgeAddress, innerActions⟩, 100,
    1, 2, eq_ok_getD hrows⟩

/-- The rows of one batch alone are a table of it. -/
theorem StoredBatch.alone {d : Deployment env W} {transactions : List Transaction}
    {receipt : SettlementPublicValuesV2} {rows : List InnerActionLeafRow}
    (h : StoredBatch d transactions receipt rows) :
    rowsOf rows receipt.settlement.batchSequence.toNat = rows := by
  rw [rowsOf, List.filter_eq_self]
  intro row hrow
  rw [decide_eq_true_eq]
  exact (h.sequence_eq hrow).1

/-- The first native withdrawal of the setup is served as claimable, and the contract pays it. -/
theorem native_status_agrees_setup : ∃ proof,
    loadNativeWithdrawalProof referenceHashes (answers (deployment.reached setup) 1020) setupRows 1
      0 = .ok proof ∧ proof.status = "claimable" ∧
    NativePayable environment (deployment.reached setup) proof true ∧
    ∃ next, claimNativeWithdrawal environment (deployment.reached setup) claimant proof.claim true =
      .ok next := by
  obtain ⟨-, -, hserved, -⟩ := setup_served
  obtain ⟨proof, hproof, hpaid⟩ := Option.map_eq_some_iff.mp hserved
  have hserved := eq_ok_of_toOption hproof
  obtain ⟨next, hnext⟩ := Option.isSome_iff_exists.mp (Prod.mk.inj hpaid).2
  have hpaid := eq_ok_of_toOption hnext
  have htable : (rowsOf setupRows 1).Perm setupRows := by
    rw [show rowsOf setupRows 1 = setupRows from setupRows_stored.alone]
  obtain ⟨hready, hpayable⟩ := ((native_status_agrees deployment setup setupRows_stored htable 1020
    0).2 proof hserved claimant rfl true).mp ⟨next, hpaid⟩
  exact ⟨proof, hserved, hready, hpayable, next, hpaid⟩

/-- The token withdrawal of the setup is served as claimable, and the contract pays it. -/
theorem token_status_agrees_setup : ∃ proof,
    loadTokenWithdrawalProof referenceHashes (answers (deployment.reached setup) 1020) setupRows 1
      2 = .ok proof ∧ proof.status = "claimable" ∧
    TokenPayable environment (deployment.reached setup) proof ∧
    ∃ next, claimERC20Withdrawal environment (deployment.reached setup) claimant proof.token
      proof.claim = .ok next := by
  obtain ⟨-, -, -, hserved⟩ := setup_served
  obtain ⟨proof, hproof, hpaid⟩ := Option.map_eq_some_iff.mp hserved
  have hserved := eq_ok_of_toOption hproof
  obtain ⟨next, hnext⟩ := Option.isSome_iff_exists.mp (Prod.mk.inj hpaid).2
  have hpaid := eq_ok_of_toOption hnext
  have htable : (rowsOf setupRows 1).Perm setupRows := by
    rw [show rowsOf setupRows 1 = setupRows from setupRows_stored.alone]
  obtain ⟨hready, hpayable⟩ := ((token_status_agrees deployment setup setupRows_stored htable 1020
    2).2 proof hserved claimant rfl).1 next hpaid
  exact ⟨proof, hserved, hready, hpayable, next, hpaid⟩

end EthereumSettlement.ServedClaims
