import EthereumSettlement.ClaimSoundness
import EthereumSettlement.InnerActionProofs

/-!
# Stored inner actions and the proofs served from them

The gateway stores the leaves of a settled batch twice over: the indexer derives
them from the witness of the settlement job, and the archive recovery from the
actions of the virtual ledger. Both must reproduce the settled root, and the API
serves authentication paths from the stored rows. Hexadecimal columns are the
values that they spell. The block columns of a row are carried along, and its
removal mark and the ledger columns of an archived action are left out.
-/

namespace EthereumSettlement.InnerActionRows

open ByteWords CheckedCalls HashCommitments PastaPoseidon InnerActionCommitment InnerActionProofs
open RegistryCheckpoint SettlementCodec SettlementReceipt EthereumZekoBridge
open ReferenceHashes ReferenceDeployment
open ZekoSettlement (Environment)

/-- `ArchiveNativeWithdrawal`. -/
structure ArchiveNativeWithdrawal where
  /-- Who is paid. -/
  recipient : Address
  /-- Amount in the units of the asset on Zeko. -/
  amount : BitVec 64
  deriving DecidableEq

/-- `ArchiveTokenWithdrawal`. -/
structure ArchiveTokenWithdrawal where
  /-- Version of the encoding of token actions. -/
  encodingVersion : BitVec 32
  /-- Index of the asset's record in the registry. -/
  registryIndex : BitVec 32
  /-- Poseidon commitment of the asset's record. -/
  recordCommitment : Bytes32
  /-- Identifier of the asset. -/
  assetId : Bytes32
  /-- Who is paid. -/
  recipient : Address
  /-- Amount in the units of the asset on Zeko. -/
  amount : BitVec 64
  deriving DecidableEq

/-- `ArchiveWithdrawal`. -/
inductive ArchiveWithdrawal where
  | native (withdrawal : ArchiveNativeWithdrawal)
  | token (withdrawal : ArchiveTokenWithdrawal)
  deriving DecidableEq

/-- `ArchiveInnerAction`, without its place in the virtual ledger. -/
structure ArchiveInnerAction where
  /-- Position among all inner actions. -/
  globalActionIndex : BitVec 32
  /-- Fields of the action. -/
  fields : List Bytes32
  /-- The withdrawal it asks for, if it is one. -/
  withdrawal : Option ArchiveWithdrawal
  deriving DecidableEq

/-- `TokenWithdrawalIdentity`. -/
structure TokenWithdrawalIdentity where
  /-- Version of the encoding of token actions. -/
  encodingVersion : BitVec 32
  /-- Index of the asset's record in the registry. -/
  registryIndex : BitVec 32
  /-- Poseidon commitment of the asset's record. -/
  recordCommitment : Bytes32
  /-- Identifier of the asset. -/
  assetId : Bytes32
  deriving DecidableEq

/-- The columns of a row that depend on the kind of the action. -/
structure WithdrawalColumns where
  /-- The token, for a token withdrawal. -/
  token : Option Address := none
  /-- The asset, for a token withdrawal. -/
  assetId : Option Bytes32 := none
  /-- Version of the encoding, for a token withdrawal. -/
  actionEncodingVersion : Option ℤ := none
  /-- Registry index, for a token withdrawal. -/
  registryIndex : Option ℤ := none
  /-- Record commitment, for a token withdrawal. -/
  recordCommitment : Option Bytes32 := none
  /-- Who is paid, for a withdrawal. -/
  recipient : Option Address := none
  /-- Amount on Zeko, for a withdrawal. -/
  zekoAmount : Option (BitVec 64) := none
  deriving DecidableEq

/-- A row of `gateway_inner_action_leaves`. -/
structure InnerActionLeafRow extends WithdrawalColumns where
  /-- Sequence number of the settlement. -/
  settlementSequence : ℤ
  /-- Position in the batch. -/
  actionOffset : ℤ
  /-- Position among all inner actions. -/
  globalActionIndex : ℤ
  /-- Fields of the action. -/
  actionFields : List Bytes32
  /-- Keccak hash of the fields of the action. -/
  actionFieldsHash : Bytes32
  /-- Leaf of the action in the tree of its batch. -/
  leaf : Bytes32
  /-- Root of the tree of its batch. -/
  innerActionRoot : Bytes32
  /-- Upper slot bound of the commit that settled the batch. -/
  commitSlotUpper : ℤ
  /-- Block in which Ethereum accepted the batch. -/
  ethereumBlockNumber : ℤ
  /-- Hash of that block. -/
  ethereumBlockHash : Bytes32
  /-- Transaction that settled the batch. -/
  ethereumTxHash : Bytes32
  deriving DecidableEq

/-- What both builders know of an action before they write its row. -/
structure LeafEntry (α : Type) where
  /-- Position in its batch. -/
  offset : ℕ
  /-- Position among all inner actions. -/
  globalIndex : BitVec 32
  /-- The action. -/
  action : α
  /-- Keccak hash of its fields. -/
  fieldsHash : Bytes32
  /-- Its leaf. -/
  leaf : Bytes32

/-- The error of a failed integer conversion. -/
def tryFromIntError : String := "out of range integral type conversion attempted"

/-- `u32::try_from` of a position. -/
def offsetToU32 (offset : ℕ) : Except String (BitVec 32) := do
  require (offset < 2 ^ 32) tryFromIntError
  pure (BitVec.ofNat 32 offset)

/-- `i32::try_from` of an unsigned number. -/
def toI32 (value : ℕ) : Except String ℤ := do
  require (value < 2 ^ 31) tryFromIntError
  pure value

/-- `i64::try_from` of an unsigned number. -/
def toI64 (value : ℕ) : Except String ℤ := do
  require (value < 2 ^ 63) tryFromIntError
  pure value

/-- `u32::try_from` of a signed number. -/
def toU32 (value : ℤ) : Except String (BitVec 32) := do
  require (0 ≤ value ∧ value < 2 ^ 32) tryFromIntError
  pure (BitVec.ofInt 32 value)

variable (H : Hashes)

/-- The leaf that the indexer computes for an action of the witness. -/
def witnessLeaf (chainId : BitVec 64) (bridgeAddress : Address) (globalIndex : BitVec 32)
    (action : InnerActionWitnessV2) (fieldsHash : Bytes32) : Except String Bytes32 :=
  match action.withdrawal, action.tokenWithdrawal with
  | some withdrawal, none =>
    pure (nativeWithdrawalLeaf H chainId bridgeAddress globalIndex withdrawal fieldsHash)
  | none, some withdrawal =>
    erc20WithdrawalLeaf H chainId bridgeAddress globalIndex withdrawal fieldsHash
  | none, none => pure (rawInnerActionLeaf H chainId bridgeAddress globalIndex fieldsHash)
  | some _, some _ => throw "inner action has multiple withdrawal preimages"

/-- One step of the first loop of `store_inner_action_leaves`. -/
def witnessEntry (chainId : BitVec 64) (bridgeAddress : Address) (startIndex : BitVec 32)
    (offset : ℕ) (action : InnerActionWitnessV2) :
    Except String (LeafEntry InnerActionWitnessV2) := do
  let fieldsHash ← actionFieldsHash H action.fields
  let position ← offsetToU32 offset
  let globalIndex ← checkedAddU32 "inner action index overflow" startIndex position
  let leaf ← witnessLeaf H chainId bridgeAddress globalIndex action fieldsHash
  pure ⟨offset, globalIndex, action, fieldsHash, leaf⟩

/-- The first loop of `store_inner_action_leaves`, from a given offset. -/
def witnessEntries (chainId : BitVec 64) (bridgeAddress : Address) (startIndex : BitVec 32) :
    ℕ → List InnerActionWitnessV2 → Except String (List (LeafEntry InnerActionWitnessV2))
  | _, [] => pure []
  | offset, action :: actions => do
    let entry ← witnessEntry H chainId bridgeAddress startIndex offset action
    let rest ← witnessEntries chainId bridgeAddress startIndex (offset + 1) actions
    pure (entry :: rest)

/-- The columns of an action of the witness. -/
def witnessColumns (action : InnerActionWitnessV2) : Except String WithdrawalColumns :=
  match action.withdrawal, action.tokenWithdrawal with
  | some withdrawal, none =>
    pure { recipient := some withdrawal.recipient, zekoAmount := some withdrawal.amount }
  | none, some withdrawal => do
    let version ← toI32 withdrawal.encodingVersion.toNat
    pure {
      token := some withdrawal.token
      assetId := some withdrawal.assetId
      actionEncodingVersion := some version
      registryIndex := if withdrawal.encodingVersion = 2 then some withdrawal.registryIndex.toNat
        else none
      recordCommitment := if withdrawal.encodingVersion = 2 then some withdrawal.recordCommitment
        else none
      recipient := some withdrawal.recipient
      zekoAmount := some withdrawal.amount }
  | none, none => pure {}
  | some _, some _ => throw "inner action has multiple withdrawal preimages"

/-- One step of the second loop of `store_inner_action_leaves`. -/
def witnessRow (receipt : SettlementPublicValuesV2) (blockNumber : BitVec 64)
    (blockHash transactionHash : Bytes32) (entry : LeafEntry InnerActionWitnessV2) :
    Except String InnerActionLeafRow := do
  let columns ← witnessColumns entry.action
  let sequence ← toI64 receipt.settlement.batchSequence.toNat
  let offset ← toI32 entry.offset
  let number ← toI64 blockNumber.toNat
  pure {
    toWithdrawalColumns := columns
    settlementSequence := sequence
    actionOffset := offset
    globalActionIndex := entry.globalIndex.toNat
    actionFields := entry.action.fields
    actionFieldsHash := entry.fieldsHash
    leaf := entry.leaf
    innerActionRoot := receipt.innerActionRoot
    commitSlotUpper := receipt.settlement.slotUpper.toNat
    ethereumBlockNumber := number
    ethereumBlockHash := blockHash
    ethereumTxHash := transactionHash }

/-- `store_inner_action_leaves`: the rows that it writes for the batch of the job. -/
def storeInnerActionLeaves (batch : InnerActionBatchWitnessV2) (receipt : SettlementPublicValuesV2)
    (blockNumber : BitVec 64) (blockHash transactionHash : Bytes32) :
    Except String (List InnerActionLeafRow) := do
  require (batch.bridgeAddress = receipt.bridgeAddress)
    "inner-action bridge address does not match receipt"
  require (batch.actions.length = receipt.innerActionCount.toNat)
    "inner-action count does not match receipt"
  let entries ← witnessEntries H receipt.settlement.chainId batch.bridgeAddress
    receipt.innerActionStartIndex 0 batch.actions
  let computed ← root H (entries.map LeafEntry.leaf)
  require (computed = receipt.innerActionRoot)
    "stored inner actions do not reproduce settlement root"
  entries.mapM (witnessRow receipt blockNumber blockHash transactionHash)

/-- `token_withdrawal_identity`. -/
def tokenWithdrawalIdentity (withdrawal : ArchiveTokenWithdrawal) : TokenWithdrawalIdentity :=
  ⟨withdrawal.encodingVersion, withdrawal.registryIndex, withdrawal.recordCommitment,
    withdrawal.assetId⟩

/-- `archive_action_leaf`. -/
def archiveActionLeaf (chainId : BitVec 64) (bridge : Address) (globalActionIndex : BitVec 32)
    (fieldsHash : Bytes32) (withdrawal : Option ArchiveWithdrawal) (token : Option Address) :
    Except String Bytes32 :=
  match withdrawal, token with
  | some (.native withdrawal), none =>
    pure (nativeWithdrawalLeaf H chainId bridge globalActionIndex
      ⟨withdrawal.recipient, withdrawal.amount⟩ fieldsHash)
  | some (.token withdrawal), some token =>
    erc20WithdrawalLeaf H chainId bridge globalActionIndex {
      encodingVersion := withdrawal.encodingVersion
      registryIndex := withdrawal.registryIndex
      recordCommitment := withdrawal.recordCommitment
      token := token
      assetId := withdrawal.assetId
      recipient := withdrawal.recipient
      amount := withdrawal.amount
      paramsFields := [] } fieldsHash
  | none, none => pure (rawInnerActionLeaf H chainId bridge globalActionIndex fieldsHash)
  | _, _ => throw "archive withdrawal token classification is inconsistent"

/-- The token of an archived action, looked up by its identity. -/
def resolvedToken (resolved : TokenWithdrawalIdentity → Option Address)
    (withdrawal : Option ArchiveWithdrawal) : Except String (Option Address) :=
  match withdrawal with
  | some (.token withdrawal) =>
    match resolved (tokenWithdrawalIdentity withdrawal) with
    | some token => pure (some token)
    | none => throw "archived ERC20 identity was not resolved"
  | _ => pure none

/-- An archived action with its resolved token. -/
structure ResolvedAction where
  /-- The action. -/
  action : ArchiveInnerAction
  /-- The token that the lookup finds for it. -/
  token : Option Address

/-- One step of the first loop of `recover_batch`. -/
def archiveEntry (chainId : BitVec 64) (bridge : Address) (start : BitVec 32)
    (resolved : TokenWithdrawalIdentity → Option Address) (offset : ℕ)
    (action : ArchiveInnerAction) : Except String (LeafEntry ResolvedAction) := do
  let position ← offsetToU32 offset
  let expected ← checkedAddU32 "inner action index overflow" start position
  require (action.globalActionIndex = expected) "archive inner actions are not contiguous"
  let fieldsHash ← actionFieldsHash H action.fields
  let token ← resolvedToken resolved action.withdrawal
  let leaf ← archiveActionLeaf H chainId bridge action.globalActionIndex fieldsHash
    action.withdrawal token
  pure ⟨offset, action.globalActionIndex, ⟨action, token⟩, fieldsHash, leaf⟩

/-- The first loop of `recover_batch`, from a given offset. -/
def archiveEntries (chainId : BitVec 64) (bridge : Address) (start : BitVec 32)
    (resolved : TokenWithdrawalIdentity → Option Address) :
    ℕ → List ArchiveInnerAction → Except String (List (LeafEntry ResolvedAction))
  | _, [] => pure []
  | offset, action :: actions => do
    let entry ← archiveEntry H chainId bridge start resolved offset action
    let rest ← archiveEntries chainId bridge start resolved (offset + 1) actions
    pure (entry :: rest)

/-- The columns of an archived action. -/
def archiveColumns (withdrawal : Option ArchiveWithdrawal) (token : Option Address) :
    Except String WithdrawalColumns :=
  match withdrawal, token with
  | some (.native withdrawal), none =>
    pure { recipient := some withdrawal.recipient, zekoAmount := some withdrawal.amount }
  | some (.token withdrawal), some token => do
    let version ← toI32 withdrawal.encodingVersion.toNat
    pure {
      token := some token
      assetId := some withdrawal.assetId
      actionEncodingVersion := some version
      registryIndex := some withdrawal.registryIndex.toNat
      recordCommitment := some withdrawal.recordCommitment
      recipient := some withdrawal.recipient
      zekoAmount := some withdrawal.amount }
  | none, none => pure {}
  | _, _ => throw "archive withdrawal token classification is inconsistent"

/-- The columns of a row of `gateway_explorer_settlements` that the recovery reads. -/
structure SettlementRow where
  /-- Root of the settled batch. -/
  innerActionRoot : Bytes32
  /-- Upper slot bound of the commit. -/
  slotUpper : ℤ
  /-- Block in which Ethereum included it. -/
  ethereumBlockNumber : ℤ
  /-- Hash of that block. -/
  ethereumBlockHash : Bytes32
  /-- Transaction that Ethereum included. -/
  ethereumTxHash : Bytes32

/-- One step of the second loop of `recover_batch`. -/
def archiveRow (sequence : BitVec 64) (settlement : SettlementRow)
    (entry : LeafEntry ResolvedAction) : Except String InnerActionLeafRow := do
  let columns ← archiveColumns entry.action.action.withdrawal entry.action.token
  let sequence ← toI64 sequence.toNat
  let offset ← toI32 entry.offset
  pure {
    toWithdrawalColumns := columns
    settlementSequence := sequence
    actionOffset := offset
    globalActionIndex := entry.globalIndex.toNat
    actionFields := entry.action.action.fields
    actionFieldsHash := entry.fieldsHash
    leaf := entry.leaf
    innerActionRoot := settlement.innerActionRoot
    commitSlotUpper := settlement.slotUpper
    ethereumBlockNumber := settlement.ethereumBlockNumber
    ethereumBlockHash := settlement.ethereumBlockHash
    ethereumTxHash := settlement.ethereumTxHash }

/-- `recover_batch`: the rows that it writes for archived actions, with the answers
of the token lookup. -/
def recoverBatch (resolved : TokenWithdrawalIdentity → Option Address) (sequence : BitVec 64)
    (start : BitVec 32) (actions : List ArchiveInnerAction) (chainId : BitVec 64)
    (bridge : Address) (settlement : SettlementRow) : Except String (List InnerActionLeafRow) := do
  let entries ← archiveEntries H chainId bridge start resolved 0 actions
  let computed ← root H (entries.map LeafEntry.leaf)
  require (computed = settlement.innerActionRoot)
    "archive actions do not reproduce the Ethereum-accepted inner-action root"
  entries.mapM (archiveRow sequence settlement)

/-- `InnerActionBatchProof`. -/
structure InnerActionBatchProof where
  /-- The row that is claimed. -/
  target : InnerActionLeafRow
  /-- Sibling hashes on the path to the root. -/
  siblings : Fin 16 → Bytes32
  /-- Position among all inner actions. -/
  globalActionIndex : BitVec 32
  /-- Upper slot bound of the commit that settled the batch. -/
  commitSlotUpper : BitVec 32

/-- One step of the loop of `build_inner_action_batch_proof`. -/
def storedLeaf (startIndex : BitVec 32) (expectedRoot : Bytes32) (commitSlotUpper : BitVec 32)
    (expectedOffset : ℕ) (row : InnerActionLeafRow) : Except String Bytes32 := do
  let position ← offsetToU32 expectedOffset
  let offset ← toI32 expectedOffset
  require (row.actionOffset = offset) "inner-action batch is not contiguous"
  let index ← toU32 row.globalActionIndex
  let expected ← checkedAddU32 "inner action index overflow" startIndex position
  require (index = expected) "inner-action batch is not contiguous"
  require (row.innerActionRoot = expectedRoot) "inner-action batch metadata is inconsistent"
  let slot ← toU32 row.commitSlotUpper
  require (slot = commitSlotUpper) "inner-action batch metadata is inconsistent"
  pure row.leaf

/-- The loop of `build_inner_action_batch_proof`, from a given offset. -/
def storedLeaves (startIndex : BitVec 32) (expectedRoot : Bytes32) (commitSlotUpper : BitVec 32) :
    ℕ → List InnerActionLeafRow → Except String (List Bytes32)
  | _, [] => pure []
  | offset, row :: rows => do
    let leaf ← storedLeaf startIndex expectedRoot commitSlotUpper offset row
    let rest ← storedLeaves startIndex expectedRoot commitSlotUpper (offset + 1) rows
    pure (leaf :: rest)

/-- `build_inner_action_batch_proof`, from the stored rows in the order of their
offsets. -/
def buildInnerActionBatchProof (rows : List InnerActionLeafRow) (offset : BitVec 32) :
    Except String InnerActionBatchProof :=
  match rows with
  | [] => throw "settlement inner-action batch not found"
  | first :: later => do
    require ((first :: later).length ≤ maxLeaves) "inner-action batch exceeds proof tree capacity"
    let startIndex ← toU32 first.globalActionIndex
    let commitSlotUpper ← toU32 first.commitSlotUpper
    let leaves ← storedLeaves startIndex first.innerActionRoot commitSlotUpper 0 (first :: later)
    let siblings ← context (merkleProof H leaves offset.toNat)
      "withdrawal offset is outside the batch"
    require (verifyMerkleProof H (leaves.getD offset.toNat 0) offset.toNat siblings
      first.innerActionRoot) "indexed inner actions do not reproduce their settlement root"
    let target ← context ((first :: later)[offset.toNat]?) "withdrawal offset is outside the batch"
    let globalActionIndex ← toU32 target.globalActionIndex
    pure ⟨target, siblings, globalActionIndex, commitSlotUpper⟩

/-- The archive's view of an action's metadata. -/
def archivedWithdrawal (action : InnerActionWitnessV2) : Option ArchiveWithdrawal :=
  match action.withdrawal, action.tokenWithdrawal with
  | some withdrawal, none => some (.native ⟨withdrawal.recipient, withdrawal.amount⟩)
  | none, some withdrawal => some (.token {
      encodingVersion := withdrawal.encodingVersion
      registryIndex := withdrawal.registryIndex
      recordCommitment := withdrawal.recordCommitment
      assetId := withdrawal.assetId
      recipient := withdrawal.recipient
      amount := withdrawal.amount })
  | _, _ => none

/-- The archive's view of an action at an offset of its batch. -/
def archivedAction (startIndex : BitVec 32) (offset : ℕ) (action : InnerActionWitnessV2) :
    ArchiveInnerAction :=
  ⟨startIndex + BitVec.ofNat 32 offset, action.fields, archivedWithdrawal action⟩

/-- The archive's view of a batch, from a given offset. -/
def archivedActions (startIndex : BitVec 32) : ℕ → List InnerActionWitnessV2 → List ArchiveInnerAction
  | _, [] => []
  | offset, action :: actions =>
    archivedAction startIndex offset action :: archivedActions startIndex (offset + 1) actions

/-- The identity of a token withdrawal of the witness. -/
def witnessIdentity (withdrawal : TokenWithdrawalV3) : TokenWithdrawalIdentity :=
  ⟨withdrawal.encodingVersion, withdrawal.registryIndex, withdrawal.recordCommitment,
    withdrawal.assetId⟩

/-- An action is raw, a native withdrawal or a token withdrawal, and its token is the
one that the lookup finds for its identity. -/
structure Classified (resolved : TokenWithdrawalIdentity → Option Address)
    (action : InnerActionWitnessV2) : Prop where
  /-- It is not both a native and a token withdrawal. -/
  single : action.withdrawal = none ∨ action.tokenWithdrawal = none
  /-- The lookup finds the token of its identity. -/
  resolved_eq : ∀ withdrawal, action.tokenWithdrawal = some withdrawal →
    resolved (witnessIdentity withdrawal) = some withdrawal.token

/-- The archive's entry for an action of the witness. -/
def archivedEntry (startIndex : BitVec 32) (entry : LeafEntry InnerActionWitnessV2) :
    LeafEntry ResolvedAction where
  offset := entry.offset
  globalIndex := entry.globalIndex
  action := ⟨archivedAction startIndex entry.offset entry.action,
    entry.action.tokenWithdrawal.map TokenWithdrawalV3.token⟩
  fieldsHash := entry.fieldsHash
  leaf := entry.leaf

section Entries

variable {H : Hashes} {chainId : BitVec 64} {bridgeAddress : Address} {startIndex : BitVec 32}
  {resolved : TokenWithdrawalIdentity → Option Address}

/-- A token withdrawal is not a native one. -/
theorem withdrawal_none {action : InnerActionWitnessV2} {withdrawal : TokenWithdrawalV3}
    (h : action.withdrawal = none ∨ action.tokenWithdrawal = none)
    (htoken : action.tokenWithdrawal = some withdrawal) : action.withdrawal = none := by
  rcases h with hnone | hnone
  · exact hnone
  · rw [htoken] at hnone
    cases hnone

/-- The lookup finds the token of a classified action. -/
theorem resolvedToken_archived {action : InnerActionWitnessV2} (h : Classified resolved action) :
    resolvedToken resolved (archivedWithdrawal action) =
      .ok (action.tokenWithdrawal.map TokenWithdrawalV3.token) := by
  cases htoken : action.tokenWithdrawal with
  | none =>
    cases hnative : action.withdrawal with
    | none => simp [archivedWithdrawal, hnative, htoken, resolvedToken, pure, Except.pure]
    | some withdrawal => simp [archivedWithdrawal, hnative, htoken, resolvedToken, pure, Except.pure]
  | some withdrawal =>
    have hnative := withdrawal_none h.single htoken
    have hfound := h.resolved_eq withdrawal htoken
    rw [witnessIdentity] at hfound
    simp [archivedWithdrawal, hnative, htoken, resolvedToken, tokenWithdrawalIdentity, hfound, pure,
      Except.pure]

/-- Both builders compute the same leaf for a classified action. -/
theorem archiveActionLeaf_archived {action : InnerActionWitnessV2}
    (h : action.withdrawal = none ∨ action.tokenWithdrawal = none) (globalIndex : BitVec 32)
    (fieldsHash : Bytes32) :
    archiveActionLeaf H chainId bridgeAddress globalIndex fieldsHash (archivedWithdrawal action)
      (action.tokenWithdrawal.map TokenWithdrawalV3.token) =
        witnessLeaf H chainId bridgeAddress globalIndex action fieldsHash := by
  cases htoken : action.tokenWithdrawal with
  | none =>
    cases hnative : action.withdrawal with
    | none => simp [archivedWithdrawal, hnative, htoken, archiveActionLeaf, witnessLeaf]
    | some withdrawal => simp [archivedWithdrawal, hnative, htoken, archiveActionLeaf, witnessLeaf]
  | some withdrawal =>
    have hnative := withdrawal_none h htoken
    simp only [archivedWithdrawal, hnative, htoken, archiveActionLeaf, witnessLeaf, Option.map_some]
    rfl

/-- The archive builds the entry of a classified action exactly when the indexer
does. -/
theorem archiveEntry_archived {action : InnerActionWitnessV2} (hclassified : Classified resolved action)
    (offset : ℕ) (entry : LeafEntry ResolvedAction) :
    archiveEntry H chainId bridgeAddress startIndex resolved offset
        (archivedAction startIndex offset action) = .ok entry ↔
      ∃ found, witnessEntry H chainId bridgeAddress startIndex offset action = .ok found ∧
        entry = archivedEntry startIndex found := by
  simp only [archiveEntry, witnessEntry, offsetToU32, bind_eq_ok, require_eq_ok, exists_const,
    pure_eq_ok]
  simp only [archivedAction, resolvedToken_archived hclassified, Except.ok.injEq, exists_eq_left',
    archiveActionLeaf_archived hclassified.single]
  constructor
  · rintro ⟨position, ⟨hoffset, rfl⟩, expected, hexpected, hsame, fieldsHash, hhash, leaf, hleaf, rfl⟩
    rw [hsame] at hleaf
    refine ⟨_, ⟨fieldsHash, hhash, _, ⟨hoffset, rfl⟩, expected, hexpected, leaf, hleaf, rfl⟩, ?_⟩
    rw [archivedEntry, hsame]
    dsimp only
    rw [archivedAction, hsame]
  · rintro ⟨found, ⟨fieldsHash, hhash, position, ⟨hoffset, rfl⟩, expected, hexpected, leaf, hleaf, rfl⟩,
      rfl⟩
    have hsame := eq_add_of_checkedAdd hexpected
    refine ⟨_, ⟨hoffset, rfl⟩, expected, hexpected, hsame.symm, fieldsHash, hhash, leaf, ?_, ?_⟩
    · rw [← hsame]
      exact hleaf
    · rw [archivedEntry, ← hsame]
      dsimp only
      rw [archivedAction, ← hsame]

/-- The archive builds the entries of a classified batch exactly when the indexer
does. -/
theorem archiveEntries_archived {actions : List InnerActionWitnessV2}
    (hclassified : ∀ action ∈ actions, Classified resolved action) (offset : ℕ)
    (entries : List (LeafEntry ResolvedAction)) :
    archiveEntries H chainId bridgeAddress startIndex resolved offset
        (archivedActions startIndex offset actions) = .ok entries ↔
      ∃ found, witnessEntries H chainId bridgeAddress startIndex offset actions = .ok found ∧
        entries = found.map (archivedEntry startIndex) := by
  induction actions generalizing offset entries with
  | nil =>
    simp only [archivedActions, archiveEntries, witnessEntries, pure_eq_ok, exists_eq_left',
      List.map_nil]
    exact eq_comm
  | cons action actions ih =>
    have hfirst := hclassified action List.mem_cons_self
    have htail := ih (fun other hother => hclassified other (List.mem_cons_of_mem _ hother))
      (offset + 1)
    simp only [archivedActions, archiveEntries, witnessEntries, bind_eq_ok, pure_eq_ok,
      archiveEntry_archived hfirst, htail]
    constructor
    · rintro ⟨entry, ⟨found, hfound, rfl⟩, rest, ⟨others, hothers, rfl⟩, rfl⟩
      exact ⟨found :: others, ⟨found, hfound, others, hothers, rfl⟩, rfl⟩
    · rintro ⟨all, ⟨found, hfound, others, hothers, rfl⟩, rfl⟩
      exact ⟨_, ⟨found, hfound, rfl⟩, _, ⟨others, hothers, rfl⟩, rfl⟩

end Entries

section Loops

variable {H : Hashes} {chainId : BitVec 64} {bridgeAddress : Address} {startIndex : BitVec 32}

/-- The entry of an action at an offset of its batch. -/
structure EntryOf (H : Hashes) (chainId : BitVec 64) (bridgeAddress : Address)
    (startIndex : BitVec 32) (offset : ℕ) (action : InnerActionWitnessV2)
    (entry : LeafEntry InnerActionWitnessV2) : Prop where
  /-- The entry stands at the offset. -/
  offset_eq : entry.offset = offset
  /-- It is about the action. -/
  action_eq : entry.action = action
  /-- The start index and the offset give its index. -/
  globalIndex_eq : entry.globalIndex = startIndex + BitVec.ofNat 32 offset
  /-- The global index is not wrapped. -/
  globalIndex_toNat : entry.globalIndex.toNat = startIndex.toNat + offset
  /-- It has the Keccak hash of the action's fields. -/
  fieldsHash_eq : entry.fieldsHash = H.keccak256 (actionFieldsInput H action.fields)
  /-- It has the leaf of the action at that index. -/
  leaf_eq : entry.leaf = H.keccak256 (innerActionInput H chainId bridgeAddress
    (startIndex + BitVec.ofNat 32 offset) action)
  /-- The action is not both a native and a token withdrawal. -/
  single : action.withdrawal = none ∨ action.tokenWithdrawal = none
  /-- Token withdrawals have the supported encoding. -/
  supported : ∀ withdrawal, action.tokenWithdrawal = some withdrawal →
    withdrawal.encodingVersion = 2

/-- A computed leaf is the hash of the action's leaf string. -/
theorem witnessLeaf_eq_ok {globalIndex : BitVec 32} {action : InnerActionWitnessV2} {leaf : Bytes32}
    (h : witnessLeaf H chainId bridgeAddress globalIndex action
      (H.keccak256 (actionFieldsInput H action.fields)) = .ok leaf) :
    leaf = H.keccak256 (innerActionInput H chainId bridgeAddress globalIndex action) ∧
      (action.withdrawal = none ∨ action.tokenWithdrawal = none) ∧
      ∀ withdrawal, action.tokenWithdrawal = some withdrawal → withdrawal.encodingVersion = 2 := by
  unfold witnessLeaf at h
  unfold innerActionInput
  cases hnative : action.withdrawal with
  | some withdrawal =>
    cases htoken : action.tokenWithdrawal with
    | some token =>
      simp only [hnative, htoken, throw_eq_ok] at h
    | none =>
      simp only [hnative, htoken, pure_eq_ok] at h
      exact ⟨h.symm, Or.inr rfl, fun _ habsent => absurd habsent (by simp)⟩
  | none =>
    cases htoken : action.tokenWithdrawal with
    | some token =>
      simp only [hnative, htoken, erc20WithdrawalLeaf, require_bind_eq_ok, pure_eq_ok] at h
      refine ⟨h.2.symm, Or.inl rfl, ?_⟩
      intro withdrawal hsame
      rw [← Option.some.inj hsame]
      exact h.1
    | none =>
      simp only [hnative, htoken, pure_eq_ok] at h
      exact ⟨h.symm, Or.inl rfl, fun _ habsent => absurd habsent (by simp)⟩

/-- A built entry is that of its action. -/
theorem witnessEntry_eq_ok {offset : ℕ} {action : InnerActionWitnessV2}
    {entry : LeafEntry InnerActionWitnessV2}
    (h : witnessEntry H chainId bridgeAddress startIndex offset action = .ok entry) :
    EntryOf H chainId bridgeAddress startIndex offset action entry := by
  simp only [witnessEntry, offsetToU32, actionFieldsHash, bind_eq_ok, require_eq_ok, exists_const,
    pure_eq_ok] at h
  obtain ⟨fieldsHash, ⟨-, rfl⟩, position, ⟨hoffset, rfl⟩, globalIndex, hindex, leaf, hleaf, rfl⟩ := h
  obtain ⟨hleafEq, hsingle, hsupported⟩ := witnessLeaf_eq_ok hleaf
  have hsum := eq_add_of_checkedAdd hindex
  have hnat := checkedAdd_eq_ok.mp hindex
  rw [BitVec.toNat_ofNat, Nat.mod_eq_of_lt hoffset] at hnat
  rw [hsum] at hleafEq
  exact ⟨rfl, rfl, hsum, hnat, rfl, hleafEq, hsingle, hsupported⟩

/-- Built entries are those of the actions at their offsets. -/
theorem witnessEntries_getElem {offset : ℕ} {actions : List InnerActionWitnessV2}
    {entries : List (LeafEntry InnerActionWitnessV2)}
    (h : witnessEntries H chainId bridgeAddress startIndex offset actions = .ok entries) :
    entries.length = actions.length ∧ ∀ k action, actions[k]? = some action →
      ∃ entry, entries[k]? = some entry ∧
        EntryOf H chainId bridgeAddress startIndex (offset + k) action entry := by
  induction actions generalizing offset entries with
  | nil =>
    rw [witnessEntries, pure_eq_ok] at h
    rw [← h]
    exact ⟨rfl, fun k action haction => absurd haction (by simp)⟩
  | cons first actions ih =>
    simp only [witnessEntries, bind_eq_ok, pure_eq_ok] at h
    obtain ⟨entry, hentry, rest, hrest, rfl⟩ := h
    obtain ⟨hlength, hall⟩ := ih hrest
    refine ⟨by rw [List.length_cons, hlength, List.length_cons], ?_⟩
    intro k action haction
    cases k with
    | zero =>
      rw [List.getElem?_cons_zero] at haction
      rw [← Option.some.inj haction]
      exact ⟨entry, rfl, witnessEntry_eq_ok hentry⟩
    | succ k =>
      rw [List.getElem?_cons_succ] at haction
      obtain ⟨found, hfound, hof⟩ := hall k action haction
      have hshift : offset + 1 + k = offset + (k + 1) := by omega
      rw [hshift] at hof
      exact ⟨found, hfound, hof⟩

/-- The actions of built entries are of one supported kind. -/
theorem witnessEntries_supported {offset : ℕ} {actions : List InnerActionWitnessV2}
    {entries : List (LeafEntry InnerActionWitnessV2)}
    (h : witnessEntries H chainId bridgeAddress startIndex offset actions = .ok entries)
    {entry : LeafEntry InnerActionWitnessV2} (hentry : entry ∈ entries) :
    (entry.action.withdrawal = none ∨ entry.action.tokenWithdrawal = none) ∧
      ∀ withdrawal, entry.action.tokenWithdrawal = some withdrawal →
        withdrawal.encodingVersion = 2 := by
  obtain ⟨hlength, hall⟩ := witnessEntries_getElem h
  obtain ⟨k, hk, rfl⟩ := List.mem_iff_getElem.mp hentry
  have haction : k < actions.length := by omega
  obtain ⟨found, hfound, hof⟩ := hall k _ (List.getElem?_eq_getElem haction)
  rw [List.getElem?_eq_getElem hk] at hfound
  rw [Option.some.inj hfound, hof.action_eq]
  exact ⟨hof.single, hof.supported⟩

/-- The guest's leaf of an action is the indexer's. -/
theorem witnessLeaf_of_innerActionLeaf {globalIndex : BitVec 32} {fields : List StepField}
    {action : InnerActionWitnessV2} {fieldsHash leaf : Bytes32}
    (h : innerActionLeaf H chainId bridgeAddress globalIndex fields action fieldsHash = .ok leaf) :
    witnessLeaf H chainId bridgeAddress globalIndex action fieldsHash = .ok leaf := by
  unfold innerActionLeaf at h
  unfold witnessLeaf
  cases hnative : action.withdrawal with
  | some withdrawal =>
    cases htoken : action.tokenWithdrawal with
    | some token => simp only [hnative, htoken, throw_eq_ok] at h
    | none =>
      simp only [hnative, htoken, bind_eq_ok] at h
      obtain ⟨-, -, hleaf⟩ := h
      exact hleaf
  | none =>
    cases htoken : action.tokenWithdrawal with
    | some token =>
      simp only [hnative, htoken, bind_eq_ok] at h
      obtain ⟨-, -, hleaf⟩ := h
      exact hleaf
    | none =>
      simp only [hnative, htoken] at h
      exact h

/-- Whatever the guest replays, the indexer computes the same leaves for it. -/
theorem witnessEntries_of_replay {offset : ℕ} {replayed : StepField}
    {actions : List InnerActionWitnessV2} {result : StepField × List Bytes32}
    (h : replayInnerActions H chainId bridgeAddress startIndex offset replayed actions = .ok result) :
    ∃ entries, witnessEntries H chainId bridgeAddress startIndex offset actions = .ok entries ∧
      entries.map LeafEntry.leaf = result.2 := by
  induction actions generalizing offset replayed result with
  | nil =>
    rw [replayInnerActions, pure_eq_ok] at h
    rw [← h]
    exact ⟨[], rfl, rfl⟩
  | cons action actions ih =>
    simp only [replayInnerActions, bind_eq_ok, require_eq_ok, exists_const, pure_eq_ok] at h
    obtain ⟨-, fields, -, -, hoffset, globalIndex, hindex, fieldsHash, hhash, leaf, hleaf, rest, hrest,
      rfl⟩ := h
    obtain ⟨others, hothers, hleaves⟩ := ih hrest
    refine ⟨⟨offset, globalIndex, action, fieldsHash, leaf⟩ :: others, ?_, ?_⟩
    · simp only [witnessEntries, witnessEntry, offsetToU32, bind_eq_ok, require_eq_ok, exists_const,
        pure_eq_ok]
      exact ⟨_, ⟨fieldsHash, hhash, _, ⟨hoffset, rfl⟩, globalIndex, hindex, leaf,
        witnessLeaf_of_innerActionLeaf hleaf, rfl⟩, others, hothers, rfl⟩
    · rw [List.map_cons, hleaves]

end Loops

section Rows

variable {H : Hashes} {startIndex : BitVec 32}

/-- The row of the explorer for a receipt in a block. -/
structure SettlementRow.Records (settlement : SettlementRow) (receipt : SettlementPublicValuesV2)
    (blockNumber : BitVec 64) (blockHash transactionHash : Bytes32) : Prop where
  /-- The root is that of the receipt. -/
  root_eq : settlement.innerActionRoot = receipt.innerActionRoot
  /-- The slot is that of the receipt. -/
  slot_eq : settlement.slotUpper = receipt.settlement.slotUpper.toNat
  /-- The height is that of the block. -/
  number_eq : toI64 blockNumber.toNat = .ok settlement.ethereumBlockNumber
  /-- The hash is that of the block. -/
  blockHash_eq : settlement.ethereumBlockHash = blockHash
  /-- The transaction is the settling one. -/
  txHash_eq : settlement.ethereumTxHash = transactionHash

/-- The columns of a supported action are read the same from both sides. -/
theorem archiveColumns_archived {action : InnerActionWitnessV2}
    (hsingle : action.withdrawal = none ∨ action.tokenWithdrawal = none)
    (hsupported : ∀ withdrawal, action.tokenWithdrawal = some withdrawal →
      withdrawal.encodingVersion = 2) :
    archiveColumns (archivedWithdrawal action)
      (action.tokenWithdrawal.map TokenWithdrawalV3.token) = witnessColumns action := by
  cases htoken : action.tokenWithdrawal with
  | none =>
    cases hnative : action.withdrawal with
    | none => simp [archivedWithdrawal, hnative, htoken, archiveColumns, witnessColumns]
    | some withdrawal => simp [archivedWithdrawal, hnative, htoken, archiveColumns, witnessColumns]
  | some withdrawal =>
    have hnative := withdrawal_none hsingle htoken
    have hversion := hsupported withdrawal htoken
    simp only [archivedWithdrawal, hnative, htoken, archiveColumns, witnessColumns, Option.map_some,
      hversion, if_true]

/-- The archive writes the row of an entry exactly when the indexer does. -/
theorem archiveRow_archived {receipt : SettlementPublicValuesV2} {settlement : SettlementRow}
    {blockNumber : BitVec 64} {blockHash transactionHash : Bytes32}
    (hrecords : settlement.Records receipt blockNumber blockHash transactionHash)
    {entry : LeafEntry InnerActionWitnessV2}
    (hsingle : entry.action.withdrawal = none ∨ entry.action.tokenWithdrawal = none)
    (hsupported : ∀ withdrawal, entry.action.tokenWithdrawal = some withdrawal →
      withdrawal.encodingVersion = 2) :
    archiveRow receipt.settlement.batchSequence settlement (archivedEntry startIndex entry) =
      witnessRow receipt blockNumber blockHash transactionHash entry := by
  have hcolumns := archiveColumns_archived hsingle hsupported
  rw [archiveRow, witnessRow, archivedEntry, archivedAction, hcolumns, hrecords.number_eq,
    hrecords.root_eq, hrecords.slot_eq, hrecords.blockHash_eq, hrecords.txHash_eq]
  rfl

/-- Calls that agree on every input of a list give the same list of results. -/
theorem mapM_congr {α β : Type} {f g : α → Except String β} {inputs : List α}
    (h : ∀ input ∈ inputs, f input = g input) : inputs.mapM f = inputs.mapM g := by
  induction inputs with
  | nil => rfl
  | cons input inputs ih =>
    have hrest := ih fun other hother => h other (List.mem_cons_of_mem _ hother)
    rw [List.mapM_cons, List.mapM_cons, h input List.mem_cons_self, hrest]

/-- The recovery writes the rows of a batch exactly when the indexer does. -/
theorem recoverBatch_archived {resolved : TokenWithdrawalIdentity → Option Address}
    {batch : InnerActionBatchWitnessV2} {receipt : SettlementPublicValuesV2}
    {settlement : SettlementRow} {blockNumber : BitVec 64} {blockHash transactionHash : Bytes32}
    (hclassified : ∀ action ∈ batch.actions, Classified resolved action)
    (hbridge : batch.bridgeAddress = receipt.bridgeAddress)
    (hcount : batch.actions.length = receipt.innerActionCount.toNat)
    (hrecords : settlement.Records receipt blockNumber blockHash transactionHash)
    (rows : List InnerActionLeafRow) :
    recoverBatch H resolved receipt.settlement.batchSequence receipt.innerActionStartIndex
        (archivedActions receipt.innerActionStartIndex 0 batch.actions) receipt.settlement.chainId
        receipt.bridgeAddress settlement = .ok rows ↔
      storeInnerActionLeaves H batch receipt blockNumber blockHash transactionHash = .ok rows := by
  simp only [recoverBatch, storeInnerActionLeaves, bind_eq_ok, require_eq_ok, exists_const,
    archiveEntries_archived hclassified, hbridge, hcount, hrecords.root_eq, true_and]
  have hrows : ∀ found, witnessEntries H receipt.settlement.chainId receipt.bridgeAddress
      receipt.innerActionStartIndex 0 batch.actions = .ok found →
      (found.map (archivedEntry receipt.innerActionStartIndex)).mapM
        (archiveRow receipt.settlement.batchSequence settlement) =
      found.mapM (witnessRow receipt blockNumber blockHash transactionHash) := by
    intro found hfound
    rw [List.mapM_map]
    apply mapM_congr
    intro entry hentry
    obtain ⟨hsingle, hsupported⟩ := witnessEntries_supported hfound hentry
    exact archiveRow_archived hrecords hsingle hsupported
  constructor
  · rintro ⟨entries, ⟨found, hfound, rfl⟩, computed, hcomputed, hroot, hmap⟩
    rw [List.map_map] at hcomputed
    rw [hrows found hfound] at hmap
    exact ⟨found, hfound, computed, hcomputed, hroot, hmap⟩
  · rintro ⟨found, hfound, computed, hcomputed, hroot, hmap⟩
    refine ⟨_, ⟨found, hfound, rfl⟩, computed, ?_, hroot, ?_⟩
    · rw [List.map_map]
      exact hcomputed
    · rw [hrows found hfound]
      exact hmap

/-- The row that the gateway keeps for an action at an offset of a batch. -/
structure StoredRow (H : Hashes) (receipt : SettlementPublicValuesV2) (offset : ℕ)
    (action : InnerActionWitnessV2) (row : InnerActionLeafRow) : Prop where
  /-- The leaf is that of the action at its index. -/
  leaf_eq : row.leaf = H.keccak256 (innerActionInput H receipt.settlement.chainId
    receipt.bridgeAddress (receipt.innerActionStartIndex + BitVec.ofNat 32 offset) action)
  /-- The offset is the position in the batch. -/
  offset_eq : row.actionOffset = offset
  /-- The index counts from the start of the batch. -/
  index_eq : row.globalActionIndex = (receipt.innerActionStartIndex.toNat + offset : ℕ)
  /-- The global index is not wrapped. -/
  index_lt : receipt.innerActionStartIndex.toNat + offset < 2 ^ 32
  /-- The root is that of the receipt. -/
  root_eq : row.innerActionRoot = receipt.innerActionRoot
  /-- The slot is that of the receipt. -/
  slot_eq : row.commitSlotUpper = receipt.settlement.slotUpper.toNat
  /-- The hash is that of the action's fields. -/
  fieldsHash_eq : row.actionFieldsHash = H.keccak256 (actionFieldsInput H action.fields)
  /-- The other columns are those of the action. -/
  columns_eq : witnessColumns action = .ok row.toWithdrawalColumns
  /-- Token withdrawals have the supported encoding. -/
  supported : ∀ withdrawal, action.tokenWithdrawal = some withdrawal →
    withdrawal.encodingVersion = 2

/-- The row of an entry is the one kept for its action. -/
theorem storedRow_of_entry {receipt : SettlementPublicValuesV2} {blockNumber : BitVec 64}
    {blockHash transactionHash : Bytes32} {offset : ℕ} {action : InnerActionWitnessV2}
    {entry : LeafEntry InnerActionWitnessV2} {row : InnerActionLeafRow}
    (hentry : EntryOf H receipt.settlement.chainId receipt.bridgeAddress
      receipt.innerActionStartIndex offset action entry)
    (h : witnessRow receipt blockNumber blockHash transactionHash entry = .ok row) :
    StoredRow H receipt offset action row ∧ row.leaf = entry.leaf := by
  simp only [witnessRow, toI32, toI64, bind_eq_ok, require_eq_ok, exists_const, pure_eq_ok] at h
  obtain ⟨columns, hcolumns, sequence, -, position, ⟨-, rfl⟩, number, -, rfl⟩ := h
  rw [hentry.action_eq] at hcolumns
  have hindex := hentry.globalIndex_toNat
  have hlt : entry.globalIndex.toNat < 2 ^ 32 := entry.globalIndex.isLt
  refine ⟨⟨hentry.leaf_eq, ?_, ?_, by omega, rfl, rfl, hentry.fieldsHash_eq, hcolumns,
    hentry.supported⟩, rfl⟩
  · dsimp only
    rw [hentry.offset_eq]
  · dsimp only
    rw [hindex]

/-- The rows written for a batch are those of its actions, and their leaves
reproduce the root of the receipt. -/
theorem storeInnerActionLeaves_eq_ok {batch : InnerActionBatchWitnessV2}
    {receipt : SettlementPublicValuesV2} {blockNumber : BitVec 64}
    {blockHash transactionHash : Bytes32} {rows : List InnerActionLeafRow}
    (h : storeInnerActionLeaves H batch receipt blockNumber blockHash transactionHash = .ok rows) :
    rows.length = batch.actions.length ∧
    root H (rows.map InnerActionLeafRow.leaf) = .ok receipt.innerActionRoot ∧
    ∀ k action, batch.actions[k]? = some action →
      ∃ row, rows[k]? = some row ∧ StoredRow H receipt k action row := by
  simp only [storeInnerActionLeaves, bind_eq_ok, require_eq_ok, exists_const] at h
  obtain ⟨hbridge, -, entries, hentries, computed, hcomputed, hroot, hrows⟩ := h
  rw [hbridge] at hentries
  obtain ⟨hlength, hall⟩ := witnessEntries_getElem hentries
  have hmap := mapM_eq_ok.mp hrows
  have hrow : ∀ k action, batch.actions[k]? = some action → ∃ entry row, entries[k]? = some entry ∧
      rows[k]? = some row ∧ StoredRow H receipt k action row ∧ row.leaf = entry.leaf := by
    intro k action haction
    obtain ⟨entry, hentry, hof⟩ := hall k action haction
    rw [Nat.zero_add] at hof
    obtain ⟨hk, hget⟩ := List.getElem?_eq_some_iff.mp hentry
    have hkRows : k < rows.length := by rw [← hmap.length_eq]; exact hk
    have hwritten := List.forall₂_iff_get.mp hmap |>.2 k hk hkRows
    rw [List.get_eq_getElem, hget] at hwritten
    obtain ⟨hstored, hleaf⟩ := storedRow_of_entry hof hwritten
    exact ⟨entry, _, hentry, List.getElem?_eq_getElem hkRows, hstored, hleaf⟩
  refine ⟨by rw [← hmap.length_eq, hlength], ?_, ?_⟩
  · have hleaves : rows.map InnerActionLeafRow.leaf = entries.map LeafEntry.leaf := by
      apply List.ext_getElem?
      intro k
      rw [List.getElem?_map, List.getElem?_map]
      cases haction : batch.actions[k]? with
      | some action =>
        obtain ⟨entry, row, hentry, hfound, -, hleaf⟩ := hrow k action haction
        rw [hentry, hfound, Option.map_some, Option.map_some, hleaf]
      | none =>
        have hout := List.getElem?_eq_none_iff.mp haction
        rw [List.getElem?_eq_none (by rw [← hmap.length_eq]; omega),
          List.getElem?_eq_none (by omega)]
        rfl
    rw [hleaves, hcomputed, hroot]
  · intro k action haction
    obtain ⟨-, row, -, hfound, hstored, -⟩ := hrow k action haction
    exact ⟨row, hfound, hstored⟩

/-- The row of a supported action can be written while the numbers fit the columns. -/
theorem witnessRow_ok {receipt : SettlementPublicValuesV2} {blockNumber : BitVec 64}
    {blockHash transactionHash : Bytes32} {entry : LeafEntry InnerActionWitnessV2}
    (hsequence : receipt.settlement.batchSequence.toNat < 2 ^ 63)
    (hnumber : blockNumber.toNat < 2 ^ 63) (hoffset : entry.offset < 2 ^ 31)
    (hsingle : entry.action.withdrawal = none ∨ entry.action.tokenWithdrawal = none)
    (hsupported : ∀ withdrawal, entry.action.tokenWithdrawal = some withdrawal →
      withdrawal.encodingVersion = 2) :
    ∃ row, witnessRow receipt blockNumber blockHash transactionHash entry = .ok row := by
  have hcolumns : ∃ columns, witnessColumns entry.action = .ok columns := by
    unfold witnessColumns
    cases htoken : entry.action.tokenWithdrawal with
    | none =>
      cases hnative : entry.action.withdrawal with
      | none => exact ⟨_, rfl⟩
      | some withdrawal => exact ⟨_, rfl⟩
    | some withdrawal =>
      have hnative := withdrawal_none hsingle htoken
      rw [hnative]
      dsimp only
      rw [hsupported withdrawal htoken]
      exact ⟨_, rfl⟩
  obtain ⟨columns, hcolumns⟩ := hcolumns
  simp only [witnessRow, toI32, toI64, bind_eq_ok, require_eq_ok, exists_const, pure_eq_ok]
  exact ⟨_, columns, hcolumns, _, ⟨hsequence, rfl⟩, _, ⟨hoffset, rfl⟩, _, ⟨hnumber, rfl⟩, rfl⟩

/-- The indexer stores every batch that the guest accepts, while the numbers fit the
columns. -/
theorem storeInnerActionLeaves_ok {settlement : SettlementPublicValuesV1}
    {batch : InnerActionBatchWitnessV2} {receipt : SettlementPublicValuesV2}
    (h : deriveV2Receipt H settlement batch = .ok receipt) {blockNumber : BitVec 64}
    (blockHash transactionHash : Bytes32)
    (hsequence : receipt.settlement.batchSequence.toNat < 2 ^ 63)
    (hnumber : blockNumber.toNat < 2 ^ 63) :
    ∃ rows, storeInnerActionLeaves H batch receipt blockNumber blockHash transactionHash =
      .ok rows := by
  have haccepted := deriveV2Receipt_eq_ok H h
  simp only [deriveV2Receipt, bind_eq_ok, require_eq_ok, exists_const, pure_eq_ok] at h
  obtain ⟨hcap, stateBefore, -, stateAfter, -, startIndex, -, endIndex, -, -, replay, hreplay, -,
    innerRoot, hroot, rfl⟩ := h
  obtain ⟨entries, hentries, hleaves⟩ := witnessEntries_of_replay hreplay
  obtain ⟨hlength, hall⟩ := witnessEntries_getElem hentries
  have hwritten : ∀ entry ∈ entries, ∃ row, witnessRow
      ⟨settlement, batch.bridgeAddress, innerRoot, startIndex, BitVec.ofNat 32 batch.actions.length⟩
      blockNumber blockHash transactionHash entry = .ok row := by
    intro entry hentry
    obtain ⟨hsingle, hsupported⟩ := witnessEntries_supported hentries hentry
    obtain ⟨k, hk, rfl⟩ := List.mem_iff_getElem.mp hentry
    have haction : k < batch.actions.length := by omega
    obtain ⟨found, hfound, hof⟩ := hall k _ (List.getElem?_eq_getElem haction)
    rw [List.getElem?_eq_getElem hk] at hfound
    have hoffset : entries[k].offset < 2 ^ 31 := by
      rw [Option.some.inj hfound, hof.offset_eq]
      have hmax : maxLeaves < 2 ^ 31 := by decide
      omega
    exact witnessRow_ok hsequence hnumber hoffset hsingle hsupported
  simp only [storeInnerActionLeaves, bind_eq_ok, require_eq_ok, exists_const]
  have hrows : ∃ rows, entries.mapM (witnessRow
      ⟨settlement, batch.bridgeAddress, innerRoot, startIndex, BitVec.ofNat 32 batch.actions.length⟩
      blockNumber blockHash transactionHash) = .ok rows := succeeds_mapM.mpr hwritten
  obtain ⟨rows, hrows⟩ := hrows
  refine ⟨rows, trivial, haccepted.count_eq.symm, entries, hentries, innerRoot, ?_, rfl, hrows⟩
  rw [hleaves]
  exact hroot

end Rows

/-- The row is the one at a position of a batch. -/
structure RowAt (startIndex : BitVec 32) (expectedRoot : Bytes32) (commitSlotUpper : BitVec 32)
    (offset : ℕ) (row : InnerActionLeafRow) : Prop where
  /-- The offset fits its column. -/
  offset_lt : offset < 2 ^ 31
  /-- The offset is the position. -/
  offset_eq : row.actionOffset = offset
  /-- The index counts from the start of the batch. -/
  index_eq : row.globalActionIndex = (startIndex.toNat + offset : ℕ)
  /-- The index fits its column. -/
  index_lt : startIndex.toNat + offset < 2 ^ 32
  /-- The root is that of the batch. -/
  root_eq : row.innerActionRoot = expectedRoot
  /-- The slot is that of the batch. -/
  slot_eq : row.commitSlotUpper = commitSlotUpper.toNat

/-- A signed number converts to the word that has its value. -/
theorem toU32_eq_ok {value : ℤ} {word : BitVec 32} :
    toU32 value = .ok word ↔ value = word.toNat := by
  have hword : word.toNat < 2 ^ 32 := word.isLt
  simp only [toU32, require_bind_eq_ok, pure_eq_ok]
  constructor
  · rintro ⟨⟨hnonneg, hlt⟩, rfl⟩
    rw [BitVec.toNat_ofInt]
    omega
  · intro hvalue
    refine ⟨by omega, ?_⟩
    apply BitVec.eq_of_toNat_eq
    rw [BitVec.toNat_ofInt]
    omega

/-- A row passes the checks of the loop exactly when it is the one at the offset. -/
theorem storedLeaf_eq_ok {startIndex commitSlotUpper : BitVec 32} {expectedRoot : Bytes32}
    {offset : ℕ} {row : InnerActionLeafRow} {leaf : Bytes32} :
    storedLeaf startIndex expectedRoot commitSlotUpper offset row = .ok leaf ↔
      RowAt startIndex expectedRoot commitSlotUpper offset row ∧ row.leaf = leaf := by
  simp only [storedLeaf, offsetToU32, toI32, checkedAddU32, bind_eq_ok, require_eq_ok, exists_const,
    pure_eq_ok, toU32_eq_ok, checkedAdd_eq_ok]
  constructor
  · rintro ⟨position, ⟨hsmall, rfl⟩, number, ⟨hoffset, rfl⟩, hnumber, index, hindex, expected, hexpected,
      rfl, hroot, slot, hslot, rfl, hleaf⟩
    rw [BitVec.toNat_ofNat, Nat.mod_eq_of_lt hsmall] at hexpected
    have hbound : index.toNat < 2 ^ 32 := index.isLt
    exact ⟨⟨hoffset, hnumber, by rw [hindex, hexpected], by omega, hroot, hslot⟩, hleaf⟩
  · rintro ⟨hrow, hleaf⟩
    have hoffset := hrow.offset_lt
    have hlt := hrow.index_lt
    have hsum : (startIndex + BitVec.ofNat 32 offset).toNat = startIndex.toNat + offset := by
      rw [BitVec.toNat_add, BitVec.toNat_ofNat]
      omega
    refine ⟨_, ⟨by omega, rfl⟩, _, ⟨hoffset, rfl⟩, hrow.offset_eq, startIndex + BitVec.ofNat 32 offset,
      ?_, startIndex + BitVec.ofNat 32 offset, ?_, rfl, hrow.root_eq, commitSlotUpper, hrow.slot_eq,
      rfl, hleaf⟩
    · rw [hrow.index_eq, hsum]
    · rw [hsum, BitVec.toNat_ofNat, Nat.mod_eq_of_lt (by omega)]

/-- The loop passes exactly over the rows that stand at their offsets, and collects
their leaves. -/
theorem storedLeaves_eq_ok {startIndex commitSlotUpper : BitVec 32} {expectedRoot : Bytes32}
    {offset : ℕ} {rows : List InnerActionLeafRow} {leaves : List Bytes32} :
    storedLeaves startIndex expectedRoot commitSlotUpper offset rows = .ok leaves ↔
      (∀ k row, rows[k]? = some row →
        RowAt startIndex expectedRoot commitSlotUpper (offset + k) row) ∧
      rows.map InnerActionLeafRow.leaf = leaves := by
  induction rows generalizing offset leaves with
  | nil =>
    rw [storedLeaves, pure_eq_ok]
    constructor
    · intro hempty
      exact ⟨fun k row hrow => absurd hrow (by simp), hempty⟩
    · exact fun h => h.2
  | cons first rows ih =>
    simp only [storedLeaves, bind_eq_ok, pure_eq_ok, storedLeaf_eq_ok, ih]
    constructor
    · rintro ⟨leaf, ⟨hfirst, rfl⟩, rest, ⟨hrest, rfl⟩, rfl⟩
      refine ⟨?_, rfl⟩
      intro k row hrow
      cases k with
      | zero =>
        rw [List.getElem?_cons_zero] at hrow
        rw [← Option.some.inj hrow]
        exact hfirst
      | succ k =>
        rw [List.getElem?_cons_succ] at hrow
        have hshift : offset + 1 + k = offset + (k + 1) := by omega
        rw [← hshift]
        exact hrest k row hrow
    · rintro ⟨hall, rfl⟩
      refine ⟨_, ⟨hall 0 first rfl, rfl⟩, _, ⟨?_, rfl⟩, rfl⟩
      intro k row hrow
      have hshift : offset + 1 + k = offset + (k + 1) := by omega
      rw [hshift]
      exact hall (k + 1) row hrow

section Proofs

variable {env : Environment}

/-- A proof for a position of a batch: it is about the row at the position, and the
contract accepts its path for the settled root. -/
structure ServedProof (env : Environment) (receipt : SettlementPublicValuesV2)
    (rows : List InnerActionLeafRow) (offset : BitVec 32) (proof : InnerActionBatchProof) : Prop where
  /-- The target is the row at the position. -/
  target_eq : rows[offset.toNat]? = some proof.target
  /-- The index counts from the start of the batch. -/
  index_eq : proof.globalActionIndex = receipt.innerActionStartIndex + offset
  /-- The slot is that of the receipt. -/
  slot_eq : proof.commitSlotUpper = receipt.settlement.slotUpper
  /-- The contract accepts the path for the settled root. -/
  verified : verifyInnerActionMerkleProof env proof.target.leaf offset.toNat proof.siblings
    receipt.innerActionRoot = true

/-- The gateway serves a proof for every row of a batch whose rows stand at their
offsets and reproduce its root. -/
theorem buildInnerActionBatchProof_ok {receipt : SettlementPublicValuesV2}
    {rows : List InnerActionLeafRow}
    (hrows : ∀ k row, rows[k]? = some row → RowAt receipt.innerActionStartIndex
      receipt.innerActionRoot receipt.settlement.slotUpper k row)
    (hroot : root env.hashes (rows.map InnerActionLeafRow.leaf) = .ok receipt.innerActionRoot)
    {offset : BitVec 32} (hoffset : offset.toNat < rows.length) :
    ∃ proof, buildInnerActionBatchProof env.hashes rows offset = .ok proof ∧
      ServedProof env receipt rows offset proof := by
  cases rows with
  | nil => exact absurd hoffset (Nat.not_lt_zero _)
  | cons first later =>
    obtain ⟨hcap, hcomputed⟩ := (root_eq_ok env.hashes).mp hroot
    rw [List.length_map] at hcap
    have hleaf : offset.toNat < ((first :: later).map InnerActionLeafRow.leaf).length := by
      rw [List.length_map]
      exact hoffset
    have hcapacity : ((first :: later).map InnerActionLeafRow.leaf).length ≤ maxLeaves := by
      rw [List.length_map]
      exact hcap
    obtain ⟨siblings, hsiblings, htree⟩ := merkleProof_eq_some env.hashes hcapacity hleaf
    have hbound : offset.toNat < maxLeaves := lt_of_lt_of_le hoffset hcap
    have hfirst := hrows 0 first rfl
    have htarget := hrows offset.toNat _ (List.getElem?_eq_getElem hoffset)
    have hpath : pathRoot (hashNode env.hashes)
        (((first :: later).map InnerActionLeafRow.leaf).getD offset.toNat 0) offset.toNat
        (List.ofFn siblings) = receipt.innerActionRoot := by
      rw [htree, hcomputed]
      exact pathRoot_treeSiblings _ _ _ _ hbound
    have hverified := (verifyMerkleProof_iff env.hashes hbound).mpr hpath
    have hindex : toU32 (first :: later)[offset.toNat].globalActionIndex =
        .ok (receipt.innerActionStartIndex + offset) := by
      rw [toU32_eq_ok, htarget.index_eq, BitVec.toNat_add, Nat.mod_eq_of_lt htarget.index_lt]
    refine ⟨⟨(first :: later)[offset.toNat], siblings, receipt.innerActionStartIndex + offset,
      receipt.settlement.slotUpper⟩, ?_, List.getElem?_eq_getElem hoffset, rfl, rfl, ?_⟩
    · simp only [buildInnerActionBatchProof, bind_eq_ok, require_eq_ok, exists_const, pure_eq_ok]
      refine ⟨hcap, receipt.innerActionStartIndex, ?_, receipt.settlement.slotUpper, ?_, _,
        storedLeaves_eq_ok.mpr ⟨?_, rfl⟩, siblings, ?_, ?_, (first :: later)[offset.toNat], ?_, _,
        hindex, rfl⟩
      · rw [toU32_eq_ok, hfirst.index_eq]
        rfl
      · rw [toU32_eq_ok, hfirst.slot_eq]
      · intro k row hrow
        rw [hfirst.root_eq, Nat.zero_add]
        exact hrows k row hrow
      · rw [hsiblings]
        rfl
      · rw [hfirst.root_eq]
        exact hverified
      · rw [List.getElem?_eq_getElem hoffset]
        rfl
    · rw [List.getD_eq_getElem _ _ hleaf, List.getElem_map] at hverified
      rw [verdicts_agree env _ _ _ _ hbound]
      exact hverified

/-- The leaf of a stored native withdrawal is the one that the contract computes for
its columns. -/
theorem StoredRow.native_leaf {receipt : SettlementPublicValuesV2} {offset : ℕ}
    {action : InnerActionWitnessV2} {row : InnerActionLeafRow}
    (h : StoredRow env.hashes receipt offset action row)
    (hchain : env.chainId = toWord receipt.settlement.chainId)
    (hbridge : env.bridgeAddress = receipt.bridgeAddress)
    {recipient : Address} {amount : BitVec 64} (htoken : row.token = none)
    (hrecipient : row.recipient = some recipient) (hamount : row.zekoAmount = some amount) :
    row.leaf = computeNativeWithdrawalLeaf env
      (receipt.innerActionStartIndex + BitVec.ofNat 32 offset) recipient amount
      row.actionFieldsHash := by
  have hcolumns := h.columns_eq
  have hleaf := h.leaf_eq
  unfold witnessColumns at hcolumns
  unfold innerActionInput at hleaf
  cases hnative : action.withdrawal with
  | some withdrawal =>
    cases hsome : action.tokenWithdrawal with
    | some token => simp only [hnative, hsome, throw_eq_ok] at hcolumns
    | none =>
      simp only [hnative, hsome, pure_eq_ok] at hcolumns hleaf
      rw [← hcolumns] at hrecipient hamount
      rw [hleaf, computeNativeWithdrawalLeaf, nativeWithdrawalLeafInput, nativeWithdrawalInput, hchain,
        hbridge, h.fieldsHash_eq, ← Option.some.inj hrecipient, ← Option.some.inj hamount]
  | none =>
    cases hsome : action.tokenWithdrawal with
    | some withdrawal =>
      simp only [hnative, hsome, bind_eq_ok, pure_eq_ok] at hcolumns
      obtain ⟨version, -, hcolumns⟩ := hcolumns
      rw [← hcolumns] at htoken
      cases htoken
    | none =>
      simp only [hnative, hsome, pure_eq_ok] at hcolumns
      rw [← hcolumns] at hrecipient
      cases hrecipient

/-- The leaf of a stored token withdrawal is the one that the contract computes for
its columns. -/
theorem StoredRow.token_leaf {receipt : SettlementPublicValuesV2} {offset : ℕ}
    {action : InnerActionWitnessV2} {row : InnerActionLeafRow}
    (h : StoredRow env.hashes receipt offset action row)
    (hchain : env.chainId = toWord receipt.settlement.chainId)
    (hbridge : env.bridgeAddress = receipt.bridgeAddress) {token : Address}
    (htoken : row.token = some token) :
    ∃ (registryIndex : BitVec 32) (recordCommitment assetId : Bytes32) (recipient : Address)
      (amount : BitVec 64), row.registryIndex = some (registryIndex.toNat : ℤ) ∧
      row.recordCommitment = some recordCommitment ∧ row.assetId = some assetId ∧
      row.recipient = some recipient ∧ row.zekoAmount = some amount ∧
      row.leaf = computeERC20WithdrawalLeaf env
        (receipt.innerActionStartIndex + BitVec.ofNat 32 offset) token registryIndex recordCommitment
        assetId recipient amount row.actionFieldsHash := by
  have hcolumns := h.columns_eq
  have hleaf := h.leaf_eq
  unfold witnessColumns at hcolumns
  unfold innerActionInput at hleaf
  cases hnative : action.withdrawal with
  | some withdrawal =>
    cases hsome : action.tokenWithdrawal with
    | some token => simp only [hnative, hsome, throw_eq_ok] at hcolumns
    | none =>
      simp only [hnative, hsome, pure_eq_ok] at hcolumns
      rw [← hcolumns] at htoken
      cases htoken
  | none =>
    cases hsome : action.tokenWithdrawal with
    | some withdrawal =>
      have hversion := h.supported withdrawal hsome
      simp only [hnative, hsome, bind_eq_ok, pure_eq_ok, hversion, if_true] at hcolumns hleaf
      obtain ⟨version, -, hcolumns⟩ := hcolumns
      rw [← hcolumns] at htoken
      refine ⟨withdrawal.registryIndex, withdrawal.recordCommitment, withdrawal.assetId,
        withdrawal.recipient, withdrawal.amount, ?_⟩
      rw [hleaf, computeERC20WithdrawalLeaf, erc20WithdrawalLeafInput, erc20WithdrawalInput, hchain,
        hbridge, h.fieldsHash_eq, ← Option.some.inj htoken, hversion, ← hcolumns]
      exact ⟨rfl, rfl, rfl, rfl, rfl, rfl⟩
    | none =>
      simp only [hnative, hsome, pure_eq_ok] at hcolumns
      rw [← hcolumns] at htoken
      cases htoken

end Proofs

/-- The leaf of a row is the one that the contract computes from its columns. -/
structure LeafOnChain (env : Environment) (globalIndex : BitVec 32) (row : InnerActionLeafRow) :
    Prop where
  /-- The leaf of a native withdrawal. -/
  native : ∀ recipient amount, row.token = none → row.recipient = some recipient →
    row.zekoAmount = some amount →
    row.leaf = computeNativeWithdrawalLeaf env globalIndex recipient amount row.actionFieldsHash
  /-- The leaf of a token withdrawal. -/
  token : ∀ token, row.token = some token →
    ∃ (registryIndex : BitVec 32) (recordCommitment assetId : Bytes32) (recipient : Address)
      (amount : BitVec 64), row.registryIndex = some (registryIndex.toNat : ℤ) ∧
      row.recordCommitment = some recordCommitment ∧ row.assetId = some assetId ∧
      row.recipient = some recipient ∧ row.zekoAmount = some amount ∧
      row.leaf = computeERC20WithdrawalLeaf env globalIndex token registryIndex recordCommitment
        assetId recipient amount row.actionFieldsHash

/-- The stored rows of an accepted batch, and the proofs served from them. -/
structure BatchServed (env : Environment) (receipt : SettlementPublicValuesV2)
    (actions : List InnerActionWitnessV2) (rows : List InnerActionLeafRow) : Prop where
  /-- There is a row for each action. -/
  length_eq : rows.length = actions.length
  /-- The rows hash to the settled root. -/
  root_eq : root env.hashes (rows.map InnerActionLeafRow.leaf) = .ok receipt.innerActionRoot
  /-- Every action has the row with its leaf and its global index. -/
  stored : ∀ k action, actions[k]? = some action →
    ∃ row, rows[k]? = some row ∧ StoredRow env.hashes receipt k action row
  /-- Every action has a proof that the contract accepts. -/
  served : ∀ offset : BitVec 32, offset.toNat < actions.length →
    ∃ proof, buildInnerActionBatchProof env.hashes rows offset = .ok proof ∧
      ServedProof env receipt rows offset proof ∧
      (env.chainId = toWord receipt.settlement.chainId →
        env.bridgeAddress = receipt.bridgeAddress →
          LeafOnChain env proof.globalActionIndex proof.target)

/-- Stored rows of an accepted batch serve proofs that the contract accepts. -/
theorem batchServed_of_stored {env : Environment} {batch : InnerActionBatchWitnessV2}
    {receipt : SettlementPublicValuesV2} {blockNumber : BitVec 64}
    {blockHash transactionHash : Bytes32} {rows : List InnerActionLeafRow}
    (h : storeInnerActionLeaves env.hashes batch receipt blockNumber blockHash transactionHash =
      .ok rows) : BatchServed env receipt batch.actions rows := by
  obtain ⟨hlength, hroot, hstored⟩ := storeInnerActionLeaves_eq_ok h
  refine ⟨hlength, hroot, hstored, ?_⟩
  intro offset hoffset
  obtain ⟨hcap, -⟩ := (root_eq_ok env.hashes).mp hroot
  rw [List.length_map] at hcap
  have hrows : ∀ k row, rows[k]? = some row → RowAt receipt.innerActionStartIndex
      receipt.innerActionRoot receipt.settlement.slotUpper k row := by
    intro k row hrow
    obtain ⟨hk, -⟩ := List.getElem?_eq_some_iff.mp hrow
    have haction : k < batch.actions.length := by omega
    obtain ⟨found, hfound, hof⟩ := hstored k _ (List.getElem?_eq_getElem haction)
    rw [hrow] at hfound
    rw [Option.some.inj hfound]
    have hmax : maxLeaves < 2 ^ 31 := by decide
    exact ⟨by omega, hof.offset_eq, hof.index_eq, hof.index_lt, hof.root_eq, hof.slot_eq⟩
  have hbound : offset.toNat < rows.length := by omega
  obtain ⟨proof, hproof, hserved⟩ := buildInnerActionBatchProof_ok hrows hroot hbound
  refine ⟨proof, hproof, hserved, ?_⟩
  intro hchain hbridge
  obtain ⟨row, hrow, hof⟩ := hstored _ _ (List.getElem?_eq_getElem hoffset)
  rw [hserved.target_eq] at hrow
  rw [hserved.index_eq, Option.some.inj hrow]
  have hindex : BitVec.ofNat 32 offset.toNat = offset := by rw [BitVec.ofNat_toNat, BitVec.setWidth_eq]
  constructor
  · intro recipient amount htoken hrecipient hamount
    have hleaf := hof.native_leaf hchain hbridge htoken hrecipient hamount
    rw [hindex] at hleaf
    exact hleaf
  · intro token htoken
    have hleaf := hof.token_leaf hchain hbridge htoken
    rw [hindex] at hleaf
    exact hleaf

/-- The global indices of built entries follow each other from the start. -/
theorem witnessEntries_indices {H : Hashes} {chainId : BitVec 64} {bridgeAddress : Address}
    {startIndex : BitVec 32} {actions : List InnerActionWitnessV2}
    {entries : List (LeafEntry InnerActionWitnessV2)}
    (h : witnessEntries H chainId bridgeAddress startIndex 0 actions = .ok entries) :
    entries.map (fun entry => entry.globalIndex.toNat) =
      List.range' startIndex.toNat actions.length := by
  obtain ⟨hlength, hall⟩ := witnessEntries_getElem h
  apply List.ext_getElem
  · rw [List.length_map, List.length_range', hlength]
  · intro k hleft hright
    rw [List.length_map] at hleft
    have haction : k < actions.length := by omega
    obtain ⟨found, hfound, hof⟩ := hall k _ (List.getElem?_eq_getElem haction)
    rw [List.getElem?_eq_getElem hleft] at hfound
    rw [List.getElem_map, List.getElem_range', Option.some.inj hfound, hof.globalIndex_toNat]
    omega

/-- The guest, the indexer and the archive recovery build the same leaves. For every
chain, bridge, start index and classified list of actions, the archive builds its
entries exactly when the indexer does, with the same leaves and global indices, and
so they do whenever the guest replays the list. For every batch that the guest
accepts, both write the same rows, with the root of the receipt, and the proof served
for any row is accepted on chain. -/
theorem inner_action_builders_agree (env : Environment) (chainId : BitVec 64)
    (bridgeAddress : Address) (resolved : TokenWithdrawalIdentity → Option Address)
    (actions : List InnerActionWitnessV2)
    (hclassified : ∀ action ∈ actions, Classified resolved action) :
    (∀ startIndex,
      (∀ entries, archiveEntries env.hashes chainId bridgeAddress startIndex resolved 0
          (archivedActions startIndex 0 actions) = .ok entries ↔
        ∃ found, witnessEntries env.hashes chainId bridgeAddress startIndex 0 actions = .ok found ∧
          entries = found.map (archivedEntry startIndex)) ∧
      ∀ replayed result, replayInnerActions env.hashes chainId bridgeAddress startIndex 0 replayed
          actions = .ok result →
        ∃ found, witnessEntries env.hashes chainId bridgeAddress startIndex 0 actions = .ok found ∧
          found.map LeafEntry.leaf = result.2 ∧
          found.map (fun entry => entry.globalIndex.toNat) =
            List.range' startIndex.toNat actions.length) ∧
    ∀ settlement receipt, settlement.chainId = chainId →
      deriveV2Receipt env.hashes settlement ⟨bridgeAddress, actions⟩ = .ok receipt →
      ∀ blockNumber blockHash transactionHash, ∀ recorded : SettlementRow,
        recorded.Records receipt blockNumber blockHash transactionHash →
        (∀ rows, recoverBatch env.hashes resolved receipt.settlement.batchSequence
            receipt.innerActionStartIndex (archivedActions receipt.innerActionStartIndex 0 actions)
            chainId bridgeAddress recorded = .ok rows ↔
          storeInnerActionLeaves env.hashes ⟨bridgeAddress, actions⟩ receipt blockNumber blockHash
            transactionHash = .ok rows) ∧
        (receipt.settlement.batchSequence.toNat < 2 ^ 63 →
          ∃ rows, storeInnerActionLeaves env.hashes ⟨bridgeAddress, actions⟩ receipt blockNumber
            blockHash transactionHash = .ok rows) ∧
        ∀ rows, storeInnerActionLeaves env.hashes ⟨bridgeAddress, actions⟩ receipt blockNumber
            blockHash transactionHash = .ok rows → BatchServed env receipt actions rows := by
  constructor
  · intro startIndex
    refine ⟨archiveEntries_archived hclassified 0, ?_⟩
    intro replayed result hreplay
    obtain ⟨found, hfound, hleaves⟩ := witnessEntries_of_replay hreplay
    exact ⟨found, hfound, hleaves, witnessEntries_indices hfound⟩
  · intro settlement receipt hchain hreceipt blockNumber blockHash transactionHash recorded hrecords
    have haccepted := deriveV2Receipt_eq_ok env.hashes hreceipt
    have hchainEq : receipt.settlement.chainId = chainId := by
      rw [haccepted.settlement_eq, hchain]
    have hrecover := recoverBatch_archived (H := env.hashes) hclassified
      haccepted.bridgeAddress_eq.symm haccepted.count_eq.symm hrecords
    rw [hchainEq, haccepted.bridgeAddress_eq] at hrecover
    refine ⟨hrecover, ?_, fun rows hrows => batchServed_of_stored hrows⟩
    intro hsequence
    have hnumber : blockNumber.toNat < 2 ^ 63 := by
      have hconverted := hrecords.number_eq
      simp only [toI64, require_bind_eq_ok] at hconverted
      exact hconverted.1
    exact storeInnerActionLeaves_ok hreceipt blockHash transactionHash hsequence hnumber

/-- The settled values of the batch, without the parts that its leaves do not use. -/
def settledValues : SettlementPublicValuesV1 where
  daMode := .multisig
  chainId := 1
  settlementContract := settlementAddress
  batchSequence := 1
  vkHash := vkHash
  appStatement := 0
  minaTransactionHash := 0
  stateBefore := ⟨fun _ => 0⟩
  stateAfter := ⟨fun index => if index = 3 then innerActionState else if index = 4 then 3 else 0⟩
  outerActionStateBefore := 0
  outerActionStateAfter := 0
  outerActionStateLengthBefore := 0
  outerActionStateLengthAfter := 0
  synchronizedOuterActionState := 0
  synchronizedOuterActionStateLength := 0
  slotLower := 0
  slotUpper := 7

/-- The lookup that knows the token of the batch. -/
def knownToken (identity : TokenWithdrawalIdentity) : Option Address :=
  if identity = ⟨2, 0, recordCommitment, assetRecord.assetId⟩ then some token else none

/-- The actions of the batch are classified. -/
theorem innerActions_classified : ∀ action ∈ innerActions, Classified knownToken action := by
  intro action haction
  rw [innerActions, List.mem_cons, List.mem_cons, List.mem_singleton] at haction
  rcases haction with rfl | rfl | rfl
  · exact ⟨Or.inr rfl, fun withdrawal habsent => nomatch habsent⟩
  · exact ⟨Or.inr rfl, fun withdrawal habsent => nomatch habsent⟩
  · refine ⟨Or.inl rfl, ?_⟩
    intro withdrawal hsome
    rw [← Option.some.inj hsome]
    rfl

/-- The batch of three withdrawals is recovered as it was stored, and the token
withdrawal has a proof. -/
theorem inner_action_builders_agree_batch :
    ∃ rows proof, recoverBatch referenceHashes knownToken 1 0 (archivedActions 0 0 innerActions) 1
        bridgeAddress ⟨(deriveV2Receipt referenceHashes settledValues ⟨bridgeAddress,
          innerActions⟩).toOption.elim 0 (·.innerActionRoot), 7, 100, 1, 2⟩ = .ok rows ∧
      buildInnerActionBatchProof referenceHashes rows 2 = .ok proof ∧
      proof.target.token = some token := by
  have hreceipt : (deriveV2Receipt referenceHashes settledValues
      ⟨bridgeAddress, innerActions⟩).toOption.isSome = true := by decide +kernel
  have haccepted := eq_ok_get hreceipt
  generalize (deriveV2Receipt referenceHashes settledValues
    ⟨bridgeAddress, innerActions⟩).toOption.get hreceipt = receipt at haccepted
  have hfacts := deriveV2Receipt_eq_ok referenceHashes haccepted
  rw [haccepted]
  have hrecords : SettlementRow.Records ⟨receipt.innerActionRoot, 7, 100, 1, 2⟩ receipt 100 1 2 :=
    ⟨rfl, by rw [hfacts.settlement_eq]; rfl, rfl, rfl, rfl⟩
  obtain ⟨hrecover, hstored, hserved⟩ := (inner_action_builders_agree environment 1 bridgeAddress
    knownToken innerActions innerActions_classified).2 settledValues receipt rfl haccepted 100 1 2
    ⟨receipt.innerActionRoot, 7, 100, 1, 2⟩ hrecords
  obtain ⟨rows, hrows⟩ := hstored (by rw [hfacts.settlement_eq]; decide)
  have hbatch := hserved rows hrows
  obtain ⟨proof, hproof, htarget, -⟩ := hbatch.served 2 (by decide)
  obtain ⟨row, hrow, hof⟩ := hbatch.stored 2 innerActions[2] rfl
  have hrecovered := (hrecover rows).mpr hrows
  rw [hfacts.settlement_eq, hfacts.startIndex_eq] at hrecovered
  refine ⟨rows, proof, hrecovered, hproof, ?_⟩
  have hsame : some row = some proof.target := hrow.symm.trans htarget.target_eq
  rw [← Option.some.inj hsame]
  have hcolumns := hof.columns_eq
  have htoken : (witnessColumns innerActions[2]).toOption.map (·.token) = some (some token) := by
    decide
  rw [hcolumns] at htoken
  exact Option.some.inj htoken

end EthereumSettlement.InnerActionRows
