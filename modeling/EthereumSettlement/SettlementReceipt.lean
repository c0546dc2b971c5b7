import EthereumSettlement.RegistryCheckpoint
import EthereumSettlement.SettlementCodec

/-!
# The settlement guest

The guest verifies a Pickles proof, recomputes the account update that the proof
binds, replays the inner actions of the batch and commits a receipt. The Pickles
verifier enters only through its verdict and the two app-state digests of the
proof. Every assertion of the guest is kept, with its text; cycle tracking and
the transport of the input are left out.
-/

namespace EthereumSettlement.SettlementReceipt

open ByteWords CheckedCalls HashCommitments PastaPoseidon InnerActionCommitment RegistryCheckpoint
open SettlementCodec

/-- `MinaSignatureKindV1`. -/
inductive MinaSignatureKindV1
  | mainnet
  | testnet
  deriving DecidableEq

/-- `PackedFieldV1`. -/
structure PackedFieldV1 where
  /-- The small value. -/
  value : Bytes32
  /-- Its width. -/
  bits : BitVec 16
  deriving DecidableEq

/-- `ChunkedRandomOracleInputV1`. -/
structure ChunkedRandomOracleInputV1 where
  /-- Whole field elements. -/
  fieldElements : List Bytes32
  /-- Small values, packed by their widths. -/
  packed : List PackedFieldV1
  deriving DecidableEq

/-- `CallForestNodeV3`: an account update with its child calls. -/
inductive CallForestNodeV3
  | node (accountUpdateBody : ChunkedRandomOracleInputV1) (calls : List CallForestNodeV3)

/-- `SettlementBindingV1`. -/
structure SettlementBindingV1 where
  /-- Network of the signature. -/
  minaSignatureKind : MinaSignatureKindV1
  /-- Hash input of the commit's account update. -/
  accountUpdateBody : ChunkedRandomOracleInputV1
  /-- Actions of the account update. -/
  actions : List (List Bytes32)
  /-- App state of the outer account. -/
  stateBefore : OuterStateV1
  /-- Account updates under the commit. -/
  callForest : List CallForestNodeV3

/-- `SettlementContextV1`. -/
structure SettlementContextV1 where
  /-- Identifier of the Ethereum chain. -/
  chainId : BitVec 64
  /-- Address of the settlement contract. -/
  settlementContract : Address
  /-- Sequence number of the receipt. -/
  batchSequence : BitVec 64
  /-- Hash of the Mina transaction that is settled. -/
  minaTransactionHash : Bytes32
  /-- Length of the outer action chain before the settlement. -/
  outerActionStateLengthBefore : BitVec 32
  deriving DecidableEq

/-- `InnerActionWitnessV2`. -/
structure InnerActionWitnessV2 where
  /-- Fields of the action. -/
  fields : List Bytes32
  /-- The native withdrawal it claims to be. -/
  withdrawal : Option NativeWithdrawalV2
  /-- The token withdrawal it claims to be. -/
  tokenWithdrawal : Option TokenWithdrawalV3
  deriving DecidableEq

/-- `InnerActionBatchWitnessV2`. -/
structure InnerActionBatchWitnessV2 where
  /-- Address of the bridge contract. -/
  bridgeAddress : Address
  /-- The inner actions, in order. -/
  actions : List InnerActionWitnessV2
  deriving DecidableEq

/-- `SettlementWitnessV1`. -/
structure SettlementWitnessV1 where
  /-- The transaction behind the app state. -/
  binding : SettlementBindingV1
  /-- What Ethereum expects. -/
  context : SettlementContextV1
  /-- The inner actions, from the second version on. -/
  innerActionBatch : Option InnerActionBatchWitnessV2
  /-- The appended record, in the third version. -/
  assetRegistryCheckpoint : Option AssetRegistryCheckpointV3
  /-- The appended records, in the fourth version. -/
  assetRegistryBatch : Option AssetRegistryBatchCheckpointV4

variable (H : Hashes)

/-- `StepField::MODULUS_BIT_SIZE`. -/
def modulusBitSize : ℕ := 255

/-- `pow2`. -/
def pow2 (bits : ℕ) : StepField := (fun value => value + value)^[bits] 1

/-- The packing loop of `hash_account_update_body`. -/
def packChunks : StepField → ℕ → List PackedFieldV1 → Except String (List StepField)
  | accumulator, accumulatorBits, [] => pure (if 0 < accumulatorBits then [accumulator] else [])
  | accumulator, accumulatorBits, chunk :: chunks => do
    let bits := chunk.bits.toNat
    require (0 < bits) "packed field width must be non-zero"
    require (bits < modulusBitSize) "packed field width exceeds Mina field capacity"
    let value ← fieldFromBytes chunk.value
    require (value.val < 2 ^ bits) "packed field does not fit declared width"
    if accumulatorBits + bits < modulusBitSize then
      packChunks (accumulator * pow2 bits + value) (accumulatorBits + bits) chunks
    else do
      let packed ← packChunks value bits chunks
      pure (accumulator :: packed)

/-- `hash_account_update_body`. -/
def hashAccountUpdateBody (signatureKind : MinaSignatureKindV1) (input : ChunkedRandomOracleInputV1) :
    Except String StepField := do
  let fields ← input.fieldElements.mapM fieldFromBytes
  let packed ← packChunks 0 0 input.packed
  pure (hashWithPrefix H (match signatureKind with
    | .mainnet => "MainnetZkappBody****"
    | .testnet => "TestnetZkappBody****") (fields ++ packed))

/-- `hash_call_forest_node`. -/
def hashCallForestNode (accountUpdate calls tail : StepField) : StepField :=
  hashWithPrefix H "MinaAcctUpdateCons**"
    [hashWithPrefix H "MinaAcctUpdateNode**" [accountUpdate, calls], tail]

mutual

/-- `hash_call_forest`: the last node is hashed first. -/
def hashCallForest (signatureKind : MinaSignatureKindV1) :
    List CallForestNodeV3 → Except String StepField
  | [] => pure 0
  | node :: forest => do
    let tail ← hashCallForest signatureKind forest
    hashCallForestEntry signatureKind node tail

/-- The loop body of `hash_call_forest`. -/
def hashCallForestEntry (signatureKind : MinaSignatureKindV1) :
    CallForestNodeV3 → StepField → Except String StepField
  | .node body calls, tail => do
    let accountUpdate ← hashAccountUpdateBody H signatureKind body
    let calls ← hashCallForest signatureKind calls
    pure (hashCallForestNode H accountUpdate calls tail)

end

/-- `registry_checkpoint_call_data`. -/
def registryCheckpointCallData (registryPublicKey root : Bytes32) (count schemaVersion : BitVec 32) :
    Except String Bytes32 := do
  let registry ← unpackPublicKey registryPublicKey
  let root ← fieldFromBytes root
  pure (fieldToBytes (hashWithPrefix H "Zeko registry checkpoint V2"
    [registry.1, registry.2, root, count.toNat, schemaVersion.toNat]))

mutual

/-- `count_registry_checkpoint_calls` against an already computed call-data word. -/
def countCallData (expectedCallData : Bytes32) : List CallForestNodeV3 → ℕ
  | [] => 0
  | node :: forest => countCallDataEntry expectedCallData node + countCallData expectedCallData forest

/-- The count of one node and its child calls. -/
def countCallDataEntry (expectedCallData : Bytes32) : CallForestNodeV3 → ℕ
  | .node body calls =>
    (if 16 < body.fieldElements.length ∧ body.fieldElements.getD 16 0 = expectedCallData
      then 1 else 0) + countCallData expectedCallData calls

end

/-- `count_registry_checkpoint_calls`. -/
def countRegistryCheckpointCalls (forest : List CallForestNodeV3) (registryPublicKey root : Bytes32)
    (count schemaVersion : BitVec 32) : Except String ℕ := do
  let expectedCallData ← registryCheckpointCallData H registryPublicKey root count schemaVersion
  pure (countCallData expectedCallData forest)

/-- `hash_actions`. -/
def hashActions (actions : List (List StepField)) : StepField :=
  actions.foldr (fun event result => hashWithPrefix H "MinaZkappSeqEvents**"
    [result, hashWithPrefix H "MinaZkappEvent******" event])
    (emptyHashWithPrefix H "MinaZkappActionsEmpty")

/-- `field_bytes_to_u32`. -/
def fieldBytesToU32 (value : Bytes32) : Except String (BitVec 32) := do
  require (value.toNat < 2 ^ 32) "field does not fit u32"
  pure (value.setWidth 32)

/-- `field_to_u32`. -/
def fieldToU32 (value : StepField) : Except String (BitVec 32) := fieldBytesToU32 (fieldToBytes value)

/-- The indices of the app state that a commit updates. -/
def updatedStateFields : List ℕ := [1, 2, 3, 4, 7]

/-- The registry part of `derive_receipt_for_app_state`: a V3 or V4 checkpoint
must be authenticated by exactly one child call. -/
def checkRegistryBinding (witness : SettlementWitnessV1) (calls : StepField) :
    Except String Unit := do
  let binding := witness.binding
  if witness.assetRegistryCheckpoint.isSome ∨ witness.assetRegistryBatch.isSome then do
    let forest ← hashCallForest H binding.minaSignatureKind binding.callForest
    require (forest = calls) "child call forest does not match the verified Pickles statement"
  match witness.assetRegistryCheckpoint with
  | none => pure ()
  | some checkpoint => do
    require (checkpoint.checkpointVersion = 2) "unsupported registry checkpoint commitment version"
    let matching ← countRegistryCheckpointCalls H binding.callForest checkpoint.registryPublicKey
      checkpoint.root checkpoint.count checkpoint.schemaVersion
    require (matching = 1) "registry checkpoint must match exactly one authenticated child call"
  match witness.assetRegistryBatch with
  | none => pure ()
  | some checkpoint => do
    require (checkpoint.checkpointVersion = 2) "unsupported registry checkpoint commitment version"
    let matching ← countRegistryCheckpointCalls H binding.callForest checkpoint.registryPublicKey
      checkpoint.root checkpoint.count checkpoint.schemaVersion
    require (matching = 1) "registry batch must match exactly one authenticated child call"

/-- `derive_receipt_for_app_state`. -/
def deriveReceiptForAppState (appState : List StepField) (witness : SettlementWitnessV1)
    (vkHash : Bytes32) : Except String SettlementPublicValuesV1 := do
  require (appState.length = 2) "Zeko settlement statement must contain body and calls digests"
  let binding := witness.binding
  let body ← binding.accountUpdateBody.fieldElements.mapM fieldFromBytes
  require (36 < body.length) "account-update body input is missing Zeko binding fields"
  let bodyHash ← hashAccountUpdateBody H binding.minaSignatureKind binding.accountUpdateBody
  require (bodyHash = appState.getD 0 0)
    "account-update body does not match the verified Pickles statement"
  checkRegistryBinding H witness (appState.getD 1 0)
  let actions ← binding.actions.mapM fun event => event.mapM fieldFromBytes
  require (actions.length = 1) "outer commit must emit exactly one action"
  let action := actions.getD 0 []
  require (action.length = 8) "invalid Zeko outer commit action width"
  require (action.getD 0 0 = 0) "outer action is not a commit"
  let actionsHash := hashActions H actions
  require (actionsHash = body.getD 15 0) "actions do not match the verified account-update body"
  let before ← (List.ofFn binding.stateBefore.fields).mapM fieldFromBytes
  require (∀ index ∈ List.range' 1 7, before.getD index 0 = body.getD (28 + index) 0)
    "source outer state does not match account preconditions"
  require (before.getD 1 0 = 0) "multisig commit source must not be paused or in emergency mode"
  let after := fun index : ℕ =>
    if index ∈ updatedStateFields then body.getD (2 + index) 0 else before.getD index 0
  require (action.getD 1 0 = after 2) "commit ledger mismatch"
  require (action.getD 2 0 = after 3) "commit inner action state mismatch"
  require (action.getD 3 0 = after 4) "commit inner action length mismatch"
  require (after 1 = 0) "multisig commit must clear paused/emergency flags"
  let outerBefore := body.getD 36 0
  let outerAfter := hashWithPrefix H "MinaZkappSeqEvents**" [outerBefore, actionsHash]
  let beforeLength := witness.context.outerActionStateLengthBefore
  let afterLength ← checkedAddU32 "outer action-state length overflow" beforeLength 1
  let synchronizedLength ← fieldToU32 (action.getD 5 0)
  let slotLower ← fieldToU32 (action.getD 6 0)
  let slotUpper ← fieldToU32 (action.getD 7 0)
  pure {
    daMode := .multisig
    chainId := witness.context.chainId
    settlementContract := witness.context.settlementContract
    batchSequence := witness.context.batchSequence
    vkHash := vkHash
    appStatement := fieldToBytes (appState.getD 0 0)
    minaTransactionHash := witness.context.minaTransactionHash
    stateBefore := ⟨fun index => fieldToBytes (before.getD index 0)⟩
    stateAfter := ⟨fun index => fieldToBytes (after index)⟩
    outerActionStateBefore := fieldToBytes outerBefore
    outerActionStateAfter := fieldToBytes outerAfter
    outerActionStateLengthBefore := beforeLength
    outerActionStateLengthAfter := afterLength
    synchronizedOuterActionState := fieldToBytes (action.getD 4 0)
    synchronizedOuterActionStateLength := synchronizedLength
    slotLower := slotLower
    slotUpper := slotUpper }

/-- `assert_native_withdrawal_preimage`. -/
def assertNativeWithdrawalPreimage (fields : List StepField) (withdrawal : NativeWithdrawalV2) :
    Except String Unit := do
  require (0 < withdrawal.amount) "native withdrawal amount must be non-zero"
  let recipient ← fieldFromAddress withdrawal.recipient
  require (fields.getD 1 0 = hashWithPrefix H "Withdrawal_params - qFB3jXP*)"
    [0, withdrawal.amount.toNat, recipient, 0]) "withdrawal preimage does not match action aux"

/-- `assert_erc20_withdrawal_preimage`. -/
def assertErc20WithdrawalPreimage (fields : List StepField) (withdrawal : TokenWithdrawalV3) :
    Except String Unit := do
  require (withdrawal.token ≠ 0) "ERC20 withdrawal token is zero"
  require (withdrawal.assetId ≠ 0) "ERC20 withdrawal asset id is zero"
  require (0 < withdrawal.amount) "ERC20 withdrawal amount must be non-zero"
  let params ← withdrawal.paramsFields.mapM fieldFromBytes
  require (9 ≤ params.length) "registry ERC20 withdrawal parameter preimage is truncated"
  require (withdrawal.encodingVersion = erc20ActionEncodingV2)
    "unsupported ERC20 withdrawal encoding version"
  require (withdrawal.recordCommitment ≠ 0) "registry ERC20 withdrawal record commitment is zero"
  require (params.getD 0 0 = erc20ActionEncodingV2.toNat)
    "ERC20 withdrawal encoding version mismatch"
  require (params.getD 1 0 = withdrawal.registryIndex.toNat)
    "ERC20 withdrawal registry index mismatch"
  let commitment ← fieldFromBytes withdrawal.recordCommitment
  require (params.getD 2 0 = commitment) "ERC20 withdrawal record commitment mismatch"
  let assetHigh ← fieldFromBytes (highLimb withdrawal.assetId)
  require (params.getD 3 0 = assetHigh) "ERC20 withdrawal asset high limb mismatch"
  let assetLow ← fieldFromBytes (lowLimb withdrawal.assetId)
  require (params.getD 4 0 = assetLow) "ERC20 withdrawal asset low limb mismatch"
  let base := params.length - 4
  require (params.getD (base + 1) 0 = withdrawal.amount.toNat) "ERC20 withdrawal amount mismatch"
  let recipient ← fieldFromAddress withdrawal.recipient
  require (params.getD (base + 2) 0 = recipient) "ERC20 withdrawal recipient mismatch"
  require (params.getD (base + 3) 0 = 0) "ERC20 withdrawal recipient parity must be even"
  require (fields.getD 1 0 = hashWithPrefix H "Ethereum ERC20 withdrawal V2" params)
    "ERC20 withdrawal preimage does not match action aux"

/-- The leaf of one action, chosen by the metadata the witness carries. -/
def innerActionLeaf (chainId : BitVec 64) (bridgeAddress : Address) (globalIndex : BitVec 32)
    (fields : List StepField) (action : InnerActionWitnessV2) (fieldsHash : Bytes32) :
    Except String Bytes32 :=
  match action.withdrawal, action.tokenWithdrawal with
  | some withdrawal, none => do
    assertNativeWithdrawalPreimage H fields withdrawal
    pure (nativeWithdrawalLeaf H chainId bridgeAddress globalIndex withdrawal fieldsHash)
  | none, some withdrawal => do
    assertErc20WithdrawalPreimage H fields withdrawal
    erc20WithdrawalLeaf H chainId bridgeAddress globalIndex withdrawal fieldsHash
  | none, none => pure (rawInnerActionLeaf H chainId bridgeAddress globalIndex fieldsHash)
  | some _, some _ => throw "inner action has multiple withdrawal preimages"

/-- The replay loop of `derive_v2_receipt`, from a given offset: the reached
action state and the leaves. -/
def replayInnerActions (chainId : BitVec 64) (bridgeAddress : Address) (startIndex : BitVec 32) :
    ℕ → StepField → List InnerActionWitnessV2 → Except String (StepField × List Bytes32)
  | _, replayed, [] => pure (replayed, [])
  | offset, replayed, action :: actions => do
    require (action.fields.length = 3) "invalid Zeko inner action width"
    let fields ← action.fields.mapM fieldFromBytes
    require (fields.getD 0 0 = 0) "invalid inner action tag"
    let eventHash := hashWithPrefix H "MinaZkappEvent******" fields
    let listHash := hashWithPrefix H "MinaZkappSeqEvents**"
      [emptyHashWithPrefix H "MinaZkappActionsEmpty", eventHash]
    let next := hashWithPrefix H "MinaZkappSeqEvents**" [replayed, listHash]
    require (offset < 2 ^ 32) "offset fits u32"
    let globalIndex ← checkedAddU32 "inner action index overflow" startIndex (BitVec.ofNat 32 offset)
    let fieldsHash ← actionFieldsHash H action.fields
    let leaf ← innerActionLeaf H chainId bridgeAddress globalIndex fields action fieldsHash
    let rest ← replayInnerActions chainId bridgeAddress startIndex (offset + 1) next actions
    pure (rest.1, leaf :: rest.2)

/-- `derive_v2_receipt`. -/
def deriveV2Receipt (settlement : SettlementPublicValuesV1) (batch : InnerActionBatchWitnessV2) :
    Except String SettlementPublicValuesV2 := do
  require (batch.actions.length ≤ maxLeaves) "too many inner actions"
  let stateBefore ← fieldFromBytes settlement.stateBefore.innerActionState
  let stateAfter ← fieldFromBytes settlement.stateAfter.innerActionState
  let startIndex ← fieldBytesToU32 settlement.stateBefore.innerActionStateLength
  let endIndex ← fieldBytesToU32 settlement.stateAfter.innerActionStateLength
  require (startIndex.toNat + batch.actions.length = endIndex.toNat)
    "inner action count does not match committed length transition"
  let replay ← replayInnerActions H settlement.chainId batch.bridgeAddress startIndex 0 stateBefore
    batch.actions
  require (replay.1 = stateAfter) "inner actions do not reach proof-bound action state"
  let innerActionRoot ← root H replay.2
  pure ⟨settlement, batch.bridgeAddress, innerActionRoot, startIndex,
    BitVec.ofNat 32 batch.actions.length⟩

/-- `derive_receipt_bytes` up to the final encoding of the receipt. -/
def deriveReceiptValues (appState : List StepField) (witness : SettlementWitnessV1)
    (vkHash : Bytes32) : Except String SettlementPublicValues := do
  let v1 ← deriveReceiptForAppState H appState witness vkHash
  let chainId := witness.context.chainId
  match witness.innerActionBatch, witness.assetRegistryCheckpoint, witness.assetRegistryBatch with
  | none, none, none => pure (.v1 v1)
  | some batch, none, none => do
    let v2 ← deriveV2Receipt H v1 batch
    pure (.v2 v2)
  | some batch, some checkpoint, none => do
    validateRegistryTransition H checkpoint chainId batch.bridgeAddress
    require (checkpoint.root ≠ 0) "asset registry root is zero"
    require (0 < checkpoint.count) "asset registry count is zero"
    require (checkpoint.schemaVersion = 1) "unsupported asset registry schema"
    require (checkpoint.recordHash ≠ 0) "asset registry record hash is zero"
    let v2 ← deriveV2Receipt H v1 batch
    let commitment ← hashRegistryRecordLeaf H checkpoint.record
    pure (.v3 ⟨v2, checkpoint.root, checkpoint.count, checkpoint.schemaVersion,
      checkpoint.recordHash, fieldToBytes commitment⟩)
  | some batch, none, some checkpoint => do
    let identities ← validateRegistryBatch H checkpoint chainId batch.bridgeAddress
    let batchRoot ← assetRecordBatchRoot H identities
    let v2 ← deriveV2Receipt H v1 batch
    pure (.v4 ⟨v2, checkpoint.root, checkpoint.count, checkpoint.schemaVersion, batchRoot,
      BitVec.ofNat 32 identities.length⟩)
  | none, some _, none => throw "asset registry checkpoint requires a V2 inner-action batch"
  | none, none, some _ => throw "asset registry checkpoint requires a V2 inner-action batch"
  | _, some _, some _ => throw "V3 and V4 asset registry checkpoints are mutually exclusive"

/-- `derive_receipt_bytes`. -/
def deriveReceiptBytes (appState : List StepField) (witness : SettlementWitnessV1)
    (vkHash : Bytes32) : Except String Bytes := do
  let values ← deriveReceiptValues H appState witness vkHash
  pure values.encode

/-- `commit_zkapp_public_values`: the 577-byte commitment without a witness. -/
def commitZkappPublicValues (proofValid : Bool) (vkHash : Bytes32) : Bytes :=
  bytesOf (if proofValid then 1 else 0 : Byte) ++ (bytesOf vkHash ++ List.replicate 544 0)

/-- What the guest needs of the Pickles verifier: its verdict, and the app state
that a proof carries. -/
structure PicklesVerdict where
  /-- `VerifiableProof`. -/
  Proof : Type
  /-- `VerifiableProof::app_state`. -/
  appState : Proof → List StepField
  /-- `verify` against the verifier blob of the guest. -/
  verify : Proof → Bool

/-- Everything one execution of the guest reads. -/
structure SettlementGuestInput (V : PicklesVerdict) where
  /-- The Pickles proof. -/
  proof : V.Proof
  /-- The witness of a settlement. -/
  settlement : Option SettlementWitnessV1

/-- The settlement guest: the bytes it commits, or the assertion that stops it. -/
def settlementGuest (V : PicklesVerdict) (vkHash : Bytes32) (input : SettlementGuestInput V) :
    Except String Bytes := do
  require (V.verify input.proof = true) "Pickles proof verification failed"
  match input.settlement with
  | some witness => deriveReceiptBytes H (V.appState input.proof) witness vkHash
  | none => pure (commitZkappPublicValues (V.verify input.proof) vkHash)

/-- The leaf string of one action. An action with both kinds of metadata has no
leaf; the guest stops at it. -/
def innerActionInput (chainId : BitVec 64) (bridgeAddress : Address) (globalIndex : BitVec 32)
    (action : InnerActionWitnessV2) : Bytes :=
  let fieldsHash := H.keccak256 (actionFieldsInput H action.fields)
  match action.withdrawal, action.tokenWithdrawal with
  | some withdrawal, none =>
    nativeWithdrawalInput H chainId bridgeAddress globalIndex withdrawal fieldsHash
  | none, some withdrawal =>
    erc20WithdrawalInput H chainId bridgeAddress globalIndex withdrawal fieldsHash
  | _, _ => rawInnerActionInput H chainId bridgeAddress globalIndex fieldsHash

/-- The leaf strings of a batch, from a given offset. -/
def innerActionInputs (chainId : BitVec 64) (bridgeAddress : Address) (startIndex : BitVec 32) :
    ℕ → List InnerActionWitnessV2 → List Bytes
  | _, [] => []
  | offset, action :: actions =>
    innerActionInput H chainId bridgeAddress (startIndex + BitVec.ofNat 32 offset) action ::
      innerActionInputs chainId bridgeAddress startIndex (offset + 1) actions

/-- Every leaf and node string of a batch's claim tree. -/
def batchInputs (settlement : SettlementPublicValuesV1) (batch : InnerActionBatchWitnessV2) :
    List Bytes :=
  let leafInputs := innerActionInputs H settlement.chainId batch.bridgeAddress
    (settlement.stateBefore.innerActionStateLength.setWidth 32) 0 batch.actions
  leafInputs ++ rootInputs H (leafInputs.map H.keccak256)

/-- Every string of a V4 record tree. -/
def recordBatchInputs (checkpoint : AssetRegistryBatchCheckpointV4) (chainId : BitVec 64)
    (bridgeAddress : Address) : List Bytes :=
  checkpoint.appends.map (fun append => canonicalAssetRecordInput H append.record) ++
  match validateRegistryBatch H checkpoint chainId bridgeAddress with
  | .error _ => []
  | .ok identities =>
    identities.map (fun identity =>
      assetRecordBatchLeafInput H identity.recordHash identity.recordCommitment) ++
    match placeRecords H (List.replicate maxAssetRecords 0) identities with
    | .error _ => []
    | .ok level => (climbPairs (assetRecordBatchNode H) assetRegistryTreeDepth 0 level).map
        (assetRecordBatchNodeInput H)

/-- The leaf, node and record strings hashed by one execution of the guest. -/
def settlementGuestInputs (V : PicklesVerdict) (vkHash : Bytes32) (input : SettlementGuestInput V) :
    List Bytes :=
  match input.settlement with
  | none => []
  | some witness =>
    match deriveReceiptForAppState H (V.appState input.proof) witness vkHash,
      witness.innerActionBatch with
    | .ok v1, some batch =>
      batchInputs H v1 batch ++
      (witness.assetRegistryCheckpoint.elim [] fun checkpoint =>
        [canonicalAssetRecordInput H checkpoint.record]) ++
      (witness.assetRegistryBatch.elim [] fun checkpoint =>
        recordBatchInputs H checkpoint witness.context.chainId batch.bridgeAddress)
    | _, _ => []

/-- The settled app-state field at an index. -/
def stateAfterField (body before : List StepField) (index : ℕ) : StepField :=
  if index ∈ updatedStateFields then body.getD (2 + index) 0 else before.getD index 0

/-- What a successful `derive_receipt_for_app_state` establishes about the body,
the action and the source state that the witness carries. -/
structure ReceiptDerived (appState : List StepField) (witness : SettlementWitnessV1)
    (vkHash : Bytes32) (body action before : List StepField) (v : SettlementPublicValuesV1) :
    Prop where
  /-- The body is canonical and long enough. -/
  body_eq : witness.binding.accountUpdateBody.fieldElements.mapM fieldFromBytes = .ok body
  /-- The body reaches its last read element. -/
  body_length : 36 < body.length
  /-- The body is bound by the statement. -/
  bodyHash : hashAccountUpdateBody H witness.binding.minaSignatureKind
    witness.binding.accountUpdateBody = .ok (appState.getD 0 0)
  /-- There is one action, and the body binds it. -/
  actions_eq : witness.binding.actions.mapM (fun event => event.mapM fieldFromBytes) = .ok [action]
  /-- There is one action of eight fields. -/
  action_length : action.length = 8
  /-- The body has its hash. -/
  actionsHash : hashActions H [action] = body.getD 15 0
  /-- The source state is canonical and bound by the preconditions. -/
  before_eq : (List.ofFn witness.binding.stateBefore.fields).mapM fieldFromBytes = .ok before
  /-- The body's preconditions are the source state. -/
  preconditions : ∀ index ∈ List.range' 1 7, before.getD index 0 = body.getD (28 + index) 0
  /-- The action repeats the settled inner state. -/
  commitInner : action.getD 2 0 = stateAfterField body before 3
  /-- The action has the new inner length. -/
  commitLength : action.getD 3 0 = stateAfterField body before 4
  /-- The mode is the supported one. -/
  daMode_eq : v.daMode = .multisig
  /-- The chain is that of the context. -/
  chainId_eq : v.chainId = witness.context.chainId
  /-- The contract is that of the context. -/
  settlementContract_eq : v.settlementContract = witness.context.settlementContract
  /-- The sequence number is that of the context. -/
  batchSequence_eq : v.batchSequence = witness.context.batchSequence
  /-- The digest is that of the guest's verifier index. -/
  vkHash_eq : v.vkHash = vkHash
  /-- The statement is the proved app state. -/
  appStatement_eq : v.appStatement = fieldToBytes (appState.getD 0 0)
  /-- The transaction is that of the context. -/
  minaTransactionHash_eq : v.minaTransactionHash = witness.context.minaTransactionHash
  /-- The source state is that of the binding. -/
  stateBefore_eq : v.stateBefore = ⟨fun index => fieldToBytes (before.getD index 0)⟩
  /-- The new state is that of the body. -/
  stateAfter_eq : v.stateAfter = ⟨fun index => fieldToBytes (stateAfterField body before index)⟩
  /-- The action state before is the body's precondition. -/
  outerBefore_eq : v.outerActionStateBefore = fieldToBytes (body.getD 36 0)
  /-- The action state after takes the action. -/
  outerAfter_eq : v.outerActionStateAfter = fieldToBytes
    (hashWithPrefix H "MinaZkappSeqEvents**" [body.getD 36 0, hashActions H [action]])
  /-- The outer length is that of the context. -/
  lengthBefore_eq : v.outerActionStateLengthBefore = witness.context.outerActionStateLengthBefore
  /-- The outer length grows by one. -/
  lengthAfter_eq : checkedAddU32 "outer action-state length overflow"
    witness.context.outerActionStateLengthBefore 1 = .ok v.outerActionStateLengthAfter
  /-- The synchronized state is the action's. -/
  synchronized_eq : v.synchronizedOuterActionState = fieldToBytes (action.getD 4 0)
  /-- The synchronized length is the action's. -/
  synchronizedLength_eq : fieldToU32 (action.getD 5 0) = .ok v.synchronizedOuterActionStateLength
  /-- The lower slot is the action's. -/
  slotLower_eq : fieldToU32 (action.getD 6 0) = .ok v.slotLower
  /-- The upper slot is the action's. -/
  slotUpper_eq : fieldToU32 (action.getD 7 0) = .ok v.slotUpper

/-- `derive_receipt_for_app_state` establishes its record of facts. -/
theorem deriveReceiptForAppState_eq_ok {appState : List StepField} {witness : SettlementWitnessV1}
    {vkHash : Bytes32} {v : SettlementPublicValuesV1}
    (h : deriveReceiptForAppState H appState witness vkHash = .ok v) :
    ∃ body action before, ReceiptDerived H appState witness vkHash body action before v := by
  simp only [deriveReceiptForAppState, bind_eq_ok, require_eq_ok, exists_const, pure_eq_ok] at h
  obtain ⟨-, body, hbody, hlength, bodyHash, hbodyHash, hstatement, u, -, actions, hactions, hone,
    hwidth, -, hhash, before, hbefore, hsource, -, -, hinner, hinnerLength, -, lengthAfter,
    hlengthAfter, synchronizedLength, hsynchronized, slotLower, hlower, slotUpper, hupper, rfl⟩ := h
  obtain ⟨action, rfl⟩ := List.length_eq_one_iff.mp hone
  rw [hstatement] at hbodyHash
  exact ⟨body, action, before, hbody, hlength, hbodyHash, hactions, hwidth, hhash, hbefore, hsource,
    hinner, hinnerLength, rfl, rfl, rfl, rfl, rfl, rfl, rfl, rfl, rfl, rfl, rfl, rfl, hlengthAfter,
    rfl, hsynchronized, hlower, hupper⟩

/-- The guest's checks of one action's metadata passed. -/
def ActionChecked (action : InnerActionWitnessV2) : Prop :=
  ∃ fields, action.fields.mapM fieldFromBytes = .ok fields ∧
    match action.withdrawal, action.tokenWithdrawal with
    | some withdrawal, none => assertNativeWithdrawalPreimage H fields withdrawal = .ok ()
    | none, some withdrawal => assertErc20WithdrawalPreimage H fields withdrawal = .ok ()
    | none, none => True
    | some _, some _ => False

/-- A built leaf is the hash of the action's leaf string, and its metadata was
checked. -/
theorem innerActionLeaf_eq_ok {chainId : BitVec 64} {bridgeAddress : Address}
    {globalIndex : BitVec 32} {fields : List StepField} {action : InnerActionWitnessV2}
    {leaf : Bytes32} (hfields : action.fields.mapM fieldFromBytes = .ok fields)
    (h : innerActionLeaf H chainId bridgeAddress globalIndex fields action
      (H.keccak256 (actionFieldsInput H action.fields)) = .ok leaf) :
    leaf = H.keccak256 (innerActionInput H chainId bridgeAddress globalIndex action) ∧
      ActionChecked H action := by
  unfold innerActionLeaf at h
  unfold innerActionInput ActionChecked
  cases hw : action.withdrawal with
  | some withdrawal =>
    cases ht : action.tokenWithdrawal with
    | some token =>
      simp only [hw, ht, throw_eq_ok] at h
    | none =>
      simp only [hw, ht, bind_eq_ok, pure_eq_ok] at h
      obtain ⟨u, hcheck, hleaf⟩ := h
      exact ⟨hleaf.symm, fields, hfields, hcheck⟩
  | none =>
    cases ht : action.tokenWithdrawal with
    | some token =>
      simp only [hw, ht, bind_eq_ok, require_eq_ok, exists_const, erc20WithdrawalLeaf, pure_eq_ok] at h
      obtain ⟨u, hcheck, -, hleaf⟩ := h
      exact ⟨hleaf.symm, fields, hfields, hcheck⟩
    | none =>
      simp only [hw, ht, pure_eq_ok] at h
      exact ⟨h.symm, fields, hfields, trivial⟩

/-- A finished replay has hashed exactly the batch's leaf strings and has
checked the metadata of every action. -/
theorem replayInnerActions_eq_ok {chainId : BitVec 64} {bridgeAddress : Address}
    {startIndex : BitVec 32} {offset : ℕ} {replayed : StepField}
    {actions : List InnerActionWitnessV2} {result : StepField × List Bytes32}
    (h : replayInnerActions H chainId bridgeAddress startIndex offset replayed actions = .ok result) :
    result.2 = (innerActionInputs H chainId bridgeAddress startIndex offset actions).map H.keccak256 ∧
      ∀ action ∈ actions, ActionChecked H action := by
  induction actions generalizing offset replayed result with
  | nil =>
    rw [replayInnerActions, pure_eq_ok] at h
    rw [← h]
    simp [innerActionInputs]
  | cons action actions ih =>
    simp only [replayInnerActions, bind_eq_ok, require_eq_ok, exists_const, pure_eq_ok] at h
    obtain ⟨-, fields, hfields, -, -, globalIndex, hindex, fieldsHash, hhash, leaf, hleaf, rest, hrest,
      rfl⟩ := h
    simp only [actionFieldsHash, require_bind_eq_ok, pure_eq_ok] at hhash
    rw [← hhash.2, eq_add_of_checkedAdd hindex] at hleaf
    obtain ⟨hleafEq, hchecked⟩ := innerActionLeaf_eq_ok H hfields hleaf
    obtain ⟨hleaves, hall⟩ := ih hrest
    refine ⟨?_, ?_⟩
    · rw [innerActionInputs, List.map_cons, ← hleafEq, ← hleaves]
    · intro other hmem
      rcases List.mem_cons.mp hmem with rfl | hmem
      · exact hchecked
      · exact hall other hmem

/-- There is one leaf string for each action. -/
@[simp] theorem innerActionInputs_length (chainId : BitVec 64) (bridgeAddress : Address)
    (startIndex : BitVec 32) (offset : ℕ) (actions : List InnerActionWitnessV2) :
    (innerActionInputs H chainId bridgeAddress startIndex offset actions).length =
      actions.length := by
  induction actions generalizing offset with
  | nil => rfl
  | cons action actions ih => rw [innerActionInputs, List.length_cons, ih, List.length_cons]

/-- The leaf string at a position is that of the action at the position. -/
theorem innerActionInputs_getElem (chainId : BitVec 64) (bridgeAddress : Address)
    (startIndex : BitVec 32) (offset : ℕ) (actions : List InnerActionWitnessV2) (k : ℕ)
    (hk : k < actions.length) :
    (innerActionInputs H chainId bridgeAddress startIndex offset actions)[k]? =
      some (innerActionInput H chainId bridgeAddress (startIndex + BitVec.ofNat 32 (offset + k))
        actions[k]) := by
  induction actions generalizing offset k with
  | nil => simp at hk
  | cons action actions ih =>
    cases k with
    | zero => rfl
    | succ k =>
      have hrest := ih (offset + 1) k (by simpa using hk)
      rw [innerActionInputs, List.getElem?_cons_succ, hrest, List.getElem_cons_succ]
      congr 4
      omega

/-- What a successful `derive_v2_receipt` establishes. -/
structure BatchAccepted (settlement : SettlementPublicValuesV1) (batch : InnerActionBatchWitnessV2)
    (receipt : SettlementPublicValuesV2) : Prop where
  /-- The first-version fields are passed on. -/
  settlement_eq : receipt.settlement = settlement
  /-- The receipt names the bridge of the witness. -/
  bridgeAddress_eq : receipt.bridgeAddress = batch.bridgeAddress
  /-- The range starts at the source length. -/
  startIndex_eq : receipt.innerActionStartIndex =
    settlement.stateBefore.innerActionStateLength.setWidth 32
  /-- The claim tree has room for the batch. -/
  capacity : batch.actions.length ≤ maxLeaves
  /-- The count is the number of actions. -/
  count_eq : receipt.innerActionCount.toNat = batch.actions.length
  /-- The root is that of the padded leaves. -/
  root_eq : receipt.innerActionRoot = treeRoot (hashNode H) treeDepth
    (padded 0 ((innerActionInputs H settlement.chainId batch.bridgeAddress
      receipt.innerActionStartIndex 0 batch.actions).map H.keccak256))
  /-- Every action's metadata was checked. -/
  checked : ∀ action ∈ batch.actions, ActionChecked H action

/-- `derive_v2_receipt` establishes its record of facts. -/
theorem deriveV2Receipt_eq_ok {settlement : SettlementPublicValuesV1}
    {batch : InnerActionBatchWitnessV2} {receipt : SettlementPublicValuesV2}
    (h : deriveV2Receipt H settlement batch = .ok receipt) :
    BatchAccepted H settlement batch receipt := by
  simp only [deriveV2Receipt, bind_eq_ok, require_eq_ok, exists_const, pure_eq_ok, fieldBytesToU32] at h
  obtain ⟨hcap, stateBefore, -, stateAfter, -, startIndex, ⟨-, hstart⟩, endIndex, -, -, replay,
    hreplay, -, innerRoot, hroot, rfl⟩ := h
  obtain ⟨hleaves, hchecked⟩ := replayInnerActions_eq_ok H hreplay
  obtain ⟨-, hrootEq⟩ := (root_eq_ok H).mp hroot
  have hsmall : batch.actions.length < 2 ^ 32 := lt_of_le_of_lt hcap (by decide)
  refine ⟨rfl, rfl, hstart.symm, hcap, ?_, ?_, hchecked⟩
  · dsimp only
    rw [BitVec.toNat_ofNat, Nat.mod_eq_of_lt hsmall]
  · rw [← hleaves]
    exact hrootEq

/-- The receipt carries a batch exactly when its witness does, and then the
batch was accepted by the guest. -/
theorem deriveReceiptValues_eq_ok {appState : List StepField} {witness : SettlementWitnessV1}
    {vkHash : Bytes32} {values : SettlementPublicValues}
    (h : deriveReceiptValues H appState witness vkHash = .ok values) :
    deriveReceiptForAppState H appState witness vkHash = .ok values.settlement ∧
      ∀ receipt, values.innerActionBatch = some receipt →
        ∃ batch, witness.innerActionBatch = some batch ∧
          BatchAccepted H values.settlement batch receipt := by
  rw [deriveReceiptValues, bind_eq_ok] at h
  obtain ⟨v1, hv1, hmatch⟩ := h
  have hbatch : ∀ {batch : InnerActionBatchWitnessV2} {v2 : SettlementPublicValuesV2},
      deriveV2Receipt H v1 batch = .ok v2 →
        deriveReceiptForAppState H appState witness vkHash = .ok v2.settlement ∧
          BatchAccepted H v2.settlement batch v2 := by
    intro batch v2 hv2
    have haccepted := deriveV2Receipt_eq_ok H hv2
    rw [haccepted.settlement_eq]
    exact ⟨hv1, haccepted⟩
  dsimp only at hmatch
  split at hmatch
  · rw [pure_eq_ok] at hmatch
    subst hmatch
    refine ⟨hv1, ?_⟩
    intro receipt hreceipt
    cases hreceipt
  · rename_i batch hw _ _
    simp only [bind_eq_ok, pure_eq_ok] at hmatch
    obtain ⟨v2, hv2, rfl⟩ := hmatch
    obtain ⟨hsettlement, haccepted⟩ := hbatch hv2
    refine ⟨hsettlement, ?_⟩
    intro receipt hreceipt
    cases hreceipt
    exact ⟨batch, hw, haccepted⟩
  · rename_i batch checkpoint hw _ _
    simp only [bind_eq_ok, require_eq_ok, exists_const, pure_eq_ok] at hmatch
    obtain ⟨u, -, -, -, -, -, v2, hv2, commitment, -, rfl⟩ := hmatch
    obtain ⟨hsettlement, haccepted⟩ := hbatch hv2
    refine ⟨hsettlement, ?_⟩
    intro receipt hreceipt
    cases hreceipt
    exact ⟨batch, hw, haccepted⟩
  · rename_i batch checkpoint hw _ _
    simp only [bind_eq_ok, pure_eq_ok] at hmatch
    obtain ⟨identities, -, batchRoot, -, v2, hv2, rfl⟩ := hmatch
    obtain ⟨hsettlement, haccepted⟩ := hbatch hv2
    refine ⟨hsettlement, ?_⟩
    intro receipt hreceipt
    cases hreceipt
    exact ⟨batch, hw, haccepted⟩
  all_goals exact absurd hmatch (by simp [throw_eq_ok])

/-- A commitment the contract can decode is a receipt derived from a witness of
a verified proof, and it decodes to that receipt. -/
theorem settlementGuest_decoded {V : PicklesVerdict} {vkHash : Bytes32}
    {input : SettlementGuestInput V} {publicValues : Bytes} {decoded : DecodedPublicValues}
    (hguest : settlementGuest H V vkHash input = .ok publicValues)
    (hdecode : decodePublicValues publicValues = .ok decoded) :
    ∃ witness values, input.settlement = some witness ∧
      deriveReceiptValues H (V.appState input.proof) witness vkHash = .ok values ∧
      publicValues = values.encode ∧ decoded = values.decoded := by
  rw [settlementGuest, require_bind_eq_ok] at hguest
  obtain ⟨-, hmatch⟩ := hguest
  split at hmatch
  · rename_i witness hwitness
    simp only [deriveReceiptBytes, bind_eq_ok, pure_eq_ok] at hmatch
    obtain ⟨values, hvalues, rfl⟩ := hmatch
    have hdecoded := decodePublicValues_encode values
    rw [hdecode] at hdecoded
    exact ⟨witness, values, hwitness, hvalues, rfl, Except.ok.inj hdecoded⟩
  · rw [pure_eq_ok] at hmatch
    have hlength : publicValues.length = 577 := by
      rw [← hmatch, commitZkappPublicValues, List.length_append, List.length_append, bytesOf_length,
        bytesOf_length, List.length_replicate]
    obtain ⟨⟨-, -, hversion, -⟩, -⟩ := decodePublicValues_eq_ok.mp hdecode
    have hsupported : publicValuesLength (readWord 16 publicValues 4) ≠ 577 := by
      unfold publicValuesLength
      split
      · decide
      · split
        · decide
        · split <;> decide
    exact absurd (hversion.symm.trans hlength) hsupported

end EthereumSettlement.SettlementReceipt
