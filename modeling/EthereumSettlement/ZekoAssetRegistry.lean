import EthereumSettlement.EthereumZekoBridge

/-!
# The asset-registry facet

`ZekoAssetRegistry` runs in the bridge's context: it keeps its own namespaced
storage and changes custody configuration through two callbacks that only the
bridge itself may call. Both callbacks are therefore internal here.
-/

namespace EthereumSettlement.ZekoAssetRegistry

open ByteWords CheckedCalls HashCommitments PastaPoseidon InnerActionCommitment RegistryCheckpoint
open BridgeCodec ZekoSettlement EthereumZekoBridge

variable (env : Environment) {W : TokenWorld}

/-- `AssetRecord`: the same eleven fields as the guest's canonical record. -/
abbrev AssetRecord := CanonicalAssetRecordV1

/-- `_hashAssetRecord`. -/
def hashAssetRecord (record : AssetRecord) : Bytes32 := hashCanonicalAssetRecord env.hashes record

/-- `_computeERC20AssetId`. -/
def computeERC20AssetId (token : Address) (zekoTokenOwner zekoTokenId : Bytes32)
    (decimals : BitVec 8) : Bytes32 :=
  env.hashes.keccak256 (assetIdInput env.hashes env.chainId (toWord env.bridgeAddress)
    (toWord token) zekoTokenOwner zekoTokenId (toWord decimals))

/-- The L2 identity of a record. -/
def l2Identity (record : AssetRecord) : Bytes32 :=
  env.hashes.keccak256 (abiEncode [record.tokenOwnerL2, record.tokenIdL2])

/-- The `onlyBridgeAdmin` modifier. -/
def onlyBridgeAdmin (c : Chain W) (sender : Address) : Except BridgeError Unit :=
  require (c.bridge.hasRole (adminRole env) sender = true) (.unauthorizedAssetRegistryCaller sender)

/-- The field checks of `proposeAsset`. -/
def WellFormedProposal (c : Chain W) (record : AssetRecord) : Prop :=
  record.schemaVersion = 1 ∧ record.registryIndex = c.registry.proposedAssetCount ∧
  record.registryIndex.toNat < 256 ∧ record.ethereumToken ≠ 0 ∧ record.assetId ≠ 0 ∧
  record.tokenOwnerL2 ≠ 0 ∧ record.tokenIdL2 ≠ 0 ∧ record.decimals ≤ 9 ∧
  record.inventoryCap ≠ 0 ∧ record.mftStandardVkId ≠ 0 ∧ record.vaultPublicKey ≠ 0 ∧
  record.universalBridgeVkId ≠ 0 ∧ record.tokenOwnerL2 ≠ record.vaultPublicKey

instance (c : Chain W) (record : AssetRecord) : Decidable (WellFormedProposal c record) :=
  inferInstanceAs (Decidable (_ ∧ _))

/-- `proposeAsset`. -/
def proposeAsset (c : Chain W) (ctx : CallContext) (record : AssetRecord) : BridgeCall W := do
  onlyBridgeAdmin env c ctx.sender
  require (WellFormedProposal c record) .invalidAssetRecord
  let token := record.ethereumToken
  require (c.bridge.canonicalTokenRegistered token = false ∧
    c.registry.assetStatusByToken token = .none ∧ (c.bridge.allowedToken token).allowed = false)
    (.tokenAlreadyAdded token)
  let actualDecimals ← callToken token (W.decimals c.tokens token)
  require (actualDecimals = record.decimals)
    (.invalidEthereumDecimals token record.decimals actualDecimals)
  require (record.assetId =
    computeERC20AssetId env token record.tokenOwnerL2 record.tokenIdL2 record.decimals)
    .invalidAssetRecord
  let recordHash := hashAssetRecord env record
  require (c.registry.proposedAssetRecord recordHash = false) (.assetRecordAlreadyProposed recordHash)
  require (c.registry.proposedAssetId record.assetId = false)
    (.assetIdentityAlreadyProposed record.assetId)
  let identity := l2Identity env record
  require (c.registry.proposedL2TokenIdentity identity = false)
    (.assetIdentityAlreadyProposed identity)
  let nextCount ← checkedAdd .arithmeticPanic record.registryIndex 1
  pure ({ c with registry := {
    assetRecordByToken := Function.update c.registry.assetRecordByToken token record
    assetTokenByRegistryIndex :=
      Function.update c.registry.assetTokenByRegistryIndex record.registryIndex token
    assetStatusByToken := Function.update c.registry.assetStatusByToken token .pending
    proposedAssetRecord := Function.update c.registry.proposedAssetRecord recordHash true
    proposedAssetId := Function.update c.registry.proposedAssetId record.assetId true
    proposedL2TokenIdentity := Function.update c.registry.proposedL2TokenIdentity identity true
    proposedAssetCount := nextCount } }.emit [.assetRegistrationProposed recordHash record])

/-- `cancelLastPendingAsset`. -/
def cancelLastPendingAsset (c : Chain W) (ctx : CallContext) (token : Address) : BridgeCall W := do
  onlyBridgeAdmin env c ctx.sender
  let record := c.registry.assetRecordByToken token
  let recordHash := hashAssetRecord env record
  require (c.registry.assetStatusByToken token = .pending) (.assetRecordNotPending recordHash)
  let proposedCount := c.registry.proposedAssetCount
  let notTail := BridgeError.assetProposalNotTail token record.registryIndex proposedCount
  require (proposedCount ≠ 0) notTail
  let nextIndex ← checkedAdd .arithmeticPanic record.registryIndex 1
  require (nextIndex = proposedCount ∧
    c.registry.assetTokenByRegistryIndex record.registryIndex = token) notTail
  let settledCount := c.settlement.assetRegistryCount
  require (settledCount ≤ record.registryIndex ∧ c.settlement.settledAssetRecord recordHash = false)
    (.assetProposalAlreadySettled recordHash record.registryIndex settledCount)
  pure ({ c with registry := {
    assetRecordByToken := Function.update c.registry.assetRecordByToken token zeroRecord
    assetTokenByRegistryIndex :=
      Function.update c.registry.assetTokenByRegistryIndex record.registryIndex 0
    assetStatusByToken := Function.update c.registry.assetStatusByToken token .none
    proposedAssetRecord := Function.update c.registry.proposedAssetRecord recordHash false
    proposedAssetId := Function.update c.registry.proposedAssetId record.assetId false
    proposedL2TokenIdentity :=
      Function.update c.registry.proposedL2TokenIdentity (l2Identity env record) false
    proposedAssetCount := record.registryIndex } }.emit
    [.assetRegistrationCancelled recordHash record.registryIndex token])

/-- `_pendingRecord`. -/
def pendingRecord (c : Chain W) (token : Address) : Except BridgeError (AssetRecord × Bytes32) := do
  let record := c.registry.assetRecordByToken token
  let recordHash := hashAssetRecord env record
  require (c.registry.assetStatusByToken token = .pending) (.assetRecordNotPending recordHash)
  pure (record, recordHash)

/-- `activateAssetRecordFromRegistry`, the bridge's callback. -/
def activateAssetRecordFromRegistry (c : Chain W) (record : AssetRecord)
    (recordCommitment : Bytes32) : BridgeCall W := do
  let token := record.ethereumToken
  require (c.bridge.canonicalTokenRegistered token = false) (.tokenAlreadyAdded token)
  require (recordCommitment ≠ 0) (.canonicalRecordNotBound token)
  pure ({ c with bridge := { c.bridge with
    canonicalTokenRegistered := Function.update c.bridge.canonicalTokenRegistered token true
    zekoTokenOwnerByToken := Function.update c.bridge.zekoTokenOwnerByToken token record.tokenOwnerL2
    zekoTokenIdByToken := Function.update c.bridge.zekoTokenIdByToken token record.tokenIdL2
    assetIdByToken := Function.update c.bridge.assetIdByToken token record.assetId
    depositCapByToken := Function.update c.bridge.depositCapByToken token record.inventoryCap
    registryIndexByToken := Function.update c.bridge.registryIndexByToken token record.registryIndex
    recordCommitmentByToken :=
      Function.update c.bridge.recordCommitmentByToken token recordCommitment
    allowedToken := Function.update c.bridge.allowedToken token
      ⟨record.decimals, record.decimals, true⟩ } }.emit
    [.tokenAllowed token true record.decimals record.decimals,
      .tokenRegistered token record.assetId record.tokenOwnerL2 record.tokenIdL2 record.decimals
        record.inventoryCap])

/-- `_activate`. -/
def activate (c : Chain W) (record : AssetRecord) (recordHash recordCommitment registryRoot : Bytes32)
    (registryCount registrySchema : BitVec 32) : BridgeCall W := do
  let activated ← activateAssetRecordFromRegistry { c with registry := { c.registry with
    assetStatusByToken :=
      Function.update c.registry.assetStatusByToken record.ethereumToken .active } }
    record recordCommitment
  pure (activated.emit [.assetRegistrationActivated recordHash record.registryIndex
    record.ethereumToken recordCommitment registryRoot registryCount registrySchema])

/-- `activateAsset`. -/
def activateAsset (c : Chain W) (ctx : CallContext) (token : Address)
    (expectedRegistryRoot : Bytes32) (expectedRegistryCount : BitVec 32) : BridgeCall W := do
  onlyBridgeAdmin env c ctx.sender
  let pending ← pendingRecord env c token
  let record := pending.1
  let recordHash := pending.2
  require (c.settlement.settledAssetRecord recordHash = true) (.assetRecordNotSettled recordHash)
  let recordCommitment := c.settlement.settledAssetRecordCommitment recordHash
  require (recordCommitment ≠ 0) (.assetRecordNotSettled recordHash)
  let actualRoot := c.settlement.assetRegistryRoot
  let actualCount := c.settlement.assetRegistryCount
  let actualSchema := c.settlement.assetRegistrySchemaVersion
  require (actualRoot = expectedRegistryRoot ∧ actualCount = expectedRegistryCount ∧
    actualSchema = record.schemaVersion ∧ record.registryIndex < actualCount)
    (.registryCheckpointMismatch expectedRegistryRoot expectedRegistryCount record.schemaVersion
      actualRoot actualCount actualSchema)
  activate c record recordHash recordCommitment actualRoot actualCount actualSchema

/-- `activateAssetFromBatch`. -/
def activateAssetFromBatch (c : Chain W) (ctx : CallContext) (token : Address)
    (settlementSequence : BitVec 64) (recordCommitment : Bytes32) (siblings : Fin 8 → Bytes32) :
    BridgeCall W := do
  onlyBridgeAdmin env c ctx.sender
  let pending ← pendingRecord env c token
  let record := pending.1
  let recordHash := pending.2
  let batch := c.settlement.assetRegistryRecordBatch settlementSequence
  require (batch.valid = true ∧ batch.recordBatchRoot ≠ 0 ∧ batch.recordBatchCount ≠ 0 ∧
    recordCommitment ≠ 0 ∧ batch.registrySchemaVersion = record.schemaVersion ∧
    record.registryIndex < batch.registryCount)
    (.registryCheckpointMismatch batch.registryRoot batch.registryCount record.schemaVersion
      batch.registryRoot batch.registryCount batch.registrySchemaVersion)
  let computed := pathRoot (assetRecordBatchNode env.hashes)
    (assetRecordBatchLeaf env.hashes recordHash recordCommitment) record.registryIndex.toNat
    (List.ofFn siblings)
  require (computed = batch.recordBatchRoot)
    (.invalidAssetRecordBatch batch.recordBatchRoot computed settlementSequence)
  activate c record recordHash recordCommitment batch.registryRoot batch.registryCount
    batch.registrySchemaVersion

/-- `setAssetStatus`, with the bridge's callback `setAssetAllowedFromRegistry`. -/
def setAssetStatus (c : Chain W) (ctx : CallContext) (token : Address) (newStatus : AssetStatus) :
    BridgeCall W := do
  onlyBridgeAdmin env c ctx.sender
  let oldStatus := c.registry.assetStatusByToken token
  require (oldStatus ≠ .none ∧ oldStatus ≠ .pending ∧ newStatus ≠ .none ∧ newStatus ≠ .pending)
    .invalidAssetRecord
  let config := c.bridge.allowedToken token
  let allowed := decide (newStatus = .active)
  pure ({ c with
    registry := { c.registry with
      assetStatusByToken := Function.update c.registry.assetStatusByToken token newStatus }
    bridge := { c.bridge with
      allowedToken := Function.update c.bridge.allowedToken token
        { config with allowed := allowed } } }.emit
    [.tokenAllowed token allowed config.zekoDecimals config.ethereumDecimals,
      .assetStatusUpdated token oldStatus newStatus])

end EthereumSettlement.ZekoAssetRegistry
