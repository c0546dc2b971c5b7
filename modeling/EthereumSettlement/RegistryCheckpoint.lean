import EthereumSettlement.InnerActionCommitment

/-!
# Asset records and registry checkpoints in the settlement guest

A canonical asset record has two commitments: a Keccak hash of its Solidity
encoding and a Poseidon leaf of the L2 registry. The guest replays registry
appends against depth-8 Poseidon paths and commits the appended records to a
depth-8 Keccak tree indexed by registry position. This module follows the guest
up to its verdicts; which appends a Poseidon root allows is not studied here.
-/

namespace EthereumSettlement.RegistryCheckpoint

open ByteWords CheckedCalls HashCommitments PastaPoseidon InnerActionCommitment

/-- `CanonicalAssetRecordV1`, field for field the contract's `AssetRecord`. -/
structure CanonicalAssetRecordV1 where
  /-- Version of the schema. -/
  schemaVersion : BitVec 32
  /-- Its index in the registry. -/
  registryIndex : BitVec 32
  /-- Identifier of the asset. -/
  assetId : Bytes32
  /-- The token on Ethereum. -/
  ethereumToken : Address
  /-- Mina account that owns the token. -/
  tokenOwnerL2 : Bytes32
  /-- Mina token identifier. -/
  tokenIdL2 : Bytes32
  /-- Decimals of both tokens. -/
  decimals : BitVec 8
  /-- Most that may be deposited. -/
  inventoryCap : BitVec 64
  /-- Verification key of the token contract. -/
  mftStandardVkId : Bytes32
  /-- Mina account of the vault. -/
  vaultPublicKey : Bytes32
  /-- Verification key of the bridge contract on Mina. -/
  universalBridgeVkId : Bytes32
  deriving DecidableEq

/-- `AssetRegistryAppendV1`. -/
structure AssetRegistryAppendV1 where
  /-- The record. -/
  record : CanonicalAssetRecordV1
  /-- Siblings of the slot that the record goes into. -/
  appendPath : List Bytes32
  deriving DecidableEq

/-- `AssetRegistryCheckpointV3`. -/
structure AssetRegistryCheckpointV3 where
  /-- Version of the checkpoint format. -/
  checkpointVersion : BitVec 32
  /-- Mina account of the registry. -/
  registryPublicKey : Bytes32
  /-- Root after the append. -/
  root : Bytes32
  /-- Number of records after the append. -/
  count : BitVec 32
  /-- Version of the schema. -/
  schemaVersion : BitVec 32
  /-- Keccak hash of the record. -/
  recordHash : Bytes32
  /-- The record. -/
  record : CanonicalAssetRecordV1
  /-- Siblings of the slot that the record goes into. -/
  appendPath : List Bytes32
  /-- Root before the appends. -/
  oldRoot : Bytes32
  /-- Number of records before the appends. -/
  oldCount : BitVec 32
  deriving DecidableEq

/-- `AssetRegistryBatchCheckpointV4`. -/
structure AssetRegistryBatchCheckpointV4 where
  /-- Version of the checkpoint format. -/
  checkpointVersion : BitVec 32
  /-- Mina account of the registry. -/
  registryPublicKey : Bytes32
  /-- Root after the appends. -/
  root : Bytes32
  /-- Number of records after the appends. -/
  count : BitVec 32
  /-- Version of the schema. -/
  schemaVersion : BitVec 32
  /-- Root before the appends. -/
  oldRoot : Bytes32
  /-- Number of records before the appends. -/
  oldCount : BitVec 32
  /-- The appends, in order. -/
  appends : List AssetRegistryAppendV1
  deriving DecidableEq

/-- `ASSET_REGISTRY_TREE_DEPTH`. -/
def assetRegistryTreeDepth : ℕ := 8

/-- `MAX_ASSET_RECORDS`. -/
def maxAssetRecords : ℕ := 2 ^ assetRegistryTreeDepth

variable (H : Hashes)

/-- The string hashed for an Ethereum asset identifier. -/
def assetIdInput (chainId bridgeAddress token owner tokenId decimals : Bytes32) : Bytes :=
  abiEncode [domainHash H "ZEKO_ERC20_ASSET_V1", chainId, bridgeAddress, token, owner, tokenId,
    decimals]

/-- `compute_asset_id`. -/
def computeAssetId (record : CanonicalAssetRecordV1) (chainId : BitVec 64)
    (bridgeAddress : Address) : Bytes32 :=
  H.keccak256 (assetIdInput H (toWord chainId) (toWord bridgeAddress) (toWord record.ethereumToken)
    record.tokenOwnerL2 record.tokenIdL2 (toWord record.decimals))

/-- The string hashed for a canonical record, the same in the guest and in the
registry contract. -/
def canonicalAssetRecordInput (record : CanonicalAssetRecordV1) : Bytes :=
  abiEncode [domainHash H "ZEKO_ERC20_ASSET_RECORD_V1", toWord record.schemaVersion,
    toWord record.registryIndex, record.assetId, toWord record.ethereumToken, record.tokenOwnerL2,
    record.tokenIdL2, toWord record.decimals, toWord record.inventoryCap, record.mftStandardVkId,
    record.vaultPublicKey, record.universalBridgeVkId]

/-- `hash_canonical_asset_record`. -/
def hashCanonicalAssetRecord (record : CanonicalAssetRecordV1) : Bytes32 :=
  H.keccak256 (canonicalAssetRecordInput H record)

/-- The 128 high bits of a word, as a word. -/
def highLimb (word : Bytes32) : Bytes32 := toWord (word.extractLsb' 128 128)

/-- The 128 low bits of a word, as a word. -/
def lowLimb (word : Bytes32) : Bytes32 := toWord (word.extractLsb' 0 128)

/-- `unpack_public_key`: parity in the top bit, the coordinate below it. -/
def unpackPublicKey (packed : Bytes32) : Except String (StepField × StepField) := do
  let x ← fieldFromBytes (packed &&& BitVec.ofNat 256 (2 ^ 255 - 1))
  pure (x, if packed.msb then 1 else 0)

/-- `field_from_address`. -/
def fieldFromAddress (address : Address) : Except String StepField := fieldFromBytes (toWord address)

/-- `hash_registry_record_leaf`. -/
def hashRegistryRecordLeaf (record : CanonicalAssetRecordV1) : Except String StepField := do
  let owner ← unpackPublicKey record.tokenOwnerL2
  let vault ← unpackPublicKey record.vaultPublicKey
  let assetHigh ← fieldFromBytes (highLimb record.assetId)
  let assetLow ← fieldFromBytes (lowLimb record.assetId)
  let token ← fieldFromAddress record.ethereumToken
  let tokenId ← fieldFromBytes record.tokenIdL2
  let mftStandard ← fieldFromBytes record.mftStandardVkId
  let universalBridge ← fieldFromBytes record.universalBridgeVkId
  pure (hashWithPrefix H "Ethereum asset registry leaf V1"
    [record.schemaVersion.toNat, record.registryIndex.toNat, assetHigh, assetLow, token, owner.1,
      owner.2, tokenId, record.decimals.toNat, record.inventoryCap.toNat, mftStandard, vault.1,
      vault.2, universalBridge])

/-- `registry_implied_root`. The guest checks that a path has eight levels
before it gets here, so the level's bit of the index is the parity after
dropping the lower ones. -/
def registryImpliedRoot : StepField → ℕ → List Bytes32 → Except String StepField
  | current, _, [] => pure current
  | current, index, sibling :: path => do
    let sibling ← fieldFromBytes sibling
    registryImpliedRoot (hashWithPrefix H "Ethereum asset registry node V1"
      (if index % 2 = 0 then [current, sibling] else [sibling, current])) (index / 2) path

/-- `validate_canonical_asset_record`. -/
def validateCanonicalAssetRecord (record : CanonicalAssetRecordV1) (chainId : BitVec 64)
    (bridgeAddress : Address) : Except String Unit := do
  require (record.decimals ≤ 9) "asset decimals exceed the Zeko maximum"
  require (record.ethereumToken ≠ 0) "asset token is zero"
  require (record.assetId ≠ 0) "asset ID is zero"
  require (record.tokenOwnerL2 ≠ 0) "asset owner is zero"
  require (record.tokenIdL2 ≠ 0) "asset token ID is zero"
  require (record.inventoryCap ≠ 0) "asset inventory cap is zero"
  require (record.mftStandardVkId ≠ 0) "asset MFT standard VK is zero"
  require (record.vaultPublicKey ≠ 0) "asset vault public key is zero"
  require (record.universalBridgeVkId ≠ 0) "asset universal bridge VK is zero"
  require (record.tokenOwnerL2 ≠ record.vaultPublicKey) "asset owner and shared vault must differ"
  require (computeAssetId H record chainId bridgeAddress = record.assetId)
    "canonical Ethereum asset ID mismatch"

/-- `u32::checked_add` with the text of its `expect`. -/
def checkedAddU32 (text : String) (a b : BitVec 32) : Except String (BitVec 32) :=
  checkedAdd text a b

/-- `validate_registry_transition`. -/
def validateRegistryTransition (checkpoint : AssetRegistryCheckpointV3) (chainId : BitVec 64)
    (bridgeAddress : Address) : Except String Unit := do
  let record := checkpoint.record
  require (checkpoint.appendPath.length = 8) "invalid registry append path"
  require (record.schemaVersion = 1) "unsupported canonical asset schema"
  require (record.schemaVersion = checkpoint.schemaVersion) "asset and registry schema mismatch"
  require (record.registryIndex = checkpoint.oldCount)
    "asset record is not appended at the committed count"
  let next ← checkedAddU32 "asset registry count overflow" checkpoint.oldCount 1
  require (checkpoint.count = next) "asset registry count must increase exactly once"
  require (checkpoint.count.toNat ≤ maxAssetRecords) "asset registry count exceeds capacity"
  validateCanonicalAssetRecord H record chainId bridgeAddress
  require (hashCanonicalAssetRecord H record = checkpoint.recordHash)
    "canonical asset record hash mismatch"
  let oldRoot ← registryImpliedRoot H 0 record.registryIndex.toNat checkpoint.appendPath
  require (fieldToBytes oldRoot = checkpoint.oldRoot)
    "registry append slot is not empty under the old root"
  let leaf ← hashRegistryRecordLeaf H record
  let newRoot ← registryImpliedRoot H leaf record.registryIndex.toNat checkpoint.appendPath
  require (fieldToBytes newRoot = checkpoint.root)
    "registry append does not produce the settled root"

/-- `validate_registry_append`. -/
def validateRegistryAppend (append : AssetRegistryAppendV1) (expectedIndex : BitVec 32)
    (oldRoot : Bytes32) (schemaVersion : BitVec 32) (chainId : BitVec 64) (bridgeAddress : Address) :
    Except String Bytes32 := do
  let record := append.record
  require (append.appendPath.length = assetRegistryTreeDepth) "invalid registry append path"
  require (record.schemaVersion = schemaVersion) "asset and registry schema mismatch"
  require (record.registryIndex = expectedIndex) "asset record is not a dense ordered append"
  validateCanonicalAssetRecord H record chainId bridgeAddress
  let impliedOldRoot ← registryImpliedRoot H 0 expectedIndex.toNat append.appendPath
  require (fieldToBytes impliedOldRoot = oldRoot)
    "registry append slot is not empty under the running root"
  let leaf ← hashRegistryRecordLeaf H record
  let newRoot ← registryImpliedRoot H leaf expectedIndex.toNat append.appendPath
  pure (fieldToBytes newRoot)

/-- A record's position, Keccak hash and Poseidon commitment. -/
structure RecordIdentity where
  /-- Its index in the registry. -/
  index : BitVec 32
  /-- Keccak hash of the record. -/
  recordHash : Bytes32
  /-- Poseidon commitment of the record. -/
  recordCommitment : Bytes32
  deriving DecidableEq

/-- The append loop of `validate_registry_batch`, from a given offset. -/
def validateRegistryAppends (checkpoint : AssetRegistryBatchCheckpointV4) (chainId : BitVec 64)
    (bridgeAddress : Address) :
    ℕ → Bytes32 → List AssetRegistryAppendV1 → Except String (Bytes32 × List RecordIdentity)
  | _, runningRoot, [] => pure (runningRoot, [])
  | offset, runningRoot, append :: appends => do
    require (offset < 2 ^ 32) "batch offset fits u32"
    let expectedIndex ← checkedAddU32 "asset registry index overflow" checkpoint.oldCount
      (BitVec.ofNat 32 offset)
    let nextRoot ← validateRegistryAppend H append expectedIndex runningRoot
      checkpoint.schemaVersion chainId bridgeAddress
    let commitment ← hashRegistryRecordLeaf H append.record
    let rest ← validateRegistryAppends checkpoint chainId bridgeAddress (offset + 1) nextRoot appends
    pure (rest.1, ⟨expectedIndex, hashCanonicalAssetRecord H append.record,
      fieldToBytes commitment⟩ :: rest.2)

/-- `validate_registry_batch`. -/
def validateRegistryBatch (checkpoint : AssetRegistryBatchCheckpointV4) (chainId : BitVec 64)
    (bridgeAddress : Address) : Except String (List RecordIdentity) := do
  require (checkpoint.schemaVersion = 1) "unsupported asset registry schema"
  require (checkpoint.root ≠ 0) "asset registry root is zero"
  require (checkpoint.appends ≠ []) "asset registry batch is empty"
  require (checkpoint.appends.length ≤ maxAssetRecords) "asset registry batch exceeds capacity"
  let count ← checkedAddU32 "asset registry count overflow" checkpoint.oldCount
    (BitVec.ofNat 32 checkpoint.appends.length)
  require (checkpoint.count = count) "asset registry count does not match batch length"
  require (checkpoint.count.toNat ≤ maxAssetRecords) "asset registry count exceeds capacity"
  let result ← validateRegistryAppends H checkpoint chainId bridgeAddress 0 checkpoint.oldRoot
    checkpoint.appends
  require (result.1 = checkpoint.root) "registry appends do not produce the settled root"
  pure result.2

/-- The string hashed by `asset_record_batch_leaf`. -/
def assetRecordBatchLeafInput (recordHash recordCommitment : Bytes32) : Bytes :=
  abiEncode [domainHash H "ZEKO_ASSET_RECORD_BATCH_LEAF_V2", recordHash, recordCommitment]

/-- `asset_record_batch_leaf`. -/
def assetRecordBatchLeaf (recordHash recordCommitment : Bytes32) : Bytes32 :=
  H.keccak256 (assetRecordBatchLeafInput H recordHash recordCommitment)

/-- The string hashed for a node of the record tree. -/
def assetRecordBatchNodeInput (pair : Bytes32 × Bytes32) : Bytes :=
  abiEncode [domainHash H "ZEKO_ASSET_RECORD_BATCH_NODE_V1", pair.1, pair.2]

/-- A node of the record tree. -/
def assetRecordBatchNode (left right : Bytes32) : Bytes32 :=
  H.keccak256 (assetRecordBatchNodeInput H (left, right))

/-- Place the leaves of a batch into the 256 zero slots. -/
def placeRecords : List Bytes32 → List RecordIdentity → Except String (List Bytes32)
  | level, [] => pure level
  | level, identity :: identities => do
    require (identity.index.toNat < maxAssetRecords) "asset registry index exceeds capacity"
    require (level.getD identity.index.toNat 0 = 0) "duplicate asset record batch index"
    placeRecords (level.set identity.index.toNat
      (assetRecordBatchLeaf H identity.recordHash identity.recordCommitment)) identities

/-- `asset_record_batch_root`. All levels have even length, so pairing with a
padding never happens. -/
def assetRecordBatchRoot (identities : List RecordIdentity) : Except String Bytes32 := do
  let level ← placeRecords H (List.replicate maxAssetRecords 0) identities
  pure ((climb (assetRecordBatchNode H) assetRegistryTreeDepth 0 level).headD 0)

end EthereumSettlement.RegistryCheckpoint
