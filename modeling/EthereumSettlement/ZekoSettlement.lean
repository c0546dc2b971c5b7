import Mathlib.Logic.Function.Basic
import EthereumSettlement.SettlementReceipt

/-!
# The settlement contract

`ZekoSettlement` as a state-passing program over its storage: initialization,
roles, the settlement of receipts, the bridge's witness appends and the virtual
slot clock. A revert returns its error and no storage. The SP1 verifier contract
is a parameter. Proxy upgrades are left out: they replace the program, and
nothing here is claimed about a replaced one. `AccessControl` is a parameter too.
-/

namespace EthereumSettlement.ZekoSettlement

open ByteWords CheckedCalls OpenZeppelin PastaPoseidon InnerActionCommitment SettlementCodec

/-- What a call sees of its transaction. -/
structure CallContext where
  /-- `msg.sender`. -/
  sender : Address
  /-- `block.timestamp`. -/
  timestamp : BitVec 256
  deriving DecidableEq

/-- The fixed surroundings of a deployment. -/
structure Environment where
  /-- The hash primitives. -/
  hashes : Hashes
  /-- `block.chainid`. -/
  chainId : BitVec 256
  /-- Address of the settlement proxy. -/
  settlementAddress : Address
  /-- Address of the bridge proxy. -/
  bridgeAddress : Address
  /-- `ISP1Verifier.verifyProof` of the verifier at an address: whether it accepts. -/
  verifyProof : Address → Bytes32 → Bytes → Bytes → Bool
  /-- The inherited `AccessControl`. -/
  accessControl : AccessControl
  /-- The inherited `Pausable`. -/
  pausable : Pausable

/-- `L2ActionStateInfo`. -/
structure L2ActionStateInfo where
  /-- Position of the action state. -/
  index : BitVec 64
  /-- Whether the entry has been written. -/
  valid : Bool
  deriving DecidableEq

/-- `AcceptedInnerActionState`. -/
structure AcceptedInnerActionState where
  /-- Settlement that accepted it. -/
  settlementIndex : BitVec 64
  /-- When it was accepted. -/
  acceptedAt : BitVec 64
  /-- Number of inner actions. -/
  length : BitVec 32
  /-- Whether the entry has been written. -/
  valid : Bool
  deriving DecidableEq

/-- `OuterActionStateInfo`. -/
structure OuterActionStateInfo where
  /-- Number of actions up to the state. -/
  length : BitVec 32
  /-- Whether the entry has been written. -/
  valid : Bool
  deriving DecidableEq

/-- `InnerActionBatch`. -/
structure InnerActionBatch where
  /-- Inner action state before the batch. -/
  minaStateBefore : Bytes32
  /-- Inner action state after the batch. -/
  minaStateAfter : Bytes32
  /-- Root of the tree of actions. -/
  root : Bytes32
  /-- Index of the first action. -/
  startIndex : BitVec 32
  /-- Number of actions. -/
  count : BitVec 32
  /-- Upper slot bound of the commit. -/
  commitSlotUpper : BitVec 32
  /-- Whether the entry has been written. -/
  valid : Bool
  deriving DecidableEq

/-- `AssetRegistryRecordBatch`. -/
structure AssetRegistryRecordBatch where
  /-- Root of the registry. -/
  registryRoot : Bytes32
  /-- Number of records in the registry. -/
  registryCount : BitVec 32
  /-- Schema of the registry. -/
  registrySchemaVersion : BitVec 32
  /-- Root of the tree of settled records. -/
  recordBatchRoot : Bytes32
  /-- Number of settled records. -/
  recordBatchCount : BitVec 32
  /-- Whether the entry has been written. -/
  valid : Bool
  deriving DecidableEq

/-- The storage of the settlement proxy. -/
structure SettlementStorage where
  /-- Address of the proof verifier. -/
  verifier : Address
  /-- Verification key of the settlement program. -/
  programVKey : Bytes32
  /-- Digest of the Mina verifier index. -/
  vkHash : Bytes32
  /-- Last state of the outer action chain. -/
  actionState : Bytes32
  /-- Settled ledger. -/
  currentRoot : Bytes32
  /-- Outer action states that were accepted. -/
  validActionState : Bytes32 → Bool
  /-- Number of accepted outer action states. -/
  currentL2ActionStateIndex : BitVec 64
  /-- Position of each accepted outer action state. -/
  l2ActionStateInfo : Bytes32 → L2ActionStateInfo
  /-- App state of the outer account. -/
  outerState : Fin 8 → Bytes32
  /-- Number of actions in the outer action chain. -/
  outerActionStateLength : BitVec 32
  /-- Number of settled receipts. -/
  batchSequence : BitVec 64
  /-- Time from which virtual slots count. -/
  genesisTimestamp : BitVec 64
  /-- Seconds of a slot. -/
  slotDuration : BitVec 32
  /-- Virtual slot at that time. -/
  forkSlot : BitVec 32
  /-- Inner action states that were accepted. -/
  acceptedInnerActionState : Bytes32 → AcceptedInnerActionState
  /-- Length up to each outer action state. -/
  outerActionStateInfo : Bytes32 → OuterActionStateInfo
  /-- Batches by sequence number. -/
  innerActionBatch : BitVec 64 → InnerActionBatch
  /-- Address of the bridge contract. -/
  bridgeContract : Address
  /-- Root of the asset registry. -/
  assetRegistryRoot : Bytes32
  /-- Number of records in the asset registry. -/
  assetRegistryCount : BitVec 32
  /-- Schema of the asset registry. -/
  assetRegistrySchemaVersion : BitVec 32
  /-- Hashes of the settled records. -/
  settledAssetRecord : Bytes32 → Bool
  /-- Trees of settled records by sequence number. -/
  assetRegistryRecordBatch : BitVec 64 → AssetRegistryRecordBatch
  /-- Commitment of each settled record. -/
  settledAssetRecordCommitment : Bytes32 → Bytes32
  /-- `AccessControl`: whether an account holds a role. -/
  hasRole : Roles

/-- The storage of a fresh proxy. -/
def SettlementStorage.zero : SettlementStorage where
  verifier := 0
  programVKey := 0
  vkHash := 0
  actionState := 0
  currentRoot := 0
  validActionState := fun _ => false
  currentL2ActionStateIndex := 0
  l2ActionStateInfo := fun _ => ⟨0, false⟩
  outerState := fun _ => 0
  outerActionStateLength := 0
  batchSequence := 0
  genesisTimestamp := 0
  slotDuration := 0
  forkSlot := 0
  acceptedInnerActionState := fun _ => ⟨0, 0, 0, false⟩
  outerActionStateInfo := fun _ => ⟨0, false⟩
  innerActionBatch := fun _ => ⟨0, 0, 0, 0, 0, 0, false⟩
  bridgeContract := 0
  assetRegistryRoot := 0
  assetRegistryCount := 0
  assetRegistrySchemaVersion := 0
  settledAssetRecord := fun _ => false
  assetRegistryRecordBatch := fun _ => ⟨0, 0, 0, 0, 0, false⟩
  settledAssetRecordCommitment := fun _ => 0
  hasRole := fun _ _ => false

/-- The events of the settlement contract. -/
inductive SettlementEvent
  | vkHashUpdated (oldVkHash newVkHash : Bytes32)
  | settlementAccepted (batchSequence : BitVec 64) (minaTransactionHash ledgerHash : Bytes32)
      (outerActionState : Bytes32) (outerActionStateLength : BitVec 32)
      (innerActionState : Bytes32) (innerActionStateLength slotLower slotUpper : BitVec 32)
  | bridgeContractUpdated (oldBridge newBridge : Address)
  | outerWitnessBatchAppended (stateBefore stateAfter : Bytes32) (count lengthAfter : BitVec 32)
  | innerActionBatchAccepted (batchSequence : BitVec 64) (stateAfter root : Bytes32)
      (startIndex count claimableSlot : BitVec 32)
  | assetRegistryCheckpointAccepted (root : Bytes32) (count schemaVersion : BitVec 32)
      (recordHash recordCommitment : Bytes32) (batchSequence : BitVec 64)
  | assetRegistryBatchCheckpointAccepted (root : Bytes32) (count schemaVersion : BitVec 32)
      (recordBatchRoot : Bytes32) (recordBatchCount : BitVec 32) (batchSequence : BitVec 64)
  deriving DecidableEq

/-- A settlement call: the storage and the events after it, or its revert. -/
abbrev SettlementCall := Except SettlementError (SettlementStorage × List SettlementEvent)

variable (env : Environment)

/-- A named role: the hash of its name. -/
def role (name : String) : Bytes32 := domainHash env.hashes name

/-- `ADMIN_ROLE`. -/
def adminRole : Bytes32 := role env "ADMIN_ROLE"

/-- `PROVER_ROLE`. -/
def proverRole : Bytes32 := role env "PROVER_ROLE"

/-- `BRIDGE_ROLE`. -/
def bridgeRole : Bytes32 := role env "BRIDGE_ROLE"

/-- `UPGRADER_ROLE`. -/
def upgraderRole : Bytes32 := role env "UPGRADER_ROLE"

/-- The `onlyRole` modifier. -/
def onlyRole (s : SettlementStorage) (role : Bytes32) (sender : Address) :
    Except SettlementError Unit :=
  (env.accessControl.checkRole s.hasRole role sender).mapError .accessControl

/-- `grantRole`. -/
def grantRole (s : SettlementStorage) (ctx : CallContext) (role : Bytes32) (account : Address) :
    SettlementCall := do
  let hasRole ← (env.accessControl.grantRole s.hasRole ctx.sender role account).mapError
    .accessControl
  pure ({ s with hasRole := hasRole }, [])

/-- `revokeRole`. -/
def revokeRole (s : SettlementStorage) (ctx : CallContext) (role : Bytes32) (account : Address) :
    SettlementCall := do
  let hasRole ← (env.accessControl.revokeRole s.hasRole ctx.sender role account).mapError
    .accessControl
  pure ({ s with hasRole := hasRole }, [])

/-- `renounceRole`. -/
def renounceRole (s : SettlementStorage) (ctx : CallContext) (role : Bytes32)
    (callerConfirmation : Address) : SettlementCall := do
  let hasRole ← (env.accessControl.renounceRole s.hasRole ctx.sender role
    callerConfirmation).mapError .accessControl
  pure ({ s with hasRole := hasRole }, [])

/-- `setVkHash`. -/
def setVkHash (s : SettlementStorage) (ctx : CallContext) (newVkHash : Bytes32) :
    SettlementCall := do
  onlyRole env s (adminRole env) ctx.sender
  pure ({ s with vkHash := newVkHash }, [.vkHashUpdated s.vkHash newVkHash])

/-- `setBridgeContract`. -/
def setBridgeContract (s : SettlementStorage) (ctx : CallContext) (newBridge : Address) :
    SettlementCall := do
  onlyRole env s (adminRole env) ctx.sender
  require (newBridge ≠ 0) .zeroAddress
  let revoked := if s.bridgeContract = 0 then s.hasRole
    else env.accessControl.internalRevokeRole s.hasRole (bridgeRole env) s.bridgeContract
  pure ({ s with
    bridgeContract := newBridge
    hasRole := env.accessControl.internalGrantRole revoked (bridgeRole env) newBridge },
    [.bridgeContractUpdated s.bridgeContract newBridge])

/-- `currentVirtualSlot`. The elapsed slots are truncated to 64 bits before the
checked addition. -/
def currentVirtualSlot (s : SettlementStorage) (timestamp : BitVec 256) :
    Except SettlementError (BitVec 64) :=
  if timestamp.toNat ≤ s.genesisTimestamp.toNat then pure (s.forkSlot.setWidth 64)
  else do
    require (s.slotDuration ≠ 0) .arithmeticPanic
    checkedAdd .arithmeticPanic (s.forkSlot.setWidth 64)
      (BitVec.ofNat 64 ((timestamp.toNat - s.genesisTimestamp.toNat) / s.slotDuration.toNat))

/-- `_fieldToUint32`. -/
def fieldToUint32 (value : Bytes32) : Except SettlementError (BitVec 32) := do
  require (value.toNat < 2 ^ 32) (.fieldDoesNotFitUint32 value)
  pure (value.setWidth 32)

/-- `_recordL2ActionState`. -/
def recordL2ActionState (s : SettlementStorage) (targetActionState : Bytes32) :
    Except SettlementError SettlementStorage :=
  if (s.l2ActionStateInfo targetActionState).valid then pure s
  else do
    let index ← checkedAdd .arithmeticPanic s.currentL2ActionStateIndex 1
    pure { s with
      currentL2ActionStateIndex := index
      l2ActionStateInfo := Function.update s.l2ActionStateInfo targetActionState ⟨index, true⟩ }

/-- `_recordAcceptedInnerState`. -/
def recordAcceptedInnerState (s : SettlementStorage) (timestamp : BitVec 256)
    (innerState lengthField : Bytes32) (settlementIndex : BitVec 64) :
    Except SettlementError SettlementStorage :=
  if innerState = 0 then pure s
  else do
    let length ← fieldToUint32 lengthField
    pure { s with
      acceptedInnerActionState := Function.update s.acceptedInnerActionState innerState
        ⟨settlementIndex, timestamp.setWidth 64, length, true⟩ }

/-- The arguments of `initialize`. -/
structure SettlementParameters where
  /-- First holder of all administrative roles. -/
  initialAdmin : Address
  /-- Address of the proof verifier. -/
  verifier : Address
  /-- Verification key of the settlement program. -/
  programVKey : Bytes32
  /-- First digest of the verifier index. -/
  initialVkHash : Bytes32
  /-- First app state of the outer account. -/
  initialOuterState : Fin 8 → Bytes32
  /-- First outer action state. -/
  initialOuterActionState : Bytes32
  /-- Number of actions up to it. -/
  initialOuterActionStateLength : BitVec 32
  /-- Time from which virtual slots count. -/
  genesisTimestamp : BitVec 64
  /-- Seconds of a slot. -/
  slotDuration : BitVec 32
  /-- Virtual slot at that time. -/
  forkSlot : BitVec 32

/-- `initialize`. The `initializer` modifier admits it once, on a fresh proxy. -/
def initializeSettlement (ctx : CallContext) (p : SettlementParameters) : SettlementCall := do
  require (p.initialAdmin ≠ 0 ∧ p.verifier ≠ 0) .zeroAddress
  require (p.slotDuration ≠ 0) .invalidSlotDuration
  let base : SettlementStorage := { SettlementStorage.zero with
    verifier := p.verifier
    programVKey := p.programVKey
    vkHash := p.initialVkHash
    outerState := p.initialOuterState
    actionState := p.initialOuterActionState
    currentRoot := p.initialOuterState 2
    outerActionStateLength := p.initialOuterActionStateLength
    genesisTimestamp := p.genesisTimestamp
    slotDuration := p.slotDuration
    forkSlot := p.forkSlot
    validActionState := Function.update (fun _ => false) p.initialOuterActionState true
    outerActionStateInfo := Function.update (fun _ => ⟨0, false⟩) p.initialOuterActionState
      ⟨p.initialOuterActionStateLength, true⟩
    l2ActionStateInfo := Function.update (fun _ => ⟨0, false⟩) p.initialOuterActionState ⟨0, true⟩ }
  let recorded ← recordAcceptedInnerState base ctx.timestamp (p.initialOuterState 3)
    (p.initialOuterState 4) 0
  let granted := [defaultAdminRole, adminRole env, proverRole env, upgraderRole env].foldl
    (fun roles granted => env.accessControl.internalGrantRole roles granted p.initialAdmin)
    recorded.hasRole
  pure ({ recorded with hasRole := granted }, [.vkHashUpdated 0 p.initialVkHash])

/-- `appendOuterWitnessBatch`. -/
def appendOuterWitnessBatch (s : SettlementStorage) (sender : Address)
    (stateBefore stateAfter : Bytes32) (count : BitVec 32) : SettlementCall := do
  onlyRole env s (bridgeRole env) sender
  require (stateBefore = s.actionState) (.invalidActionState s.actionState stateBefore)
  require (count ≠ 0)
    (.invalidActionStateTransition s.outerActionStateLength s.outerActionStateLength)
  let lengthAfter ← checkedAdd .arithmeticPanic s.outerActionStateLength count
  let existing := s.outerActionStateInfo stateAfter
  require (¬(existing.valid = true ∧ existing.length ≠ lengthAfter))
    (.invalidActionStateLength existing.length lengthAfter)
  let recorded ← recordL2ActionState { s with
    actionState := stateAfter
    outerActionStateLength := lengthAfter
    validActionState := Function.update s.validActionState stateAfter true
    outerActionStateInfo := Function.update s.outerActionStateInfo stateAfter ⟨lengthAfter, true⟩ }
    stateAfter
  pure (recorded, [.outerWitnessBatchAppended stateBefore stateAfter count lengthAfter])

/-- The checks of `verifyAndUpdateRoot` against the current storage. -/
def checkReceipt (s : SettlementStorage) (timestamp : BitVec 256) (decoded : DecodedPublicValues) :
    Except SettlementError Unit := do
  require (decoded.daMode = 1) (.invalidDaMode decoded.daMode)
  require (toWord decoded.chainId = env.chainId)
    (.invalidChainId (env.chainId.setWidth 64) decoded.chainId)
  require (decoded.settlementContract = env.settlementAddress)
    (.invalidSettlementContract env.settlementAddress decoded.settlementContract)
  let expectedBatch ← checkedAdd .arithmeticPanic s.batchSequence 1
  require (decoded.batchSequence = expectedBatch)
    (.invalidBatchSequence expectedBatch decoded.batchSequence)
  require (decoded.vkHash = s.vkHash) (.invalidVkHash s.vkHash decoded.vkHash)
  let mismatch := (List.finRange 8).find? fun i => decoded.stateBefore i ≠ s.outerState i
  require (mismatch = none) (.invalidOuterState ((mismatch.getD 0).val)
    (s.outerState (mismatch.getD 0)) (decoded.stateBefore (mismatch.getD 0)))
  require (decoded.outerActionStateBefore = s.actionState)
    (.invalidActionState s.actionState decoded.outerActionStateBefore)
  require (decoded.outerActionStateLengthBefore = s.outerActionStateLength)
    (.invalidActionStateLength s.outerActionStateLength decoded.outerActionStateLengthBefore)
  let lengthAfter ← checkedAdd .arithmeticPanic decoded.outerActionStateLengthBefore 1
  require (decoded.outerActionStateLengthAfter = lengthAfter)
    (.invalidActionStateTransition decoded.outerActionStateLengthBefore
      decoded.outerActionStateLengthAfter)
  require (decoded.synchronizedOuterActionStateLength ≤ decoded.outerActionStateLengthBefore)
    (.invalidSynchronizedActionLength decoded.synchronizedOuterActionStateLength
      decoded.outerActionStateLengthBefore)
  let synchronizedCheckpoint := s.outerActionStateInfo decoded.synchronizedOuterActionState
  require (synchronizedCheckpoint.valid = true ∧
    synchronizedCheckpoint.length = decoded.synchronizedOuterActionStateLength)
    (.unknownSynchronizedActionState decoded.synchronizedOuterActionState
      decoded.synchronizedOuterActionStateLength)
  require (decoded.slotLower ≤ decoded.slotUpper)
    (.invalidSlotRange decoded.slotLower decoded.slotUpper)
  let currentSlot ← currentVirtualSlot s timestamp
  require (decoded.slotLower.toNat ≤ currentSlot.toNat ∧
    currentSlot.toNat ≤ decoded.slotUpper.toNat)
    (.outsideSlotRange currentSlot decoded.slotLower decoded.slotUpper)

/-- The unconditional updates of `verifyAndUpdateRoot`. -/
def recordReceipt (s : SettlementStorage) (timestamp : BitVec 256) (decoded : DecodedPublicValues) :
    Except SettlementError SettlementStorage := do
  let recorded ← recordL2ActionState { s with
    outerState := decoded.stateAfter
    actionState := decoded.outerActionStateAfter
    outerActionStateLength := decoded.outerActionStateLengthAfter
    batchSequence := decoded.batchSequence
    currentRoot := decoded.stateAfter 2
    validActionState := Function.update s.validActionState decoded.outerActionStateAfter true
    outerActionStateInfo := Function.update s.outerActionStateInfo decoded.outerActionStateAfter
      ⟨decoded.outerActionStateLengthAfter, true⟩ } decoded.outerActionStateAfter
  recordAcceptedInnerState recorded timestamp (decoded.stateAfter 3) (decoded.stateAfter 4)
    decoded.batchSequence

/-- The second-version part of `verifyAndUpdateRoot`. -/
def recordInnerActionBatch (s : SettlementStorage) (decoded : DecodedPublicValues) :
    SettlementCall :=
  if 2 ≤ decoded.version then do
    require (decoded.bridgeAddress = s.bridgeContract)
      (.invalidBridgeContract s.bridgeContract decoded.bridgeAddress)
    let lengthBefore ← fieldToUint32 (decoded.stateBefore 4)
    let lengthAfter ← fieldToUint32 (decoded.stateAfter 4)
    require (lengthBefore ≤ lengthAfter ∧ lengthAfter - lengthBefore = decoded.innerActionCount)
      (.invalidInnerActionTransition lengthBefore lengthAfter)
    require (decoded.innerActionStartIndex = lengthBefore ∧ decoded.innerActionRoot ≠ 0)
      (.invalidInnerActionBatch decoded.innerActionRoot decoded.innerActionStartIndex
        decoded.innerActionCount)
    pure ({ s with
      innerActionBatch := Function.update s.innerActionBatch decoded.batchSequence
        ⟨decoded.stateBefore 3, decoded.stateAfter 3, decoded.innerActionRoot,
          decoded.innerActionStartIndex, decoded.innerActionCount, decoded.slotUpper, true⟩ },
      [.innerActionBatchAccepted decoded.batchSequence (decoded.stateAfter 3) decoded.innerActionRoot
        decoded.innerActionStartIndex decoded.innerActionCount decoded.slotUpper])
  else pure (s, [])

/-- `ASSET_REGISTRY_CAPACITY`. -/
def assetRegistryCapacity : ℕ := 256

/-- The third-version part of `verifyAndUpdateRoot`. -/
def recordAssetRecord (s : SettlementStorage) (decoded : DecodedPublicValues) : SettlementCall :=
  if decoded.version = 3 then do
    let invalid := SettlementError.invalidAssetRegistryCheckpoint decoded.assetRegistryRoot
      decoded.assetRegistryCount decoded.assetRegistrySchemaVersion decoded.assetRecordHash
    require (decoded.assetRegistryRoot ≠ 0) invalid
    let nextCount ← checkedAdd .arithmeticPanic s.assetRegistryCount 1
    require (decoded.assetRegistryCount = nextCount ∧
      decoded.assetRegistryCount.toNat ≤ assetRegistryCapacity ∧
      decoded.assetRegistrySchemaVersion = 1 ∧ decoded.assetRecordHash ≠ 0 ∧
      decoded.assetRecordCommitment ≠ 0) invalid
    pure ({ s with
      assetRegistryRoot := decoded.assetRegistryRoot
      assetRegistryCount := decoded.assetRegistryCount
      assetRegistrySchemaVersion := decoded.assetRegistrySchemaVersion
      settledAssetRecord := Function.update s.settledAssetRecord decoded.assetRecordHash true
      settledAssetRecordCommitment := Function.update s.settledAssetRecordCommitment
        decoded.assetRecordHash decoded.assetRecordCommitment },
      [.assetRegistryCheckpointAccepted decoded.assetRegistryRoot decoded.assetRegistryCount
        decoded.assetRegistrySchemaVersion decoded.assetRecordHash decoded.assetRecordCommitment
        decoded.batchSequence])
  else pure (s, [])

/-- The fourth-version part of `verifyAndUpdateRoot`. -/
def recordAssetRecordBatch (s : SettlementStorage) (decoded : DecodedPublicValues) :
    SettlementCall :=
  if decoded.version = 4 then do
    let invalid := SettlementError.invalidAssetRegistryBatch decoded.assetRegistryRoot
      decoded.assetRegistryCount decoded.assetRegistrySchemaVersion decoded.assetRecordBatchRoot
      decoded.assetRecordBatchCount
    require (decoded.assetRegistryRoot ≠ 0 ∧ decoded.assetRecordBatchRoot ≠ 0 ∧
      decoded.assetRecordBatchCount ≠ 0) invalid
    let nextCount ← checkedAdd .arithmeticPanic s.assetRegistryCount decoded.assetRecordBatchCount
    require (decoded.assetRegistryCount = nextCount ∧
      decoded.assetRegistryCount.toNat ≤ assetRegistryCapacity ∧
      decoded.assetRegistrySchemaVersion = 1) invalid
    pure ({ s with
      assetRegistryRoot := decoded.assetRegistryRoot
      assetRegistryCount := decoded.assetRegistryCount
      assetRegistrySchemaVersion := decoded.assetRegistrySchemaVersion
      assetRegistryRecordBatch := Function.update s.assetRegistryRecordBatch decoded.batchSequence
        ⟨decoded.assetRegistryRoot, decoded.assetRegistryCount, decoded.assetRegistrySchemaVersion,
          decoded.assetRecordBatchRoot, decoded.assetRecordBatchCount, true⟩ },
      [.assetRegistryBatchCheckpointAccepted decoded.assetRegistryRoot decoded.assetRegistryCount
        decoded.assetRegistrySchemaVersion decoded.assetRecordBatchRoot decoded.assetRecordBatchCount
        decoded.batchSequence])
  else pure (s, [])

/-- `verifyAndUpdateRoot`. -/
def verifyAndUpdateRoot (s : SettlementStorage) (ctx : CallContext)
    (publicValues proofBytes : Bytes) : SettlementCall := do
  onlyRole env s (proverRole env) ctx.sender
  require (env.verifyProof s.verifier s.programVKey publicValues proofBytes = true) .proofRejected
  let decoded ← decodePublicValues publicValues
  checkReceipt env s ctx.timestamp decoded
  let recorded ← recordReceipt s ctx.timestamp decoded
  let batched ← recordInnerActionBatch recorded decoded
  let registered ← recordAssetRecord batched.1 decoded
  let settled ← recordAssetRecordBatch registered.1 decoded
  let innerLength ← fieldToUint32 (decoded.stateAfter 4)
  pure (settled.1, batched.2 ++ registered.2 ++ settled.2 ++
    [.settlementAccepted decoded.batchSequence decoded.minaTransactionHash (decoded.stateAfter 2)
      decoded.outerActionStateAfter decoded.outerActionStateLengthAfter (decoded.stateAfter 3)
      innerLength decoded.slotLower decoded.slotUpper])

section Roles

variable {env} {s : SettlementStorage} {ctx : CallContext} {role : Bytes32} {account : Address}

/-- The modifier passes for the holders of its role. -/
@[simp] theorem onlyRole_eq_ok {u : Unit} :
    onlyRole env s role account = .ok u ↔ s.hasRole role account = true := by
  rw [onlyRole, mapError_eq_ok]
  exact env.accessControl.checkRole_ok

/-- A body behind the modifier returns for the holders of the role, when it does. -/
@[simp] theorem onlyRole_bind_eq_ok {α : Type} {body : Unit → Except SettlementError α}
    {result : α} : (onlyRole env s role account >>= body) = .ok result ↔
      s.hasRole role account = true ∧ body () = .ok result :=
  check_bind_eq_ok onlyRole_eq_ok

/-- A role is granted by admins. -/
theorem grantRole_eq_ok {result : SettlementStorage × List SettlementEvent} :
    grantRole env s ctx role account = .ok result ↔
      s.hasRole defaultAdminRole ctx.sender = true ∧
        ({ s with hasRole := setRole s.hasRole role account true }, []) = result := by
  simp only [grantRole, bind_eq_ok, mapError_eq_ok, AccessControl.grantRole_ok,
    AccessControl.internalGrantRole_eq, pure_eq_ok, and_assoc, exists_and_left, exists_eq_left']

/-- A role is revoked by admins. -/
theorem revokeRole_eq_ok {result : SettlementStorage × List SettlementEvent} :
    revokeRole env s ctx role account = .ok result ↔
      s.hasRole defaultAdminRole ctx.sender = true ∧
        ({ s with hasRole := setRole s.hasRole role account false }, []) = result := by
  simp only [revokeRole, bind_eq_ok, mapError_eq_ok, AccessControl.revokeRole_ok,
    AccessControl.internalRevokeRole_eq, pure_eq_ok, and_assoc, exists_and_left, exists_eq_left']

/-- A role is renounced by its holder. -/
theorem renounceRole_eq_ok {result : SettlementStorage × List SettlementEvent} :
    renounceRole env s ctx role account = .ok result ↔ account = ctx.sender ∧
      ({ s with hasRole := setRole s.hasRole role ctx.sender false }, []) = result := by
  simp only [renounceRole, bind_eq_ok, mapError_eq_ok, AccessControl.renounceRole_ok,
    AccessControl.internalRevokeRole_eq, pure_eq_ok, and_assoc, exists_and_left, exists_eq_left']

end Roles

/-- Recording an action state touches only its own index table. -/
theorem recordL2ActionState_eq_ok {s next : SettlementStorage} {target : Bytes32}
    (h : recordL2ActionState s target = .ok next) :
    ∃ index info, next =
      { s with currentL2ActionStateIndex := index, l2ActionStateInfo := info } := by
  unfold recordL2ActionState at h
  split at h
  · rw [pure_eq_ok] at h
    exact ⟨s.currentL2ActionStateIndex, s.l2ActionStateInfo, h.symm⟩
  · simp only [bind_eq_ok, pure_eq_ok] at h
    obtain ⟨index, -, hnext⟩ := h
    exact ⟨index, _, hnext.symm⟩

/-- Recording an inner state touches only its own table. -/
theorem recordAcceptedInnerState_eq_ok {s next : SettlementStorage} {timestamp : BitVec 256}
    {innerState lengthField : Bytes32} {settlementIndex : BitVec 64}
    (h : recordAcceptedInnerState s timestamp innerState lengthField settlementIndex = .ok next) :
    ∃ table, next = { s with acceptedInnerActionState := table } := by
  unfold recordAcceptedInnerState at h
  split at h
  · rw [pure_eq_ok] at h
    exact ⟨s.acceptedInnerActionState, h.symm⟩
  · simp only [bind_eq_ok, pure_eq_ok] at h
    obtain ⟨length, -, hnext⟩ := h
    exact ⟨_, hnext.symm⟩

/-- A field read as a 32-bit length keeps its value. -/
theorem fieldToUint32_eq_ok {value : Bytes32} {length : BitVec 32}
    (h : fieldToUint32 value = .ok length) : length.toNat = value.toNat := by
  rw [fieldToUint32, require_bind_eq_ok, pure_eq_ok] at h
  obtain ⟨hlt, rfl⟩ := h
  rw [BitVec.toNat_setWidth, Nat.mod_eq_of_lt hlt]

/-- One contribution to the outer action chain. -/
inductive OuterContribution
  | commit (stateAfter : Bytes32)
  | witness (stateBefore stateAfter : Bytes32) (count : BitVec 32)
  deriving DecidableEq

/-- The contribution an event reports. -/
def SettlementEvent.contribution : SettlementEvent → Option OuterContribution
  | .settlementAccepted _ _ _ outerActionState _ _ _ _ _ => some (.commit outerActionState)
  | .outerWitnessBatchAppended stateBefore stateAfter count _ =>
    some (.witness stateBefore stateAfter count)
  | _ => none

/-- What `checkReceipt` establishes about a receipt and the storage before it. -/
structure ReceiptChecked (s : SettlementStorage) (decoded : DecodedPublicValues) : Prop where
  /-- The receipt names this chain. -/
  chainId : toWord decoded.chainId = env.chainId
  /-- Sequences are consecutive. -/
  sequence : decoded.batchSequence.toNat = s.batchSequence.toNat + 1
  /-- The source state is the stored one. -/
  stateBefore : decoded.stateBefore = s.outerState
  /-- The source action state is the stored one. -/
  actionStateBefore : decoded.outerActionStateBefore = s.actionState
  /-- The source length is the stored one. -/
  lengthBefore : decoded.outerActionStateLengthBefore = s.outerActionStateLength
  /-- A receipt adds one outer action. -/
  lengthAfter : decoded.outerActionStateLengthAfter.toNat = s.outerActionStateLength.toNat + 1
  /-- The synchronized action state has a checkpoint of the synchronized length. -/
  synchronized : s.outerActionStateInfo decoded.synchronizedOuterActionState =
    ⟨decoded.synchronizedOuterActionStateLength, true⟩

/-- The receipt checks establish their record of facts. -/
theorem checkReceipt_eq_ok {s : SettlementStorage} {timestamp : BitVec 256}
    {decoded : DecodedPublicValues} (h : checkReceipt env s timestamp decoded = .ok ()) :
    ReceiptChecked env s decoded := by
  simp only [checkReceipt, bind_eq_ok, require_eq_ok, exists_const] at h
  obtain ⟨-, hchain, -, expected, hexpected, hsequence, -, hstate, haction, hlength, lengthAfter,
    hafter, hlengthAfter, -, ⟨hvalid, hsynchronized⟩, -⟩ := h
  have hfind := List.find?_eq_none.mp hstate
  refine ⟨hchain, ?_, ?_, haction, hlength, ?_, ?_⟩
  · rw [hsequence, checkedAdd_eq_ok.mp hexpected]
    rfl
  · funext i
    have hi := hfind i (List.mem_finRange i)
    simpa using hi
  · rw [hlengthAfter, checkedAdd_eq_ok.mp hafter, hlength]
    rfl
  · rw [← hvalid, ← hsynchronized]

/-- The parts of the storage that settlements of receipts never write. -/
structure SameConfiguration (s next : SettlementStorage) : Prop where
  /-- The verifier is the same. -/
  verifier : next.verifier = s.verifier
  /-- The program key is the same. -/
  programVKey : next.programVKey = s.programVKey
  /-- The digest of the verifier index is the same. -/
  vkHash : next.vkHash = s.vkHash
  /-- The bridge is the same. -/
  bridgeContract : next.bridgeContract = s.bridgeContract
  /-- The roles are the same. -/
  hasRole : next.hasRole = s.hasRole
  /-- The start of the slots is the same. -/
  genesisTimestamp : next.genesisTimestamp = s.genesisTimestamp
  /-- The slot length is the same. -/
  slotDuration : next.slotDuration = s.slotDuration
  /-- The first slot is the same. -/
  forkSlot : next.forkSlot = s.forkSlot

/-- The batch table after a receipt: written from the second version on. -/
def settledBatches (s : SettlementStorage) (decoded : DecodedPublicValues) :
    BitVec 64 → InnerActionBatch :=
  if 2 ≤ decoded.version then
    Function.update s.innerActionBatch decoded.batchSequence
      ⟨decoded.stateBefore 3, decoded.stateAfter 3, decoded.innerActionRoot,
        decoded.innerActionStartIndex, decoded.innerActionCount, decoded.slotUpper, true⟩
  else s.innerActionBatch

/-- The settled records after a receipt: written by the third version. -/
def settledRecords (s : SettlementStorage) (decoded : DecodedPublicValues) : Bytes32 → Bool :=
  if decoded.version = 3 then Function.update s.settledAssetRecord decoded.assetRecordHash true
  else s.settledAssetRecord

/-- The record commitments after a receipt: written by the third version. -/
def settledCommitments (s : SettlementStorage) (decoded : DecodedPublicValues) : Bytes32 → Bytes32 :=
  if decoded.version = 3 then
    Function.update s.settledAssetRecordCommitment decoded.assetRecordHash
      decoded.assetRecordCommitment
  else s.settledAssetRecordCommitment

/-- The record batches after a receipt: written by the fourth version. -/
def settledRecordBatches (s : SettlementStorage) (decoded : DecodedPublicValues) :
    BitVec 64 → AssetRegistryRecordBatch :=
  if decoded.version = 4 then
    Function.update s.assetRegistryRecordBatch decoded.batchSequence
      ⟨decoded.assetRegistryRoot, decoded.assetRegistryCount, decoded.assetRegistrySchemaVersion,
        decoded.assetRecordBatchRoot, decoded.assetRecordBatchCount, true⟩
  else s.assetRegistryRecordBatch

/-- The registry root after a receipt: written by the third and fourth versions. -/
def settledRegistryRoot (s : SettlementStorage) (decoded : DecodedPublicValues) : Bytes32 :=
  if decoded.version = 4 then decoded.assetRegistryRoot
  else if decoded.version = 3 then decoded.assetRegistryRoot else s.assetRegistryRoot

/-- The registry count after a receipt: written by the third and fourth versions. -/
def settledRegistryCount (s : SettlementStorage) (decoded : DecodedPublicValues) : BitVec 32 :=
  if decoded.version = 4 then decoded.assetRegistryCount
  else if decoded.version = 3 then decoded.assetRegistryCount else s.assetRegistryCount

/-- The number of records a receipt appends. -/
def appendedRecords (decoded : DecodedPublicValues) : ℕ :=
  if decoded.version = 3 then 1
  else if decoded.version = 4 then decoded.assetRecordBatchCount.toNat else 0

/-- What an accepted receipt establishes. -/
structure ReceiptSettled (s : SettlementStorage) (decoded : DecodedPublicValues)
    (next : SettlementStorage) : Prop extends ReceiptChecked env s decoded where
  /-- Configuration and roles are kept. -/
  configuration : SameConfiguration s next
  /-- The receipt's target state is stored. -/
  outerState_eq : next.outerState = decoded.stateAfter
  /-- The receipt's target action state is stored. -/
  actionState_eq : next.actionState = decoded.outerActionStateAfter
  /-- The receipt's target length is stored. -/
  outerActionStateLength_eq : next.outerActionStateLength = decoded.outerActionStateLengthAfter
  /-- The receipt's sequence is stored. -/
  batchSequence_eq : next.batchSequence = decoded.batchSequence
  /-- The target action state gets a checkpoint. -/
  outerActionStateInfo_eq : next.outerActionStateInfo = Function.update s.outerActionStateInfo
    decoded.outerActionStateAfter ⟨decoded.outerActionStateLengthAfter, true⟩
  /-- A batch is stored from the second version on. -/
  innerActionBatch_eq : next.innerActionBatch = settledBatches s decoded
  /-- A stored batch spans the length transition. -/
  range : 2 ≤ decoded.version →
    decoded.innerActionStartIndex.toNat = (decoded.stateBefore 4).toNat ∧
    decoded.innerActionStartIndex.toNat + decoded.innerActionCount.toNat =
      (decoded.stateAfter 4).toNat ∧ (decoded.stateAfter 4).toNat < 2 ^ 32
  /-- Single records are settled by the third version. -/
  settledAssetRecord_eq : next.settledAssetRecord = settledRecords s decoded
  /-- Their commitments likewise. -/
  settledAssetRecordCommitment_eq :
    next.settledAssetRecordCommitment = settledCommitments s decoded
  /-- Record batches are settled by the fourth version. -/
  assetRegistryRecordBatch_eq : next.assetRegistryRecordBatch = settledRecordBatches s decoded
  /-- The ledger root follows the target state. -/
  currentRoot_eq : next.currentRoot = decoded.stateAfter 2
  /-- The registry root is the receipt's, if it has one. -/
  assetRegistryRoot_eq : next.assetRegistryRoot = settledRegistryRoot s decoded
  /-- The registry count likewise. -/
  assetRegistryCount_eq : next.assetRegistryCount = settledRegistryCount s decoded
  /-- A registry receipt counts its records, within the capacity. -/
  appended : decoded.version = 3 ∨ decoded.version = 4 →
    decoded.assetRegistryCount.toNat = s.assetRegistryCount.toNat + appendedRecords decoded ∧
    decoded.assetRegistryCount.toNat ≤ assetRegistryCapacity

/-- The batch part writes the batch table only, and only a checked range. -/
theorem recordInnerActionBatch_eq_ok {s : SettlementStorage} {decoded : DecodedPublicValues}
    {result : SettlementStorage × List SettlementEvent}
    (h : recordInnerActionBatch s decoded = .ok result) :
    result.1 = { s with innerActionBatch := settledBatches s decoded } ∧
    (2 ≤ decoded.version →
      decoded.innerActionStartIndex.toNat = (decoded.stateBefore 4).toNat ∧
      decoded.innerActionStartIndex.toNat + decoded.innerActionCount.toNat =
        (decoded.stateAfter 4).toNat ∧ (decoded.stateAfter 4).toNat < 2 ^ 32) ∧
    result.2.filterMap SettlementEvent.contribution = [] := by
  unfold recordInnerActionBatch at h
  split at h
  · rename_i hversion
    simp only [bind_eq_ok, require_eq_ok, exists_const, pure_eq_ok] at h
    obtain ⟨-, lengthBefore, hbefore, lengthAfter, hafter, ⟨hle, hcount⟩, ⟨hstart, -⟩, rfl⟩ := h
    have hnatBefore := fieldToUint32_eq_ok hbefore
    have hnatAfter := fieldToUint32_eq_ok hafter
    have hsub : (lengthAfter - lengthBefore).toNat = lengthAfter.toNat - lengthBefore.toNat :=
      BitVec.toNat_sub_of_le hle
    have hlt := lengthAfter.isLt
    have hleNat : lengthBefore.toNat ≤ lengthAfter.toNat := hle
    refine ⟨by rw [settledBatches, if_pos hversion], ?_, rfl⟩
    intro _
    rw [hstart, ← hcount, hsub]
    omega
  · rename_i hversion
    rw [pure_eq_ok] at h
    subst h
    exact ⟨by rw [settledBatches, if_neg hversion], fun hv => absurd hv hversion, rfl⟩

/-- The single-record part writes the registry checkpoint and the settled record. -/
theorem recordAssetRecord_eq_ok {s : SettlementStorage} {decoded : DecodedPublicValues}
    {result : SettlementStorage × List SettlementEvent}
    (h : recordAssetRecord s decoded = .ok result) :
    (∃ schema, result.1 = { s with
      assetRegistryRoot :=
        if decoded.version = 3 then decoded.assetRegistryRoot else s.assetRegistryRoot
      assetRegistryCount :=
        if decoded.version = 3 then decoded.assetRegistryCount else s.assetRegistryCount
      assetRegistrySchemaVersion := schema
      settledAssetRecord := settledRecords s decoded
      settledAssetRecordCommitment := settledCommitments s decoded }) ∧
    (decoded.version = 3 → decoded.assetRegistryCount.toNat = s.assetRegistryCount.toNat + 1 ∧
      decoded.assetRegistryCount.toNat ≤ assetRegistryCapacity) ∧
    result.2.filterMap SettlementEvent.contribution = [] := by
  unfold recordAssetRecord at h
  split at h
  · rename_i hversion
    simp only [bind_eq_ok, require_eq_ok, exists_const, pure_eq_ok] at h
    obtain ⟨-, nextCount, hnext, ⟨hcount, hcapacity, -⟩, rfl⟩ := h
    rw [settledRecords, settledCommitments, if_pos hversion, if_pos hversion, if_pos hversion,
      if_pos hversion]
    refine ⟨⟨_, rfl⟩, fun _ => ⟨?_, hcapacity⟩, rfl⟩
    rw [hcount, checkedAdd_eq_ok.mp hnext]
    rfl
  · rename_i hversion
    rw [pure_eq_ok] at h
    subst h
    rw [settledRecords, settledCommitments, if_neg hversion, if_neg hversion, if_neg hversion,
      if_neg hversion]
    exact ⟨⟨_, rfl⟩, fun hthree => absurd hthree hversion, rfl⟩

/-- The record-batch part writes the registry checkpoint and the record batch. -/
theorem recordAssetRecordBatch_eq_ok {s : SettlementStorage} {decoded : DecodedPublicValues}
    {result : SettlementStorage × List SettlementEvent}
    (h : recordAssetRecordBatch s decoded = .ok result) :
    (∃ schema, result.1 = { s with
      assetRegistryRoot :=
        if decoded.version = 4 then decoded.assetRegistryRoot else s.assetRegistryRoot
      assetRegistryCount :=
        if decoded.version = 4 then decoded.assetRegistryCount else s.assetRegistryCount
      assetRegistrySchemaVersion := schema
      assetRegistryRecordBatch := settledRecordBatches s decoded }) ∧
    (decoded.version = 4 → decoded.assetRegistryCount.toNat =
        s.assetRegistryCount.toNat + decoded.assetRecordBatchCount.toNat ∧
      decoded.assetRegistryCount.toNat ≤ assetRegistryCapacity) ∧
    result.2.filterMap SettlementEvent.contribution = [] := by
  unfold recordAssetRecordBatch at h
  split at h
  · rename_i hversion
    simp only [bind_eq_ok, require_eq_ok, exists_const, pure_eq_ok] at h
    obtain ⟨-, nextCount, hnext, ⟨hcount, hcapacity, -⟩, rfl⟩ := h
    rw [settledRecordBatches, if_pos hversion, if_pos hversion, if_pos hversion]
    refine ⟨⟨_, rfl⟩, fun _ => ⟨?_, hcapacity⟩, rfl⟩
    rw [hcount, checkedAdd_eq_ok.mp hnext]
  · rename_i hversion
    rw [pure_eq_ok] at h
    subst h
    rw [settledRecordBatches, if_neg hversion, if_neg hversion, if_neg hversion]
    exact ⟨⟨_, rfl⟩, fun hfour => absurd hfour hversion, rfl⟩

/-- An accepted `verifyAndUpdateRoot` decoded a receipt that the verifier
accepted, settled it, and reported one commit. -/
theorem verifyAndUpdateRoot_eq_ok {s : SettlementStorage} {ctx : CallContext}
    {publicValues proofBytes : Bytes} {result : SettlementStorage × List SettlementEvent}
    (h : verifyAndUpdateRoot env s ctx publicValues proofBytes = .ok result) :
    ∃ decoded, env.verifyProof s.verifier s.programVKey publicValues proofBytes = true ∧
      decodePublicValues publicValues = .ok decoded ∧
      ReceiptSettled env s decoded result.1 ∧
      result.2.filterMap SettlementEvent.contribution =
        [.commit decoded.outerActionStateAfter] := by
  simp only [verifyAndUpdateRoot, bind_eq_ok, require_eq_ok, exists_const, pure_eq_ok] at h
  obtain ⟨-, -, hproof, decoded, hdecode, u, hcheck, recorded, hrecorded, batched, hbatched,
    registered, hregistered, settled, hsettled, innerLength, -, rfl⟩ := h
  have hchecked := checkReceipt_eq_ok env hcheck
  simp only [recordReceipt, bind_eq_ok] at hrecorded
  obtain ⟨indexed, hindexed, haccepted⟩ := hrecorded
  obtain ⟨index, info, hindexedEq⟩ := recordL2ActionState_eq_ok hindexed
  obtain ⟨table, hrecordedEq⟩ := recordAcceptedInnerState_eq_ok haccepted
  obtain ⟨hbatchedEq, hrange, hbatchedEvents⟩ := recordInnerActionBatch_eq_ok hbatched
  obtain ⟨⟨_, hregisteredEq⟩, hsingle, hregisteredEvents⟩ := recordAssetRecord_eq_ok hregistered
  obtain ⟨⟨_, hsettledEq⟩, hseveral, hsettledEvents⟩ := recordAssetRecordBatch_eq_ok hsettled
  have hfinal := hsettledEq
  rw [hregisteredEq, hbatchedEq, hrecordedEq, hindexedEq] at hfinal
  rw [hregisteredEq, hbatchedEq, hrecordedEq, hindexedEq] at hseveral
  rw [hbatchedEq, hrecordedEq, hindexedEq] at hsingle
  have happended : decoded.version = 3 ∨ decoded.version = 4 →
      decoded.assetRegistryCount.toNat = s.assetRegistryCount.toNat + appendedRecords decoded ∧
      decoded.assetRegistryCount.toNat ≤ assetRegistryCapacity := by
    rintro (hversion | hversion)
    · rw [appendedRecords, if_pos hversion]
      exact hsingle hversion
    · have hthree : decoded.version ≠ 3 := by
        rw [hversion]
        decide
      have hboth := hseveral hversion
      dsimp only at hboth
      rw [if_neg hthree] at hboth
      rw [appendedRecords, if_neg hthree, if_pos hversion]
      exact hboth
  refine ⟨decoded, hproof, hdecode, ?_, ?_⟩
  · dsimp only
    rw [hfinal]
    exact ⟨hchecked, ⟨rfl, rfl, rfl, rfl, rfl, rfl, rfl, rfl⟩, rfl, rfl, rfl, rfl, rfl, rfl, hrange,
      rfl, rfl, rfl, rfl, rfl, rfl, happended⟩
  · rw [List.filterMap_append, List.filterMap_append, List.filterMap_append, hbatchedEvents,
      hregisteredEvents, hsettledEvents]
    rfl

/-- What an accepted witness append establishes. -/
structure WitnessAppended (s : SettlementStorage) (stateBefore stateAfter : Bytes32)
    (count : BitVec 32) (next : SettlementStorage) : Prop where
  /-- The append starts at the stored action state. -/
  stateBefore_eq : stateBefore = s.actionState
  /-- The new action state is stored. -/
  actionState_eq : next.actionState = stateAfter
  /-- The length grows by the count. -/
  length_eq : next.outerActionStateLength.toNat = s.outerActionStateLength.toNat + count.toNat
  /-- The new action state gets a checkpoint. -/
  outerActionStateInfo_eq : next.outerActionStateInfo =
    Function.update s.outerActionStateInfo stateAfter ⟨next.outerActionStateLength, true⟩
  /-- Configuration and roles are kept. -/
  configuration : SameConfiguration s next
  /-- The outer state is unchanged. -/
  outerState_eq : next.outerState = s.outerState
  /-- Nothing is settled. -/
  batchSequence_eq : next.batchSequence = s.batchSequence
  /-- The stored batches are unchanged. -/
  innerActionBatch_eq : next.innerActionBatch = s.innerActionBatch
  /-- The settled records are unchanged. -/
  settledAssetRecord_eq : next.settledAssetRecord = s.settledAssetRecord
  /-- Their commitments are unchanged. -/
  settledAssetRecordCommitment_eq :
    next.settledAssetRecordCommitment = s.settledAssetRecordCommitment
  /-- The record trees are unchanged. -/
  assetRegistryRecordBatch_eq : next.assetRegistryRecordBatch = s.assetRegistryRecordBatch
  /-- The settled ledger is unchanged. -/
  currentRoot_eq : next.currentRoot = s.currentRoot
  /-- The root of the registry is unchanged. -/
  assetRegistryRoot_eq : next.assetRegistryRoot = s.assetRegistryRoot
  /-- The count of the registry is unchanged. -/
  assetRegistryCount_eq : next.assetRegistryCount = s.assetRegistryCount

/-- An accepted append establishes its record of facts and reports itself. -/
theorem appendOuterWitnessBatch_eq_ok {s : SettlementStorage} {sender : Address}
    {stateBefore stateAfter : Bytes32} {count : BitVec 32}
    {result : SettlementStorage × List SettlementEvent}
    (h : appendOuterWitnessBatch env s sender stateBefore stateAfter count = .ok result) :
    WitnessAppended s stateBefore stateAfter count result.1 ∧
      result.2.filterMap SettlementEvent.contribution =
        [.witness stateBefore stateAfter count] := by
  simp only [appendOuterWitnessBatch, bind_eq_ok, require_eq_ok, exists_const, pure_eq_ok] at h
  obtain ⟨-, -, hbefore, -, lengthAfter, hlength, -, recorded, hrecorded, rfl⟩ := h
  obtain ⟨index, info, hrecordedEq⟩ := recordL2ActionState_eq_ok hrecorded
  subst hrecordedEq
  refine ⟨?_, rfl⟩
  exact ⟨hbefore, rfl, checkedAdd_eq_ok.mp hlength, rfl,
    ⟨rfl, rfl, rfl, rfl, rfl, rfl, rfl, rfl⟩, rfl, rfl, rfl, rfl, rfl, rfl, rfl, rfl, rfl⟩

end EthereumSettlement.ZekoSettlement
