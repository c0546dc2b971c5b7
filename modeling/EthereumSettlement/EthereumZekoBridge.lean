import EthereumSettlement.BridgeGuest
import EthereumSettlement.ZekoSettlement

/-!
# The bridge contract

`EthereumZekoBridge` over the state of the whole chain: both contracts' storage,
the registry facet's storage, the bridge's ether, the tokens and the event log.
Tokens are a parameter, since a token contract may be anything. An external call
is atomic: reentrant calls are left out, as are proxy upgrades and the storage
slots that the contract keeps only for layout compatibility.
-/

namespace EthereumSettlement.EthereumZekoBridge

open ByteWords CheckedCalls OpenZeppelin HashCommitments PastaPoseidon InnerActionCommitment RegistryCheckpoint
open SettlementCodec BridgeCodec BridgeGuest ZekoSettlement

/-- Token contracts: what a call to the contract at an address does, with `none`
for a revert or a failed `SafeERC20` call. -/
structure TokenWorld where
  /-- The state of all token contracts. -/
  State : Type
  /-- `balanceOf`, by token and account. -/
  balanceOf : State → Address → Address → Option (BitVec 256)
  /-- `safeTransfer`, by token, sender, receiver and amount. -/
  transfer : State → Address → Address → Address → BitVec 256 → Option State
  /-- `safeTransferFrom`, by token, spender, owner, receiver and amount. -/
  transferFrom : State → Address → Address → Address → Address → BitVec 256 → Option State
  /-- `decimals`, by token. -/
  decimals : State → Address → Option (BitVec 8)

/-- `TokenConfig`. -/
structure TokenConfig where
  /-- Decimals on Zeko. -/
  zekoDecimals : BitVec 8
  /-- Decimals on Ethereum. -/
  ethereumDecimals : BitVec 8
  /-- Whether deposits are taken. -/
  allowed : Bool
  deriving DecidableEq

/-- The storage of the bridge proxy. -/
structure BridgeStorage where
  /-- Number of deposits taken. -/
  depositNonce : BitVec 64
  /-- Deposit accumulator after all deposits. -/
  currentDepositState : Bytes32
  /-- Deposit accumulator after each deposit. -/
  depositStateByNonce : BitVec 64 → Bytes32
  /-- Outer action states that bridge transitions led to. -/
  processedActionState : Bytes32 → Bool
  /-- Configuration of each token. -/
  allowedToken : Address → TokenConfig
  /-- Amount of each token deposited and not claimed. -/
  totalDepositedByToken : Address → BitVec 256
  /-- Address of the verifier of bridge proofs. -/
  bridgeVerifier : Address
  /-- Verification key of the bridge program. -/
  bridgeProgramVKey : Bytes32
  /-- Last deposit that was bridged. -/
  bridgedDepositNonce : BitVec 64
  /-- First native index that each account has not claimed. -/
  nextWithdrawalIndex : Address → BitVec 32
  /-- Slots between a commit and its claims. -/
  withdrawalDelaySlots : BitVec 32
  /-- Ether that backs the balances on Zeko. -/
  nativeEscrowLiability : BitVec 256
  /-- Mina token identifier of each token. -/
  zekoTokenIdByToken : Address → Bytes32
  /-- Mina owner account of each token. -/
  zekoTokenOwnerByToken : Address → Bytes32
  /-- Asset identifier of each token. -/
  assetIdByToken : Address → Bytes32
  /-- Tokens that have been activated. -/
  canonicalTokenRegistered : Address → Bool
  /-- Amount of each token that backs the balances on Zeko. -/
  escrowLiabilityByToken : Address → BitVec 256
  /-- First index of each token that each account has not claimed. -/
  nextTokenWithdrawalIndex : Address → Address → BitVec 32
  /-- Most that may be deposited of each token. -/
  depositCapByToken : Address → BitVec 64
  /-- Registry index of each token. -/
  registryIndexByToken : Address → BitVec 32
  /-- Record commitment of each token. -/
  recordCommitmentByToken : Address → Bytes32
  /-- `AccessControl`: whether an account holds a role. -/
  hasRole : Roles
  /-- `Pausable`: whether the bridge is paused. -/
  paused : Bool

/-- The storage of a fresh proxy. -/
def BridgeStorage.zero : BridgeStorage where
  depositNonce := 0
  currentDepositState := 0
  depositStateByNonce := fun _ => 0
  processedActionState := fun _ => false
  allowedToken := fun _ => ⟨0, 0, false⟩
  totalDepositedByToken := fun _ => 0
  bridgeVerifier := 0
  bridgeProgramVKey := 0
  bridgedDepositNonce := 0
  nextWithdrawalIndex := fun _ => 0
  withdrawalDelaySlots := 0
  nativeEscrowLiability := 0
  zekoTokenIdByToken := fun _ => 0
  zekoTokenOwnerByToken := fun _ => 0
  assetIdByToken := fun _ => 0
  canonicalTokenRegistered := fun _ => false
  escrowLiabilityByToken := fun _ => 0
  nextTokenWithdrawalIndex := fun _ _ => 0
  depositCapByToken := fun _ => 0
  registryIndexByToken := fun _ => 0
  recordCommitmentByToken := fun _ => 0
  hasRole := fun _ _ => false
  paused := false

/-- `AssetStatus`. -/
inductive AssetStatus
  | none
  | pending
  | active
  | paused
  | disallowed
  deriving DecidableEq

/-- `ZekoAssetRegistryStorage.Layout`. -/
structure RegistryLayout where
  /-- Proposed record of each token. -/
  assetRecordByToken : Address → CanonicalAssetRecordV1
  /-- Token at each registry index. -/
  assetTokenByRegistryIndex : BitVec 32 → Address
  /-- Registration status of each token. -/
  assetStatusByToken : Address → AssetStatus
  /-- Record hashes under proposal. -/
  proposedAssetRecord : Bytes32 → Bool
  /-- Asset identifiers under proposal. -/
  proposedAssetId : Bytes32 → Bool
  /-- Mina token identities under proposal. -/
  proposedL2TokenIdentity : Bytes32 → Bool
  /-- Number of proposed records. -/
  proposedAssetCount : BitVec 32

/-- The zero record of an unset mapping entry. -/
def zeroRecord : CanonicalAssetRecordV1 := ⟨0, 0, 0, 0, 0, 0, 0, 0, 0, 0, 0⟩

/-- The registry storage of a fresh proxy. -/
def RegistryLayout.zero : RegistryLayout where
  assetRecordByToken := fun _ => zeroRecord
  assetTokenByRegistryIndex := fun _ => 0
  assetStatusByToken := fun _ => .none
  proposedAssetRecord := fun _ => false
  proposedAssetId := fun _ => false
  proposedL2TokenIdentity := fun _ => false
  proposedAssetCount := 0

/-- The events of the bridge proxy, the registry facet's included. -/
inductive BridgeEvent
  | pausedBy (account : Address)
  | unpausedBy (account : Address)
  | tokenAllowed (token : Address) (allowed : Bool) (zekoDecimals ethereumDecimals : BitVec 8)
  | tokenRegistered (token : Address) (assetId zekoTokenOwner zekoTokenId : Bytes32)
      (decimals : BitVec 8) (depositCap : BitVec 64)
  | erc20DepositSubmitted (nonce : BitVec 64) (assetId depositLeaf newDepositState : Bytes32)
      (token sender : Address) (zekoRecipient : Bytes32) (amount timeout : BitVec 64)
  | erc20DepositSubmittedV2 (nonce : BitVec 64) (assetId depositLeaf newDepositState : Bytes32)
      (token sender : Address) (zekoRecipient : Bytes32) (amount timeout : BitVec 64)
      (encodingVersion registryIndex : BitVec 32) (recordCommitment : Bytes32)
  | bridgeDeposit (nonce : BitVec 64) (depositLeaf newDepositState oldDepositState : Bytes32)
      (token sender : Address) (zekoRecipient : Bytes32) (amount zekoAmount : BitVec 256)
      (timeout : BitVec 64)
  | emergencyTokenWithdraw (token receiver : Address) (amount : BitVec 256)
  | bridgeTransitionAccepted (oldActionState newActionState newDepositState : Bytes32)
      (newDepositNonce : BitVec 64)
  | nativeWithdrawalClaimed (settlementSequence : BitVec 64) (globalActionIndex : BitVec 32)
      (recipient : Address) (zekoAmount : BitVec 64) (ethereumAmount : BitVec 256)
      (actionFieldsHash : Bytes32)
  | erc20WithdrawalClaimedV2 (settlementSequence : BitVec 64) (globalActionIndex : BitVec 32)
      (token : Address) (assetId : Bytes32) (registryIndex : BitVec 32) (recordCommitment : Bytes32)
      (recipient : Address) (amount : BitVec 64) (actionFieldsHash : Bytes32)
  | withdrawalDelayUpdated (oldDelay newDelay : BitVec 32)
  | assetRegistrationProposed (recordHash : Bytes32) (record : CanonicalAssetRecordV1)
  | assetRegistrationActivated (recordHash : Bytes32) (registryIndex : BitVec 32) (token : Address)
      (recordCommitment registryRoot : Bytes32) (registryCount registrySchemaVersion : BitVec 32)
  | assetRegistrationCancelled (recordHash : Bytes32) (registryIndex : BitVec 32) (token : Address)
  | assetStatusUpdated (token : Address) (oldStatus newStatus : AssetStatus)
  deriving DecidableEq

/-- An event of either proxy. -/
inductive ChainEvent
  | settlement (event : SettlementEvent)
  | bridge (event : BridgeEvent)
  deriving DecidableEq

/-- The state of the chain as far as the contracts can see it. -/
structure Chain (W : TokenWorld) where
  /-- Storage of the settlement proxy. -/
  settlement : SettlementStorage
  /-- Storage of the bridge proxy. -/
  bridge : BridgeStorage
  /-- Storage of the asset registry. -/
  registry : RegistryLayout
  /-- The ether held by the bridge. -/
  etherBalance : ℕ
  /-- State of the token contracts. -/
  tokens : W.State
  /-- All events, oldest first. -/
  log : List ChainEvent

/-- A call that ends in a new chain state, or in a revert without effect. -/
abbrev BridgeCall (W : TokenWorld) := Except BridgeError (Chain W)

variable (env : Environment) {W : TokenWorld}

/-- Append events to the log. -/
def Chain.emit (c : Chain W) (events : List BridgeEvent) : Chain W :=
  { c with log := c.log ++ events.map .bridge }

/-- A view or call into the settlement contract. -/
def callSettlement {α : Type} (result : Except SettlementError α) : Except BridgeError α :=
  match result with
  | .ok value => .ok value
  | .error error => .error (.settlementReverted error)

/-- A call into a token contract. -/
def callToken {α : Type} (token : Address) (result : Option α) : Except BridgeError α :=
  match result with
  | some value => .ok value
  | none => .error (.safeERC20FailedOperation token)

/-- A settlement view returns exactly when the settlement contract does. -/
@[simp] theorem callSettlement_eq_ok {α : Type} {result : Except SettlementError α} {value : α} :
    callSettlement result = .ok value ↔ result = .ok value := by
  cases result with
  | ok other => simp [callSettlement]
  | error error => simp [callSettlement]

/-- A token call returns exactly when the token does. -/
@[simp] theorem callToken_eq_ok {α : Type} {token : Address} {result : Option α} {value : α} :
    callToken token result = .ok value ↔ result = some value := by
  cases result with
  | some other => simp [callToken]
  | none => simp [callToken]

/-- The `onlyRole` modifier. -/
def onlyBridgeRole (s : BridgeStorage) (role : Bytes32) (sender : Address) :
    Except BridgeError Unit :=
  (env.accessControl.checkRole s.hasRole role sender).mapError .accessControl

/-- The `whenNotPaused` modifier. -/
def whenNotPaused (s : BridgeStorage) : Except BridgeError Unit :=
  (env.pausable.requireNotPaused s.paused).mapError .pausable

/-- `payable(to).call{value: amount}("")`: it succeeds when the bridge holds the
amount and the receiver takes it. The bridge itself has no payable entry for
empty calldata. -/
def sendEther (c : Chain W) (receiver : Address) (amount : BitVec 256) (accepts : Bool) :
    BridgeCall W := do
  require (amount.toNat ≤ c.etherBalance ∧ receiver ≠ env.bridgeAddress ∧ accepts = true)
    .nativeTransferFailed
  pure { c with etherBalance := c.etherBalance - amount.toNat }

/-- `grantRole`. -/
def grantBridgeRole (c : Chain W) (ctx : CallContext) (role : Bytes32) (account : Address) :
    BridgeCall W := do
  let hasRole ← (env.accessControl.grantRole c.bridge.hasRole ctx.sender role account).mapError
    .accessControl
  pure { c with bridge := { c.bridge with hasRole := hasRole } }

/-- `revokeRole`. -/
def revokeBridgeRole (c : Chain W) (ctx : CallContext) (role : Bytes32) (account : Address) :
    BridgeCall W := do
  let hasRole ← (env.accessControl.revokeRole c.bridge.hasRole ctx.sender role account).mapError
    .accessControl
  pure { c with bridge := { c.bridge with hasRole := hasRole } }

/-- `renounceRole`. -/
def renounceBridgeRole (c : Chain W) (ctx : CallContext) (role : Bytes32)
    (callerConfirmation : Address) : BridgeCall W := do
  let hasRole ← (env.accessControl.renounceRole c.bridge.hasRole ctx.sender role
    callerConfirmation).mapError .accessControl
  pure { c with bridge := { c.bridge with hasRole := hasRole } }

/-- `pause`. -/
def pause (c : Chain W) (ctx : CallContext) : BridgeCall W := do
  onlyBridgeRole env c.bridge (adminRole env) ctx.sender
  let paused ← (env.pausable.pause c.bridge.paused).mapError .pausable
  pure ({ c with bridge := { c.bridge with paused := paused } }.emit [.pausedBy ctx.sender])

/-- `unpause`. -/
def unpause (c : Chain W) (ctx : CallContext) : BridgeCall W := do
  onlyBridgeRole env c.bridge (adminRole env) ctx.sender
  let paused ← (env.pausable.unpause c.bridge.paused).mapError .pausable
  pure ({ c with bridge := { c.bridge with paused := paused } }.emit [.unpausedBy ctx.sender])

/-- `setWithdrawalDelaySlots`. -/
def setWithdrawalDelaySlots (c : Chain W) (ctx : CallContext) (newDelay : BitVec 32) :
    BridgeCall W := do
  onlyBridgeRole env c.bridge (adminRole env) ctx.sender
  pure ({ c with bridge := { c.bridge with withdrawalDelaySlots := newDelay } }.emit
    [.withdrawalDelayUpdated c.bridge.withdrawalDelaySlots newDelay])

/-- `emergencyWithdrawToken`: ether without a bound, tokens up to the balance
above the escrow liability. -/
def emergencyWithdrawToken (c : Chain W) (ctx : CallContext) (token receiver : Address)
    (amount : BitVec 256) (accepts : Bool) : BridgeCall W := do
  onlyBridgeRole env c.bridge (adminRole env) ctx.sender
  require (receiver ≠ 0) .zeroAddress
  require (amount ≠ 0) .zeroAmount
  let paid ← if token = 0 then sendEther env c receiver amount accepts
    else do
      let tokenBalance ← callToken token (W.balanceOf c.tokens token env.bridgeAddress)
      let liability := c.bridge.escrowLiabilityByToken token
      let available := if liability < tokenBalance then tokenBalance - liability else 0
      require (amount ≤ available) (.insufficientExcessTokenBalance token available amount)
      let tokens ← callToken token (W.transfer c.tokens token env.bridgeAddress receiver amount)
      pure { c with tokens := tokens }
  pure (paid.emit [.emergencyTokenWithdraw token receiver amount])

/-- `ZekoAddressLib.unpack`. -/
def unpackZeko (zeko : Bytes32) : Except BridgeError (BitVec 256 × Bool) := do
  let x := zeko &&& BitVec.ofNat 256 (2 ^ 255 - 1)
  require (x.toNat < fieldOrder) .invalidZekoField
  pure (x, zeko.msb)

/-- `computeDepositLeaf`. -/
def computeDepositLeaf (token : Address) (zekoRecipient : Bytes32) (zekoAmount : BitVec 256)
    (timeout nonce : BitVec 64) : Except BridgeError Bytes32 := do
  let _ ← unpackZeko zekoRecipient
  pure (env.hashes.keccak256 (depositLeafInput env.hashes env.chainId (toWord env.bridgeAddress)
    (toWord token) zekoRecipient zekoAmount (toWord timeout) (toWord nonce)))

/-- `computeERC20DepositLeaf`. -/
def computeERC20DepositLeaf (token : Address) (registryIndex : BitVec 32)
    (recordCommitment assetId zekoRecipient : Bytes32) (amount timeout nonce : BitVec 64) :
    Except BridgeError Bytes32 := do
  let _ ← unpackZeko zekoRecipient
  pure (env.hashes.keccak256 (erc20DepositLeafInput env.hashes env.chainId
    (toWord env.bridgeAddress) (toWord token) (toWord erc20ActionEncodingV2) (toWord registryIndex)
    recordCommitment assetId zekoRecipient (toWord amount) (toWord timeout) (toWord nonce)))

/-- `type(uint32).max` as the timeout of every deposit. -/
def depositTimeout : BitVec 64 := 4294967295

/-- The number of wei in a gwei. -/
def gwei : ℕ := 1000000000

/-- `_recordNativeDeposit`. -/
def recordNativeDeposit (c : Chain W) (sender : Address) (amount : BitVec 256)
    (zekoRecipient : Bytes32) : BridgeCall W := do
  let nonce ← checkedAdd .arithmeticPanic c.bridge.depositNonce 1
  let oldDepositState := c.bridge.currentDepositState
  require (amount.toNat % gwei = 0) (.invalidAmountPrecision 0 amount 18 9)
  let zekoAmount := BitVec.ofNat 256 (amount.toNat / gwei)
  let depositLeaf ← computeDepositLeaf env 0 zekoRecipient zekoAmount depositTimeout nonce
  let newDepositState := computeNextDepositState env.hashes oldDepositState depositLeaf
  let total ← checkedAdd .arithmeticPanic (c.bridge.totalDepositedByToken 0) amount
  let liability ← checkedAdd .arithmeticPanic c.bridge.nativeEscrowLiability amount
  pure ({ c with bridge := { c.bridge with
    depositNonce := nonce
    currentDepositState := newDepositState
    depositStateByNonce := Function.update c.bridge.depositStateByNonce nonce newDepositState
    totalDepositedByToken := Function.update c.bridge.totalDepositedByToken 0 total
    nativeEscrowLiability := liability } }.emit
    [.bridgeDeposit nonce depositLeaf newDepositState oldDepositState 0 sender zekoRecipient amount
      zekoAmount depositTimeout])

/-- `_recordERC20Deposit`. -/
def recordERC20Deposit (c : Chain W) (sender token : Address) (amount : BitVec 64)
    (zekoRecipient : Bytes32) : BridgeCall W := do
  let nonce ← checkedAdd .arithmeticPanic c.bridge.depositNonce 1
  let assetId := c.bridge.assetIdByToken token
  let registryIndex := c.bridge.registryIndexByToken token
  let recordCommitment := c.bridge.recordCommitmentByToken token
  require (recordCommitment ≠ 0) (.canonicalRecordNotBound token)
  let oldDepositState := c.bridge.currentDepositState
  let depositLeaf ← computeERC20DepositLeaf env token registryIndex recordCommitment assetId
    zekoRecipient amount depositTimeout nonce
  let newDepositState := computeNextDepositState env.hashes oldDepositState depositLeaf
  let total ← checkedAdd .arithmeticPanic (c.bridge.totalDepositedByToken token) (toWord amount)
  let liability ← checkedAdd .arithmeticPanic (c.bridge.escrowLiabilityByToken token) (toWord amount)
  pure ({ c with bridge := { c.bridge with
    depositNonce := nonce
    currentDepositState := newDepositState
    depositStateByNonce := Function.update c.bridge.depositStateByNonce nonce newDepositState
    totalDepositedByToken := Function.update c.bridge.totalDepositedByToken token total
    escrowLiabilityByToken := Function.update c.bridge.escrowLiabilityByToken token liability } }.emit
    [.bridgeDeposit nonce depositLeaf newDepositState oldDepositState token sender zekoRecipient
      (toWord amount) (toWord amount) depositTimeout,
     .erc20DepositSubmitted nonce assetId depositLeaf newDepositState token sender zekoRecipient
      amount depositTimeout,
     .erc20DepositSubmittedV2 nonce assetId depositLeaf newDepositState token sender zekoRecipient
      amount depositTimeout erc20ActionEncodingV2 registryIndex recordCommitment])

/-- `submitDeposit`. -/
def submitDeposit (c : Chain W) (ctx : CallContext) (token : Address) (amount : BitVec 256)
    (zekoRecipient : Bytes32) : BridgeCall W := do
  whenNotPaused env c.bridge
  require (c.bridge.canonicalTokenRegistered token = true) (.tokenNotAdded token)
  require (c.bridge.recordCommitmentByToken token ≠ 0) (.canonicalRecordNotBound token)
  require ((c.bridge.allowedToken token).allowed = true) (.tokenNotAllowed token)
  require (amount ≠ 0) .zeroAmount
  require (amount.toNat < 2 ^ 64) (.amountExceedsZekoUInt64 amount)
  let requestedLiability ← checkedAdd .arithmeticPanic (c.bridge.escrowLiabilityByToken token) amount
  let depositCap : BitVec 256 := toWord (c.bridge.depositCapByToken token)
  require (requestedLiability ≤ depositCap)
    (.tokenDepositCapExceeded token depositCap requestedLiability)
  let balanceBefore ← callToken token (W.balanceOf c.tokens token env.bridgeAddress)
  let tokens ← callToken token
    (W.transferFrom c.tokens token env.bridgeAddress ctx.sender env.bridgeAddress amount)
  let balanceAfter ← callToken token (W.balanceOf tokens token env.bridgeAddress)
  let received ← checkedSub .arithmeticPanic balanceAfter balanceBefore
  require (received = amount) .feeOnTransferTokenNotSupported
  recordERC20Deposit env { c with tokens := tokens } ctx.sender token (amount.setWidth 64)
    zekoRecipient

/-- `depositETH` with `msg.value = value`. -/
def depositETH (c : Chain W) (ctx : CallContext) (value : BitVec 256) (zekoRecipient : Bytes32) :
    BridgeCall W := do
  whenNotPaused env c.bridge
  require ((c.bridge.allowedToken 0).allowed = true) (.tokenNotAllowed 0)
  require (value ≠ 0) .zeroAmount
  recordNativeDeposit env { c with etherBalance := c.etherBalance + value.toNat } ctx.sender value
    zekoRecipient

/-- The append loop of `submitBridgeTransition`: the action at each position is
appended to the settlement contract's outer chain. -/
def appendActions (publicValues : Bytes) :
    ℕ → ℕ → Bytes32 → SettlementStorage → Except BridgeError
      (Bytes32 × SettlementStorage × List SettlementEvent)
  | 0, _, stateBefore, settlement => pure (stateBefore, settlement, [])
  | remaining + 1, i, stateBefore, settlement => do
    let stateAfter := readActionState publicValues i
    let appended ← callSettlement
      (appendOuterWitnessBatch env settlement env.bridgeAddress stateBefore stateAfter 1)
    let rest ← appendActions publicValues remaining (i + 1) stateAfter appended.1
    pure (rest.1, rest.2.1, appended.2 ++ rest.2.2)

/-- `submitBridgeTransition` behind its role, pause and proof checks. -/
def applyBridgeTransition (c : Chain W) (publicValues : Bytes) : BridgeCall W := do
  let decoded ← decodeBridgePublicValues publicValues
  require (decoded.depositCount ≠ 0) .invalidWithdrawProof
  require (decoded.ethereumNonceBefore = c.bridge.bridgedDepositNonce)
    (.invalidDepositNonce c.bridge.bridgedDepositNonce decoded.ethereumNonceBefore)
  require (decoded.zekoActionStateBefore = c.settlement.actionState)
    (.invalidSettlementActionState decoded.zekoActionStateBefore)
  require (decoded.zekoActionStateLengthBefore = c.settlement.outerActionStateLength)
    (.invalidBridgePublicValuesLength
      (c.settlement.outerActionStateLength.toNat + decoded.depositCount.toNat)
      decoded.zekoActionStateLengthAfter.toNat)
  let expectedLength ← checkedAdd .arithmeticPanic decoded.zekoActionStateLengthBefore
    decoded.depositCount
  require (decoded.zekoActionStateLengthAfter = expectedLength)
    (.invalidBridgePublicValuesLength
      (c.settlement.outerActionStateLength.toNat + decoded.depositCount.toNat)
      decoded.zekoActionStateLengthAfter.toNat)
  require (c.bridge.depositStateByNonce decoded.ethereumNonceBefore = decoded.ethereumStateBefore)
    (.invalidDepositState (c.bridge.depositStateByNonce decoded.ethereumNonceBefore)
      decoded.ethereumStateBefore)
  require (decoded.ethereumNonceAfter = c.bridge.depositNonce)
    (.invalidDepositNonce c.bridge.depositNonce decoded.ethereumNonceAfter)
  require (decoded.ethereumStateAfter = c.bridge.currentDepositState)
    (.invalidDepositState c.bridge.currentDepositState decoded.ethereumStateAfter)
  let expectedNonce ← checkedAdd .arithmeticPanic decoded.ethereumNonceBefore
    (decoded.depositCount.setWidth 64)
  require (decoded.ethereumNonceAfter = expectedNonce)
    (.invalidDepositNonce expectedNonce decoded.ethereumNonceAfter)
  require (c.bridge.processedActionState decoded.zekoActionStateAfter = false)
    (.actionStateAlreadyProcessed decoded.zekoActionStateAfter)
  let appended ← appendActions env publicValues decoded.depositCount.toNat 0
    decoded.zekoActionStateBefore c.settlement
  require (appended.1 = decoded.zekoActionStateAfter) (.invalidSettlementActionState appended.1)
  pure { c with
    settlement := appended.2.1
    bridge := { c.bridge with
      processedActionState := Function.update c.bridge.processedActionState
        decoded.zekoActionStateAfter true
      bridgedDepositNonce := decoded.ethereumNonceAfter }
    log := c.log ++ appended.2.2.map .settlement ++
      [.bridge (.bridgeTransitionAccepted decoded.zekoActionStateBefore decoded.zekoActionStateAfter
        decoded.ethereumStateAfter decoded.ethereumNonceAfter)] }

/-- `submitBridgeTransition`. -/
def submitBridgeTransition (c : Chain W) (ctx : CallContext) (publicValues proofBytes : Bytes) :
    BridgeCall W := do
  onlyBridgeRole env c.bridge (proverRole env) ctx.sender
  whenNotPaused env c.bridge
  require (env.verifyProof c.bridge.bridgeVerifier c.bridge.bridgeProgramVKey publicValues proofBytes
    = true) .proofRejected
  applyBridgeTransition env c publicValues

/-- The string hashed by `computeNativeWithdrawalLeaf`. -/
def nativeWithdrawalLeafInput (globalActionIndex : BitVec 32) (recipient : Address)
    (amount : BitVec 64) (actionFieldsHash : Bytes32) : Bytes :=
  abiEncode [domainHash env.hashes "ZEKO_NATIVE_WITHDRAWAL_LEAF_V2", env.chainId,
    toWord env.bridgeAddress, toWord globalActionIndex, toWord recipient, toWord amount,
    actionFieldsHash]

/-- `computeNativeWithdrawalLeaf`. -/
def computeNativeWithdrawalLeaf (globalActionIndex : BitVec 32) (recipient : Address)
    (amount : BitVec 64) (actionFieldsHash : Bytes32) : Bytes32 :=
  env.hashes.keccak256
    (nativeWithdrawalLeafInput env globalActionIndex recipient amount actionFieldsHash)

/-- The string hashed by `computeERC20WithdrawalLeaf`. -/
def erc20WithdrawalLeafInput (globalActionIndex : BitVec 32) (token : Address)
    (registryIndex : BitVec 32) (recordCommitment assetId : Bytes32) (recipient : Address)
    (amount : BitVec 64) (actionFieldsHash : Bytes32) : Bytes :=
  abiEncode [domainHash env.hashes "ZEKO_ERC20_WITHDRAWAL_LEAF_V4", env.chainId,
    toWord env.bridgeAddress, toWord globalActionIndex, toWord token, toWord erc20ActionEncodingV2,
    toWord registryIndex, recordCommitment, assetId, toWord recipient, toWord amount,
    actionFieldsHash]

/-- `computeERC20WithdrawalLeaf`. -/
def computeERC20WithdrawalLeaf (globalActionIndex : BitVec 32) (token : Address)
    (registryIndex : BitVec 32) (recordCommitment assetId : Bytes32) (recipient : Address)
    (amount : BitVec 64) (actionFieldsHash : Bytes32) : Bytes32 :=
  env.hashes.keccak256 (erc20WithdrawalLeafInput env globalActionIndex token registryIndex
    recordCommitment assetId recipient amount actionFieldsHash)

/-- `_verifyInnerActionMerkleProof`, with the node hash of the claim tree. -/
def verifyInnerActionMerkleProof (leaf : Bytes32) (index : ℕ) (proof : Fin 16 → Bytes32)
    (root : Bytes32) : Bool :=
  pathRoot (hashNode env.hashes) leaf index (List.ofFn proof) = root

/-- The calldata that both claim functions share. -/
structure ClaimArguments where
  /-- Sequence number of the settlement. -/
  settlementSequence : BitVec 64
  /-- Position of the action in its batch. -/
  offset : BitVec 32
  /-- Who is paid. -/
  recipient : Address
  /-- Amount in the units of the asset on Zeko. -/
  amount : BitVec 64
  /-- Keccak hash of the fields of the action. -/
  actionFieldsHash : Bytes32
  /-- Siblings from the leaf to the root. -/
  merkleProof : Fin 16 → Bytes32
  deriving DecidableEq

/-- The batch and the global index that a claim addresses. -/
def locateClaim (c : Chain W) (claim : ClaimArguments) :
    Except BridgeError (InnerActionBatch × BitVec 32) := do
  let batch := c.settlement.innerActionBatch claim.settlementSequence
  require (batch.valid = true ∧ claim.offset < batch.count) .invalidWithdrawProof
  let globalActionIndex ← checkedAdd .arithmeticPanic batch.startIndex claim.offset
  pure (batch, globalActionIndex)

/-- The delay of a batch must have passed. -/
def checkClaimable (c : Chain W) (timestamp : BitVec 256) (batch : InnerActionBatch) :
    Except BridgeError Unit := do
  let currentSlot ← callSettlement (currentVirtualSlot c.settlement timestamp)
  let claimableSlot ← checkedAdd .arithmeticPanic (batch.commitSlotUpper.setWidth 64)
    (c.bridge.withdrawalDelaySlots.setWidth 64)
  require (claimableSlot ≤ currentSlot) (.withdrawalNotYetClaimable currentSlot claimableSlot)

/-- `claimNativeWithdrawal`. -/
def claimNativeWithdrawal (c : Chain W) (ctx : CallContext) (claim : ClaimArguments)
    (accepts : Bool) : BridgeCall W := do
  whenNotPaused env c.bridge
  require (claim.recipient ≠ 0) .zeroAddress
  require (claim.amount ≠ 0) .zeroAmount
  let located ← locateClaim c claim
  let globalActionIndex := located.2
  let cursor := c.bridge.nextWithdrawalIndex claim.recipient
  require (cursor ≤ globalActionIndex)
    (.withdrawalIndexAlreadyProcessed claim.recipient cursor globalActionIndex)
  checkClaimable c ctx.timestamp located.1
  let leaf := computeNativeWithdrawalLeaf env globalActionIndex claim.recipient claim.amount
    claim.actionFieldsHash
  require (verifyInnerActionMerkleProof env leaf claim.offset.toNat claim.merkleProof
    located.1.root = true) .invalidWithdrawProof
  let ethereumAmount := BitVec.ofNat 256 (claim.amount.toNat * gwei)
  require (ethereumAmount ≤ c.bridge.nativeEscrowLiability)
    (.insufficientNativeEscrow c.bridge.nativeEscrowLiability ethereumAmount)
  let nextIndex ← checkedAdd .arithmeticPanic globalActionIndex 1
  let liability ← checkedSub .arithmeticPanic c.bridge.nativeEscrowLiability ethereumAmount
  let total ← checkedSub .arithmeticPanic (c.bridge.totalDepositedByToken 0) ethereumAmount
  let paid ← sendEther env { c with bridge := { c.bridge with
    nextWithdrawalIndex :=
      Function.update c.bridge.nextWithdrawalIndex claim.recipient nextIndex
    nativeEscrowLiability := liability
    totalDepositedByToken := Function.update c.bridge.totalDepositedByToken 0 total } }
    claim.recipient ethereumAmount accepts
  pure (paid.emit [.nativeWithdrawalClaimed claim.settlementSequence globalActionIndex
    claim.recipient claim.amount ethereumAmount claim.actionFieldsHash])

/-- The payment of `claimERC20Withdrawal`, with its balance checks. -/
def payToken (tokens : W.State) (token recipient : Address) (amount : BitVec 256) :
    Except BridgeError W.State := do
  let bridgeBalanceBefore ← callToken token (W.balanceOf tokens token env.bridgeAddress)
  let recipientBalanceBefore ← callToken token (W.balanceOf tokens token recipient)
  let paid ← callToken token (W.transfer tokens token env.bridgeAddress recipient amount)
  let bridgeBalanceAfter ← callToken token (W.balanceOf paid token env.bridgeAddress)
  let recipientBalanceAfter ← callToken token (W.balanceOf paid token recipient)
  let sent ← checkedSub .arithmeticPanic bridgeBalanceBefore bridgeBalanceAfter
  require (sent = amount) .feeOnTransferTokenNotSupported
  let received ← checkedSub .arithmeticPanic recipientBalanceAfter recipientBalanceBefore
  require (received = amount) .feeOnTransferTokenNotSupported
  pure paid

/-- `claimERC20Withdrawal`. -/
def claimERC20Withdrawal (c : Chain W) (ctx : CallContext) (token : Address)
    (claim : ClaimArguments) : BridgeCall W := do
  whenNotPaused env c.bridge
  require (c.bridge.canonicalTokenRegistered token = true) (.tokenNotAdded token)
  let recordCommitment := c.bridge.recordCommitmentByToken token
  require (recordCommitment ≠ 0) (.canonicalRecordNotBound token)
  require (claim.recipient ≠ 0) .zeroAddress
  require (claim.amount ≠ 0) .zeroAmount
  let located ← locateClaim c claim
  let globalActionIndex := located.2
  let cursor := c.bridge.nextTokenWithdrawalIndex token claim.recipient
  require (cursor ≤ globalActionIndex)
    (.tokenWithdrawalIndexAlreadyProcessed token claim.recipient cursor globalActionIndex)
  checkClaimable c ctx.timestamp located.1
  let assetId := c.bridge.assetIdByToken token
  let registryIndex := c.bridge.registryIndexByToken token
  let leaf := computeERC20WithdrawalLeaf env globalActionIndex token registryIndex recordCommitment
    assetId claim.recipient claim.amount claim.actionFieldsHash
  require (verifyInnerActionMerkleProof env leaf claim.offset.toNat claim.merkleProof
    located.1.root = true) .invalidWithdrawProof
  let amount : BitVec 256 := toWord claim.amount
  require (amount ≤ c.bridge.escrowLiabilityByToken token)
    (.insufficientTokenEscrow token (c.bridge.escrowLiabilityByToken token) amount)
  let nextIndex ← checkedAdd .arithmeticPanic globalActionIndex 1
  let liability ← checkedSub .arithmeticPanic (c.bridge.escrowLiabilityByToken token) amount
  let total ← checkedSub .arithmeticPanic (c.bridge.totalDepositedByToken token) amount
  let tokens ← payToken env c.tokens token claim.recipient amount
  pure ({ c with
    tokens := tokens
    bridge := { c.bridge with
      nextTokenWithdrawalIndex := Function.update c.bridge.nextTokenWithdrawalIndex token
        (Function.update (c.bridge.nextTokenWithdrawalIndex token) claim.recipient nextIndex)
      escrowLiabilityByToken := Function.update c.bridge.escrowLiabilityByToken token liability
      totalDepositedByToken := Function.update c.bridge.totalDepositedByToken token total } }.emit
    [.erc20WithdrawalClaimedV2 claim.settlementSequence globalActionIndex token assetId registryIndex
      recordCommitment claim.recipient claim.amount claim.actionFieldsHash])

/-- The arguments of `initialize`. The settlement address it also takes is the
environment's: the bridge is deployed against this settlement contract. -/
structure BridgeParameters where
  /-- First holder of all administrative roles. -/
  initialAdmin : Address
  /-- Address of the verifier of bridge proofs. -/
  bridgeVerifier : Address
  /-- Verification key of the bridge program. -/
  bridgeProgramVKey : Bytes32
  deriving DecidableEq

/-- `INITIAL_DEPOSIT_STATE`. -/
def initialDepositState : Bytes32 :=
  domainHash env.hashes "ZEKO_BRIDGE_INITIAL_DEPOSIT_STATE_V1"

/-- `initialize`. The `initializer` modifier admits it once, on a fresh proxy. -/
def initializeBridge (p : BridgeParameters) :
    Except BridgeError (BridgeStorage × List BridgeEvent) := do
  require (p.initialAdmin ≠ 0) .zeroAddress
  require (env.settlementAddress ≠ 0) .zeroAddress
  require (p.bridgeVerifier ≠ 0) .zeroAddress
  pure ({ BridgeStorage.zero with
    bridgeVerifier := p.bridgeVerifier
    bridgeProgramVKey := p.bridgeProgramVKey
    currentDepositState := initialDepositState env
    withdrawalDelaySlots := 20
    depositStateByNonce := Function.update (fun _ => 0) 0 (initialDepositState env)
    hasRole := [defaultAdminRole, adminRole env, proverRole env, upgraderRole env].foldl
      (fun roles granted => env.accessControl.internalGrantRole roles granted p.initialAdmin)
      (fun _ _ => false)
    allowedToken := Function.update (fun _ => ⟨0, 0, false⟩) 0 ⟨9, 18, true⟩ },
    [.tokenAllowed 0 true 9 18])

section Inherited

variable {env} {s : BridgeStorage} {c next : Chain W} {ctx : CallContext} {role : Bytes32}
variable {account : Address}

/-- The modifier passes for the holders of its role. -/
@[simp] theorem onlyBridgeRole_eq_ok {u : Unit} :
    onlyBridgeRole env s role account = .ok u ↔ s.hasRole role account = true := by
  rw [onlyBridgeRole, mapError_eq_ok]
  exact env.accessControl.checkRole_ok

/-- A body behind the modifier returns for the holders of the role, when it does. -/
@[simp] theorem onlyBridgeRole_bind_eq_ok {α : Type} {body : Unit → Except BridgeError α}
    {result : α} : (onlyBridgeRole env s role account >>= body) = .ok result ↔
      s.hasRole role account = true ∧ body () = .ok result :=
  check_bind_eq_ok onlyBridgeRole_eq_ok

/-- The modifier passes while the bridge is not paused. -/
@[simp] theorem whenNotPaused_eq_ok {u : Unit} :
    whenNotPaused env s = .ok u ↔ s.paused = false := by
  rw [whenNotPaused, mapError_eq_ok]
  exact env.pausable.requireNotPaused_ok

/-- A body behind the modifier returns while the bridge is not paused, when it does. -/
@[simp] theorem whenNotPaused_bind_eq_ok {α : Type} {body : Unit → Except BridgeError α}
    {result : α} : (whenNotPaused env s >>= body) = .ok result ↔
      s.paused = false ∧ body () = .ok result :=
  check_bind_eq_ok whenNotPaused_eq_ok

/-- A role is granted by admins. -/
theorem grantBridgeRole_eq_ok : grantBridgeRole env c ctx role account = .ok next ↔
    c.bridge.hasRole defaultAdminRole ctx.sender = true ∧
      { c with bridge :=
        { c.bridge with hasRole := setRole c.bridge.hasRole role account true } } = next := by
  simp only [grantBridgeRole, bind_eq_ok, mapError_eq_ok, AccessControl.grantRole_ok,
    AccessControl.internalGrantRole_eq, pure_eq_ok, and_assoc, exists_and_left, exists_eq_left']

/-- A role is revoked by admins. -/
theorem revokeBridgeRole_eq_ok : revokeBridgeRole env c ctx role account = .ok next ↔
    c.bridge.hasRole defaultAdminRole ctx.sender = true ∧
      { c with bridge :=
        { c.bridge with hasRole := setRole c.bridge.hasRole role account false } } = next := by
  simp only [revokeBridgeRole, bind_eq_ok, mapError_eq_ok, AccessControl.revokeRole_ok,
    AccessControl.internalRevokeRole_eq, pure_eq_ok, and_assoc, exists_and_left, exists_eq_left']

/-- A role is renounced by its holder. -/
theorem renounceBridgeRole_eq_ok : renounceBridgeRole env c ctx role account = .ok next ↔
    account = ctx.sender ∧
      { c with bridge :=
        { c.bridge with hasRole := setRole c.bridge.hasRole role ctx.sender false } } = next := by
  simp only [renounceBridgeRole, bind_eq_ok, mapError_eq_ok, AccessControl.renounceRole_ok,
    AccessControl.internalRevokeRole_eq, pure_eq_ok, and_assoc, exists_and_left, exists_eq_left']

/-- An admin pauses a bridge that is not paused. -/
theorem pause_eq_ok : pause env c ctx = .ok next ↔
    c.bridge.hasRole (adminRole env) ctx.sender = true ∧ c.bridge.paused = false ∧
      { c with bridge := { c.bridge with paused := true } }.emit [.pausedBy ctx.sender] = next := by
  rw [pause, onlyBridgeRole_bind_eq_ok]
  simp only [bind_eq_ok, mapError_eq_ok, Pausable.pause_ok, pure_eq_ok, and_assoc,
    exists_and_left, exists_eq_left']

/-- An admin unpauses a paused bridge. -/
theorem unpause_eq_ok : unpause env c ctx = .ok next ↔
    c.bridge.hasRole (adminRole env) ctx.sender = true ∧ c.bridge.paused = true ∧
      { c with bridge := { c.bridge with paused := false } }.emit [.unpausedBy ctx.sender] =
        next := by
  rw [unpause, onlyBridgeRole_bind_eq_ok]
  simp only [bind_eq_ok, mapError_eq_ok, Pausable.unpause_ok, pure_eq_ok, and_assoc,
    exists_and_left, exists_eq_left']

end Inherited

end EthereumSettlement.EthereumZekoBridge
