import EthereumSettlement.TransitionRuns
import EthereumSettlement.ZekoAssetRegistry

/-!
# The deployed system and what one transaction can do

A transaction is a call of any entry point of either proxy by any account other
than the proxies, a transfer of tokens, or ether forced into the bridge. The
step relation says once, call by call, what an accepted transaction does to the
chain; every invariant of the system is proved from it.
-/

namespace EthereumSettlement.BridgeSystem

open ByteWords CheckedCalls HashCommitments TransitionRuns PastaPoseidon InnerActionCommitment
open RegistryCheckpoint SettlementCodec BridgeCodec BridgeGuest ZekoSettlement EthereumZekoBridge
open ZekoAssetRegistry OpenZeppelin

/-- Every call that can reach the system from outside. -/
inductive Call
  | settlementGrantRole (role : Bytes32) (account : Address)
  | settlementRevokeRole (role : Bytes32) (account : Address)
  | settlementRenounceRole (role : Bytes32) (callerConfirmation : Address)
  | setVkHash (newVkHash : Bytes32)
  | setBridgeContract (newBridge : Address)
  | appendOuterWitnessBatch (stateBefore stateAfter : Bytes32) (count : BitVec 32)
  | verifyAndUpdateRoot (publicValues proofBytes : Bytes)
  | bridgeGrantRole (role : Bytes32) (account : Address)
  | bridgeRevokeRole (role : Bytes32) (account : Address)
  | bridgeRenounceRole (role : Bytes32) (callerConfirmation : Address)
  | pause
  | unpause
  | setWithdrawalDelaySlots (newDelay : BitVec 32)
  | emergencyWithdrawToken (token receiver : Address) (amount : BitVec 256) (accepts : Bool)
  | submitDeposit (token : Address) (amount : BitVec 256) (zekoRecipient : Bytes32)
  | depositETH (value : BitVec 256) (zekoRecipient : Bytes32)
  | submitBridgeTransition (publicValues proofBytes : Bytes)
  | claimNativeWithdrawal (claim : ClaimArguments) (accepts : Bool)
  | claimERC20Withdrawal (token : Address) (claim : ClaimArguments)
  | proposeAsset (record : AssetRecord)
  | cancelLastPendingAsset (token : Address)
  | activateAsset (token : Address) (expectedRegistryRoot : Bytes32)
      (expectedRegistryCount : BitVec 32)
  | activateAssetFromBatch (token : Address) (settlementSequence : BitVec 64)
      (recordCommitment : Bytes32) (siblings : Fin 8 → Bytes32)
  | setAssetStatus (token : Address) (newStatus : AssetStatus)
  | transferToken (token receiver : Address) (amount : BitVec 256)
  | forceEther (amount : ℕ)
  deriving DecidableEq

/-- Calls that change only roles, names, the pause flag or the delay. -/
def Call.isAdministration : Call → Bool
  | .settlementGrantRole _ _ | .settlementRevokeRole _ _ | .settlementRenounceRole _ _ => true
  | .setVkHash _ | .setBridgeContract _ => true
  | .bridgeGrantRole _ _ | .bridgeRevokeRole _ _ | .bridgeRenounceRole _ _ => true
  | .pause | .unpause | .setWithdrawalDelaySlots _ => true
  | _ => false

/-- Both ways to activate a proposed asset. -/
def Call.isActivation : Call → Bool
  | .activateAsset _ _ _ | .activateAssetFromBatch _ _ _ _ => true
  | _ => false

/-- A call with its sender and block. -/
structure Transaction where
  /-- Sender, value and time. -/
  ctx : CallContext
  /-- Contract, function and arguments. -/
  call : Call
  deriving DecidableEq

variable (env : Environment) {W : TokenWorld}

/-- Take over the result of a settlement call. -/
def settlementStep (c : Chain W) (result : SettlementCall) : BridgeCall W := do
  let settled ← callSettlement result
  pure { c with settlement := settled.1, log := c.log ++ settled.2.map .settlement }

/-- The effect of a call. -/
def execute (c : Chain W) (ctx : CallContext) : Call → BridgeCall W
  | .settlementGrantRole role account =>
    settlementStep c (ZekoSettlement.grantRole env c.settlement ctx role account)
  | .settlementRevokeRole role account =>
    settlementStep c (ZekoSettlement.revokeRole env c.settlement ctx role account)
  | .settlementRenounceRole role confirmation =>
    settlementStep c (ZekoSettlement.renounceRole env c.settlement ctx role confirmation)
  | .setVkHash newVkHash => settlementStep c (setVkHash env c.settlement ctx newVkHash)
  | .setBridgeContract newBridge => settlementStep c (setBridgeContract env c.settlement ctx newBridge)
  | .appendOuterWitnessBatch stateBefore stateAfter count =>
    settlementStep c
      (appendOuterWitnessBatch env c.settlement ctx.sender stateBefore stateAfter count)
  | .verifyAndUpdateRoot publicValues proofBytes =>
    settlementStep c (verifyAndUpdateRoot env c.settlement ctx publicValues proofBytes)
  | .bridgeGrantRole role account => grantBridgeRole env c ctx role account
  | .bridgeRevokeRole role account => revokeBridgeRole env c ctx role account
  | .bridgeRenounceRole role confirmation => renounceBridgeRole env c ctx role confirmation
  | .pause => pause env c ctx
  | .unpause => unpause env c ctx
  | .setWithdrawalDelaySlots newDelay => setWithdrawalDelaySlots env c ctx newDelay
  | .emergencyWithdrawToken token receiver amount accepts =>
    emergencyWithdrawToken env c ctx token receiver amount accepts
  | .submitDeposit token amount zekoRecipient => submitDeposit env c ctx token amount zekoRecipient
  | .depositETH value zekoRecipient => depositETH env c ctx value zekoRecipient
  | .submitBridgeTransition publicValues proofBytes =>
    submitBridgeTransition env c ctx publicValues proofBytes
  | .claimNativeWithdrawal claim accepts => claimNativeWithdrawal env c ctx claim accepts
  | .claimERC20Withdrawal token claim => claimERC20Withdrawal env c ctx token claim
  | .proposeAsset record => proposeAsset env c ctx record
  | .cancelLastPendingAsset token => cancelLastPendingAsset env c ctx token
  | .activateAsset token root count => activateAsset env c ctx token root count
  | .activateAssetFromBatch token sequence commitment siblings =>
    activateAssetFromBatch env c ctx token sequence commitment siblings
  | .setAssetStatus token newStatus => setAssetStatus env c ctx token newStatus
  | .transferToken token receiver amount => do
    let tokens ← callToken token (W.transfer c.tokens token ctx.sender receiver amount)
    pure { c with tokens := tokens }
  | .forceEther amount => pure { c with etherBalance := c.etherBalance + amount }

/-- One transaction. The proxies send no transactions of their own. -/
def step (c : Chain W) (tx : Transaction) : BridgeCall W := do
  require (tx.ctx.sender ≠ env.bridgeAddress ∧ tx.ctx.sender ≠ env.settlementAddress)
    (.callToNonContract tx.ctx.sender)
  execute env c tx.ctx tx.call

/-- Deployment: both proxies are initialized, with any arguments, over any
tokens and any ether that already lies at the bridge's address. -/
def deploy (ctx : CallContext) (settlement : SettlementParameters) (bridge : BridgeParameters)
    (tokens : W.State) (ether : ℕ) : BridgeCall W := do
  let settled ← callSettlement (initializeSettlement env ctx settlement)
  let bridged ← initializeBridge env bridge
  pure {
    settlement := settled.1
    bridge := bridged.1
    registry := RegistryLayout.zero
    etherBalance := ether
    tokens := tokens
    log := settled.2.map .settlement ++ bridged.2.map .bridge }

/-- A deployed system: the arguments of both initializers and the state that
they left. -/
structure Deployment (env : Environment) (W : TokenWorld) where
  /-- Context of the deploying transaction. -/
  ctx : CallContext
  /-- Arguments of the settlement initializer. -/
  settlement : SettlementParameters
  /-- Arguments of the bridge initializer. -/
  bridge : BridgeParameters
  /-- State of the token contracts. -/
  tokens : W.State
  /-- Ether that the bridge address already holds. -/
  ether : ℕ
  /-- State after both initializers. -/
  start : Chain W
  /-- Both initializers succeed. -/
  deployed : deploy env ctx settlement bridge tokens ether = .ok start

variable {env}

/-- The state that a deployment reaches by attempting the transactions in order. -/
def Deployment.reached (d : Deployment env W) (transactions : List Transaction) : Chain W :=
  run (step env) d.start transactions

/-- The accepted transactions, each with the state it was accepted in. -/
def Deployment.history (d : Deployment env W) (transactions : List Transaction) :
    List (Chain W × Transaction) :=
  accepted (step env) d.start transactions

/-- What both initializers leave behind. -/
structure Initialized (env : Environment) (p : SettlementParameters) (q : BridgeParameters)
    (start : Chain W) : Prop where
  /-- The verifier is the argument's. -/
  verifier_eq : start.settlement.verifier = p.verifier
  /-- The program key is the argument's. -/
  programVKey_eq : start.settlement.programVKey = p.programVKey
  /-- The outer state is the argument's. -/
  outerState_eq : start.settlement.outerState = p.initialOuterState
  /-- The outer action state is the argument's. -/
  actionState_eq : start.settlement.actionState = p.initialOuterActionState
  /-- The outer length is the argument's. -/
  length_eq : start.settlement.outerActionStateLength = p.initialOuterActionStateLength
  /-- Only the initial action state is known. -/
  outerActionStateInfo_eq : start.settlement.outerActionStateInfo = Function.update
    (fun _ => ⟨0, false⟩) p.initialOuterActionState ⟨p.initialOuterActionStateLength, true⟩
  /-- Nothing is settled. -/
  batchSequence_eq : start.settlement.batchSequence = 0
  /-- No batch is stored. -/
  innerActionBatch_eq : start.settlement.innerActionBatch = fun _ => ⟨0, 0, 0, 0, 0, 0, false⟩
  /-- No record is settled. -/
  settledAssetRecord_eq : start.settlement.settledAssetRecord = fun _ => false
  /-- No record tree is settled. -/
  assetRegistryRecordBatch_eq :
    start.settlement.assetRegistryRecordBatch = fun _ => ⟨0, 0, 0, 0, 0, false⟩
  /-- The bridge has its verifier, its delay and its admin, and only ether is allowed. -/
  bridge_eq : ∃ hasRole allowedToken, start.bridge = { BridgeStorage.zero with
    bridgeVerifier := q.bridgeVerifier
    bridgeProgramVKey := q.bridgeProgramVKey
    currentDepositState := initialDepositState env
    withdrawalDelaySlots := 20
    depositStateByNonce := Function.update (fun _ => 0) 0 (initialDepositState env)
    hasRole := hasRole
    allowedToken := allowedToken }
  /-- The registry is empty. -/
  registry_eq : start.registry = RegistryLayout.zero
  /-- The first two events. -/
  log_eq : start.log = [.settlement (.vkHashUpdated 0 p.initialVkHash),
    .bridge (.tokenAllowed 0 true 9 18)]

/-- A deployment is initialized. -/
theorem Deployment.initialized (d : Deployment env W) :
    Initialized env d.settlement d.bridge d.start := by
  have h := d.deployed
  simp only [deploy, bind_eq_ok, pure_eq_ok] at h
  obtain ⟨settled, hsettled, bridged, hbridged, hstart⟩ := h
  simp only [callSettlement_eq_ok, initializeSettlement, bind_eq_ok, require_eq_ok, exists_const,
    pure_eq_ok] at hsettled
  obtain ⟨-, -, recorded, hrecorded, rfl⟩ := hsettled
  simp only [initializeBridge, bind_eq_ok, require_eq_ok, exists_const, pure_eq_ok] at hbridged
  obtain ⟨-, -, -, rfl⟩ := hbridged
  obtain ⟨table, rfl⟩ := recordAcceptedInnerState_eq_ok hrecorded
  rw [← hstart]
  exact ⟨rfl, rfl, rfl, rfl, rfl, rfl, rfl, rfl, rfl, rfl, ⟨_, _, rfl⟩, rfl, rfl⟩

/-- The contribution to the outer action chain that an event reports. -/
def eventContribution : ChainEvent → Option OuterContribution
  | .settlement event => event.contribution
  | .bridge _ => none

/-- The deposit that an event reports. ERC-20 deposits are read off their most
complete event. -/
def eventDeposit : ChainEvent → Option DepositRecord
  | .bridge (.bridgeDeposit nonce _ _ _ token _ zekoRecipient _ zekoAmount timeout) =>
    if token = 0 then some (.native zekoRecipient zekoAmount timeout nonce) else none
  | .bridge (.erc20DepositSubmittedV2 nonce assetId _ _ token _ zekoRecipient amount timeout _
      registryIndex recordCommitment) =>
    some (.erc20 token registryIndex recordCommitment assetId zekoRecipient amount timeout nonce)
  | _ => none

/-- The outer-chain contributions of a log, oldest first. -/
def contributions (log : List ChainEvent) : List OuterContribution :=
  log.filterMap eventContribution

/-- The deposits of a log, oldest first. -/
def deposits (log : List ChainEvent) : List DepositRecord := log.filterMap eventDeposit

/-- An event that neither view sees. -/
def QuietEvent (event : ChainEvent) : Prop :=
  eventContribution event = none ∧ eventDeposit event = none

section Views

variable (log events : List ChainEvent)

@[simp] theorem contributions_append :
    contributions (log ++ events) = contributions log ++ contributions events :=
  List.filterMap_append

@[simp] theorem deposits_append : deposits (log ++ events) = deposits log ++ deposits events :=
  List.filterMap_append

/-- The contributions of settlement events are those they report. -/
@[simp] theorem contributions_settlement (events : List SettlementEvent) :
    contributions (events.map .settlement) = events.filterMap SettlementEvent.contribution := by
  rw [contributions, List.filterMap_map]
  rfl

@[simp] theorem deposits_settlement (events : List SettlementEvent) :
    deposits (events.map .settlement) = [] := by
  rw [deposits, List.filterMap_map]
  exact List.filterMap_eq_nil_iff.mpr fun _ _ => rfl

variable {events}

/-- Quiet events contribute nothing. -/
theorem contributions_quiet (h : ∀ event ∈ events, QuietEvent event) : contributions events = [] :=
  List.filterMap_eq_nil_iff.mpr fun event he => (h event he).1

/-- Quiet events deposit nothing. -/
theorem deposits_quiet (h : ∀ event ∈ events, QuietEvent event) : deposits events = [] :=
  List.filterMap_eq_nil_iff.mpr fun event he => (h event he).2

end Views

end EthereumSettlement.BridgeSystem
