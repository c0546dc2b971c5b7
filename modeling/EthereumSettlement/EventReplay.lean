import EthereumSettlement.RunInvariants

/-!
# Ledgers replayed from the event log

An observer of the chain sees the events of both proxies and nothing else. Folding them
over what the deployment starts with gives every ledger that the contracts keep: the
outer action chain, the deposit chain, the bridged nonce, the liabilities, the cursors of
the claims, the pause, the delay and the status of every asset. No event is missing and
none says more than what happened.
-/

namespace EthereumSettlement.EventReplay

open ByteWords CheckedCalls TransitionRuns PastaPoseidon ZekoSettlement EthereumZekoBridge
open BridgeCodec ZekoAssetRegistry BridgeSystem StepEffects RunInvariants OpenZeppelin

variable {env : Environment} {W : TokenWorld}

/-- What an observer keeps. Lengths, sequences and amounts are numbers. -/
@[ext]
structure Ledgers where
  /-- Last state of the outer action chain. -/
  actionState : Bytes32
  /-- Length of the outer action chain. -/
  outerActionStateLength : ℕ
  /-- Number of settled receipts. -/
  batchSequence : ℕ
  /-- Number of deposits taken. -/
  depositNonce : BitVec 64
  /-- Deposit accumulator after all deposits. -/
  currentDepositState : Bytes32
  /-- Last deposit that was bridged. -/
  bridgedDepositNonce : BitVec 64
  /-- Ether that backs the balances on Zeko. -/
  nativeEscrowLiability : ℕ
  /-- Amount of each token that backs the balances on Zeko. -/
  escrowLiabilityByToken : Address → ℕ
  /-- First native index that each account has not claimed. -/
  nextWithdrawalIndex : Address → BitVec 32
  /-- First index of each token that each account has not claimed. -/
  nextTokenWithdrawalIndex : Address → Address → BitVec 32
  /-- Whether the bridge is paused. -/
  paused : Bool
  /-- Slots between a commit and its claims. -/
  withdrawalDelaySlots : BitVec 32
  /-- Registration status of each token. -/
  assetStatusByToken : Address → AssetStatus

/-- What the contracts keep. -/
def ledgersOf (c : Chain W) : Ledgers where
  actionState := c.settlement.actionState
  outerActionStateLength := c.settlement.outerActionStateLength.toNat
  batchSequence := c.settlement.batchSequence.toNat
  depositNonce := c.bridge.depositNonce
  currentDepositState := c.bridge.currentDepositState
  bridgedDepositNonce := c.bridge.bridgedDepositNonce
  nativeEscrowLiability := c.bridge.nativeEscrowLiability.toNat
  escrowLiabilityByToken := fun token => (c.bridge.escrowLiabilityByToken token).toNat
  nextWithdrawalIndex := c.bridge.nextWithdrawalIndex
  nextTokenWithdrawalIndex := c.bridge.nextTokenWithdrawalIndex
  paused := c.bridge.paused
  withdrawalDelaySlots := c.bridge.withdrawalDelaySlots
  assetStatusByToken := c.registry.assetStatusByToken

/-- A contribution to the outer action chain, as the observer books it. -/
def Ledgers.contribute (v : Ledgers) : OuterContribution → Ledgers
  | .commit stateAfter => { v with
      actionState := stateAfter
      outerActionStateLength := v.outerActionStateLength + 1
      batchSequence := v.batchSequence + 1 }
  | .witness _ stateAfter count => { v with
      actionState := stateAfter
      outerActionStateLength := v.outerActionStateLength + count.toNat }

/-- A deposit, as the observer books it. -/
def Ledgers.deposit (v : Ledgers) (nonce : BitVec 64) (newDepositState : Bytes32) (token : Address)
    (amount : BitVec 256) : Ledgers :=
  { v with
    depositNonce := nonce
    currentDepositState := newDepositState
    nativeEscrowLiability :=
      if token = 0 then v.nativeEscrowLiability + amount.toNat else v.nativeEscrowLiability
    escrowLiabilityByToken :=
      if token = 0 then v.escrowLiabilityByToken
      else Function.update v.escrowLiabilityByToken token
        (v.escrowLiabilityByToken token + amount.toNat) }

/-- An event of the bridge, as the observer books it. -/
def Ledgers.bridgeEvent (v : Ledgers) : BridgeEvent → Ledgers
  | .pausedBy _ => { v with paused := true }
  | .unpausedBy _ => { v with paused := false }
  | .withdrawalDelayUpdated _ newDelay => { v with withdrawalDelaySlots := newDelay }
  | .bridgeDeposit nonce _ newDepositState _ token _ _ amount _ _ =>
    v.deposit nonce newDepositState token amount
  | .bridgeTransitionAccepted _ _ _ newDepositNonce =>
    { v with bridgedDepositNonce := newDepositNonce }
  | .nativeWithdrawalClaimed _ globalActionIndex recipient _ ethereumAmount _ => { v with
      nativeEscrowLiability := v.nativeEscrowLiability - ethereumAmount.toNat
      nextWithdrawalIndex :=
        Function.update v.nextWithdrawalIndex recipient (globalActionIndex + 1) }
  | .erc20WithdrawalClaimedV2 _ globalActionIndex token _ _ _ recipient amount _ => { v with
      escrowLiabilityByToken := Function.update v.escrowLiabilityByToken token
        (v.escrowLiabilityByToken token - amount.toNat)
      nextTokenWithdrawalIndex := Function.update v.nextTokenWithdrawalIndex token
        (Function.update (v.nextTokenWithdrawalIndex token) recipient (globalActionIndex + 1)) }
  | .assetRegistrationProposed _ record => { v with
      assetStatusByToken := Function.update v.assetStatusByToken record.ethereumToken .pending }
  | .assetRegistrationActivated _ _ token _ _ _ _ => { v with
      assetStatusByToken := Function.update v.assetStatusByToken token .active }
  | .assetRegistrationCancelled _ _ token => { v with
      assetStatusByToken := Function.update v.assetStatusByToken token .none }
  | .assetStatusUpdated token _ newStatus => { v with
      assetStatusByToken := Function.update v.assetStatusByToken token newStatus }
  | _ => v

/-- One event, as the observer books it. -/
def Ledgers.apply (v : Ledgers) : ChainEvent → Ledgers
  | .settlement event => event.contribution.elim v v.contribute
  | .bridge event => v.bridgeEvent event

/-- All events, oldest first. -/
def replay (v : Ledgers) (log : List ChainEvent) : Ledgers := log.foldl Ledgers.apply v

/-- Replays compose. -/
theorem replay_append (v : Ledgers) (first second : List ChainEvent) :
    replay v (first ++ second) = replay (replay v first) second :=
  List.foldl_append

/-- Events of the settlement contract count by their contributions. -/
theorem replay_settlement (v : Ledgers) (events : List SettlementEvent) :
    replay v (events.map .settlement) =
      (events.filterMap SettlementEvent.contribution).foldl Ledgers.contribute v := by
  induction events generalizing v with
  | nil => rfl
  | cons event events ih =>
    have hcons : replay v ((event :: events).map .settlement) =
        replay (v.apply (.settlement event)) (events.map .settlement) := rfl
    rw [hcons, ih]
    cases hcontribution : event.contribution with
    | none =>
      rw [List.filterMap_cons_none hcontribution]
      change List.foldl _ (event.contribution.elim v v.contribute) _ = _
      rw [hcontribution]
      rfl
    | some contribution =>
      rw [List.filterMap_cons_some hcontribution]
      change List.foldl _ (event.contribution.elim v v.contribute) _ = _
      rw [hcontribution]
      rfl

/-- Consecutive witness links lead to the last state and count each link. -/
theorem replay_witnessLinks (states : List Bytes32) (v : Ledgers) :
    (witnessLinks v.actionState states).foldl Ledgers.contribute v = { v with
      actionState := lastState v.actionState states
      outerActionStateLength := v.outerActionStateLength + states.length } := by
  induction states generalizing v with
  | nil => rfl
  | cons stateAfter states ih =>
    have hrest := ih (v.contribute (.witness v.actionState stateAfter 1))
    have hlength : v.outerActionStateLength + (1 : BitVec 32).toNat + states.length =
        v.outerActionStateLength + (states.length + 1) := by
      change v.outerActionStateLength + 1 + states.length = _
      omega
    rw [witnessLinks, List.foldl_cons]
    refine hrest.trans ?_
    rw [List.length_cons, ← hlength]
    rfl

/-- The events of a transaction account for what it did to the ledgers. -/
def Accounts (c next : Chain W) : Prop :=
  ∃ events, next.log = c.log ++ events ∧ replay (ledgersOf c) events = ledgersOf next

/-- A settlement call that contributes nothing and keeps the chain's place accounts for
itself. -/
theorem accounts_settlementStep {c next : Chain W} {result : SettlementCall}
    (h : settlementStep c result = .ok next)
    (hresult : ∀ settled, result = .ok settled →
      settled.1.actionState = c.settlement.actionState ∧
      settled.1.outerActionStateLength = c.settlement.outerActionStateLength ∧
      settled.1.batchSequence = c.settlement.batchSequence ∧
      settled.2.filterMap SettlementEvent.contribution = []) : Accounts c next := by
  simp only [settlementStep, bind_eq_ok, callSettlement_eq_ok, pure_eq_ok] at h
  obtain ⟨settled, hsettled, rfl⟩ := h
  obtain ⟨hstate, hlength, hsequence, hquiet⟩ := hresult settled hsettled
  refine ⟨_, rfl, ?_⟩
  rw [replay_settlement, hquiet]
  simp only [List.foldl_nil, ledgersOf, hstate, hlength, hsequence]

/-- Administration accounts for itself. -/
theorem accounts_administration {c next : Chain W} {ctx : CallContext} {call : Call}
    (hkind : call.isAdministration = true) (h : execute env c ctx call = .ok next) :
    Accounts c next := by
  cases call with
  | settlementGrantRole role account =>
    refine accounts_settlementStep h ?_
    intro settled hsettled
    simp only [grantRole_eq_ok] at hsettled
    rw [← hsettled.2]
    exact ⟨rfl, rfl, rfl, rfl⟩
  | settlementRevokeRole role account =>
    refine accounts_settlementStep h ?_
    intro settled hsettled
    simp only [revokeRole_eq_ok] at hsettled
    rw [← hsettled.2]
    exact ⟨rfl, rfl, rfl, rfl⟩
  | settlementRenounceRole role confirmation =>
    refine accounts_settlementStep h ?_
    intro settled hsettled
    simp only [renounceRole_eq_ok] at hsettled
    rw [← hsettled.2]
    exact ⟨rfl, rfl, rfl, rfl⟩
  | setVkHash newVkHash =>
    refine accounts_settlementStep h ?_
    intro settled hsettled
    simp only [setVkHash, onlyRole_bind_eq_ok, pure_eq_ok] at hsettled
    rw [← hsettled.2]
    exact ⟨rfl, rfl, rfl, rfl⟩
  | setBridgeContract newBridge =>
    refine accounts_settlementStep h ?_
    intro settled hsettled
    simp only [setBridgeContract, onlyRole_bind_eq_ok, require_bind_eq_ok,
      pure_eq_ok, AccessControl.internalRevokeRole_eq, AccessControl.internalGrantRole_eq]
      at hsettled
    rw [← hsettled.2.2]
    exact ⟨rfl, rfl, rfl, rfl⟩
  | bridgeGrantRole role account =>
    simp only [execute, grantBridgeRole_eq_ok] at h
    rw [← h.2]
    exact ⟨[], (List.append_nil _).symm, rfl⟩
  | bridgeRevokeRole role account =>
    simp only [execute, revokeBridgeRole_eq_ok] at h
    rw [← h.2]
    exact ⟨[], (List.append_nil _).symm, rfl⟩
  | bridgeRenounceRole role confirmation =>
    simp only [execute, renounceBridgeRole_eq_ok] at h
    rw [← h.2]
    exact ⟨[], (List.append_nil _).symm, rfl⟩
  | pause =>
    simp only [execute, pause_eq_ok] at h
    rw [← h.2.2]
    exact ⟨_, rfl, rfl⟩
  | unpause =>
    simp only [execute, unpause_eq_ok] at h
    rw [← h.2.2]
    exact ⟨_, rfl, rfl⟩
  | setWithdrawalDelaySlots newDelay =>
    simp only [execute, EthereumZekoBridge.setWithdrawalDelaySlots, onlyBridgeRole_bind_eq_ok,
      pure_eq_ok] at h
    rw [← h.2]
    exact ⟨_, rfl, rfl⟩
  | _ => cases hkind

/-- The shared end of both activations accounts for itself. -/
theorem accounts_activate {c next : Chain W} {record : AssetRecord}
    {recordHash recordCommitment registryRoot : Bytes32} {registryCount registrySchema : BitVec 32}
    (h : activate c record recordHash recordCommitment registryRoot registryCount registrySchema =
      .ok next) : Accounts c next := by
  simp only [activate, activateAssetRecordFromRegistry, bind_eq_ok, require_eq_ok, exists_const,
    pure_eq_ok] at h
  obtain ⟨activated, ⟨-, -, rfl⟩, rfl⟩ := h
  simp only [Accounts, Chain.emit, List.append_assoc]
  exact ⟨_, rfl, rfl⟩

/-- Activations account for themselves. -/
theorem accounts_activation {c next : Chain W} {ctx : CallContext} {call : Call}
    (hkind : call.isActivation = true) (h : execute env c ctx call = .ok next) :
    Accounts c next := by
  cases call with
  | activateAsset token root count =>
    simp only [execute, activateAsset, pendingRecord, onlyBridgeAdmin, bind_eq_ok, require_eq_ok,
      exists_const, pure_eq_ok] at h
    obtain ⟨-, pending, ⟨-, rfl⟩, -, -, -, hactivate⟩ := h
    exact accounts_activate hactivate
  | activateAssetFromBatch token sequence commitment siblings =>
    simp only [execute, activateAssetFromBatch, pendingRecord, onlyBridgeAdmin, bind_eq_ok,
      require_eq_ok, exists_const, pure_eq_ok] at h
    obtain ⟨-, pending, ⟨-, rfl⟩, -, -, hactivate⟩ := h
    exact accounts_activate hactivate
  | _ => cases hkind

/-- An incremented word. -/
theorem succ_of_toNat {value next : BitVec 32} (h : next.toNat = value.toNat + 1) :
    next = value + 1 := by
  apply BitVec.eq_of_toNat_eq
  have hlt := next.isLt
  have hone : (1 : BitVec 32).toNat = 1 := rfl
  rw [BitVec.toNat_add, hone, h, Nat.mod_eq_of_lt (by omega)]

/-- The liability of one token in numbers. -/
theorem liability_update {liabilities : Address → BitVec 256} {token : Address}
    {liability : BitVec 256} {amount : ℕ} (h : liability.toNat = amount) :
    (fun other => (Function.update liabilities token liability other).toNat) =
      Function.update (fun other => (liabilities other).toNat) token amount := by
  funext other
  by_cases hsame : other = token
  · rw [hsame, Function.update_self, Function.update_self, h]
  · rw [Function.update_of_ne hsame, Function.update_of_ne hsame]

/-- A native deposit accounts for itself. -/
theorem accounts_nativeDeposit {c : Chain W} {sender : Address} {value : BitVec 256}
    {zekoRecipient : Bytes32} {nonce : BitVec 64} {total liability : BitVec 256}
    (h : NativeDeposited c value zekoRecipient nonce total liability) :
    Accounts c (afterNativeDeposit env c sender value zekoRecipient nonce total liability) := by
  refine ⟨_, rfl, ?_⟩
  have hliability : c.bridge.nativeEscrowLiability.toNat + value.toNat = liability.toNat :=
    h.liability_eq.symm
  apply Ledgers.ext <;> first | rfl | exact hliability

/-- A token deposit accounts for itself. -/
theorem accounts_tokenDeposit {c : Chain W} {sender token : Address} {amount : BitVec 256}
    {zekoRecipient : Bytes32} {nonce : BitVec 64} {total liability : BitVec 256} {tokens : W.State}
    (hsound : RegistrySound c)
    (h : TokenDeposited env c sender token amount zekoRecipient nonce total liability tokens) :
    Accounts c
      (afterTokenDeposit env c sender token amount zekoRecipient nonce total liability tokens) := by
  have htoken : token ≠ 0 := by
    intro hzero
    have hregistered := h.registered
    rw [hzero, hsound.zero] at hregistered
    cases hregistered
  have hamount : (toWord (amount.setWidth 64)).toNat = amount.toNat := by
    rw [toWord_toNat (by decide), BitVec.toNat_setWidth, Nat.mod_eq_of_lt h.amount_lt]
  have hliability : liability.toNat = (c.bridge.escrowLiabilityByToken token).toNat +
      (toWord (amount.setWidth 64)).toNat := by
    rw [hamount]
    exact h.liability_eq
  refine ⟨_, rfl, ?_⟩
  apply Ledgers.ext
  case nativeEscrowLiability => exact if_neg htoken
  case escrowLiabilityByToken => exact (if_neg htoken).trans (liability_update hliability).symm
  all_goals rfl

/-- A native claim accounts for itself. -/
theorem accounts_nativeClaim {c : Chain W} {ctx : CallContext} {claim : ClaimArguments}
    {accepts : Bool} {globalActionIndex nextIndex : BitVec 32} {liability total : BitVec 256}
    (h : NativeClaimed env c ctx claim accepts globalActionIndex nextIndex liability total) :
    Accounts c (afterNativeClaim c claim globalActionIndex nextIndex liability total) := by
  have hpaid := h.liability_eq
  have hvalue := gwei_toNat claim.amount
  rw [afterNativeClaim]
  generalize BitVec.ofNat 256 (claim.amount.toNat * gwei) = paid at hvalue ⊢
  generalize claim.amount.toNat * gwei = amount at hvalue hpaid ⊢
  have hnative : c.bridge.nativeEscrowLiability.toNat - paid.toNat = liability.toNat := by omega
  have hnext := succ_of_toNat h.nextIndex_eq
  refine ⟨_, rfl, ?_⟩
  simp only [replay, List.foldl_cons, List.foldl_nil, Ledgers.apply, Ledgers.bridgeEvent, ledgersOf,
    hnative, hnext]

/-- A token claim accounts for itself. -/
theorem accounts_tokenClaim {c : Chain W} {ctx : CallContext} {token : Address}
    {claim : ClaimArguments} {globalActionIndex nextIndex : BitVec 32}
    {liability total : BitVec 256} {tokens : W.State}
    (h : TokenClaimed env c ctx token claim globalActionIndex nextIndex liability total tokens) :
    Accounts c
      (afterTokenClaim c token claim globalActionIndex nextIndex liability total tokens) := by
  have hpaid := h.liability_eq
  have hliability : liability.toNat =
      (c.bridge.escrowLiabilityByToken token).toNat - claim.amount.toNat := by omega
  refine ⟨_, rfl, ?_⟩
  apply Ledgers.ext
  case escrowLiabilityByToken => exact (liability_update hliability).symm
  case nextTokenWithdrawalIndex =>
    have hnext := succ_of_toNat h.nextIndex_eq
    rw [afterTokenClaim]
    simp only [ledgersOf, hnext]
    rfl
  all_goals rfl

/-- A transition accounts for itself: its appends by their links, its nonce by its event. -/
theorem accounts_transition {c next : Chain W} {publicValues : Bytes}
    {decoded : DecodedBridgePublicValues} (h : Transitioned c publicValues decoded next) :
    Accounts c next := by
  obtain ⟨events, hlog, hlinks⟩ := h.log_eq
  have hframed := h.appended.framed
  rw [List.append_assoc] at hlog
  refine ⟨_, hlog, ?_⟩
  have hstart : (ledgersOf c).actionState = c.settlement.actionState := rfl
  rw [replay_append, replay_settlement, hlinks, ← hstart, replay_witnessLinks]
  apply Ledgers.ext
  case actionState => exact hframed.actionState_eq.symm
  case outerActionStateLength => exact hframed.length_eq.symm
  case batchSequence => exact congrArg BitVec.toNat hframed.batchSequence_eq.symm
  all_goals
    simp only [ledgersOf, h.bridge_eq, h.registry_eq]
    rfl

/-- Every accepted transaction of a sound registry accounts for itself. -/
theorem accounts_step {c next : Chain W} {tx : Transaction} (hsound : RegistrySound c)
    (h : step env c tx = .ok next) : Accounts c next := by
  have heffect := step_effect env h
  rw [step, require_bind_eq_ok] at h
  have hexecuted := h.2
  obtain ⟨ctx, call⟩ := tx
  cases heffect with
  | administer kind administered => exact accounts_administration kind hexecuted
  | settle proved decode settled reported =>
    refine ⟨_, rfl, ?_⟩
    have hlength := settled.lengthAfter
    have hsequence := settled.sequence
    rw [replay_settlement, reported]
    apply Ledgers.ext
    case actionState => exact settled.actionState_eq.symm
    case outerActionStateLength =>
      change c.settlement.outerActionStateLength.toNat + 1 = _
      rw [← hlength, ← settled.outerActionStateLength_eq]
      rfl
    case batchSequence =>
      change c.settlement.batchSequence.toNat + 1 = _
      rw [← hsequence, ← settled.batchSequence_eq]
      rfl
    all_goals rfl
  | append appended reported =>
    refine ⟨_, rfl, ?_⟩
    rw [replay_settlement, reported]
    apply Ledgers.ext
    case actionState => exact appended.actionState_eq.symm
    case outerActionStateLength => exact appended.length_eq.symm
    case batchSequence => exact congrArg BitVec.toNat appended.batchSequence_eq.symm
    all_goals rfl
  | transition proved transitioned => exact accounts_transition transitioned
  | nativeDeposit deposited => exact accounts_nativeDeposit deposited
  | tokenDeposit deposited => exact accounts_tokenDeposit hsound deposited
  | nativeClaim claimed => exact accounts_nativeClaim claimed
  | tokenClaim claimed => exact accounts_tokenClaim claimed
  | etherRescue rescued => exact ⟨_, rfl, rfl⟩
  | tokenRescue rescued => exact ⟨_, rfl, rfl⟩
  | propose proposed =>
    refine ⟨_, proposed.log_eq, ?_⟩
    simp only [ledgersOf, proposed.settlement_eq, proposed.bridge_eq, proposed.status_eq]
    rfl
  | cancel cancelled =>
    obtain ⟨recordHash, registryIndex, hlog⟩ := cancelled.log_eq
    refine ⟨_, hlog, ?_⟩
    simp only [ledgersOf, cancelled.settlement_eq, cancelled.bridge_eq, cancelled.status_eq]
    rfl
  | activate kind activated => exact accounts_activation kind hexecuted
  | status changed =>
    simp only [execute, setAssetStatus, onlyBridgeAdmin, bind_eq_ok, require_eq_ok, exists_const,
      pure_eq_ok] at hexecuted
    obtain ⟨-, -, rfl⟩ := hexecuted
    exact ⟨_, rfl, rfl⟩
  | tokenTransfer outside transferred => exact ⟨[], (List.append_nil _).symm, rfl⟩
  | etherForced => exact ⟨[], (List.append_nil _).symm, rfl⟩

/-- What an observer of a deployment starts with: its parameters. -/
def initialLedgers (env : Environment) (p : SettlementParameters) : Ledgers where
  actionState := p.initialOuterActionState
  outerActionStateLength := p.initialOuterActionStateLength.toNat
  batchSequence := 0
  depositNonce := 0
  currentDepositState := initialDepositState env
  bridgedDepositNonce := 0
  nativeEscrowLiability := 0
  escrowLiabilityByToken := fun _ => 0
  nextWithdrawalIndex := fun _ => 0
  nextTokenWithdrawalIndex := fun _ _ => 0
  paused := false
  withdrawalDelaySlots := 20
  assetStatusByToken := fun _ => .none

/-- The log so far replays to the ledgers so far. -/
structure Replayed (d : Deployment env W) (c : Chain W) : Prop where
  /-- The registry is sound. -/
  sound : RegistrySound c
  /-- Replaying the log gives the ledgers. -/
  replay_eq : replay (initialLedgers env d.settlement) c.log = ledgersOf c

/-- The events of a deployment replay to what it starts with. -/
theorem replayed_start (d : Deployment env W) : Replayed d d.start := by
  have h := d.initialized
  obtain ⟨hasRole, allowedToken, hbridge⟩ := h.bridge_eq
  refine ⟨start_registrySound d, ?_⟩
  rw [h.log_eq]
  simp only [ledgersOf, hbridge, h.actionState_eq, h.length_eq, h.batchSequence_eq, h.registry_eq]
  rfl

/-- In every state that a deployment reaches, folding the event log over the parameters of
the deployment gives every ledger of both contracts: the place of the outer action chain,
the deposit chain, the bridged nonce, the liabilities, the claim cursors, the pause, the
delay and the status of every asset. -/
theorem log_determines_ledgers (d : Deployment env W) (transactions : List Transaction) :
    replay (initialLedgers env d.settlement) (d.reached transactions).log =
      ledgersOf (d.reached transactions) := by
  have hreplayed : Replayed d (d.reached transactions) := by
    refine run_invariant ?_ (replayed_start d) transactions
    intro c tx next hc h
    obtain ⟨events, hlog, hreplay⟩ := accounts_step hc.sound h
    refine ⟨registrySound_of_effect hc.sound (step_effect env h), ?_⟩
    rw [hlog, replay_append, hc.replay_eq, hreplay]
  exact hreplayed.replay_eq

end EthereumSettlement.EventReplay
