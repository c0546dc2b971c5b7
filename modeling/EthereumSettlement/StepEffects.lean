import EthereumSettlement.BridgeSystem

/-!
# The effect of each accepted transaction

One constructor for each kind of accepted transaction gives the facts that its
guards established and the exact chain state after it. Roles, pauses and other
administration share one constructor. Later modules never unfold a contract
function: they analyse these cases.
-/

namespace EthereumSettlement.StepEffects

open ByteWords CheckedCalls HashCommitments TransitionRuns PastaPoseidon InnerActionCommitment
open RegistryCheckpoint SettlementCodec BridgeCodec BridgeGuest ZekoSettlement EthereumZekoBridge
open ZekoAssetRegistry BridgeSystem OpenZeppelin

variable (env : Environment) {W : TokenWorld}

/-- Single witness appends to the given states, one after the other. -/
inductive ActionsAppended : SettlementStorage → List Bytes32 → SettlementStorage → Prop
  | nil (s : SettlementStorage) : ActionsAppended s [] s
  | cons {s middle next : SettlementStorage} {stateAfter : Bytes32} {states : List Bytes32}
      (first : WitnessAppended s s.actionState stateAfter 1 middle)
      (rest : ActionsAppended middle states next) : ActionsAppended s (stateAfter :: states) next

/-- The contributions of consecutive single appends. -/
def witnessLinks : Bytes32 → List Bytes32 → List OuterContribution
  | _, [] => []
  | stateBefore, stateAfter :: states =>
    .witness stateBefore stateAfter 1 :: witnessLinks stateAfter states

/-- The state after the last of consecutive links. -/
def lastState : Bytes32 → List Bytes32 → Bytes32
  | stateBefore, [] => stateBefore
  | _, stateAfter :: states => lastState stateAfter states

/-- The loop of `submitBridgeTransition` appends the states it reads, in order. -/
theorem appendActions_eq_ok {publicValues : Bytes} {remaining i : ℕ} {stateBefore : Bytes32}
    {s : SettlementStorage} {result : Bytes32 × SettlementStorage × List SettlementEvent}
    (hbefore : stateBefore = s.actionState)
    (h : appendActions env publicValues remaining i stateBefore s = .ok result) :
    ActionsAppended s ((List.range' i remaining).map (readActionState publicValues)) result.2.1 ∧
      result.1 = lastState stateBefore
        ((List.range' i remaining).map (readActionState publicValues)) ∧
      result.2.2.filterMap SettlementEvent.contribution = witnessLinks stateBefore
        ((List.range' i remaining).map (readActionState publicValues)) := by
  induction remaining generalizing i stateBefore s result with
  | zero =>
    rw [appendActions, pure_eq_ok] at h
    subst h
    exact ⟨ActionsAppended.nil s, rfl, rfl⟩
  | succ remaining ih =>
    simp only [appendActions, bind_eq_ok, callSettlement_eq_ok, pure_eq_ok] at h
    obtain ⟨appended, happended, rest, hrest, rfl⟩ := h
    obtain ⟨hfirst, hevents⟩ := appendOuterWitnessBatch_eq_ok env happended
    obtain ⟨hactions, hlast, hlinks⟩ := ih hfirst.actionState_eq.symm hrest
    rw [List.range'_succ, List.map_cons]
    refine ⟨?_, hlast, ?_⟩
    · rw [hbefore] at hfirst
      exact ActionsAppended.cons hfirst hactions
    · rw [List.filterMap_append, hevents, hlinks]
      rfl

/-- What consecutive appends leave alone, and how far they get. -/
structure AppendsFramed (s : SettlementStorage) (states : List Bytes32) (next : SettlementStorage) :
    Prop where
  /-- The last state is that of the last append. -/
  actionState_eq : next.actionState = lastState s.actionState states
  /-- The length counts the appends. -/
  length_eq : next.outerActionStateLength.toNat = s.outerActionStateLength.toNat + states.length
  /-- The configuration is unchanged. -/
  configuration : SameConfiguration s next
  /-- The outer state is unchanged. -/
  outerState_eq : next.outerState = s.outerState
  /-- Nothing is settled. -/
  batchSequence_eq : next.batchSequence = s.batchSequence
  /-- The stored batches are unchanged. -/
  innerActionBatch_eq : next.innerActionBatch = s.innerActionBatch
  /-- The settled records are unchanged. -/
  settledAssetRecord_eq : next.settledAssetRecord = s.settledAssetRecord
  /-- Their commitments are unchanged. -/
  settledAssetRecordCommitment_eq :
    next.settledAssetRecordCommitment = s.settledAssetRecordCommitment
  /-- The record trees are unchanged. -/
  assetRegistryRecordBatch_eq : next.assetRegistryRecordBatch = s.assetRegistryRecordBatch

/-- Configurations compose. -/
theorem SameConfiguration.trans {s t u : SettlementStorage} (h : SameConfiguration s t)
    (h' : SameConfiguration t u) : SameConfiguration s u :=
  ⟨h'.verifier.trans h.verifier, h'.programVKey.trans h.programVKey, h'.vkHash.trans h.vkHash,
    h'.bridgeContract.trans h.bridgeContract, h'.hasRole.trans h.hasRole,
    h'.genesisTimestamp.trans h.genesisTimestamp, h'.slotDuration.trans h.slotDuration,
    h'.forkSlot.trans h.forkSlot⟩

/-- Consecutive appends write only the outer action chain. -/
theorem ActionsAppended.framed {s next : SettlementStorage} {states : List Bytes32}
    (h : ActionsAppended s states next) : AppendsFramed s states next := by
  induction h with
  | nil s => exact ⟨rfl, rfl, ⟨rfl, rfl, rfl, rfl, rfl, rfl, rfl, rfl⟩, rfl, rfl, rfl, rfl, rfl, rfl⟩
  | @cons s middle next stateAfter states first rest ih =>
    have hfirst := first.length_eq
    have hone : (1 : BitVec 32).toNat = 1 := rfl
    have hrest := ih.length_eq
    refine ⟨?_, ?_, SameConfiguration.trans first.configuration ih.configuration,
      ih.outerState_eq.trans first.outerState_eq, ih.batchSequence_eq.trans first.batchSequence_eq,
      ih.innerActionBatch_eq.trans first.innerActionBatch_eq,
      ih.settledAssetRecord_eq.trans first.settledAssetRecord_eq,
      ih.settledAssetRecordCommitment_eq.trans first.settledAssetRecordCommitment_eq,
      ih.assetRegistryRecordBatch_eq.trans first.assetRegistryRecordBatch_eq⟩
    · rw [ih.actionState_eq, first.actionState_eq, lastState]
    · rw [hone] at hfirst
      rw [List.length_cons]
      omega

/-- A claim addresses a stored batch and its leaf verifies there. -/
structure ClaimVerified (c : Chain W) (claim : ClaimArguments) (leaf : Bytes32)
    (globalActionIndex : BitVec 32) : Prop where
  /-- The batch is stored. -/
  valid : (c.settlement.innerActionBatch claim.settlementSequence).valid = true
  /-- The offset lies in the batch. -/
  offset_lt : claim.offset.toNat <
    (c.settlement.innerActionBatch claim.settlementSequence).count.toNat
  /-- The index counts from the start of the batch. -/
  index_eq : globalActionIndex.toNat =
    (c.settlement.innerActionBatch claim.settlementSequence).startIndex.toNat + claim.offset.toNat
  /-- The path leads from the leaf to the stored root. -/
  root_eq : pathRoot (hashNode env.hashes) leaf claim.offset.toNat (List.ofFn claim.merkleProof) =
    (c.settlement.innerActionBatch claim.settlementSequence).root

/-- The facts of an accepted native claim. -/
structure NativeClaimed (c : Chain W) (ctx : CallContext) (claim : ClaimArguments) (accepts : Bool)
    (globalActionIndex nextIndex : BitVec 32) (liability total : BitVec 256) : Prop where
  /-- The claim's leaf is in the batch. -/
  verified : ClaimVerified env c claim (computeNativeWithdrawalLeaf env globalActionIndex
    claim.recipient claim.amount claim.actionFieldsHash) globalActionIndex
  /-- The bridge is not paused. -/
  unpaused : c.bridge.paused = false
  /-- The recipient is no zero address. -/
  recipient_ne : claim.recipient ≠ 0
  /-- Something is paid. -/
  amount_ne : claim.amount ≠ 0
  /-- The index is not below the recipient's cursor. -/
  cursor_le : (c.bridge.nextWithdrawalIndex claim.recipient).toNat ≤ globalActionIndex.toNat
  /-- The batch is past its delay. -/
  claimable : checkClaimable c ctx.timestamp
    (c.settlement.innerActionBatch claim.settlementSequence) = .ok ()
  /-- The cursor moves to the index after the claimed one. -/
  nextIndex_eq : nextIndex.toNat = globalActionIndex.toNat + 1
  /-- The liability moves by the amount. -/
  liability_eq : liability.toNat + claim.amount.toNat * gwei = c.bridge.nativeEscrowLiability.toNat
  /-- The deposited total moves by the amount. -/
  total_eq : total.toNat + claim.amount.toNat * gwei = (c.bridge.totalDepositedByToken 0).toNat
  /-- The bridge holds the amount. -/
  ether_le : claim.amount.toNat * gwei ≤ c.etherBalance
  /-- The recipient is not the bridge. -/
  receiver_ne : claim.recipient ≠ env.bridgeAddress
  /-- The recipient takes the ether. -/
  accepts_eq : accepts = true

/-- The chain after a native claim. -/
def afterNativeClaim (c : Chain W) (claim : ClaimArguments) (globalActionIndex nextIndex : BitVec 32)
    (liability total : BitVec 256) : Chain W :=
  { c with
    bridge := { c.bridge with
      nextWithdrawalIndex :=
        Function.update c.bridge.nextWithdrawalIndex claim.recipient nextIndex
      nativeEscrowLiability := liability
      totalDepositedByToken := Function.update c.bridge.totalDepositedByToken 0 total }
    etherBalance := c.etherBalance - claim.amount.toNat * gwei
    log := c.log ++ [.bridge (.nativeWithdrawalClaimed claim.settlementSequence globalActionIndex
      claim.recipient claim.amount (BitVec.ofNat 256 (claim.amount.toNat * gwei))
      claim.actionFieldsHash)] }

/-- A 64-bit amount of gwei fits a word. -/
theorem gwei_toNat (amount : BitVec 64) :
    (BitVec.ofNat 256 (amount.toNat * gwei)).toNat = amount.toNat * gwei := by
  have hlt := amount.isLt
  rw [BitVec.toNat_ofNat, Nat.mod_eq_of_lt]
  unfold gwei
  omega

/-- A 64-bit amount keeps its value as a word. -/
theorem toWord_toNat {w : ℕ} (hw : w ≤ 256) (value : BitVec w) : (toWord value).toNat = value.toNat := by
  have hp : 2 ^ w ≤ 2 ^ 256 := Nat.pow_le_pow_right (by decide) hw
  rw [toWord, BitVec.toNat_ofNat, Nat.mod_eq_of_lt (lt_of_lt_of_le value.isLt hp)]

/-- A located claim addresses a valid batch below its count. -/
theorem locateClaim_eq_ok {c : Chain W} {claim : ClaimArguments}
    {located : InnerActionBatch × BitVec 32} :
    locateClaim c claim = .ok located ↔
      (c.settlement.innerActionBatch claim.settlementSequence).valid = true ∧
      claim.offset.toNat <
        (c.settlement.innerActionBatch claim.settlementSequence).count.toNat ∧
      located.2.toNat = (c.settlement.innerActionBatch claim.settlementSequence).startIndex.toNat +
        claim.offset.toNat ∧
      located.1 = c.settlement.innerActionBatch claim.settlementSequence := by
  obtain ⟨batch, index⟩ := located
  simp only [locateClaim, bind_eq_ok, require_eq_ok, exists_const, pure_eq_ok, checkedAdd_eq_ok,
    Prod.mk.injEq]
  constructor
  · rintro ⟨⟨hvalid, hlt⟩, _, hindex, rfl, rfl⟩
    exact ⟨hvalid, hlt, hindex, rfl⟩
  · rintro ⟨hvalid, hlt, hindex, rfl⟩
    exact ⟨⟨hvalid, hlt⟩, _, hindex, rfl, rfl⟩

/-- A native claim is accepted exactly under its facts, and ends in its state. -/
theorem claimNativeWithdrawal_eq_ok {c next : Chain W} {ctx : CallContext} {claim : ClaimArguments}
    {accepts : Bool} :
    claimNativeWithdrawal env c ctx claim accepts = .ok next ↔
      ∃ globalActionIndex nextIndex liability total,
        NativeClaimed env c ctx claim accepts globalActionIndex nextIndex liability total ∧
        next = afterNativeClaim c claim globalActionIndex nextIndex liability total := by
  simp only [claimNativeWithdrawal, whenNotPaused_eq_ok, sendEther, bind_eq_ok, require_eq_ok,
    exists_const, pure_eq_ok, locateClaim_eq_ok, checkedAdd_eq_ok, checkedSub_eq_ok, gwei_toNat,
    verifyInnerActionMerkleProof, decide_eq_true_eq]
  constructor
  · rintro ⟨hpaused, hrecipient, hamount, ⟨batch, index⟩, ⟨hvalid, hlt, hindex, hbatch⟩, hcursor, _,
      hclaimable, hroot, hle, nextIndex, hnext, liability, hliability, total, htotal, paid,
      ⟨⟨hether, hreceiver, haccepts⟩, rfl⟩, rfl⟩
    dsimp only at hbatch hindex hclaimable hroot hcursor hnext
    subst hbatch
    exact ⟨index, nextIndex, liability, total,
      ⟨⟨hvalid, hlt, hindex, hroot⟩, hpaused, hrecipient, hamount, hcursor, hclaimable, hnext,
        hliability, htotal, hether, hreceiver, haccepts⟩, rfl⟩
  · rintro ⟨index, nextIndex, liability, total, h, rfl⟩
    have hle : BitVec.ofNat 256 (claim.amount.toNat * gwei) ≤ c.bridge.nativeEscrowLiability := by
      rw [BitVec.le_def, gwei_toNat]
      have hl := h.liability_eq
      omega
    exact ⟨h.unpaused, h.recipient_ne, h.amount_ne, (_, index),
      ⟨h.verified.valid, h.verified.offset_lt, h.verified.index_eq, rfl⟩, h.cursor_le, _,
      h.claimable, h.verified.root_eq, hle, nextIndex, h.nextIndex_eq, liability, h.liability_eq,
      total, h.total_eq, _, ⟨⟨h.ether_le, h.receiver_ne, h.accepts_eq⟩, rfl⟩, rfl⟩

/-- The payment of a token claim moved exactly the amount out of the bridge and
into the recipient's account, as far as the token's balances say. -/
structure TokenPaid (tokens : W.State) (token recipient : Address) (amount : BitVec 256)
    (paid : W.State) : Prop where
  /-- The token contract accepts the transfer. -/
  transferred : W.transfer tokens token env.bridgeAddress recipient amount = some paid
  /-- The bridge's balance falls by the amount. -/
  bridgeBalance : ∃ before after, W.balanceOf tokens token env.bridgeAddress = some before ∧
    W.balanceOf paid token env.bridgeAddress = some after ∧
    amount.toNat + after.toNat = before.toNat
  /-- The recipient's balance rises by the amount. -/
  recipientBalance : ∃ before after, W.balanceOf tokens token recipient = some before ∧
    W.balanceOf paid token recipient = some after ∧ amount.toNat + before.toNat = after.toNat

/-- A payment is accepted exactly when it moved the amount. -/
theorem payToken_eq_ok {tokens paid : W.State} {token recipient : Address} {amount : BitVec 256} :
    payToken env tokens token recipient amount = .ok paid ↔
      TokenPaid env tokens token recipient amount paid := by
  simp only [payToken, bind_eq_ok, require_eq_ok, exists_const, pure_eq_ok, callToken_eq_ok,
    checkedSub_eq_ok]
  constructor
  · rintro ⟨bridgeBefore, hbb, recipientBefore, hrb, after, htransfer, bridgeAfter, hba,
      recipientAfter, hra, sent, hsent, rfl, received, hreceived, rfl, rfl⟩
    exact ⟨htransfer, ⟨bridgeBefore, bridgeAfter, hbb, hba, hsent⟩,
      ⟨recipientBefore, recipientAfter, hrb, hra, hreceived⟩⟩
  · rintro ⟨htransfer, ⟨bridgeBefore, bridgeAfter, hbb, hba, hsent⟩,
      ⟨recipientBefore, recipientAfter, hrb, hra, hreceived⟩⟩
    exact ⟨bridgeBefore, hbb, recipientBefore, hrb, paid, htransfer, bridgeAfter, hba,
      recipientAfter, hra, amount, hsent, rfl, amount, hreceived, rfl, rfl⟩

/-- The facts of an accepted token claim. -/
structure TokenClaimed (c : Chain W) (ctx : CallContext) (token : Address) (claim : ClaimArguments)
    (globalActionIndex nextIndex : BitVec 32) (liability total : BitVec 256) (tokens : W.State) :
    Prop where
  /-- The claim's leaf is in the batch. -/
  verified : ClaimVerified env c claim (computeERC20WithdrawalLeaf env globalActionIndex token
    (c.bridge.registryIndexByToken token) (c.bridge.recordCommitmentByToken token)
    (c.bridge.assetIdByToken token) claim.recipient claim.amount claim.actionFieldsHash)
    globalActionIndex
  /-- The bridge is not paused. -/
  unpaused : c.bridge.paused = false
  /-- The token is registered. -/
  registered : c.bridge.canonicalTokenRegistered token = true
  /-- The record's commitment is not zero. -/
  commitment_ne : c.bridge.recordCommitmentByToken token ≠ 0
  /-- The recipient is no zero address. -/
  recipient_ne : claim.recipient ≠ 0
  /-- Something is paid. -/
  amount_ne : claim.amount ≠ 0
  /-- The index is not below the recipient's cursor. -/
  cursor_le : (c.bridge.nextTokenWithdrawalIndex token claim.recipient).toNat ≤
    globalActionIndex.toNat
  /-- The batch is past its delay. -/
  claimable : checkClaimable c ctx.timestamp
    (c.settlement.innerActionBatch claim.settlementSequence) = .ok ()
  /-- The cursor moves to the index after the claimed one. -/
  nextIndex_eq : nextIndex.toNat = globalActionIndex.toNat + 1
  /-- The liability moves by the amount. -/
  liability_eq : liability.toNat + claim.amount.toNat =
    (c.bridge.escrowLiabilityByToken token).toNat
  /-- The deposited total moves by the amount. -/
  total_eq : total.toNat + claim.amount.toNat = (c.bridge.totalDepositedByToken token).toNat
  /-- The token moves. -/
  paid : TokenPaid env c.tokens token claim.recipient (toWord claim.amount) tokens

/-- The chain after a token claim. -/
def afterTokenClaim (c : Chain W) (token : Address) (claim : ClaimArguments)
    (globalActionIndex nextIndex : BitVec 32) (liability total : BitVec 256) (tokens : W.State) :
    Chain W :=
  { c with
    tokens := tokens
    bridge := { c.bridge with
      nextTokenWithdrawalIndex := Function.update c.bridge.nextTokenWithdrawalIndex token
        (Function.update (c.bridge.nextTokenWithdrawalIndex token) claim.recipient nextIndex)
      escrowLiabilityByToken := Function.update c.bridge.escrowLiabilityByToken token liability
      totalDepositedByToken := Function.update c.bridge.totalDepositedByToken token total }
    log := c.log ++ [.bridge (.erc20WithdrawalClaimedV2 claim.settlementSequence globalActionIndex
      token (c.bridge.assetIdByToken token) (c.bridge.registryIndexByToken token)
      (c.bridge.recordCommitmentByToken token) claim.recipient claim.amount
      claim.actionFieldsHash)] }

/-- A token claim is accepted exactly under its facts, and ends in its state. -/
theorem claimERC20Withdrawal_eq_ok {c next : Chain W} {ctx : CallContext} {token : Address}
    {claim : ClaimArguments} :
    claimERC20Withdrawal env c ctx token claim = .ok next ↔
      ∃ globalActionIndex nextIndex liability total tokens,
        TokenClaimed env c ctx token claim globalActionIndex nextIndex liability total tokens ∧
        next = afterTokenClaim c token claim globalActionIndex nextIndex liability total tokens := by
  have hword : (toWord claim.amount).toNat = claim.amount.toNat :=
    toWord_toNat (by decide) claim.amount
  simp only [claimERC20Withdrawal, whenNotPaused_eq_ok, bind_eq_ok, require_eq_ok, exists_const,
    pure_eq_ok, locateClaim_eq_ok, checkedAdd_eq_ok, checkedSub_eq_ok, hword, payToken_eq_ok,
    verifyInnerActionMerkleProof, decide_eq_true_eq]
  constructor
  · rintro ⟨hpaused, hregistered, hcommitment, hrecipient, hamount, ⟨batch, index⟩,
      ⟨hvalid, hlt, hindex, hbatch⟩, hcursor, _, hclaimable, hroot, hle, nextIndex, hnext, liability,
      hliability, total, htotal, tokens, hpaid, rfl⟩
    dsimp only at hbatch hindex hclaimable hroot hcursor hnext
    subst hbatch
    exact ⟨index, nextIndex, liability, total, tokens,
      ⟨⟨hvalid, hlt, hindex, hroot⟩, hpaused, hregistered, hcommitment, hrecipient, hamount, hcursor,
        hclaimable, hnext, hliability, htotal, hpaid⟩, rfl⟩
  · rintro ⟨index, nextIndex, liability, total, tokens, h, rfl⟩
    have hle : toWord claim.amount ≤ c.bridge.escrowLiabilityByToken token := by
      rw [BitVec.le_def, hword]
      have hl := h.liability_eq
      omega
    exact ⟨h.unpaused, h.registered, h.commitment_ne, h.recipient_ne, h.amount_ne, (_, index),
      ⟨h.verified.valid, h.verified.offset_lt, h.verified.index_eq, rfl⟩, h.cursor_le, _,
      h.claimable, h.verified.root_eq, hle, nextIndex, h.nextIndex_eq, liability, h.liability_eq,
      total, h.total_eq, tokens, h.paid, rfl⟩

/-- The bridge storage after a deposit is linked into the deposit chain. -/
def linkDeposit (s : BridgeStorage) (record : DepositRecord) : BridgeStorage :=
  { s with
    depositNonce := record.nonce
    currentDepositState :=
      depositChainStep env.hashes env.chainId env.bridgeAddress s.currentDepositState record
    depositStateByNonce := Function.update s.depositStateByNonce record.nonce
      (depositChainStep env.hashes env.chainId env.bridgeAddress s.currentDepositState record) }

/-- The facts of an accepted native deposit. -/
structure NativeDeposited (c : Chain W) (value : BitVec 256) (zekoRecipient : Bytes32)
    (nonce : BitVec 64) (total liability : BitVec 256) : Prop where
  /-- The bridge is not paused. -/
  unpaused : c.bridge.paused = false
  /-- Ether comes with the call. -/
  value_ne : value ≠ 0
  /-- The deposit takes the next number. -/
  nonce_eq : nonce.toNat = c.bridge.depositNonce.toNat + 1
  /-- It is a whole number of gwei. -/
  whole_gwei : value.toNat % gwei = 0
  /-- The first coordinate of the recipient is a field element. -/
  recipient_lt : (zekoRecipient &&& BitVec.ofNat 256 (2 ^ 255 - 1)).toNat < fieldOrder
  /-- The deposited total moves by the amount. -/
  total_eq : total.toNat = (c.bridge.totalDepositedByToken 0).toNat + value.toNat
  /-- The liability moves by the amount. -/
  liability_eq : liability.toNat = c.bridge.nativeEscrowLiability.toNat + value.toNat

/-- The record of a native deposit. -/
def nativeRecord (value : BitVec 256) (zekoRecipient : Bytes32) (nonce : BitVec 64) :
    DepositRecord :=
  .native zekoRecipient (BitVec.ofNat 256 (value.toNat / gwei)) depositTimeout nonce

/-- The chain after a native deposit. -/
def afterNativeDeposit (c : Chain W) (sender : Address) (value : BitVec 256)
    (zekoRecipient : Bytes32) (nonce : BitVec 64) (total liability : BitVec 256) : Chain W :=
  { c with
    bridge := { linkDeposit env c.bridge (nativeRecord value zekoRecipient nonce) with
      totalDepositedByToken := Function.update c.bridge.totalDepositedByToken 0 total
      nativeEscrowLiability := liability }
    etherBalance := c.etherBalance + value.toNat
    log := c.log ++ [.bridge (.bridgeDeposit nonce
      ((nativeRecord value zekoRecipient nonce).leaf env.hashes env.chainId env.bridgeAddress)
      (depositChainStep env.hashes env.chainId env.bridgeAddress c.bridge.currentDepositState
        (nativeRecord value zekoRecipient nonce))
      c.bridge.currentDepositState 0 sender zekoRecipient value
      (BitVec.ofNat 256 (value.toNat / gwei)) depositTimeout)] }

/-- A native deposit is accepted only under its facts, and ends in its state. -/
theorem depositETH_eq_ok {c next : Chain W} {ctx : CallContext} {value : BitVec 256}
    {zekoRecipient : Bytes32} (h : depositETH env c ctx value zekoRecipient = .ok next) :
    ∃ nonce total liability, NativeDeposited c value zekoRecipient nonce total liability ∧
      next = afterNativeDeposit env c ctx.sender value zekoRecipient nonce total liability := by
  simp only [depositETH, whenNotPaused_eq_ok, recordNativeDeposit, computeDepositLeaf, unpackZeko,
    bind_eq_ok, require_eq_ok, exists_const, pure_eq_ok, checkedAdd_eq_ok] at h
  obtain ⟨hpaused, -, hvalue, nonce, hnonce, hgwei, leaf, ⟨recipient, ⟨hrecipient, -⟩, rfl⟩, total,
    htotal, liability, hliability, rfl⟩ := h
  exact ⟨nonce, total, liability, ⟨hpaused, hvalue, hnonce, hgwei, hrecipient, htotal, hliability⟩,
    rfl⟩

/-- The facts of an accepted token deposit. -/
structure TokenDeposited (c : Chain W) (sender token : Address) (amount : BitVec 256)
    (zekoRecipient : Bytes32) (nonce : BitVec 64) (total liability : BitVec 256)
    (tokens : W.State) : Prop where
  /-- The bridge is not paused. -/
  unpaused : c.bridge.paused = false
  /-- The token is registered. -/
  registered : c.bridge.canonicalTokenRegistered token = true
  /-- The record's commitment is not zero. -/
  commitment_ne : c.bridge.recordCommitmentByToken token ≠ 0
  /-- Something is deposited. -/
  amount_ne : amount ≠ 0
  /-- The amount fits 64 bits. -/
  amount_lt : amount.toNat < 2 ^ 64
  /-- The deposit takes the next number. -/
  nonce_eq : nonce.toNat = c.bridge.depositNonce.toNat + 1
  /-- The first coordinate of the recipient is a field element. -/
  recipient_lt : (zekoRecipient &&& BitVec.ofNat 256 (2 ^ 255 - 1)).toNat < fieldOrder
  /-- The token contract accepts the transfer. -/
  transferred : W.transferFrom c.tokens token env.bridgeAddress sender env.bridgeAddress amount =
    some tokens
  /-- The bridge's balance rises by the amount. -/
  received : ∃ before after, W.balanceOf c.tokens token env.bridgeAddress = some before ∧
    W.balanceOf tokens token env.bridgeAddress = some after ∧
    amount.toNat + before.toNat = after.toNat
  /-- The deposited total moves by the amount. -/
  total_eq : total.toNat = (c.bridge.totalDepositedByToken token).toNat + amount.toNat
  /-- The liability moves by the amount. -/
  liability_eq : liability.toNat = (c.bridge.escrowLiabilityByToken token).toNat + amount.toNat

/-- The record of a token deposit. -/
def tokenRecord (s : BridgeStorage) (token : Address) (amount : BitVec 256) (zekoRecipient : Bytes32)
    (nonce : BitVec 64) : DepositRecord :=
  .erc20 token (s.registryIndexByToken token) (s.recordCommitmentByToken token)
    (s.assetIdByToken token) zekoRecipient (amount.setWidth 64) depositTimeout nonce

/-- The events of a token deposit. -/
def tokenDepositEvents (s : BridgeStorage) (sender token : Address) (amount : BitVec 256)
    (zekoRecipient : Bytes32) (nonce : BitVec 64) : List BridgeEvent :=
  let record := tokenRecord s token amount zekoRecipient nonce
  let leaf := record.leaf env.hashes env.chainId env.bridgeAddress
  let state := depositChainStep env.hashes env.chainId env.bridgeAddress s.currentDepositState record
  [.bridgeDeposit nonce leaf state s.currentDepositState token sender zekoRecipient
      (toWord (amount.setWidth 64)) (toWord (amount.setWidth 64)) depositTimeout,
    .erc20DepositSubmitted nonce (s.assetIdByToken token) leaf state token sender zekoRecipient
      (amount.setWidth 64) depositTimeout,
    .erc20DepositSubmittedV2 nonce (s.assetIdByToken token) leaf state token sender zekoRecipient
      (amount.setWidth 64) depositTimeout erc20ActionEncodingV2 (s.registryIndexByToken token)
      (s.recordCommitmentByToken token)]

/-- The chain after a token deposit. -/
def afterTokenDeposit (c : Chain W) (sender token : Address) (amount : BitVec 256)
    (zekoRecipient : Bytes32) (nonce : BitVec 64) (total liability : BitVec 256)
    (tokens : W.State) : Chain W :=
  { c with
    tokens := tokens
    bridge := { linkDeposit env c.bridge (tokenRecord c.bridge token amount zekoRecipient nonce) with
      totalDepositedByToken := Function.update c.bridge.totalDepositedByToken token total
      escrowLiabilityByToken := Function.update c.bridge.escrowLiabilityByToken token liability }
    log := c.log ++
      (tokenDepositEvents env c.bridge sender token amount zekoRecipient nonce).map .bridge }

/-- A token deposit is accepted only under its facts, and ends in its state. -/
theorem submitDeposit_eq_ok {c next : Chain W} {ctx : CallContext} {token : Address}
    {amount : BitVec 256} {zekoRecipient : Bytes32}
    (h : submitDeposit env c ctx token amount zekoRecipient = .ok next) :
    ∃ nonce total liability tokens,
      TokenDeposited env c ctx.sender token amount zekoRecipient nonce total liability tokens ∧
      next = afterTokenDeposit env c ctx.sender token amount zekoRecipient nonce total liability
        tokens := by
  simp only [submitDeposit, whenNotPaused_eq_ok, recordERC20Deposit, computeERC20DepositLeaf,
    unpackZeko, bind_eq_ok, require_eq_ok, exists_const, pure_eq_ok, checkedAdd_eq_ok,
    checkedSub_eq_ok, callToken_eq_ok] at h
  obtain ⟨hpaused, hregistered, hcommitment, -, hamount, hlt, -, -, -, before, hbefore, tokens,
    htransfer, after, hafter, received, hreceived, rfl, nonce, hnonce, -, leaf,
    ⟨recipient, ⟨hrecipient, -⟩, rfl⟩, total, htotal, liability, hliability, rfl⟩ := h
  have hword : (toWord (received.setWidth 64)).toNat = received.toNat := by
    rw [toWord_toNat (by decide), BitVec.toNat_setWidth, Nat.mod_eq_of_lt hlt]
  rw [hword] at htotal hliability
  exact ⟨nonce, total, liability, tokens, ⟨hpaused, hregistered, hcommitment, hamount, hlt, hnonce,
    hrecipient, htransfer, ⟨before, after, hbefore, hafter, hreceived⟩, htotal, hliability⟩, rfl⟩

/-- The facts of an accepted emergency withdrawal of ether. -/
structure EtherRescued (c : Chain W) (receiver : Address) (amount : BitVec 256) : Prop where
  /-- The receiver is no zero address. -/
  receiver_ne : receiver ≠ 0
  /-- The receiver is not the bridge. -/
  receiver_ne_bridge : receiver ≠ env.bridgeAddress
  /-- Something leaves. -/
  amount_ne : amount ≠ 0
  /-- The bridge holds the amount. -/
  amount_le : amount.toNat ≤ c.etherBalance

/-- The facts of an accepted emergency withdrawal of tokens: only the excess
over the liability leaves. -/
structure TokenRescued (c : Chain W) (token receiver : Address) (amount : BitVec 256)
    (tokens : W.State) : Prop where
  /-- It is not about ether. -/
  token_ne : token ≠ 0
  /-- The receiver is no zero address. -/
  receiver_ne : receiver ≠ 0
  /-- The token contract accepts the transfer. -/
  transferred : W.transfer c.tokens token env.bridgeAddress receiver amount = some tokens
  /-- Only what exceeds the liability leaves. -/
  excess : ∃ balance, W.balanceOf c.tokens token env.bridgeAddress = some balance ∧
    (c.bridge.escrowLiabilityByToken token).toNat + amount.toNat ≤ balance.toNat

/-- An accepted emergency withdrawal moved ether or excess tokens. -/
theorem emergencyWithdrawToken_eq_ok {c next : Chain W} {ctx : CallContext}
    {token receiver : Address} {amount : BitVec 256} {accepts : Bool}
    (h : emergencyWithdrawToken env c ctx token receiver amount accepts = .ok next) :
    (token = 0 ∧ EtherRescued env c receiver amount ∧
      next = { c with
        etherBalance := c.etherBalance - amount.toNat
        log := c.log ++ [.bridge (.emergencyTokenWithdraw 0 receiver amount)] }) ∨
    (∃ tokens, TokenRescued env c token receiver amount tokens ∧
      next = { c with
        tokens := tokens
        log := c.log ++ [.bridge (.emergencyTokenWithdraw token receiver amount)] }) := by
  simp only [emergencyWithdrawToken, onlyBridgeRole_eq_ok, bind_eq_ok, require_eq_ok, exists_const]
    at h
  obtain ⟨-, hreceiver, hamount, hpaid⟩ := h
  have hpos : 0 < amount.toNat := by
    rw [Nat.pos_iff_ne_zero]
    intro hzero
    exact hamount (BitVec.eq_of_toNat_eq hzero)
  by_cases htoken : token = 0
  · rw [if_pos htoken] at hpaid
    simp only [sendEther, bind_eq_ok, require_eq_ok, exists_const, pure_eq_ok] at hpaid
    obtain ⟨paid, ⟨⟨hle, hbridge, -⟩, rfl⟩, rfl⟩ := hpaid
    subst htoken
    exact Or.inl ⟨rfl, ⟨hreceiver, hbridge, hamount, hle⟩, rfl⟩
  · rw [if_neg htoken] at hpaid
    simp only [bind_eq_ok, require_eq_ok, exists_const, pure_eq_ok, callToken_eq_ok] at hpaid
    obtain ⟨balance, hbalance, havailable, tokens, htransfer, paid, rfl, rfl⟩ := hpaid
    have hexcess : (c.bridge.escrowLiabilityByToken token).toNat + amount.toNat ≤
        balance.toNat := by
      split at havailable
      · rename_i hlt
        have hsub : (balance - c.bridge.escrowLiabilityByToken token).toNat =
            balance.toNat - (c.bridge.escrowLiabilityByToken token).toNat :=
          BitVec.toNat_sub_of_le (BitVec.le_of_lt hlt)
        have hltNat : (c.bridge.escrowLiabilityByToken token).toNat < balance.toNat := hlt
        have hleNat := BitVec.le_def.mp havailable
        omega
      · have hleNat := BitVec.le_def.mp havailable
        have hzero : (0 : BitVec 256).toNat = 0 := rfl
        omega
    exact Or.inr ⟨tokens, ⟨htoken, hreceiver, htransfer, balance, hbalance, hexcess⟩, rfl⟩

/-- What the checks of `submitBridgeTransition` behind the proof establish. -/
structure TransitionChecked (c : Chain W) (decoded : DecodedBridgePublicValues) : Prop where
  /-- It bridges a deposit. -/
  count_ne : decoded.depositCount ≠ 0
  /-- It starts at the last bridged deposit. -/
  nonceBefore : decoded.ethereumNonceBefore = c.bridge.bridgedDepositNonce
  /-- It starts at the current outer action state. -/
  actionStateBefore : decoded.zekoActionStateBefore = c.settlement.actionState
  /-- It starts at the current outer length. -/
  lengthBefore : decoded.zekoActionStateLengthBefore = c.settlement.outerActionStateLength
  /-- Its lengths differ by its deposits. -/
  lengthAfter : decoded.zekoActionStateLengthAfter.toNat =
    decoded.zekoActionStateLengthBefore.toNat + decoded.depositCount.toNat
  /-- It starts at the stored accumulator. -/
  stateBefore : c.bridge.depositStateByNonce decoded.ethereumNonceBefore =
    decoded.ethereumStateBefore
  /-- It ends at the last deposit. -/
  nonceAfter : decoded.ethereumNonceAfter = c.bridge.depositNonce
  /-- It ends at the current accumulator. -/
  stateAfter : decoded.ethereumStateAfter = c.bridge.currentDepositState
  /-- Its nonces differ by its deposits. -/
  nonce_eq : decoded.ethereumNonceAfter.toNat =
    decoded.ethereumNonceBefore.toNat + decoded.depositCount.toNat
  /-- Its last action state is new. -/
  unprocessed : c.bridge.processedActionState decoded.zekoActionStateAfter = false

/-- The states that a receipt appends to the outer action chain. -/
def appendedStates (publicValues : Bytes) (count : BitVec 32) : List Bytes32 :=
  (List.range' 0 count.toNat).map (readActionState publicValues)

/-- There is one appended state for each deposit. -/
@[simp] theorem appendedStates_length (publicValues : Bytes) (count : BitVec 32) :
    (appendedStates publicValues count).length = count.toNat := by
  rw [appendedStates, List.length_map, List.length_range']

/-- The bridge storage after a transition. -/
def afterTransition (s : BridgeStorage) (decoded : DecodedBridgePublicValues) : BridgeStorage :=
  { s with
    processedActionState :=
      Function.update s.processedActionState decoded.zekoActionStateAfter true
    bridgedDepositNonce := decoded.ethereumNonceAfter }

/-- What an accepted transition does. -/
structure Transitioned (c : Chain W) (publicValues : Bytes) (decoded : DecodedBridgePublicValues)
    (next : Chain W) : Prop where
  /-- The public values decode. -/
  decode : decodeBridgePublicValues publicValues = .ok decoded
  /-- They pass the checks. -/
  checked : TransitionChecked c decoded
  /-- Their actions are appended. -/
  appended : ActionsAppended c.settlement (appendedStates publicValues decoded.depositCount)
    next.settlement
  /-- Their last state is that of the last action. -/
  last : decoded.zekoActionStateAfter =
    lastState c.settlement.actionState (appendedStates publicValues decoded.depositCount)
  /-- The bridge moves to the end of the range. -/
  bridge_eq : next.bridge = afterTransition c.bridge decoded
  /-- The registry is unchanged. -/
  registry_eq : next.registry = c.registry
  /-- The bridge holds the same ether. -/
  etherBalance_eq : next.etherBalance = c.etherBalance
  /-- No token moves. -/
  tokens_eq : next.tokens = c.tokens
  /-- The events that it leaves. -/
  log_eq : ∃ events : List SettlementEvent,
    next.log = c.log ++ events.map .settlement ++ [.bridge (.bridgeTransitionAccepted
      decoded.zekoActionStateBefore decoded.zekoActionStateAfter decoded.ethereumStateAfter
      decoded.ethereumNonceAfter)] ∧
    events.filterMap SettlementEvent.contribution =
      witnessLinks c.settlement.actionState (appendedStates publicValues decoded.depositCount)

/-- An accepted transition passed its checks and appended its actions. -/
theorem applyBridgeTransition_eq_ok {c next : Chain W} {publicValues : Bytes}
    (h : applyBridgeTransition env c publicValues = .ok next) :
    ∃ decoded, Transitioned c publicValues decoded next := by
  simp only [applyBridgeTransition, bind_eq_ok, require_eq_ok, exists_const, pure_eq_ok] at h
  obtain ⟨decoded, hdecode, hcount, hnonceBefore, hactionBefore, hlengthBefore, expectedLength,
    hexpectedLength, hlengthAfter, hstateBefore, hnonceAfter, hstateAfter, expectedNonce,
    hexpectedNonce, hnonceEq, hunprocessed, appended, happended, hlast, rfl⟩ := h
  have hwidth : (decoded.depositCount.setWidth 64).toNat = decoded.depositCount.toNat := by
    rw [BitVec.toNat_setWidth, Nat.mod_eq_of_lt (lt_trans decoded.depositCount.isLt (by decide))]
  have hnonceSum := checkedAdd_eq_ok.mp hexpectedNonce
  rw [hwidth, ← hnonceEq] at hnonceSum
  have hlengthSum := checkedAdd_eq_ok.mp hexpectedLength
  rw [← hlengthAfter] at hlengthSum
  obtain ⟨hactions, hlastEq, hlinks⟩ := appendActions_eq_ok env hactionBefore happended
  rw [hactionBefore] at hlastEq hlinks
  refine ⟨decoded, hdecode, ⟨hcount, hnonceBefore, hactionBefore, hlengthBefore, hlengthSum,
    hstateBefore, hnonceAfter, hstateAfter, hnonceSum, hunprocessed⟩, hactions, ?_, rfl, rfl, rfl,
    rfl, appended.2.2, rfl, hlinks⟩
  rw [← hlast]
  exact hlastEq

/-- What an accepted proposal does. -/
structure AssetProposed (c : Chain W) (record : AssetRecord) (next : Chain W) : Prop where
  /-- The token is not zero. -/
  token_ne : record.ethereumToken ≠ 0
  /-- The asset is not zero. -/
  assetId_ne : record.assetId ≠ 0
  /-- The token is not registered. -/
  unregistered : c.bridge.canonicalTokenRegistered record.ethereumToken = false
  /-- The settlement contract is unchanged. -/
  settlement_eq : next.settlement = c.settlement
  /-- The bridge's storage is unchanged. -/
  bridge_eq : next.bridge = c.bridge
  /-- The bridge holds the same ether. -/
  etherBalance_eq : next.etherBalance = c.etherBalance
  /-- No token moves. -/
  tokens_eq : next.tokens = c.tokens
  /-- The record is stored. -/
  records_eq : next.registry.assetRecordByToken =
    Function.update c.registry.assetRecordByToken record.ethereumToken record
  /-- The token becomes pending. -/
  status_eq : next.registry.assetStatusByToken =
    Function.update c.registry.assetStatusByToken record.ethereumToken .pending
  /-- The event of the proposal. -/
  log_eq : next.log = c.log ++
    [.bridge (.assetRegistrationProposed (hashAssetRecord env record) record)]

/-- An accepted proposal establishes its record of facts. -/
theorem proposeAsset_eq_ok {c next : Chain W} {ctx : CallContext} {record : AssetRecord}
    (h : proposeAsset env c ctx record = .ok next) : AssetProposed env c record next := by
  simp only [proposeAsset, onlyBridgeAdmin, bind_eq_ok, require_eq_ok, exists_const, pure_eq_ok]
    at h
  obtain ⟨-, hwellFormed, ⟨hunregistered, -, -⟩, decimals, -, -, -, -, -, -, nextCount, -, rfl⟩ := h
  obtain ⟨-, -, -, htoken, hasset, -⟩ := hwellFormed
  exact ⟨htoken, hasset, hunregistered, rfl, rfl, rfl, rfl, rfl, rfl, rfl⟩

/-- What an accepted cancellation does. -/
structure AssetCancelled (c : Chain W) (token : Address) (next : Chain W) : Prop where
  /-- The settlement contract is unchanged. -/
  settlement_eq : next.settlement = c.settlement
  /-- The bridge's storage is unchanged. -/
  bridge_eq : next.bridge = c.bridge
  /-- The bridge holds the same ether. -/
  etherBalance_eq : next.etherBalance = c.etherBalance
  /-- No token moves. -/
  tokens_eq : next.tokens = c.tokens
  /-- The record is dropped. -/
  records_eq : next.registry.assetRecordByToken =
    Function.update c.registry.assetRecordByToken token zeroRecord
  /-- The token has no status. -/
  status_eq : next.registry.assetStatusByToken =
    Function.update c.registry.assetStatusByToken token .none
  /-- The event of the cancellation. -/
  log_eq : ∃ recordHash registryIndex, next.log = c.log ++
    [.bridge (.assetRegistrationCancelled recordHash registryIndex token)]

/-- An accepted cancellation establishes its record of facts. -/
theorem cancelLastPendingAsset_eq_ok {c next : Chain W} {ctx : CallContext} {token : Address}
    (h : cancelLastPendingAsset env c ctx token = .ok next) : AssetCancelled c token next := by
  simp only [cancelLastPendingAsset, onlyBridgeAdmin, bind_eq_ok, require_eq_ok, exists_const,
    pure_eq_ok] at h
  obtain ⟨-, -, -, nextIndex, -, -, -, rfl⟩ := h
  exact ⟨rfl, rfl, rfl, rfl, rfl, rfl, _, _, rfl⟩

/-- Where the commitment of a record that a call activates comes from: a record
settled on its own, or a leaf of a settled record batch. -/
inductive RecordCommitted (c : Chain W) (token : Address) (recordCommitment : Bytes32) : Call → Prop
  | single {root : Bytes32} {count : BitVec 32}
      (settled : c.settlement.settledAssetRecord
        (hashAssetRecord env (c.registry.assetRecordByToken token)) = true)
      (commitment_eq : recordCommitment = c.settlement.settledAssetRecordCommitment
        (hashAssetRecord env (c.registry.assetRecordByToken token))) :
      RecordCommitted c token recordCommitment (.activateAsset token root count)
  | batch {settlementSequence : BitVec 64} {siblings : Fin 8 → Bytes32}
      (valid : (c.settlement.assetRegistryRecordBatch settlementSequence).valid = true)
      (index_lt : (c.registry.assetRecordByToken token).registryIndex.toNat <
        (c.settlement.assetRegistryRecordBatch settlementSequence).registryCount.toNat)
      (root_eq : pathRoot (assetRecordBatchNode env.hashes)
        (assetRecordBatchLeaf env.hashes
          (hashAssetRecord env (c.registry.assetRecordByToken token)) recordCommitment)
        (c.registry.assetRecordByToken token).registryIndex.toNat (List.ofFn siblings) =
          (c.settlement.assetRegistryRecordBatch settlementSequence).recordBatchRoot) :
      RecordCommitted c token recordCommitment
        (.activateAssetFromBatch token settlementSequence recordCommitment siblings)

/-- The bridge storage after an activation. -/
def afterActivation (s : BridgeStorage) (record : AssetRecord) (recordCommitment : Bytes32) :
    BridgeStorage :=
  let token := record.ethereumToken
  { s with
    canonicalTokenRegistered := Function.update s.canonicalTokenRegistered token true
    zekoTokenOwnerByToken := Function.update s.zekoTokenOwnerByToken token record.tokenOwnerL2
    zekoTokenIdByToken := Function.update s.zekoTokenIdByToken token record.tokenIdL2
    assetIdByToken := Function.update s.assetIdByToken token record.assetId
    depositCapByToken := Function.update s.depositCapByToken token record.inventoryCap
    registryIndexByToken := Function.update s.registryIndexByToken token record.registryIndex
    recordCommitmentByToken := Function.update s.recordCommitmentByToken token recordCommitment
    allowedToken := Function.update s.allowedToken token
      ⟨record.decimals, record.decimals, true⟩ }

/-- What an accepted activation does. -/
structure AssetActivated (c : Chain W) (call : Call) (token : Address) (recordCommitment : Bytes32)
    (next : Chain W) : Prop where
  /-- The token was pending. -/
  pending : c.registry.assetStatusByToken token = .pending
  /-- The settlement contract knows the record. -/
  committed : RecordCommitted env c token recordCommitment call
  /-- The record's commitment is not zero. -/
  commitment_ne : recordCommitment ≠ 0
  /-- The token was not registered. -/
  unregistered : c.bridge.canonicalTokenRegistered
    (c.registry.assetRecordByToken token).ethereumToken = false
  /-- The settlement contract is unchanged. -/
  settlement_eq : next.settlement = c.settlement
  /-- The bridge takes the record. -/
  bridge_eq : next.bridge =
    afterActivation c.bridge (c.registry.assetRecordByToken token) recordCommitment
  /-- The bridge holds the same ether. -/
  etherBalance_eq : next.etherBalance = c.etherBalance
  /-- No token moves. -/
  tokens_eq : next.tokens = c.tokens
  /-- The records are unchanged. -/
  records_eq : next.registry.assetRecordByToken = c.registry.assetRecordByToken
  /-- The token becomes active. -/
  status_eq : next.registry.assetStatusByToken = Function.update c.registry.assetStatusByToken
    (c.registry.assetRecordByToken token).ethereumToken .active
  /-- The events concern administration only. -/
  log_eq : ∃ events, next.log = c.log ++ events ∧ ∀ event ∈ events, QuietEvent event

/-- The shared end of both activations. -/
theorem activate_eq_ok {c next : Chain W} {call : Call} {token : Address}
    {recordHash recordCommitment registryRoot : Bytes32} {registryCount registrySchema : BitVec 32}
    (hpending : c.registry.assetStatusByToken token = .pending)
    (hcommitted : RecordCommitted env c token recordCommitment call)
    (h : activate c (c.registry.assetRecordByToken token) recordHash recordCommitment registryRoot
      registryCount registrySchema = .ok next) :
    AssetActivated env c call token recordCommitment next := by
  simp only [activate, activateAssetRecordFromRegistry, bind_eq_ok, require_eq_ok, exists_const,
    pure_eq_ok] at h
  obtain ⟨activated, ⟨hunregistered, hcommitment, rfl⟩, rfl⟩ := h
  refine ⟨hpending, hcommitted, hcommitment, hunregistered, rfl, rfl, rfl, rfl, rfl, rfl, ?_⟩
  simp only [Chain.emit, List.append_assoc]
  refine ⟨_, rfl, ?_⟩
  intro event hevent
  simp only [List.map_cons, List.map_nil, List.cons_append, List.nil_append, List.mem_cons,
    List.not_mem_nil, or_false] at hevent
  rcases hevent with rfl | rfl | rfl <;> exact ⟨rfl, rfl⟩

/-- An accepted activation of a single record establishes its record of facts. -/
theorem activateAsset_eq_ok {c next : Chain W} {ctx : CallContext} {token : Address}
    {expectedRegistryRoot : Bytes32} {expectedRegistryCount : BitVec 32}
    (h : activateAsset env c ctx token expectedRegistryRoot expectedRegistryCount = .ok next) :
    ∃ recordCommitment, AssetActivated env c
      (.activateAsset token expectedRegistryRoot expectedRegistryCount) token recordCommitment next := by
  simp only [activateAsset, pendingRecord, onlyBridgeAdmin, bind_eq_ok, require_eq_ok, exists_const,
    pure_eq_ok] at h
  obtain ⟨-, pending, ⟨hpending, rfl⟩, hsettled, -, -, hactivate⟩ := h
  exact ⟨_, activate_eq_ok env hpending (.single hsettled rfl) hactivate⟩

/-- An accepted activation from a record batch establishes its record of facts. -/
theorem activateAssetFromBatch_eq_ok {c next : Chain W} {ctx : CallContext} {token : Address}
    {settlementSequence : BitVec 64} {recordCommitment : Bytes32} {siblings : Fin 8 → Bytes32}
    (h : activateAssetFromBatch env c ctx token settlementSequence recordCommitment siblings =
      .ok next) : AssetActivated env c
      (.activateAssetFromBatch token settlementSequence recordCommitment siblings) token
      recordCommitment next := by
  simp only [activateAssetFromBatch, pendingRecord, onlyBridgeAdmin, bind_eq_ok, require_eq_ok,
    exists_const, pure_eq_ok] at h
  obtain ⟨-, pending, ⟨hpending, rfl⟩, ⟨hvalid, -, -, -, -, hindex⟩, hroot, hactivate⟩ := h
  exact activate_eq_ok env hpending (.batch hvalid hindex hroot) hactivate

/-- What an accepted status change does. -/
structure StatusChanged (c : Chain W) (token : Address) (newStatus : AssetStatus) (next : Chain W) :
    Prop where
  /-- No token becomes pending again. -/
  newStatus_ne : newStatus ≠ .pending
  /-- The settlement contract is unchanged. -/
  settlement_eq : next.settlement = c.settlement
  /-- Only the configuration of tokens changes. -/
  bridge_eq : ∃ allowedToken, next.bridge = { c.bridge with allowedToken := allowedToken }
  /-- The bridge holds the same ether. -/
  etherBalance_eq : next.etherBalance = c.etherBalance
  /-- No token moves. -/
  tokens_eq : next.tokens = c.tokens
  /-- The records are unchanged. -/
  records_eq : next.registry.assetRecordByToken = c.registry.assetRecordByToken
  /-- The token has the new status. -/
  status_eq : next.registry.assetStatusByToken =
    Function.update c.registry.assetStatusByToken token newStatus
  /-- The events concern administration only. -/
  log_eq : ∃ events, next.log = c.log ++ events ∧ ∀ event ∈ events, QuietEvent event

/-- An accepted status change establishes its record of facts. -/
theorem setAssetStatus_eq_ok {c next : Chain W} {ctx : CallContext} {token : Address}
    {newStatus : AssetStatus} (h : setAssetStatus env c ctx token newStatus = .ok next) :
    StatusChanged c token newStatus next := by
  simp only [setAssetStatus, onlyBridgeAdmin, bind_eq_ok, require_eq_ok, exists_const, pure_eq_ok]
    at h
  obtain ⟨-, ⟨-, -, -, hnew⟩, rfl⟩ := h
  refine ⟨hnew, rfl, ⟨_, rfl⟩, rfl, rfl, rfl, rfl, _, rfl, ?_⟩
  intro event hevent
  simp only [List.map_cons, List.map_nil, List.mem_cons, List.not_mem_nil, or_false] at hevent
  rcases hevent with rfl | rfl <;> exact ⟨rfl, rfl⟩

/-- What administration can change: roles, the verification-key hash, the bridge
that the settlement contract names, the pause flag and the delay. -/
structure Administered (c next : Chain W) : Prop where
  /-- Verifier digest, bridge address and roles may change. -/
  settlement_eq : ∃ vkHash bridgeContract hasRole, next.settlement = { c.settlement with
    vkHash := vkHash, bridgeContract := bridgeContract, hasRole := hasRole }
  /-- Roles, pause and delay may change. -/
  bridge_eq : ∃ hasRole paused withdrawalDelaySlots, next.bridge = { c.bridge with
    hasRole := hasRole, paused := paused, withdrawalDelaySlots := withdrawalDelaySlots }
  /-- The registry is unchanged. -/
  registry_eq : next.registry = c.registry
  /-- The bridge holds the same ether. -/
  etherBalance_eq : next.etherBalance = c.etherBalance
  /-- No token moves. -/
  tokens_eq : next.tokens = c.tokens
  /-- The events concern administration only. -/
  log_eq : ∃ events, next.log = c.log ++ events ∧ ∀ event ∈ events, QuietEvent event

/-- What an accepted transaction does. -/
inductive Effect (c : Chain W) (ctx : CallContext) : Call → Chain W → Prop
  | administer {call : Call} {next : Chain W} (kind : call.isAdministration = true)
      (administered : Administered c next) : Effect c ctx call next
  | settle {publicValues proofBytes : Bytes} {decoded : DecodedPublicValues}
      {settlement : SettlementStorage} {events : List SettlementEvent}
      (proved : env.verifyProof c.settlement.verifier c.settlement.programVKey publicValues
        proofBytes = true)
      (decode : decodePublicValues publicValues = .ok decoded)
      (settled : ReceiptSettled env c.settlement decoded settlement)
      (reported : events.filterMap SettlementEvent.contribution =
        [.commit decoded.outerActionStateAfter]) :
      Effect c ctx (.verifyAndUpdateRoot publicValues proofBytes)
        { c with settlement := settlement, log := c.log ++ events.map .settlement }
  | append {stateBefore stateAfter : Bytes32} {count : BitVec 32} {settlement : SettlementStorage}
      {events : List SettlementEvent}
      (appended : WitnessAppended c.settlement stateBefore stateAfter count settlement)
      (reported : events.filterMap SettlementEvent.contribution =
        [.witness stateBefore stateAfter count]) :
      Effect c ctx (.appendOuterWitnessBatch stateBefore stateAfter count)
        { c with settlement := settlement, log := c.log ++ events.map .settlement }
  | transition {publicValues proofBytes : Bytes} {decoded : DecodedBridgePublicValues}
      {next : Chain W}
      (proved : env.verifyProof c.bridge.bridgeVerifier c.bridge.bridgeProgramVKey publicValues
        proofBytes = true)
      (transitioned : Transitioned c publicValues decoded next) :
      Effect c ctx (.submitBridgeTransition publicValues proofBytes) next
  | nativeDeposit {value : BitVec 256} {zekoRecipient : Bytes32} {nonce : BitVec 64}
      {total liability : BitVec 256}
      (deposited : NativeDeposited c value zekoRecipient nonce total liability) :
      Effect c ctx (.depositETH value zekoRecipient)
        (afterNativeDeposit env c ctx.sender value zekoRecipient nonce total liability)
  | tokenDeposit {token : Address} {amount : BitVec 256} {zekoRecipient : Bytes32}
      {nonce : BitVec 64} {total liability : BitVec 256} {tokens : W.State}
      (deposited : TokenDeposited env c ctx.sender token amount zekoRecipient nonce total liability
        tokens) :
      Effect c ctx (.submitDeposit token amount zekoRecipient)
        (afterTokenDeposit env c ctx.sender token amount zekoRecipient nonce total liability tokens)
  | nativeClaim {claim : ClaimArguments} {accepts : Bool} {globalActionIndex nextIndex : BitVec 32}
      {liability total : BitVec 256}
      (claimed : NativeClaimed env c ctx claim accepts globalActionIndex nextIndex liability total) :
      Effect c ctx (.claimNativeWithdrawal claim accepts)
        (afterNativeClaim c claim globalActionIndex nextIndex liability total)
  | tokenClaim {token : Address} {claim : ClaimArguments} {globalActionIndex nextIndex : BitVec 32}
      {liability total : BitVec 256} {tokens : W.State}
      (claimed : TokenClaimed env c ctx token claim globalActionIndex nextIndex liability total
        tokens) :
      Effect c ctx (.claimERC20Withdrawal token claim)
        (afterTokenClaim c token claim globalActionIndex nextIndex liability total tokens)
  | etherRescue {receiver : Address} {amount : BitVec 256} {accepts : Bool}
      (rescued : EtherRescued env c receiver amount) :
      Effect c ctx (.emergencyWithdrawToken 0 receiver amount accepts)
        { c with
          etherBalance := c.etherBalance - amount.toNat
          log := c.log ++ [.bridge (.emergencyTokenWithdraw 0 receiver amount)] }
  | tokenRescue {token receiver : Address} {amount : BitVec 256} {accepts : Bool}
      {tokens : W.State} (rescued : TokenRescued env c token receiver amount tokens) :
      Effect c ctx (.emergencyWithdrawToken token receiver amount accepts)
        { c with
          tokens := tokens
          log := c.log ++ [.bridge (.emergencyTokenWithdraw token receiver amount)] }
  | propose {record : AssetRecord} {next : Chain W} (proposed : AssetProposed env c record next) :
      Effect c ctx (.proposeAsset record) next
  | cancel {token : Address} {next : Chain W} (cancelled : AssetCancelled c token next) :
      Effect c ctx (.cancelLastPendingAsset token) next
  | activate {call : Call} {token : Address} {recordCommitment : Bytes32} {next : Chain W}
      (kind : call.isActivation = true)
      (activated : AssetActivated env c call token recordCommitment next) : Effect c ctx call next
  | status {token : Address} {newStatus : AssetStatus} {next : Chain W}
      (changed : StatusChanged c token newStatus next) :
      Effect c ctx (.setAssetStatus token newStatus) next
  | tokenTransfer {token receiver : Address} {amount : BitVec 256} {tokens : W.State}
      (outside : ctx.sender ≠ env.bridgeAddress)
      (transferred : W.transfer c.tokens token ctx.sender receiver amount = some tokens) :
      Effect c ctx (.transferToken token receiver amount) { c with tokens := tokens }
  | etherForced {amount : ℕ} :
      Effect c ctx (.forceEther amount) { c with etherBalance := c.etherBalance + amount }

/-- Calls that change only roles and names of the settlement contract are
administration. -/
theorem settlementStep_administered {c next : Chain W} {result : SettlementCall}
    (h : settlementStep c result = .ok next)
    (hresult : ∀ settled, result = .ok settled →
      (∃ vkHash bridgeContract hasRole, settled.1 = { c.settlement with
        vkHash := vkHash, bridgeContract := bridgeContract, hasRole := hasRole }) ∧
      settled.2.filterMap SettlementEvent.contribution = []) : Administered c next := by
  simp only [settlementStep, bind_eq_ok, callSettlement_eq_ok, pure_eq_ok] at h
  obtain ⟨settled, hsettled, rfl⟩ := h
  obtain ⟨hstorage, hevents⟩ := hresult settled hsettled
  refine ⟨hstorage, ⟨_, _, _, rfl⟩, rfl, rfl, rfl, _, rfl, ?_⟩
  intro event hevent
  obtain ⟨source, hsource, rfl⟩ := List.mem_map.mp hevent
  exact ⟨List.filterMap_eq_nil_iff.mp hevents source hsource, rfl⟩

/-- Calls that change only roles, the pause flag or the delay of the bridge are
administration. -/
theorem administered_bridge {c : Chain W} {hasRole : Bytes32 → Address → Bool} {paused : Bool}
    {withdrawalDelaySlots : BitVec 32} {log : List ChainEvent} (events : List ChainEvent)
    (hlog : log = c.log ++ events) (hquiet : ∀ event ∈ events, QuietEvent event) :
    Administered c { c with
      bridge := { c.bridge with
        hasRole := hasRole, paused := paused, withdrawalDelaySlots := withdrawalDelaySlots }
      log := log } :=
  ⟨⟨_, _, _, rfl⟩, ⟨_, _, _, rfl⟩, rfl, rfl, rfl, events, hlog, hquiet⟩

/-- Administration of the settlement contract. -/
theorem execute_settlement_administered {c next : Chain W} {ctx : CallContext} {call : Call}
    (hcall : (∃ role account, call = .settlementGrantRole role account) ∨
      (∃ role account, call = .settlementRevokeRole role account) ∨
      (∃ role confirmation, call = .settlementRenounceRole role confirmation) ∨
      (∃ newVkHash, call = .setVkHash newVkHash) ∨
      (∃ newBridge, call = .setBridgeContract newBridge))
    (h : execute env c ctx call = .ok next) : Administered c next := by
  rcases hcall with ⟨role, account, rfl⟩ | ⟨role, account, rfl⟩ | ⟨role, confirmation, rfl⟩ |
    ⟨newVkHash, rfl⟩ | ⟨newBridge, rfl⟩
  all_goals
    apply settlementStep_administered h
    intro settled hsettled
    simp only [grantRole_eq_ok, revokeRole_eq_ok, renounceRole_eq_ok, setVkHash, setBridgeContract,
      onlyRole_eq_ok, bind_eq_ok, require_eq_ok, exists_const, pure_eq_ok,
      AccessControl.internalRevokeRole_eq, AccessControl.internalGrantRole_eq] at hsettled
  · obtain ⟨-, rfl⟩ := hsettled
    exact ⟨⟨_, _, _, rfl⟩, rfl⟩
  · obtain ⟨-, rfl⟩ := hsettled
    exact ⟨⟨_, _, _, rfl⟩, rfl⟩
  · obtain ⟨-, rfl⟩ := hsettled
    exact ⟨⟨_, _, _, rfl⟩, rfl⟩
  · obtain ⟨-, rfl⟩ := hsettled
    exact ⟨⟨_, _, _, rfl⟩, rfl⟩
  · obtain ⟨-, -, rfl⟩ := hsettled
    exact ⟨⟨_, _, _, rfl⟩, rfl⟩

/-- Administration of the bridge. -/
theorem execute_bridge_administered {c next : Chain W} {ctx : CallContext} {call : Call}
    (hcall : (∃ role account, call = .bridgeGrantRole role account) ∨
      (∃ role account, call = .bridgeRevokeRole role account) ∨
      (∃ role confirmation, call = .bridgeRenounceRole role confirmation) ∨
      call = .pause ∨ call = .unpause ∨ (∃ newDelay, call = .setWithdrawalDelaySlots newDelay))
    (h : execute env c ctx call = .ok next) : Administered c next := by
  have hsingle : ∀ event : BridgeEvent, QuietEvent (.bridge event) →
      ∀ other ∈ [ChainEvent.bridge event], QuietEvent other := by
    intro event hquiet other hother
    rw [List.mem_singleton.mp hother]
    exact hquiet
  have hnone : ∀ event ∈ ([] : List ChainEvent), QuietEvent event := by
    intro event hevent
    exact absurd hevent List.not_mem_nil
  rcases hcall with ⟨role, account, rfl⟩ | ⟨role, account, rfl⟩ | ⟨role, confirmation, rfl⟩ | rfl |
    rfl | ⟨newDelay, rfl⟩
  all_goals
    simp only [execute, grantBridgeRole_eq_ok, revokeBridgeRole_eq_ok, renounceBridgeRole_eq_ok,
      pause_eq_ok, unpause_eq_ok, EthereumZekoBridge.setWithdrawalDelaySlots, onlyBridgeRole_eq_ok,
      bind_eq_ok, exists_const, pure_eq_ok] at h
  · obtain ⟨-, rfl⟩ := h
    exact administered_bridge [] (List.append_nil _).symm hnone
  · obtain ⟨-, rfl⟩ := h
    exact administered_bridge [] (List.append_nil _).symm hnone
  · obtain ⟨-, rfl⟩ := h
    exact administered_bridge [] (List.append_nil _).symm hnone
  · obtain ⟨-, -, rfl⟩ := h
    exact administered_bridge _ rfl (hsingle _ ⟨rfl, rfl⟩)
  · obtain ⟨-, -, rfl⟩ := h
    exact administered_bridge _ rfl (hsingle _ ⟨rfl, rfl⟩)
  · obtain ⟨-, rfl⟩ := h
    exact administered_bridge _ rfl (hsingle _ ⟨rfl, rfl⟩)

/-- Every accepted transaction has one of the listed effects. -/
theorem step_effect {c next : Chain W} {tx : Transaction} (h : step env c tx = .ok next) :
    Effect env c tx.ctx tx.call next := by
  rw [step, require_bind_eq_ok] at h
  obtain ⟨⟨houtside, -⟩, h⟩ := h
  obtain ⟨ctx, call⟩ := tx
  cases call with
  | settlementGrantRole role account =>
    exact .administer rfl (execute_settlement_administered env (.inl ⟨_, _, rfl⟩) h)
  | settlementRevokeRole role account =>
    exact .administer rfl (execute_settlement_administered env (.inr (.inl ⟨_, _, rfl⟩)) h)
  | settlementRenounceRole role confirmation =>
    exact .administer rfl (execute_settlement_administered env (.inr (.inr (.inl ⟨_, _, rfl⟩))) h)
  | setVkHash newVkHash =>
    exact .administer rfl
      (execute_settlement_administered env (.inr (.inr (.inr (.inl ⟨_, rfl⟩)))) h)
  | setBridgeContract newBridge =>
    exact .administer rfl
      (execute_settlement_administered env (.inr (.inr (.inr (.inr ⟨_, rfl⟩)))) h)
  | appendOuterWitnessBatch stateBefore stateAfter count =>
    simp only [execute, settlementStep, bind_eq_ok, callSettlement_eq_ok, pure_eq_ok] at h
    obtain ⟨settled, hsettled, rfl⟩ := h
    obtain ⟨happended, hreported⟩ := appendOuterWitnessBatch_eq_ok env hsettled
    exact .append happended hreported
  | verifyAndUpdateRoot publicValues proofBytes =>
    simp only [execute, settlementStep, bind_eq_ok, callSettlement_eq_ok, pure_eq_ok] at h
    obtain ⟨settled, hsettled, rfl⟩ := h
    obtain ⟨decoded, hproved, hdecode, hreceipt, hreported⟩ := verifyAndUpdateRoot_eq_ok env hsettled
    exact .settle hproved hdecode hreceipt hreported
  | bridgeGrantRole role account =>
    exact .administer rfl (execute_bridge_administered env (.inl ⟨_, _, rfl⟩) h)
  | bridgeRevokeRole role account =>
    exact .administer rfl (execute_bridge_administered env (.inr (.inl ⟨_, _, rfl⟩)) h)
  | bridgeRenounceRole role confirmation =>
    exact .administer rfl (execute_bridge_administered env (.inr (.inr (.inl ⟨_, _, rfl⟩))) h)
  | pause =>
    exact .administer rfl (execute_bridge_administered env (.inr (.inr (.inr (.inl rfl)))) h)
  | unpause =>
    exact .administer rfl (execute_bridge_administered env (.inr (.inr (.inr (.inr (.inl rfl))))) h)
  | setWithdrawalDelaySlots newDelay =>
    exact .administer rfl
      (execute_bridge_administered env (.inr (.inr (.inr (.inr (.inr ⟨_, rfl⟩))))) h)
  | emergencyWithdrawToken token receiver amount accepts =>
    rcases emergencyWithdrawToken_eq_ok env h with ⟨rfl, hrescued, rfl⟩ | ⟨tokens, hrescued, rfl⟩
    · exact .etherRescue hrescued
    · exact .tokenRescue hrescued
  | submitDeposit token amount zekoRecipient =>
    obtain ⟨nonce, total, liability, tokens, hdeposited, rfl⟩ := submitDeposit_eq_ok env h
    exact .tokenDeposit hdeposited
  | depositETH value zekoRecipient =>
    obtain ⟨nonce, total, liability, hdeposited, rfl⟩ := depositETH_eq_ok env h
    exact .nativeDeposit hdeposited
  | submitBridgeTransition publicValues proofBytes =>
    simp only [execute, submitBridgeTransition, onlyBridgeRole_eq_ok, whenNotPaused_eq_ok,
      bind_eq_ok, require_eq_ok, exists_const] at h
    obtain ⟨-, -, hproved, happly⟩ := h
    obtain ⟨decoded, htransitioned⟩ := applyBridgeTransition_eq_ok env happly
    exact .transition hproved htransitioned
  | claimNativeWithdrawal claim accepts =>
    obtain ⟨index, nextIndex, liability, total, hclaimed, rfl⟩ :=
      (claimNativeWithdrawal_eq_ok env).mp h
    exact .nativeClaim hclaimed
  | claimERC20Withdrawal token claim =>
    obtain ⟨index, nextIndex, liability, total, tokens, hclaimed, rfl⟩ :=
      (claimERC20Withdrawal_eq_ok env).mp h
    exact .tokenClaim hclaimed
  | proposeAsset record => exact .propose (proposeAsset_eq_ok env h)
  | cancelLastPendingAsset token => exact .cancel (cancelLastPendingAsset_eq_ok env h)
  | activateAsset token root count =>
    obtain ⟨commitment, hactivated⟩ := activateAsset_eq_ok env h
    exact .activate rfl hactivated
  | activateAssetFromBatch token sequence commitment siblings =>
    exact .activate rfl (activateAssetFromBatch_eq_ok env h)
  | setAssetStatus token newStatus => exact .status (setAssetStatus_eq_ok env h)
  | transferToken token receiver amount =>
    simp only [execute, bind_eq_ok, callToken_eq_ok, pure_eq_ok] at h
    obtain ⟨tokens, htransferred, rfl⟩ := h
    exact .tokenTransfer houtside htransferred
  | forceEther amount =>
    simp only [execute, pure_eq_ok] at h
    rw [← h]
    exact .etherForced

variable {env}

/-- A property of histories and states that holds of a deployment, and that the
effect of every accepted transaction carries on, holds of everything that the
deployment reaches. The accepted transactions may be assumed to satisfy a side
condition of their own. -/
theorem reached_induction (d : Deployment env W) {J : List (Chain W × Transaction) → Chain W → Prop}
    {Q : Chain W × Transaction → Prop} (hstart : J [] d.start)
    (hstep : ∀ history c tx next, J history c → Q (c, tx) → Effect env c tx.ctx tx.call next →
      J (history ++ [(c, tx)]) next)
    {transactions : List Transaction} (hQ : ∀ entry ∈ d.history transactions, Q entry) :
    J (d.history transactions) (d.reached transactions) :=
  history_invariant (fun history c tx next hc hq h => hstep history c tx next hc hq (step_effect env h))
    transactions [] hstart hQ

/-- A property of states that the effect of every accepted transaction keeps
holds in every reachable state. -/
theorem reached_invariant (d : Deployment env W) {I : Chain W → Prop} (hstart : I d.start)
    (hstep : ∀ c (tx : Transaction) next, I c → Effect env c tx.ctx tx.call next → I next)
    (transactions : List Transaction) : I (d.reached transactions) :=
  run_invariant (fun c tx next hc h => hstep c tx next hc (step_effect env h)) hstart transactions

/-- Accepted transactions were accepted in reachable states. -/
theorem history_reached (d : Deployment env W) {transactions : List Transaction}
    {entry : Chain W × Transaction} (h : entry ∈ d.history transactions) :
    ∃ before, entry.1 = d.reached before := by
  obtain ⟨before, _, _, hreached, _⟩ := accepted_split h
  exact ⟨before, hreached⟩

/-- A transaction was accepted in a state reached by an earlier part of the run. -/
theorem history_split (d : Deployment env W) {transactions : List Transaction}
    {entry : Chain W × Transaction} (h : entry ∈ d.history transactions) :
    ∃ before, entry.1 = d.reached before ∧ d.history before ⊆ d.history transactions := by
  obtain ⟨before, after, hsplit, hreached, _⟩ := accepted_split h
  refine ⟨before, hreached, ?_⟩
  intro earlier hearlier
  rw [Deployment.history, hsplit, accepted_append]
  exact List.mem_append_left _ hearlier

end EthereumSettlement.StepEffects
