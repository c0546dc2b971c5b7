import EthereumSettlement.DepositLiveness

/-!
# The preflight and the contract

Before the gateway sends a bridge receipt it compares it with the contract's state.
The preflight repeats the comparisons of `submitBridgeTransition`, but none of those
that the settlement contract makes for each appended state. In a state where only the
bridge has appended witnesses these pass of themselves: the outer chain does not come
back to a recorded state, and its counters stay below their limits. An account that
appends by itself can record a state ahead of its time, and the preflight then accepts
a receipt that the contract refuses.
-/

namespace EthereumSettlement.PreflightAgreement

open ByteWords CheckedCalls HashCommitments TransitionRuns PastaPoseidon InnerActionCommitment
open SettlementCodec SettlementReceipt BridgeCodec BridgeGuest ZekoSettlement EthereumZekoBridge BridgeSystem
open StepEffects RunInvariants SettledReceipts ClaimSoundness DepositChain BridgedDeposits
open RecordCommitments OuterActionChain DepositLiveness ReferenceDeployment OpenZeppelin

variable {env : Environment} {W : TokenWorld}

/-- No more action states are recorded than the outer chain is long. -/
def Counted (s : SettlementStorage) : Prop :=
  s.currentL2ActionStateIndex.toNat ≤ s.outerActionStateLength.toNat

/-- Recording an action state takes at most one index. -/
theorem recordL2ActionState_index {s next : SettlementStorage} {target : Bytes32}
    (h : recordL2ActionState s target = .ok next) :
    next.currentL2ActionStateIndex.toNat ≤ s.currentL2ActionStateIndex.toNat + 1 := by
  unfold recordL2ActionState at h
  by_cases hknown : (s.l2ActionStateInfo target).valid = true
  · rw [if_pos hknown, pure_eq_ok] at h
    rw [← h]
    exact Nat.le_succ _
  · rw [if_neg hknown] at h
    simp only [bind_eq_ok, pure_eq_ok] at h
    obtain ⟨index, hindex, hnext⟩ := h
    have hone : (1 : BitVec 64).toNat = 1 := rfl
    have hsum := checkedAdd_eq_ok.mp hindex
    rw [hone] at hsum
    rw [← hnext]
    exact le_of_eq hsum

/-- An append keeps the count. -/
theorem appendOuterWitnessBatch_counted {s : SettlementStorage} {sender : Address}
    {stateBefore stateAfter : Bytes32} {count : BitVec 32}
    {result : SettlementStorage × List SettlementEvent} (hs : Counted s)
    (h : appendOuterWitnessBatch env s sender stateBefore stateAfter count = .ok result) :
    Counted result.1 := by
  have hlength := (appendOuterWitnessBatch_eq_ok env h).1.length_eq
  simp only [appendOuterWitnessBatch, bind_eq_ok, require_eq_ok, exists_const, pure_eq_ok] at h
  obtain ⟨-, -, -, hcount, lengthAfter, -, -, recorded, hrecorded, hresult⟩ := h
  have hindex := recordL2ActionState_index hrecorded
  have hpositive : count.toNat ≠ 0 := fun hzero => hcount (BitVec.eq_of_toNat_eq hzero)
  rw [← hresult] at hlength ⊢
  unfold Counted at hs ⊢
  dsimp only at hindex hlength ⊢
  omega

/-- So do the appends of a bridge transition. -/
theorem appendActions_counted {publicValues : Bytes} {remaining i : ℕ} {stateBefore : Bytes32}
    {s : SettlementStorage} {result : Bytes32 × SettlementStorage × List SettlementEvent}
    (hs : Counted s)
    (h : appendActions env publicValues remaining i stateBefore s = .ok result) :
    Counted result.2.1 := by
  induction remaining generalizing i stateBefore s result with
  | zero =>
    rw [appendActions, pure_eq_ok] at h
    rw [← h]
    exact hs
  | succ remaining ih =>
    simp only [appendActions, bind_eq_ok, callSettlement_eq_ok, pure_eq_ok] at h
    obtain ⟨appended, happended, rest, hrest, hresult⟩ := h
    have hlater : Counted rest.2.1 := ih (appendOuterWitnessBatch_counted hs happended) hrest
    rw [← hresult]
    exact hlater

/-- A settlement keeps the count. -/
theorem verifyAndUpdateRoot_counted {s : SettlementStorage} {ctx : CallContext}
    {publicValues proofBytes : Bytes} {result : SettlementStorage × List SettlementEvent}
    (hs : Counted s) (h : verifyAndUpdateRoot env s ctx publicValues proofBytes = .ok result) :
    Counted result.1 := by
  obtain ⟨receipt, -, -, hreceipt, -⟩ := verifyAndUpdateRoot_eq_ok env h
  have hlength := hreceipt.lengthAfter
  rw [← hreceipt.outerActionStateLength_eq] at hlength
  simp only [verifyAndUpdateRoot, bind_eq_ok, require_eq_ok, exists_const, pure_eq_ok] at h
  obtain ⟨-, -, -, decoded, -, -, -, recorded, hrecorded, batched, hbatched, registered, hregistered,
    settled, hsettled, innerLength, -, hresult⟩ := h
  simp only [recordReceipt, bind_eq_ok] at hrecorded
  obtain ⟨indexed, hindexed, haccepted⟩ := hrecorded
  obtain ⟨table, hrecordedEq⟩ := recordAcceptedInnerState_eq_ok haccepted
  obtain ⟨hbatchedEq, -⟩ := recordInnerActionBatch_eq_ok hbatched
  obtain ⟨⟨_, hregisteredEq⟩, -⟩ := recordAssetRecord_eq_ok hregistered
  obtain ⟨⟨_, hsettledEq⟩, -⟩ := recordAssetRecordBatch_eq_ok hsettled
  have hsame : result.1.currentL2ActionStateIndex = indexed.currentL2ActionStateIndex := by
    rw [← hresult]
    dsimp only
    rw [hsettledEq, hregisteredEq, hbatchedEq, hrecordedEq]
  have hindex := recordL2ActionState_index hindexed
  rw [← hsame] at hindex
  unfold Counted at hs ⊢
  dsimp only at hindex
  omega

/-- Every accepted transaction keeps the count. -/
theorem step_counted {c next : Chain W} {tx : Transaction} (hc : Counted c.settlement)
    (h : step env c tx = .ok next) : Counted next.settlement := by
  have heffect := step_effect env h
  rw [step, require_bind_eq_ok] at h
  obtain ⟨-, h⟩ := h
  obtain ⟨ctx, call⟩ := tx
  dsimp only at h heffect
  cases heffect with
  | administer kind administered =>
    obtain ⟨_, _, _, hsettlement⟩ := administered.settlement_eq
    rw [hsettlement]
    exact hc
  | settle =>
    simp only [execute, settlementStep, bind_eq_ok, callSettlement_eq_ok, pure_eq_ok] at h
    obtain ⟨settled, hsettled, hnext⟩ := h
    rw [← hnext]
    exact verifyAndUpdateRoot_counted hc hsettled
  | append =>
    simp only [execute, settlementStep, bind_eq_ok, callSettlement_eq_ok, pure_eq_ok] at h
    obtain ⟨appended, happended, hnext⟩ := h
    rw [← hnext]
    exact appendOuterWitnessBatch_counted hc happended
  | transition proved transitioned =>
    simp only [execute, submitBridgeTransition, applyBridgeTransition, bind_eq_ok, require_eq_ok,
      exists_const, pure_eq_ok] at h
    obtain ⟨-, -, -, -, -, decoded, -, -, -, -, -, -, -, -, -, -, -, -, -, -, -, appended, happended, -,
      hnext⟩ := h
    rw [← hnext]
    exact appendActions_counted hc happended
  | propose proposed =>
    rw [proposed.settlement_eq]
    exact hc
  | cancel cancelled =>
    rw [cancelled.settlement_eq]
    exact hc
  | activate kind activated =>
    rw [activated.settlement_eq]
    exact hc
  | status changed =>
    rw [changed.settlement_eq]
    exact hc
  | nativeDeposit | tokenDeposit | nativeClaim | tokenClaim | etherRescue | tokenRescue
  | tokenTransfer | etherForced => exact hc

/-- In every reachable state the recorded action states are counted. -/
theorem reached_counted (d : Deployment env W) (transactions : List Transaction) :
    Counted (d.reached transactions).settlement := by
  have hstart : Counted d.start.settlement := by
    have h := d.deployed
    simp only [deploy, callSettlement_eq_ok, initializeSettlement, bind_eq_ok, require_eq_ok,
      exists_const, pure_eq_ok] at h
    obtain ⟨settled, ⟨-, -, recorded, hrecorded, hsettled⟩, bridged, -, hstarted⟩ := h
    obtain ⟨table, hrecordedEq⟩ := recordAcceptedInnerState_eq_ok hrecorded
    rw [← hstarted, ← hsettled, hrecordedEq]
    exact Nat.zero_le _
  exact run_invariant (I := fun c : Chain W => Counted c.settlement)
    (fun c tx next hc h => step_counted hc h) hstart transactions

/-- Everything that the preflight compares. -/
structure PreflightPassed (env : Environment) (c : Chain W) (localVKey : Bytes32)
    (input : BridgeTransitionInput) (v : BridgeTransitionPublicValuesV2) : Prop where
  /-- The chain is the deployment's. -/
  chainId : toWord input.ethereum.chainId = env.chainId
  /-- The bridge is the deployment's. -/
  bridgeAddress : input.ethereum.bridgeAddress = env.bridgeAddress
  /-- The bridge is not paused. -/
  unpaused : c.bridge.paused = false
  /-- The range starts at the last bridged deposit. -/
  nonceBefore : v.ethereumNonceBefore = c.bridge.bridgedDepositNonce
  /-- Its last action state is new. -/
  unprocessed : c.bridge.processedActionState v.zekoActionStateAfter = false
  /-- The program key is the stored one. -/
  key : localVKey = c.bridge.bridgeProgramVKey
  /-- It starts at the stored accumulator. -/
  stateBefore : v.ethereumStateBefore = c.bridge.depositStateByNonce v.ethereumNonceBefore
  /-- It ends at the last deposit. -/
  nonceAfter : v.ethereumNonceAfter = c.bridge.depositNonce
  /-- It ends at the current accumulator. -/
  stateAfter : v.ethereumStateAfter = c.bridge.currentDepositState
  /-- It starts at the current outer action state. -/
  actionStateBefore : v.zekoActionStateBefore = c.settlement.actionState
  /-- It starts at the current outer length. -/
  lengthBefore : v.zekoActionStateLengthBefore = c.settlement.outerActionStateLength
  /-- The receipt's own length transition. -/
  width : v.actions.length < 2 ^ 32
  /-- Its lengths differ by its actions. -/
  lengthAfter : v.zekoActionStateLengthAfter.toNat =
    v.zekoActionStateLengthBefore.toNat + v.actions.length
  /-- The receipt ends at its last action. -/
  last : v.actions.getLast?.map (·.stateAfter) = some v.zekoActionStateAfter

/-- The preflight accepts exactly when all comparisons agree. -/
theorem validateBridgePreflight_iff {c : Chain W} {localVKey : Bytes32}
    {input : BridgeTransitionInput} {v : BridgeTransitionPublicValuesV2} :
    validateBridgePreflight env c localVKey input v = .ok () ↔
      PreflightPassed env c localVKey input v := by
  simp only [validateBridgePreflight, bind_eq_ok, require_eq_ok, FixedBytesText.ensureHexEq_eq_ok,
    exists_const]
  constructor
  · intro h
    obtain ⟨hchain, hbridge, hunpaused, hnonce, hfresh, hkey, hbefore, hafter, hstate, haction, hlength,
      hwidth, total, htotal, hsum, hlast⟩ := h
    have hvalue := checkedAdd_eq_ok.mp htotal
    rw [BitVec.toNat_ofNat, Nat.mod_eq_of_lt hwidth, ← hsum] at hvalue
    exact ⟨hchain, hbridge, hunpaused, hnonce, hfresh, hkey, hbefore, hafter, hstate, haction, hlength,
      hwidth, hvalue, hlast⟩
  · intro h
    have hsum : checkedAdd "bridge action-state length overflow" v.zekoActionStateLengthBefore
        (BitVec.ofNat 32 v.actions.length) = .ok v.zekoActionStateLengthAfter := by
      rw [checkedAdd_eq_ok, BitVec.toNat_ofNat, Nat.mod_eq_of_lt h.width]
      exact h.lengthAfter
    exact ⟨h.chainId, h.bridgeAddress, h.unpaused, h.nonceBefore, h.unprocessed, h.key, h.stateBefore,
      h.nonceAfter, h.stateAfter, h.actionStateBefore, h.lengthBefore, h.width, _, hsum, rfl, h.last⟩

/-- The states of a derived receipt, as a stretch of the outer chain. -/
theorem derived_states {H : Hashes} {input : BridgeTransitionInput}
    {v : BridgeTransitionPublicValuesV2} (h : deriveBridgeTransition H input = .ok v) :
    ∃ state, v.zekoActionStateBefore = fieldToBytes state ∧
      v.actions.map (·.stateAfter) = (actionChainStates H input.ethereum.bridgeAddress state
        (depositRecords input.ethereum.depositNonce input.deposits)).map fieldToBytes ∧
      v.zekoActionStateAfter =
        lastState v.zekoActionStateBefore (v.actions.map (·.stateAfter)) ∧
      v.actions.map (·.stateAfter) ≠ [] := by
  have hemitted := deriveBridgeTransition_eq_ok H h
  obtain ⟨state, hstate, hbefore, hafter, hstates⟩ := hemitted.actionStates
  have hfirst : v.zekoActionStateBefore = fieldToBytes state := hbefore.trans hstate.symm
  refine ⟨state, hfirst, hstates, ?_, ?_⟩
  · rw [hfirst, hstates, lastState_actionChainStates, hafter, depositLinks, List.foldl_map]
    rfl
  · intro hnil
    have hzero := congrArg List.length hnil
    rw [List.length_map, hemitted.actions_length, List.length_nil] at hzero
    exact hemitted.nonempty (List.length_eq_zero_iff.mp hzero)

/-- What the preflight compares of a derived receipt with itself always agrees. -/
theorem derived_consistent {H : Hashes} {input : BridgeTransitionInput}
    {v : BridgeTransitionPublicValuesV2} (h : deriveBridgeTransition H input = .ok v) :
    v.actions.length < 2 ^ 32 ∧
      v.zekoActionStateLengthAfter.toNat =
        v.zekoActionStateLengthBefore.toNat + v.actions.length ∧
      v.actions.getLast?.map (·.stateAfter) = some v.zekoActionStateAfter := by
  have hemitted := deriveBridgeTransition_eq_ok H h
  obtain ⟨state, -, -, hafter, hnonempty⟩ := derived_states h
  have hlength := hemitted.lengthAfter
  rw [← hemitted.actions_length, ← hemitted.lengthBefore] at hlength
  have hbound := v.zekoActionStateLengthAfter.isLt
  refine ⟨by omega, hlength, ?_⟩
  rw [← List.getLast?_map, hafter]
  exact getLast?_eq_lastState hnonempty

/-- The state with the bridge's role on the settlement contract in order. -/
def withBridgeRole (env : Environment) (c : Chain W) : Chain W :=
  { c with settlement := { c.settlement with
      hasRole := setRole c.settlement.hasRole (bridgeRole env) env.bridgeAddress true } }

/-- The accepted receipt passes the contract's comparisons. -/
theorem PreflightPassed.checked {c : Chain W} {localVKey : Bytes32} {input : BridgeTransitionInput}
    {v : BridgeTransitionPublicValuesV2} (h : PreflightPassed env c localVKey input v)
    (hderived : deriveBridgeTransition env.hashes input = .ok v)
    (hnonces : c.bridge.bridgedDepositNonce.toNat ≤ c.bridge.depositNonce.toNat) :
    v.decoded.depositCount.toNat = v.actions.length ∧ TransitionChecked c v.decoded := by
  have hemitted := deriveBridgeTransition_eq_ok env.hashes hderived
  have hactions := hemitted.actions_length
  have hwidth := h.width
  have hcount : v.decoded.depositCount.toNat = v.actions.length := by
    change (BitVec.ofNat 32 v.actions.length).toNat = _
    rw [BitVec.toNat_ofNat, Nat.mod_eq_of_lt hwidth]
  have hpositive : 0 < input.deposits.length := List.length_pos_iff.mpr hemitted.nonempty
  -- The guest's nonce may wrap, but then it ends below the nonce it started from.
  have hsum : v.ethereumNonceAfter.toNat = v.ethereumNonceBefore.toNat + v.actions.length := by
    have hafter := congrArg BitVec.toNat hemitted.ethereumNonceAfter
    have hbefore := congrArg BitVec.toNat hemitted.ethereumNonceBefore
    rw [BitVec.toNat_add, BitVec.toNat_ofNat, ← hbefore] at hafter
    rw [← h.nonceBefore, ← h.nonceAfter] at hnonces
    omega
  refine ⟨hcount, ?_, h.nonceBefore, h.actionStateBefore, h.lengthBefore, ?_, h.stateBefore.symm,
    h.nonceAfter, h.stateAfter, ?_, h.unprocessed⟩
  · intro hzero
    have hnone := congrArg BitVec.toNat hzero
    rw [hcount] at hnone
    have hnat : (0 : BitVec 32).toNat = 0 := rfl
    omega
  · rw [hcount]
    exact h.lengthAfter
  · rw [hcount]
    exact hsum

/-- On the outer chain the accepted receipt passes every check behind role, pause and
proof, when the bridge has its role on the settlement contract. -/
theorem PreflightPassed.applied {start : StepField} {links : List StepField} {c : Chain W}
    {localVKey : Bytes32} {input : BridgeTransitionInput} {v : BridgeTransitionPublicValuesV2}
    {encoded : Bytes} (h : PreflightPassed env c localVKey input v)
    (hderived : deriveBridgeTransition env.hashes input = .ok v) (hencode : v.encode = .ok encoded)
    (honChain : OnChain env.hashes start links c)
    (hcf : CollisionFreeFrom
      (fun p : StepField × StepField => merkleActionsAdd env.hashes p.1 p.2) start
      (chainPairs (merkleActionsAdd env.hashes) start
        (links ++ depositLinks env.hashes input.ethereum.bridgeAddress
          (depositRecords input.ethereum.depositNonce input.deposits))))
    (hcounted : Counted c.settlement)
    (hnonces : c.bridge.bridgedDepositNonce.toNat ≤ c.bridge.depositNonce.toNat)
    (hrole : c.settlement.hasRole (bridgeRole env) env.bridgeAddress = true) :
    ∃ next, applyBridgeTransition env c encoded = .ok next := by
  obtain ⟨hcount, hchecked⟩ := h.checked hderived hnonces
  obtain ⟨state, hbefore, hstates, hafter, hnonempty⟩ := derived_states hderived
  have hcurrent := honChain.current
  rw [chainState_length] at hcurrent
  have hfold : state = links.foldl (merkleActionsAdd env.hashes) start :=
    fieldToBytes_injective (hbefore.symm.trans (h.actionStateBefore.trans hcurrent))
  obtain ⟨hdistinct, hfresh⟩ := honChain.fresh hcf
  rw [← hfold, ← hstates] at hdistinct hfresh
  have hread : appendedStates encoded v.decoded.depositCount = v.actions.map (·.stateAfter) :=
    appendedStates_encode hencode
  rw [← hread] at hdistinct hfresh
  have hlength := h.lengthAfter
  rw [h.lengthBefore] at hlength
  have hbound := v.zekoActionStateLengthAfter.isLt
  unfold Counted at hcounted
  have hloop : ∃ result, appendActions env encoded v.decoded.depositCount.toNat 0
      c.settlement.actionState c.settlement = .ok result :=
    appendActions_of_fresh hrole (by omega) (by omega) hdistinct
      (fun state hstate => (hfresh state hstate).1)
  obtain ⟨result, happended⟩ := hloop
  have hlast := (appendActions_eq_ok env rfl happended).2.1
  refine applyBridgeTransition_of_checked (decodeBridgePublicValues_encode hencode) hchecked happended
    (hlast.trans ?_)
  rw [← h.actionStateBefore]
  exact (congrArg (lastState _) hread).trans hafter.symm

/-- A receipt that the contract accepts passes the preflight, if its proof is one for
the gateway's program. -/
theorem passed_of_submitted {c next : Chain W} {localVKey : Bytes32} {input : BridgeTransitionInput}
    {v : BridgeTransitionPublicValuesV2} {encoded proofBytes : Bytes} {ctx : CallContext}
    (hderived : deriveBridgeTransition env.hashes input = .ok v) (hencode : v.encode = .ok encoded)
    (hfolded : DepositsFolded env c)
    (hcf : CollisionFree env.hashes.keccak256
      (depositStrings env c.log ++ inputStrings env.hashes input))
    (hkey : ∀ key, env.verifyProof c.bridge.bridgeVerifier key encoded proofBytes = true →
      key = localVKey)
    (h : submitBridgeTransition env c ctx encoded proofBytes = .ok next) :
    PreflightPassed env c localVKey input v := by
  simp only [submitBridgeTransition, onlyBridgeRole_eq_ok, whenNotPaused_eq_ok, bind_eq_ok,
    require_eq_ok, exists_const] at h
  obtain ⟨-, hunpaused, hproof, happlied⟩ := h
  obtain ⟨decoded, htransitioned⟩ := applyBridgeTransition_eq_ok env happlied
  have hdecoded : decoded = v.decoded :=
    Except.ok.inj (htransitioned.decode.symm.trans (decodeBridgePublicValues_encode hencode))
  obtain ⟨-, hchain, hbridge⟩ := derived_stretch hfolded hderived hencode htransitioned hcf
  have hchecked := htransitioned.checked
  rw [hdecoded] at hchecked
  obtain ⟨hwidth, hlength, hlast⟩ := derived_consistent hderived
  exact {
    chainId := hchain.symm
    bridgeAddress := hbridge.symm
    unpaused := hunpaused
    nonceBefore := hchecked.nonceBefore
    unprocessed := hchecked.unprocessed
    key := (hkey _ hproof).symm
    stateBefore := hchecked.stateBefore.symm
    nonceAfter := hchecked.nonceAfter
    stateAfter := hchecked.stateAfter
    actionStateBefore := hchecked.actionStateBefore
    lengthBefore := hchecked.lengthBefore
    width := hwidth
    lengthAfter := hlength
    last := hlast }

/-- The field element of a deployment's first outer action state. -/
def startField (d : Deployment env W) : StepField :=
  (d.settlement.initialOuterActionState.toNat : StepField)

/-- A canonical first state is the encoding of its element. -/
theorem fieldToBytes_startField {d : Deployment env W}
    (h : Canonical d.settlement.initialOuterActionState) :
    fieldToBytes (startField d) = d.settlement.initialOuterActionState := by
  obtain ⟨value, hvalue⟩ := h
  have hcast : startField d = value := by
    rw [startField, ← hvalue, fieldToBytes_toNat, ZMod.natCast_zmod_val]
  rw [hcast]
  exact hvalue

/-- Both guests emit receipts from canonical action states only, so a first state that is
none is never left. -/
theorem reached_unmoved (d : Deployment env W)
    (G : SettlementProver env d.settlement.verifier d.settlement.programVKey)
    (B : BridgeProver env d.bridge.bridgeVerifier d.bridge.bridgeProgramVKey)
    (transactions : List Transaction)
    (hdirect : ∀ entry ∈ d.history transactions, appendsDirectly entry.2.call = false)
    (hfirst : ¬ Canonical d.settlement.initialOuterActionState) :
    (d.reached transactions).settlement.actionState = d.settlement.initialOuterActionState := by
  have hQ : ∀ entry ∈ d.history transactions, SameVerifiers d.start entry.1 ∧
      appendsDirectly entry.2.call = false := by
    intro entry hentry
    obtain ⟨before, hbefore⟩ := history_reached d hentry
    refine ⟨?_, hdirect entry hentry⟩
    rw [hbefore]
    exact reached_sameVerifiers d before
  have hinit := d.initialized
  obtain ⟨_, _, hbridge⟩ := hinit.bridge_eq
  apply reached_induction d (J := fun _ c =>
    c.settlement.actionState = d.settlement.initialOuterActionState) hinit.actionState_eq ?_ hQ
  intro history c tx next hc hentry heffect
  obtain ⟨hverifiers, hcall⟩ := hentry
  have hstuck : ∀ state : StepField, fieldToBytes state = c.settlement.actionState → False := by
    intro state hstate
    exact hfirst ⟨state, hstate.trans hc⟩
  generalize tx.call = call at hcall heffect
  cases heffect with
  | administer kind administered =>
    obtain ⟨_, _, _, hsettlement⟩ := administered.settlement_eq
    rw [hsettlement]
    exact hc
  | @settle publicValues proofBytes decoded settlement events proved decode settled =>
    rw [hverifiers.verifier, hinit.verifier_eq, hverifiers.programVKey, hinit.programVKey_eq]
      at proved
    obtain ⟨witness, values, -, hvalues, -, hdecoded⟩ :=
      settlementGuest_decoded env.hashes (G.emits publicValues proofBytes proved) decode
    have hreceipt := (deriveReceiptValues_eq_ok env.hashes hvalues).1
    obtain ⟨body, action, before, hderived⟩ := deriveReceiptForAppState_eq_ok env.hashes hreceipt
    refine (hstuck (body.getD 36 0) ?_).elim
    rw [← hderived.outerBefore_eq, ← settled.actionStateBefore, hdecoded]
    cases values <;> rfl
  | append => cases hcall
  | @transition publicValues proofBytes decoded next proved transitioned =>
    rw [hverifiers.bridgeVerifier, hverifiers.bridgeProgramVKey, hbridge] at proved
    have hemits := B.emits publicValues proofBytes proved
    rw [bridgeGuest, bind_eq_ok] at hemits
    obtain ⟨v, hderive, hencode⟩ := hemits
    obtain ⟨state, hstate, -⟩ := derived_states hderive
    have hdecoded : decoded = v.decoded :=
      Except.ok.inj (transitioned.decode.symm.trans (decodeBridgePublicValues_encode hencode))
    refine (hstuck state ?_).elim
    rw [← hstate, ← transitioned.checked.actionStateBefore, hdecoded]
    rfl
  | propose proposed =>
    rw [proposed.settlement_eq]
    exact hc
  | cancel cancelled =>
    rw [cancelled.settlement_eq]
    exact hc
  | activate kind activated =>
    rw [activated.settlement_eq]
    exact hc
  | status changed =>
    rw [changed.settlement_eq]
    exact hc
  | nativeDeposit | tokenDeposit | nativeClaim | tokenClaim | etherRescue | tokenRescue
  | tokenTransfer | etherForced => exact hc

/-- The preflight predicts the contract, in every state of a deployment whose receipts
are guest-emitted and whose witnesses are appended by the bridge alone. Of every receipt
that the guest derives, from any input: if the preflight accepts it, then the bridge is
not paused and every check of `submitBridgeTransition` behind role and proof passes, and
of the appends with it, once the bridge has its role on the settlement contract; if the
preflight refuses it, then `submitBridgeTransition` reverts, with any proof that verifies
for the gateway's program only. The strings of the deposits on both sides and the links
of the outer chain do not collide. -/
theorem preflight_predicts (d : Deployment env W)
    (G : SettlementProver env d.settlement.verifier d.settlement.programVKey)
    (B : BridgeProver env d.bridge.bridgeVerifier d.bridge.bridgeProgramVKey)
    (transactions : List Transaction)
    (hdirect : ∀ entry ∈ d.history transactions, appendsDirectly entry.2.call = false)
    (localVKey : Bytes32) (input : BridgeTransitionInput) {v : BridgeTransitionPublicValuesV2}
    {encoded : Bytes} (hderived : deriveBridgeTransition env.hashes input = .ok v)
    (hencode : v.encode = .ok encoded)
    (hkeccak : CollisionFree env.hashes.keccak256
      (depositStrings env (d.reached transactions).log ++ inputStrings env.hashes input))
    (hposeidon : CollisionFreeFrom
      (fun p : StepField × StepField => merkleActionsAdd env.hashes p.1 p.2) (startField d)
      (chainPairs (merkleActionsAdd env.hashes) (startField d)
        (outerLinks G B (d.history transactions) ++
          depositLinks env.hashes input.ethereum.bridgeAddress
            (depositRecords input.ethereum.depositNonce input.deposits)))) :
    (validateBridgePreflight env (d.reached transactions) localVKey input v = .ok () →
      (d.reached transactions).bridge.paused = false ∧
      ∃ next, applyBridgeTransition env (withBridgeRole env (d.reached transactions)) encoded =
        .ok next) ∧
    (validateBridgePreflight env (d.reached transactions) localVKey input v ≠ .ok () →
      ∀ ctx proofBytes,
        (∀ key, env.verifyProof (d.reached transactions).bridge.bridgeVerifier key encoded
          proofBytes = true → key = localVKey) →
        ¬ ∃ next, submitBridgeTransition env (d.reached transactions) ctx encoded proofBytes =
          .ok next) := by
  have hfolded := reached_depositsFolded d transactions
  constructor
  · intro haccepted
    have hpassed := validateBridgePreflight_iff.mp haccepted
    have hgranted : PreflightPassed env (withBridgeRole env (d.reached transactions)) localVKey
        input v := validateBridgePreflight_iff.mp haccepted
    refine ⟨hpassed.unpaused, ?_⟩
    have hcanonical : Canonical d.settlement.initialOuterActionState := by
      by_contra hfirst
      obtain ⟨state, hstate, -⟩ := derived_states hderived
      have hkept := reached_unmoved d G B transactions hdirect hfirst
      exact hfirst ⟨state, hstate.symm.trans (hpassed.actionStateBefore.trans hkept)⟩
    have honChain := reached_onChain d G B (fieldToBytes_startField hcanonical) transactions hdirect
    have hrole : (withBridgeRole env (d.reached transactions)).settlement.hasRole (bridgeRole env)
        env.bridgeAddress = true := by
      simp only [withBridgeRole, setRole, Function.update_self]
    exact hgranted.applied hderived hencode
      ⟨honChain.current, honChain.checkpoints, honChain.processed⟩ hposeidon
      (reached_counted d transactions) hfolded.bridged hrole
  · intro hrefused ctx proofBytes hkey hsubmitted
    obtain ⟨next, hnext⟩ := hsubmitted
    exact hrefused (validateBridgePreflight_iff.mpr
      (passed_of_submitted hderived hencode hfolded hkeccak hkey hnext))

/-- Give the bridge its role and take two native deposits. -/
def twoDeposits : List Transaction :=
  [⟨⟨admin, 1000⟩, .settlementGrantRole (bridgeRole environment) bridgeAddress⟩,
   ⟨⟨depositor, 1000⟩, .depositETH 5000000000 3⟩,
   ⟨⟨depositor, 1000⟩, .depositETH 2000000000 4⟩]

/-- After two deposits the preflight accepts their receipt, and so do the checks of the
contract. -/
theorem preflight_predicts_twoDeposits :
    ∃ v encoded,
      deriveBridgeTransition environment.hashes
        (batchInput environment (deployment.reached twoDeposits) 2) = .ok v ∧
      v.encode = .ok encoded ∧
      validateBridgePreflight environment (deployment.reached twoDeposits) bridgeVKey
        (batchInput environment (deployment.reached twoDeposits) 2) v = .ok () ∧
      (deployment.reached twoDeposits).bridge.paused = false ∧
      ∃ next, applyBridgeTransition environment
        (withBridgeRole environment (deployment.reached twoDeposits)) encoded = .ok next := by
  have hrun : (deployment.history twoDeposits).all (fun entry => !appendsDirectly entry.2.call) = true ∧
      (deployment.reached twoDeposits).bridge.bridgeProgramVKey = bridgeVKey ∧
      batchVerdicts environment (deployment.reached twoDeposits) 2 = .ok (true, .ok ()) ∧
      digestsDistinct environment.hashes.keccak256
        (depositStrings environment (deployment.reached twoDeposits).log ++ inputStrings
          environment.hashes (batchInput environment (deployment.reached twoDeposits) 2)) [] = true ∧
      CollisionFreeFrom
        (fun p : StepField × StepField => merkleActionsAdd environment.hashes p.1 p.2)
        (startField deployment)
        (chainPairs (merkleActionsAdd environment.hashes) (startField deployment)
          (outerLinks settlementProver bridgeProver (deployment.history twoDeposits) ++
            depositLinks environment.hashes
              (batchInput environment (deployment.reached twoDeposits) 2).ethereum.bridgeAddress
              (depositRecords
                (batchInput environment (deployment.reached twoDeposits) 2).ethereum.depositNonce
                (batchInput environment (deployment.reached twoDeposits) 2).deposits))) := by
    decide +kernel
  obtain ⟨hdirect, hkey, hverdicts, hdigests, hposeidon⟩ := hrun
  simp only [batchVerdicts, bind_eq_ok, pure_eq_ok, Prod.mk.injEq] at hverdicts
  obtain ⟨v, hderived, encoded, hencode, -, hpreflight⟩ := hverdicts
  rw [hkey] at hpreflight
  have hpredicted := (preflight_predicts deployment settlementProver bridgeProver twoDeposits
    (fun entry hentry => by simpa using List.all_eq_true.mp hdirect entry hentry) bridgeVKey
    (batchInput environment (deployment.reached twoDeposits) 2) hderived hencode
    (collisionFree_of_digests hdigests) hposeidon).1 hpreflight
  exact ⟨v, encoded, hderived, hencode, hpreflight, hpredicted⟩

/-- The state that the first of both deposits leads to from the element three. -/
def preparedState : Bytes32 := 0x33dd63b5ae16508e6cacddd75c3a4d555e7771e73f4cec761d50a21fee186a34

/-- After the deposits an account with the bridge's role records that state five actions
ahead, and goes on to the element three. -/
def preparedAppends : List Transaction :=
  twoDeposits ++
    [⟨⟨admin, 1000⟩, .settlementGrantRole (bridgeRole environment) admin⟩,
     ⟨⟨admin, 1000⟩, .appendOuterWitnessBatch 1 preparedState 5⟩,
     ⟨⟨admin, 1000⟩, .appendOuterWitnessBatch preparedState 3 1⟩]

/-- From the prepared state the preflight accepts the receipt of both deposits, but the
contract refuses it, with the bridge's role in order: the first append would record the
prepared state a second time with another length. -/
theorem preflight_misled :
    (deployment.reached preparedAppends).settlement.hasRole (bridgeRole environment)
      environment.bridgeAddress = true ∧
    ∃ v encoded,
      deriveBridgeTransition environment.hashes
        (batchInput environment (deployment.reached preparedAppends) 2) = .ok v ∧
      v.encode = .ok encoded ∧
      validateBridgePreflight environment (deployment.reached preparedAppends)
        (deployment.reached preparedAppends).bridge.bridgeProgramVKey
        (batchInput environment (deployment.reached preparedAppends) 2) v = .ok () ∧
      ¬ ∃ next, applyBridgeTransition environment (deployment.reached preparedAppends) encoded =
        .ok next := by
  have hrun : (deployment.reached preparedAppends).settlement.hasRole (bridgeRole environment)
        environment.bridgeAddress = true ∧
      batchVerdicts environment (deployment.reached preparedAppends) 2 = .ok (false, .ok ()) := by
    decide +kernel
  obtain ⟨hrole, hverdicts⟩ := hrun
  simp only [batchVerdicts, bind_eq_ok, pure_eq_ok, Prod.mk.injEq] at hverdicts
  obtain ⟨v, hderived, encoded, hencode, hrefused, hpreflight⟩ := hverdicts
  refine ⟨hrole, v, encoded, hderived, hencode, hpreflight, ?_⟩
  intro hnext
  obtain ⟨next, hnext⟩ := hnext
  rw [hnext] at hrefused
  cases hrefused

/-- The revert of the contract on the receipt for the deposits up to a nonce. -/
def batchRefusal (env : Environment) {W : TokenWorld} (c : Chain W) (last : BitVec 64) :
    Except String (Option BridgeCodec.BridgeError) := do
  let v ← deriveBridgeTransition env.hashes (batchInput env c last)
  let encoded ← v.encode
  match applyBridgeTransition env c encoded with
  | .ok _ => pure none
  | .error error => pure (some error)

/-- In the prepared state nothing is amiss but the appends of the other account: nothing
collides, the bridge has its role, the amounts fit and the counters are small. The guest
proves all deposits, and the contract refuses the receipt. -/
theorem prepared_batch_refused :
    (CollisionFreeFrom environment.hashes.keccak256 0
        (activationsStrings environment (deployment.history preparedAppends) ++
          settlementProver.strings (settledReceipts (deployment.history preparedAppends))) ∧
      CollisionFreeFrom
        (fun p : StepField × StepField => merkleActionsAdd environment.hashes p.1 p.2) 1
        (chainPairs (merkleActionsAdd environment.hashes) 1
          (outerLinks settlementProver bridgeProver (deployment.history preparedAppends) ++
            depositLinks environment.hashes environment.bridgeAddress
              (unbridgedDeposits (deployment.reached preparedAppends)
                (deployment.reached preparedAppends).bridge.depositNonce))) ∧
      fieldToBytes (1 : StepField) = deployment.settlement.initialOuterActionState ∧
      environment.chainId.toNat < 2 ^ 64 ∧
      (deployment.reached preparedAppends).settlement.hasRole (bridgeRole environment)
        environment.bridgeAddress = true ∧
      (deployment.reached preparedAppends).bridge.paused = false ∧
      (∀ record ∈ unbridgedDeposits (deployment.reached preparedAppends)
        (deployment.reached preparedAppends).bridge.depositNonce, AmountFits record) ∧
      (deployment.reached preparedAppends).settlement.outerActionStateLength.toNat +
        (unbridgedDeposits (deployment.reached preparedAppends)
          (deployment.reached preparedAppends).bridge.depositNonce).length < 2 ^ 32 ∧
      (deployment.reached preparedAppends).settlement.currentL2ActionStateIndex.toNat +
        (unbridgedDeposits (deployment.reached preparedAppends)
          (deployment.reached preparedAppends).bridge.depositNonce).length < 2 ^ 64 ∧
      (deployment.reached preparedAppends).bridge.bridgedDepositNonce = 0 ∧
      (deployment.reached preparedAppends).bridge.depositNonce = 2) ∧
    ∃ v encoded,
      deriveBridgeTransition environment.hashes
        (batchInput environment (deployment.reached preparedAppends) 2) = .ok v ∧
      v.encode = .ok encoded ∧
      applyBridgeTransition environment (deployment.reached preparedAppends) encoded =
        .error (.settlementReverted (.invalidActionStateLength 5 7)) := by
  have hdigests : digestsDistinct environment.hashes.keccak256
      (activationsStrings environment (deployment.history preparedAppends) ++
        settlementProver.strings (settledReceipts (deployment.history preparedAppends)))
      [((0 : Bytes32).toNat, none)] = true := by
    decide +kernel
  have hrefusal : batchRefusal environment (deployment.reached preparedAppends) 2 =
      .ok (some (.settlementReverted (.invalidActionStateLength 5 7))) := by
    decide +kernel
  refine ⟨⟨collisionFreeFrom_of_digests hdigests, by decide +kernel⟩, ?_⟩
  simp only [batchRefusal, bind_eq_ok] at hrefusal
  obtain ⟨v, hderived, encoded, hencode, hverdict⟩ := hrefusal
  refine ⟨v, encoded, hderived, hencode, ?_⟩
  cases happlied : applyBridgeTransition environment (deployment.reached preparedAppends) encoded with
  | ok next =>
    rw [happlied] at hverdict
    cases hverdict
  | error error =>
    rw [happlied] at hverdict
    cases hverdict
    rfl

end EthereumSettlement.PreflightAgreement
