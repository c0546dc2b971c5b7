import EthereumSettlement.BridgeGuest
import EthereumSettlement.ReferenceHashes

/-!
# Deposit batches

Where a range of deposits is cut into batches does not matter. The bridge guest
run over a concatenation computes what it computes run over the first batch and
then, from the state that leaves, over the second. The receipt of the whole is
the two receipts joined. In every receipt the emitted states are the Poseidon
chain of the emitted fields.
-/

namespace EthereumSettlement.DepositBatching

open ByteWords CheckedCalls PastaPoseidon InnerActionCommitment RegistryCheckpoint BridgeCodec
open BridgeGuest ReferenceHashes

variable (H : Hashes)

/-- A loop's values with actions emitted before it. -/
def emittedAfter (prior : List BridgeOuterActionV2) (progress : BridgeProgress) : BridgeProgress :=
  { progress with actions := prior ++ progress.actions }

/-- One iteration keeps the actions emitted before it. -/
theorem bridgeDepositStep_emittedAfter (ethereum : EthereumBridgeState)
    (prior : List BridgeOuterActionV2) (progress : BridgeProgress) (deposit : BridgeDeposit) :
    bridgeDepositStep H ethereum (emittedAfter prior progress) deposit =
      emittedAfter prior <$> bridgeDepositStep H ethereum progress deposit := by
  simp only [bridgeDepositStep, emittedAfter]
  cases unpackZekoAddress deposit.zekoRecipient with
  | error message => rfl
  | ok recipient =>
    cases checkDepositAmount deposit with
    | error message => rfl
    | ok zekoAmount =>
      change (depositAux H ethereum deposit zekoAmount recipient >>= _) =
        _ <$> (depositAux H ethereum deposit zekoAmount recipient >>= _)
      cases depositAux H ethereum deposit zekoAmount recipient with
      | error message => rfl
      | ok aux => exact congrArg Except.ok (by rw [List.append_assoc, emittedAfter])

/-- So does the whole loop. -/
theorem bridgeDepositLoop_emittedAfter (ethereum : EthereumBridgeState)
    (prior : List BridgeOuterActionV2) (progress : BridgeProgress) (deposits : List BridgeDeposit) :
    bridgeDepositLoop H ethereum (emittedAfter prior progress) deposits =
      emittedAfter prior <$> bridgeDepositLoop H ethereum progress deposits := by
  induction deposits generalizing progress with
  | nil => rfl
  | cons deposit deposits ih =>
    rw [bridgeDepositLoop, bridgeDepositLoop, bridgeDepositStep_emittedAfter]
    cases bridgeDepositStep H ethereum progress deposit with
    | error message => rfl
    | ok next => exact ih next

/-- What the loop emits does not depend on what was emitted before it. -/
theorem bridgeDepositLoop_afresh (ethereum : EthereumBridgeState) (progress : BridgeProgress)
    (deposits : List BridgeDeposit) :
    bridgeDepositLoop H ethereum progress deposits =
      emittedAfter progress.actions <$>
        bridgeDepositLoop H ethereum { progress with actions := [] } deposits := by
  have hprior : progress = emittedAfter progress.actions { progress with actions := [] } := by
    rw [emittedAfter, List.append_nil]
  have hloop := bridgeDepositLoop_emittedAfter H ethereum progress.actions
    { progress with actions := [] } deposits
  rw [← hprior] at hloop
  exact hloop

/-- The loop over a concatenation is the loop over its parts. -/
theorem bridgeDepositLoop_append (ethereum : EthereumBridgeState) (progress : BridgeProgress)
    (first second : List BridgeDeposit) :
    bridgeDepositLoop H ethereum progress (first ++ second) =
      (bridgeDepositLoop H ethereum progress first >>= fun middle =>
        bridgeDepositLoop H ethereum middle second) := by
  induction first generalizing progress with
  | nil => rfl
  | cons deposit first ih =>
    rw [List.cons_append, bridgeDepositLoop, bridgeDepositLoop]
    cases bridgeDepositStep H ethereum progress deposit with
    | error message => rfl
    | ok next => exact ih next

/-- The loop reads only the chain and the bridge of its Ethereum state. -/
theorem bridgeDepositLoop_source (ethereum : EthereumBridgeState) (depositNonce : BitVec 64)
    (depositState : Bytes32) (progress : BridgeProgress) (deposits : List BridgeDeposit) :
    bridgeDepositLoop H { ethereum with depositNonce := depositNonce, depositState := depositState }
      progress deposits = bridgeDepositLoop H ethereum progress deposits := by
  induction deposits generalizing progress with
  | nil => rfl
  | cons deposit deposits ih =>
    rw [bridgeDepositLoop, bridgeDepositLoop]
    exact congrArg _ (funext ih)

/-- The guest input for more deposits, from the state that a receipt leaves. -/
def resumed (input : BridgeTransitionInput) (v : BridgeTransitionPublicValuesV2)
    (deposits : List BridgeDeposit) : BridgeTransitionInput where
  ethereum := { input.ethereum with
    depositNonce := v.ethereumNonceAfter
    depositState := v.ethereumStateAfter }
  zeko := ⟨v.zekoActionStateAfter, v.zekoActionStateLengthAfter⟩
  deposits := deposits

/-- A receipt followed by another: from the source of the first to the final
states of the second, with the actions of both. -/
def joined (first second : BridgeTransitionPublicValuesV2) : BridgeTransitionPublicValuesV2 :=
  { first with
    ethereumStateAfter := second.ethereumStateAfter
    ethereumNonceAfter := second.ethereumNonceAfter
    zekoActionStateAfter := second.zekoActionStateAfter
    zekoActionStateLengthAfter := second.zekoActionStateLengthAfter
    actions := first.actions ++ second.actions }

/-- The loop's values when the guest starts. -/
def started (input : BridgeTransitionInput) (actionState : StepField) : BridgeProgress :=
  ⟨input.ethereum.depositState, actionState, input.ethereum.depositNonce, []⟩

/-- The receipt of the loop's final values. -/
def receipt (input : BridgeTransitionInput) (actionState : StepField) (final : BridgeProgress)
    (lengthAfter : BitVec 32) : BridgeTransitionPublicValuesV2 where
  ethereumStateBefore := input.ethereum.depositState
  ethereumStateAfter := final.ethereumState
  ethereumNonceBefore := input.ethereum.depositNonce
  ethereumNonceAfter := final.nextNonce
  zekoActionStateBefore := fieldToBytes actionState
  zekoActionStateAfter := fieldToBytes final.zekoActionState
  zekoActionStateLengthBefore := input.zeko.actionStateLength
  zekoActionStateLengthAfter := lengthAfter
  actions := final.actions

/-- The guest emits a receipt exactly for the final values of its loop over a
nonempty batch whose length fits. -/
theorem deriveBridgeTransition_iff {input : BridgeTransitionInput}
    {v : BridgeTransitionPublicValuesV2} :
    deriveBridgeTransition H input = .ok v ↔
      input.deposits ≠ [] ∧
      ∃ actionState final lengthAfter, fieldToBytes actionState = input.zeko.actionState ∧
        bridgeDepositLoop H input.ethereum (started input actionState) input.deposits = .ok final ∧
        lengthAfter.toNat = input.zeko.actionStateLength.toNat + input.deposits.length ∧
        v = receipt input actionState final lengthAfter := by
  simp only [deriveBridgeTransition, bind_eq_ok, require_eq_ok, exists_const, pure_eq_ok,
    fieldFromBytes_eq_ok, checkedAddU32, checkedAdd_eq_ok]
  constructor
  · intro h
    obtain ⟨hcount, hnonempty, actionState, hstate, final, hloop, lengthAfter, hlength, hv⟩ := h
    rw [BitVec.toNat_ofNat, Nat.mod_eq_of_lt hcount] at hlength
    exact ⟨hnonempty, actionState, final, lengthAfter, hstate, hloop, hlength, hv.symm⟩
  · intro h
    obtain ⟨hnonempty, actionState, final, lengthAfter, hstate, hloop, hlength, hv⟩ := h
    have hbound := lengthAfter.isLt
    have hcount : input.deposits.length < 2 ^ 32 := by omega
    refine ⟨hcount, hnonempty, actionState, hstate, final, hloop, lengthAfter, ?_, hv.symm⟩
    rw [BitVec.toNat_ofNat, Nat.mod_eq_of_lt hcount]
    exact hlength

/-- A batch is accepted as a whole exactly when its first part is accepted and
then its second part, and its receipt is the two joined. -/
theorem deriveBridgeTransition_append (input : BridgeTransitionInput)
    {first second : List BridgeDeposit} (hfirst : first ≠ []) (hsecond : second ≠ [])
    (v : BridgeTransitionPublicValuesV2) :
    deriveBridgeTransition H { input with deposits := first ++ second } = .ok v ↔
      ∃ v₁ v₂, deriveBridgeTransition H { input with deposits := first } = .ok v₁ ∧
        deriveBridgeTransition H (resumed input v₁ second) = .ok v₂ ∧ v = joined v₁ v₂ := by
  have hsource : ∀ v₁ progress, bridgeDepositLoop H (resumed input v₁ second).ethereum progress
      second = bridgeDepositLoop H input.ethereum progress second := fun v₁ progress =>
    bridgeDepositLoop_source H input.ethereum _ _ progress second
  constructor
  · intro h
    obtain ⟨-, actionState, final, lengthAfter, hstate, hloop, hlength, hv⟩ :=
      (deriveBridgeTransition_iff H).mp h
    rw [bridgeDepositLoop_append, bind_eq_ok] at hloop
    obtain ⟨middle, hmiddle, hfinal⟩ := hloop
    rw [bridgeDepositLoop_afresh, map_eq_ok] at hfinal
    obtain ⟨last, hlast, hjoined⟩ := hfinal
    dsimp only at hlength
    rw [List.length_append] at hlength
    have hbound := lengthAfter.isLt
    have hmiddleLength : (BitVec.ofNat 32 (input.zeko.actionStateLength.toNat + first.length)).toNat =
        input.zeko.actionStateLength.toNat + first.length := by
      rw [BitVec.toNat_ofNat, Nat.mod_eq_of_lt (by omega)]
    refine ⟨receipt input actionState middle
        (BitVec.ofNat 32 (input.zeko.actionStateLength.toNat + first.length)),
      receipt (resumed input _ second) middle.zekoActionState last lengthAfter,
      (deriveBridgeTransition_iff H).mpr
        ⟨hfirst, actionState, middle, _, hstate, hmiddle, hmiddleLength, rfl⟩,
      (deriveBridgeTransition_iff H).mpr
        ⟨hsecond, middle.zekoActionState, last, lengthAfter, rfl, ?_, ?_, rfl⟩, ?_⟩
    · exact (hsource _ _).trans hlast
    · change lengthAfter.toNat = _ + second.length
      rw [hlength, ← Nat.add_assoc]
      exact congrArg (· + second.length) hmiddleLength.symm
    · rw [hv, ← hjoined]
      rfl
  · intro h
    obtain ⟨v₁, v₂, hv₁, hv₂, hv⟩ := h
    obtain ⟨-, actionState, middle, lengthMiddle, hstate, hmiddle, hlengthMiddle, rfl⟩ :=
      (deriveBridgeTransition_iff H).mp hv₁
    obtain ⟨-, middleState, last, lengthAfter, hmiddleState, hlast, hlength, rfl⟩ :=
      (deriveBridgeTransition_iff H).mp hv₂
    have hresumed : middleState = middle.zekoActionState := fieldToBytes_injective hmiddleState
    refine (deriveBridgeTransition_iff H).mpr ⟨?_, actionState, emittedAfter middle.actions last,
      lengthAfter, hstate, ?_, ?_, hv⟩
    · exact fun h => hfirst (List.append_eq_nil_iff.mp h).1
    · rw [bridgeDepositLoop_append, bind_eq_ok]
      refine ⟨middle, hmiddle, ?_⟩
      rw [bridgeDepositLoop_afresh, map_eq_ok]
      refine ⟨last, ?_, rfl⟩
      have hsecondRun := (hsource _ _).symm.trans hlast
      rw [started, hresumed] at hsecondRun
      exact hsecondRun
    · change lengthAfter.toNat = lengthMiddle.toNat + second.length at hlength
      rw [hlength, hlengthMiddle, List.length_append, Nat.add_assoc]

/-- `action_list_add_fields` on the empty action list. -/
def actionListAddFields (fields : List StepField) : StepField :=
  hashWithPrefix H "MinaZkappSeqEvents**"
    [emptyHashWithPrefix H "MinaZkappActionsEmpty", hashWithPrefix H "MinaZkappEvent******" fields]

/-- The field elements that an action's words encode. -/
def actionFields (action : BridgeOuterActionV2) : Except String (List StepField) :=
  (List.ofFn action.fields).mapM fieldFromBytes

/-- The actions lead from one action state to another: each state is the Poseidon
chain's next state for the action's own fields. -/
def ActionStateChain : Bytes32 → List BridgeOuterActionV2 → Bytes32 → Prop
  | before, [], after => before = after
  | before, action :: actions, after =>
    (∃ state fields, fieldFromBytes before = .ok state ∧ actionFields action = .ok fields ∧
      action.stateAfter = fieldToBytes (merkleActionsAdd H state (actionListAddFields H fields))) ∧
    ActionStateChain action.stateAfter actions after

/-- A longer chain. -/
theorem ActionStateChain.snoc {before middle after : Bytes32} {actions : List BridgeOuterActionV2}
    {action : BridgeOuterActionV2} (h : ActionStateChain H before actions middle)
    (haction : ActionStateChain H middle [action] after) :
    ActionStateChain H before (actions ++ [action]) after := by
  induction actions generalizing before with
  | nil =>
    have hstart : before = middle := h
    rw [hstart]
    exact haction
  | cons first actions ih => exact ⟨h.1, ih h.2⟩

/-- The action of a deposit encodes the five fields of its outer witness. -/
theorem actionFields_witness (aux : StepField) (stateAfter : Bytes32) :
    actionFields ⟨fun i => fieldToBytes ((computeZekoOuterWitnessFields aux).getD i 0), stateAfter⟩ =
      .ok (computeZekoOuterWitnessFields aux) := by
  have hwords : List.ofFn (fun i : Fin 5 =>
      fieldToBytes ((computeZekoOuterWitnessFields aux).getD i 0)) =
      (computeZekoOuterWitnessFields aux).map fieldToBytes := rfl
  rw [actionFields, hwords]
  simp only [computeZekoOuterWitnessFields, List.map_cons, List.map_nil, List.mapM_cons,
    List.mapM_nil, fieldFromBytes_fieldToBytes]
  rfl

/-- One iteration extends the chain of emitted states. -/
theorem bridgeDepositStep_chain {ethereum : EthereumBridgeState} {before : Bytes32}
    {progress next : BridgeProgress} {deposit : BridgeDeposit}
    (h : bridgeDepositStep H ethereum progress deposit = .ok next)
    (hchain : ActionStateChain H before progress.actions (fieldToBytes progress.zekoActionState)) :
    ActionStateChain H before next.actions (fieldToBytes next.zekoActionState) := by
  simp only [bridgeDepositStep, bind_eq_ok, pure_eq_ok] at h
  obtain ⟨recipient, -, zekoAmount, -, aux, -, hnext⟩ := h
  rw [← hnext]
  refine hchain.snoc H ⟨⟨progress.zekoActionState, computeZekoOuterWitnessFields aux,
    fieldFromBytes_fieldToBytes _, actionFields_witness aux _, ?_⟩, rfl⟩
  rfl

/-- So does the whole loop. -/
theorem bridgeDepositLoop_chain {ethereum : EthereumBridgeState} {before : Bytes32}
    {progress final : BridgeProgress} {deposits : List BridgeDeposit}
    (h : bridgeDepositLoop H ethereum progress deposits = .ok final)
    (hchain : ActionStateChain H before progress.actions (fieldToBytes progress.zekoActionState)) :
    ActionStateChain H before final.actions (fieldToBytes final.zekoActionState) := by
  induction deposits generalizing progress with
  | nil =>
    rw [bridgeDepositLoop, pure_eq_ok] at h
    rw [← h]
    exact hchain
  | cons deposit deposits ih =>
    rw [bridgeDepositLoop, bind_eq_ok] at h
    obtain ⟨next, hstep, hrest⟩ := h
    exact ih hrest (bridgeDepositStep_chain H hstep hchain)

/-- The states of every receipt form the Poseidon chain of its actions. -/
theorem deriveBridgeTransition_chain {input : BridgeTransitionInput}
    {v : BridgeTransitionPublicValuesV2} (h : deriveBridgeTransition H input = .ok v) :
    ActionStateChain H v.zekoActionStateBefore v.actions v.zekoActionStateAfter := by
  obtain ⟨-, actionState, final, lengthAfter, -, hloop, -, hv⟩ :=
    (deriveBridgeTransition_iff H).mp h
  rw [hv]
  exact bridgeDepositLoop_chain H hloop rfl

/-- Batching is a homomorphism. For every source state and all nonempty batches
the guest accepts the concatenation exactly when it accepts the first batch and
then the second from the state that leaves, and the receipt of the whole is the
two joined: the final Ethereum state and nonce and the final outer action state
and length are those of the second, and the actions are those of both. In every
receipt the states after the actions are the Poseidon chain of the actions' fields,
from the outer action state before to the one after. -/
theorem batching_homomorphism :
    (∀ (input : BridgeTransitionInput) (first second : List BridgeDeposit),
      first ≠ [] → second ≠ [] → ∀ v,
        (deriveBridgeTransition H { input with deposits := first ++ second } = .ok v ↔
          ∃ v₁ v₂, deriveBridgeTransition H { input with deposits := first } = .ok v₁ ∧
            deriveBridgeTransition H (resumed input v₁ second) = .ok v₂ ∧ v = joined v₁ v₂)) ∧
    ∀ (input : BridgeTransitionInput) (v : BridgeTransitionPublicValuesV2),
      deriveBridgeTransition H input = .ok v →
        ActionStateChain H v.zekoActionStateBefore v.actions v.zekoActionStateAfter :=
  ⟨fun input _ _ hfirst hsecond v => deriveBridgeTransition_append H input hfirst hsecond v,
    fun _ _ h => deriveBridgeTransition_chain H h⟩

/-- A native deposit of two units. -/
def nativeDeposit : BridgeDeposit :=
  ⟨0, 0, 0, 0, 0, 2000000000, none, 5, 100⟩

/-- An ERC-20 deposit of three units under a registered record. -/
def tokenDeposit : BridgeDeposit :=
  ⟨10, 11, erc20ActionEncodingV2, 0, 7, 3, some 3, 6, infiniteTimeout⟩

/-- A guest input over both deposits, whose nonce is close to the word's end. -/
def mixedInput : BridgeTransitionInput :=
  ⟨⟨1, 2, 18446744073709551600, 3⟩, ⟨1, 4⟩, [nativeDeposit] ++ [tokenDeposit]⟩

/-- Both deposits pass the guest's assertions. -/
theorem mixedInput_admissible : ∀ deposit ∈ mixedInput.deposits, DepositAdmissible deposit := by
  intro deposit hmem
  have hcases : deposit = nativeDeposit ∨ deposit = tokenDeposit := by
    simpa [mixedInput] using hmem
  rcases hcases with hnative | htoken
  · rw [hnative]
    refine ⟨by decide, by decide, ?_⟩
    rw [if_pos (show nativeDeposit.token = 0 from rfl)]
    refine ⟨by decide, by decide, by decide, by decide, by decide, by decide, ?_⟩
    intro supplied hsupplied
    cases hsupplied
  · rw [htoken]
    refine ⟨by decide, by decide, ?_⟩
    rw [if_neg (show tokenDeposit.token ≠ 0 by decide)]
    exact ⟨by decide, rfl, rfl, by decide, ⟨7, by decide⟩, by decide, 3, rfl, by decide⟩

/-- A native and an ERC-20 deposit are accepted as one batch, and as two. -/
theorem batching_homomorphism_mixed :
    ∃ v v₁ v₂, deriveBridgeTransition referenceHashes mixedInput = .ok v ∧
      deriveBridgeTransition referenceHashes { mixedInput with deposits := [nativeDeposit] } =
        .ok v₁ ∧
      deriveBridgeTransition referenceHashes (resumed mixedInput v₁ [tokenDeposit]) = .ok v₂ ∧
      v = joined v₁ v₂ ∧
      ActionStateChain referenceHashes v.zekoActionStateBefore v.actions v.zekoActionStateAfter := by
  have haccepted : ∃ v, deriveBridgeTransition referenceHashes mixedInput = .ok v :=
    deriveBridgeTransition_of_admissible referenceHashes (by decide) ⟨1, by decide⟩
      mixedInput_admissible (by decide)
  obtain ⟨v, hv⟩ := haccepted
  have hbatching := batching_homomorphism referenceHashes
  obtain ⟨v₁, v₂, hv₁, hv₂, hjoined⟩ :=
    (hbatching.1 mixedInput [nativeDeposit] [tokenDeposit] (by decide) (by decide) v).mp hv
  exact ⟨v, v₁, v₂, hv, hv₁, hv₂, hjoined, hbatching.2 mixedInput v hv⟩

end EthereumSettlement.DepositBatching
