import EthereumSettlement.BridgedDeposits
import EthereumSettlement.ClaimSoundness

/-!
# The outer action chain of guest-emitted receipts

Every guest extends the outer action chain by Poseidon links: a settlement by the
hash of its commit, a bridge transition by one hash for each deposit. When both
verifiers accept only guest-emitted receipts and nothing else appends, the stored
action state is the canonical encoding of the chain over all links so far, and
checkpoints and processed states lie on the chain. A chain without collisions
never returns to one of its states.
-/

namespace EthereumSettlement.OuterActionChain

open ByteWords CheckedCalls HashCommitments TransitionRuns PastaPoseidon InnerActionCommitment
open SettlementCodec SettlementReceipt BridgeCodec BridgeGuest ZekoSettlement EthereumZekoBridge
open BridgeSystem StepEffects RunInvariants DepositChain BridgedDeposits ClaimSoundness

variable {env : Environment} {W : TokenWorld} {verifier bridgeVerifier : Address}
  {programVKey bridgeProgramVKey : Bytes32}

/-- The link of a settlement: the hash of the actions in its witness. -/
def settlementLink (H : Hashes) {V : PicklesVerdict} (input : SettlementGuestInput V) : StepField :=
  match input.settlement with
  | none => 0
  | some witness =>
    match witness.binding.actions.mapM (fun event => event.mapM fieldFromBytes) with
    | .ok actions => hashActions H actions
    | .error _ => 0

/-- The links of some deposits. -/
def depositLinks (H : Hashes) (bridgeAddress : Address) (records : List DepositRecord) :
    List StepField :=
  records.map (·.actionListHash H bridgeAddress)

/-- The links that a call adds to the outer action chain. -/
def callLinks (G : SettlementProver env verifier programVKey)
    (B : BridgeProver env bridgeVerifier bridgeProgramVKey) : Call → List StepField
  | .verifyAndUpdateRoot publicValues _ => [settlementLink env.hashes (G.emitter publicValues)]
  | .submitBridgeTransition publicValues _ =>
    depositLinks env.hashes (B.emitter publicValues).ethereum.bridgeAddress
      (depositRecords (B.emitter publicValues).ethereum.depositNonce
        (B.emitter publicValues).deposits)
  | _ => []

/-- The links of a history, oldest first. -/
def outerLinks (G : SettlementProver env verifier programVKey)
    (B : BridgeProver env bridgeVerifier bridgeProgramVKey)
    (history : List (Chain W × Transaction)) : List StepField :=
  history.flatMap fun entry => callLinks G B entry.2.call

/-- The chain's state after its first links. -/
def chainState (H : Hashes) (start : StepField) (links : List StepField) (k : ℕ) : Bytes32 :=
  fieldToBytes ((links.take k).foldl (merkleActionsAdd H) start)

/-- The state after all links. -/
theorem chainState_length (H : Hashes) (start : StepField) (links : List StepField) :
    chainState H start links links.length = fieldToBytes (links.foldl (merkleActionsAdd H) start) := by
  rw [chainState, List.take_length]

/-- Earlier states stay on a longer chain. -/
theorem chainState_append {H : Hashes} {start : StepField} {links more : List StepField} {k : ℕ}
    (hk : k ≤ links.length) : chainState H start (links ++ more) k = chainState H start links k := by
  rw [chainState, chainState, List.take_append_of_le_length hk]

/-- The states of the outer chain, and what is stored of them. -/
structure OnChain (H : Hashes) (start : StepField) (links : List StepField) (c : Chain W) : Prop where
  /-- The stored action state is the last. -/
  current : c.settlement.actionState = chainState H start links links.length
  /-- Valid checkpoints lie on the chain. -/
  checkpoints : ∀ state, (c.settlement.outerActionStateInfo state).valid = true →
    ∃ k ≤ links.length, state = chainState H start links k
  /-- Processed states lie on the chain. -/
  processed : ∀ state, c.bridge.processedActionState state = true →
    ∃ k ≤ links.length, state = chainState H start links k

/-- Positions on a chain without collisions are determined by their states. -/
theorem chainState_injective {H : Hashes} {start : StepField} {links : List StepField}
    (hcf : CollisionFreeFrom (fun p : StepField × StepField => merkleActionsAdd H p.1 p.2) start
      (chainPairs (merkleActionsAdd H) start links)) {i j : ℕ} (hi : i ≤ links.length)
    (hj : j ≤ links.length) (h : chainState H start links i = chainState H start links j) : i = j := by
  have hmeet := fieldToBytes_injective h
  rcases Nat.lt_trichotomy i j with hlt | heq | hgt
  · exact absurd hmeet (chain_states_ne hcf hlt hj)
  · exact heq
  · exact absurd hmeet.symm (chain_states_ne hcf hgt hi)

/-- The states of a replayed stretch are the next states of the longer chain. -/
theorem actionChainStates_eq {H : Hashes} {bridgeAddress : Address} {start : StepField}
    (links : List StepField) (records : List DepositRecord) :
    (actionChainStates H bridgeAddress (links.foldl (merkleActionsAdd H) start) records).map
        fieldToBytes =
      (List.range records.length).map fun j =>
        chainState H start (links ++ depositLinks H bridgeAddress records) (links.length + j + 1) := by
  induction records generalizing links with
  | nil => rfl
  | cons record records ih =>
    have hsplit : links ++ depositLinks H bridgeAddress (record :: records) =
        links ++ [record.actionListHash H bridgeAddress] ++ depositLinks H bridgeAddress records := by
      rw [List.append_assoc]
      rfl
    have hnext : actionChainStep H bridgeAddress (links.foldl (merkleActionsAdd H) start) record =
        (links ++ [record.actionListHash H bridgeAddress]).foldl (merkleActionsAdd H) start := by
      rw [List.foldl_append]
      rfl
    have hone : (links ++ [record.actionListHash H bridgeAddress]).length = links.length + 1 := by
      rw [List.length_append, List.length_singleton]
    rw [actionChainStates, List.map_cons, hnext, ih, hsplit, List.length_cons,
      List.range_succ_eq_map, List.map_cons, List.map_map]
    congr 1
    · rw [Nat.add_zero, chainState_append (le_of_eq hone.symm), ← hone, chainState_length]
    · apply List.map_congr_left
      intro j _
      rw [hone, Function.comp_apply]
      congr 1
      omega

/-- The states of a replayed stretch lie on the longer chain. -/
theorem actionChainStates_onChain {H : Hashes} {bridgeAddress : Address} {start : StepField}
    {links : List StepField} (records : List DepositRecord) {state : Bytes32}
    (h : state ∈ (actionChainStates H bridgeAddress (links.foldl (merkleActionsAdd H) start)
      records).map fieldToBytes) :
    ∃ k ≤ (links ++ depositLinks H bridgeAddress records).length,
      state = chainState H start (links ++ depositLinks H bridgeAddress records) k := by
  rw [actionChainStates_eq] at h
  obtain ⟨j, hj, rfl⟩ := List.mem_map.mp h
  rw [List.mem_range] at hj
  refine ⟨links.length + j + 1, ?_, rfl⟩
  rw [List.length_append, depositLinks, List.length_map]
  omega

/-- The last state of a replayed stretch. -/
theorem lastState_actionChainStates {H : Hashes} {bridgeAddress : Address} (state : StepField)
    (records : List DepositRecord) :
    lastState (fieldToBytes state) ((actionChainStates H bridgeAddress state records).map fieldToBytes) =
      fieldToBytes ((depositLinks H bridgeAddress records).foldl (merkleActionsAdd H) state) := by
  induction records generalizing state with
  | nil => rfl
  | cons record records ih => exact ih (actionChainStep H bridgeAddress state record)

/-- The states that new records lead to are fresh, unless links collide: no checkpoint
and no processed state has them, and they are distinct. -/
theorem OnChain.fresh {H : Hashes} {bridgeAddress : Address} {start : StepField}
    {links : List StepField} {c : Chain W} (h : OnChain H start links c)
    {records : List DepositRecord}
    (hcf : CollisionFreeFrom (fun p : StepField × StepField => merkleActionsAdd H p.1 p.2) start
      (chainPairs (merkleActionsAdd H) start (links ++ depositLinks H bridgeAddress records))) :
    ((actionChainStates H bridgeAddress (links.foldl (merkleActionsAdd H) start) records).map
      fieldToBytes).Nodup ∧
    ∀ state ∈ (actionChainStates H bridgeAddress (links.foldl (merkleActionsAdd H) start)
      records).map fieldToBytes,
      (c.settlement.outerActionStateInfo state).valid = false ∧
        c.bridge.processedActionState state = false := by
  have hlength : (links ++ depositLinks H bridgeAddress records).length =
      links.length + records.length := by
    rw [List.length_append, depositLinks, List.length_map]
  rw [actionChainStates_eq]
  constructor
  · rw [List.nodup_map_iff_inj_on List.nodup_range]
    intro i hi j hj hsame
    rw [List.mem_range] at hi hj
    have hposition := chainState_injective hcf (by omega) (by omega) hsame
    omega
  · intro state hstate
    obtain ⟨j, hj, rfl⟩ := List.mem_map.mp hstate
    rw [List.mem_range] at hj
    have hnew : ∀ k ≤ links.length, chainState H start
        (links ++ depositLinks H bridgeAddress records) (links.length + j + 1) ≠
        chainState H start links k := by
      intro k hk hsame
      rw [← chainState_append hk] at hsame
      have hposition := chainState_injective hcf (by omega) (by omega) hsame
      omega
    constructor
    · rw [← Bool.not_eq_true]
      intro hvalid
      obtain ⟨k, hk, hknown⟩ := h.checkpoints _ hvalid
      exact hnew k hk hknown
    · rw [← Bool.not_eq_true]
      intro hvalid
      obtain ⟨k, hk, hknown⟩ := h.processed _ hvalid
      exact hnew k hk hknown

/-- Consecutive appends make only their own states valid. -/
theorem checkpoints_of_appended {s next : SettlementStorage} {states : List Bytes32}
    (h : ActionsAppended s states next) {state : Bytes32}
    (hvalid : (next.outerActionStateInfo state).valid = true) :
    (s.outerActionStateInfo state).valid = true ∨ state ∈ states := by
  induction h with
  | nil s => exact Or.inl hvalid
  | @cons s middle next stateAfter states first rest ih =>
    rcases ih hvalid with hmiddle | hlater
    · rw [first.outerActionStateInfo_eq] at hmiddle
      by_cases hstate : state = stateAfter
      · exact Or.inr (by rw [hstate]; exact List.mem_cons_self)
      · rw [Function.update_of_ne hstate] at hmiddle
        exact Or.inl hmiddle
    · exact Or.inr (List.mem_cons_of_mem _ hlater)

/-- A longer chain keeps what was stored, if everything new lies on it. -/
theorem OnChain.extend {H : Hashes} {start : StepField} {links more : List StepField}
    {c next : Chain W} (h : OnChain H start links c)
    (hcurrent : next.settlement.actionState =
      chainState H start (links ++ more) (links ++ more).length)
    (hcheckpoints : ∀ state, (next.settlement.outerActionStateInfo state).valid = true →
      (c.settlement.outerActionStateInfo state).valid = true ∨
        ∃ k ≤ (links ++ more).length, state = chainState H start (links ++ more) k)
    (hprocessed : ∀ state, next.bridge.processedActionState state = true →
      c.bridge.processedActionState state = true ∨
        ∃ k ≤ (links ++ more).length, state = chainState H start (links ++ more) k) :
    OnChain H start (links ++ more) next := by
  have hold : ∀ state, (∃ k ≤ links.length, state = chainState H start links k) →
      ∃ k ≤ (links ++ more).length, state = chainState H start (links ++ more) k := by
    rintro state ⟨k, hk, hstate⟩
    refine ⟨k, ?_, ?_⟩
    · rw [List.length_append]
      omega
    · rw [chainState_append hk]
      exact hstate
  refine ⟨hcurrent, ?_, ?_⟩
  · intro state hvalid
    rcases hcheckpoints state hvalid with hbefore | hnew
    · exact hold state (h.checkpoints state hbefore)
    · exact hnew
  · intro state hvalid
    rcases hprocessed state hvalid with hbefore | hnew
    · exact hold state (h.processed state hbefore)
    · exact hnew

/-- A guest-emitted settlement extends the chain by its link. -/
theorem OnChain.settled (G : SettlementProver env verifier programVKey) {start : StepField}
    {links : List StepField} {c next : Chain W} {publicValues proofBytes : Bytes}
    {decoded : DecodedPublicValues} (h : OnChain env.hashes start links c)
    (hproved : env.verifyProof verifier programVKey publicValues proofBytes = true)
    (hdecode : decodePublicValues publicValues = .ok decoded)
    (hsettled : ReceiptSettled env c.settlement decoded next.settlement)
    (hprocessed : next.bridge.processedActionState = c.bridge.processedActionState) :
    OnChain env.hashes start (links ++ [settlementLink env.hashes (G.emitter publicValues)]) next := by
  obtain ⟨witness, values, hwitness, hvalues, -, hdecoded⟩ :=
    settlementGuest_decoded env.hashes (G.emits publicValues proofBytes hproved) hdecode
  have hreceipt := (deriveReceiptValues_eq_ok env.hashes hvalues).1
  obtain ⟨body, action, before, hderived⟩ := deriveReceiptForAppState_eq_ok env.hashes hreceipt
  have hlink : settlementLink env.hashes (G.emitter publicValues) =
      hashActions env.hashes [action] := by
    rw [settlementLink, hwitness]
    dsimp only
    rw [hderived.actions_eq]
  have hbefore : body.getD 36 0 = links.foldl (merkleActionsAdd env.hashes) start := by
    have hchecked := hsettled.actionStateBefore
    have hcurrent := h.current
    rw [chainState_length] at hcurrent
    apply fieldToBytes_injective
    rw [← hderived.outerBefore_eq, ← hcurrent, ← hchecked, hdecoded]
    cases values <;> rfl
  have hafter : decoded.outerActionStateAfter = chainState env.hashes start
      (links ++ [settlementLink env.hashes (G.emitter publicValues)])
      (links ++ [settlementLink env.hashes (G.emitter publicValues)]).length := by
    have hvalue : decoded.outerActionStateAfter = values.settlement.outerActionStateAfter := by
      rw [hdecoded]
      cases values <;> rfl
    rw [chainState_length, List.foldl_append, ← hbefore, hlink, hvalue, hderived.outerAfter_eq]
    rfl
  refine h.extend ?_ ?_ ?_
  · rw [hsettled.actionState_eq]
    exact hafter
  · intro state hvalid
    rw [hsettled.outerActionStateInfo_eq] at hvalid
    by_cases hstate : state = decoded.outerActionStateAfter
    · exact Or.inr ⟨_, le_refl _, hstate.trans hafter⟩
    · rw [Function.update_of_ne hstate] at hvalid
      exact Or.inl hvalid
  · intro state hvalid
    rw [hprocessed] at hvalid
    exact Or.inl hvalid

/-- A guest-emitted bridge transition extends the chain by the links of its
deposits. -/
theorem OnChain.transitioned (B : BridgeProver env bridgeVerifier bridgeProgramVKey)
    {start : StepField} {links : List StepField} {c next : Chain W}
    {publicValues proofBytes : Bytes} {decoded : DecodedBridgePublicValues}
    (h : OnChain env.hashes start links c)
    (hproved : env.verifyProof bridgeVerifier bridgeProgramVKey publicValues proofBytes = true)
    (htransitioned : Transitioned c publicValues decoded next) :
    OnChain env.hashes start
      (links ++ depositLinks env.hashes (B.emitter publicValues).ethereum.bridgeAddress
        (depositRecords (B.emitter publicValues).ethereum.depositNonce
          (B.emitter publicValues).deposits)) next := by
  have hemits := B.emits publicValues proofBytes hproved
  rw [bridgeGuest, bind_eq_ok] at hemits
  obtain ⟨v, hderive, hencode⟩ := hemits
  have hemitted := deriveBridgeTransition_eq_ok env.hashes hderive
  have hdecoded : decoded = v.decoded :=
    Except.ok.inj (htransitioned.decode.symm.trans (decodeBridgePublicValues_encode hencode))
  obtain ⟨state, hstate, hstateBefore, -, hstates⟩ := hemitted.actionStates
  have hbefore : c.settlement.actionState = fieldToBytes state := by
    rw [hstate, ← hstateBefore, ← htransitioned.checked.actionStateBefore, hdecoded]
    rfl
  have hcurrent := h.current
  rw [chainState_length, hbefore] at hcurrent
  have hfold := fieldToBytes_injective hcurrent
  have happended := htransitioned.appended
  have hlast := htransitioned.last
  rw [hdecoded, appendedStates_encode hencode, hstates, hfold] at happended
  rw [hbefore, hdecoded, appendedStates_encode hencode, hstates, lastState_actionChainStates,
    hfold, ← List.foldl_append, ← chainState_length] at hlast
  have hframed := happended.framed.actionState_eq
  rw [hbefore, hfold, lastState_actionChainStates, ← List.foldl_append, ← chainState_length] at hframed
  refine h.extend hframed ?_ ?_
  · intro checkpoint hvalid
    rcases checkpoints_of_appended happended hvalid with hold | hnew
    · exact Or.inl hold
    · obtain ⟨k, hk, hcheckpoint⟩ := actionChainStates_onChain _ hnew
      exact Or.inr ⟨k, hk, hcheckpoint⟩
  · intro processed hvalid
    rw [htransitioned.bridge_eq, afterTransition] at hvalid
    by_cases hprocessed : processed = decoded.zekoActionStateAfter
    · refine Or.inr ⟨_, le_refl _, ?_⟩
      rw [hprocessed, hdecoded]
      exact hlast
    · simp only [Function.update_of_ne hprocessed] at hvalid
      exact Or.inl hvalid

/-- A transaction without links leaves the chain as it is. -/
theorem OnChain.kept {H : Hashes} {start : StepField} {links : List StepField} {c next : Chain W}
    (h : OnChain H start links c)
    (haction : next.settlement.actionState = c.settlement.actionState)
    (hinfo : next.settlement.outerActionStateInfo = c.settlement.outerActionStateInfo)
    (hprocessed : next.bridge.processedActionState = c.bridge.processedActionState) :
    OnChain H start (links ++ []) next := by
  rw [List.append_nil]
  refine ⟨?_, ?_, ?_⟩
  · rw [haction]
    exact h.current
  · rw [hinfo]
    exact h.checkpoints
  · rw [hprocessed]
    exact h.processed

/-- One transaction without a direct append extends the chain by its links. -/
theorem onChain_of_effect (G : SettlementProver env verifier programVKey)
    (B : BridgeProver env bridgeVerifier bridgeProgramVKey) {start : StepField}
    {links : List StepField} {c next : Chain W} {ctx : CallContext} {call : Call}
    (hverifier : c.settlement.verifier = verifier) (hkey : c.settlement.programVKey = programVKey)
    (hbridgeVerifier : c.bridge.bridgeVerifier = bridgeVerifier)
    (hbridgeKey : c.bridge.bridgeProgramVKey = bridgeProgramVKey)
    (hdirect : appendsDirectly call = false) (hc : OnChain env.hashes start links c)
    (h : Effect env c ctx call next) :
    OnChain env.hashes start (links ++ callLinks G B call) next := by
  have hnone : call.isAdministration = true ∨ call.isActivation = true → callLinks G B call = [] := by
    intro hkind
    rcases hkind with hkind | hkind
    · cases call <;> first | rfl | cases hkind
    · cases call <;> first | rfl | cases hkind
  cases h with
  | @administer call _ kind administered =>
    obtain ⟨_, _, _, hsettlement⟩ := administered.settlement_eq
    obtain ⟨_, _, _, hadministered⟩ := administered.bridge_eq
    rw [hnone (Or.inl kind)]
    exact hc.kept (by rw [hsettlement]) (by rw [hsettlement]) (by rw [hadministered])
  | @settle publicValues proofBytes decoded settlement events proved decode settled =>
    rw [hverifier, hkey] at proved
    exact hc.settled G proved decode settled rfl
  | append => cases hdirect
  | transition proved transitioned =>
    rw [hbridgeVerifier, hbridgeKey] at proved
    exact hc.transitioned B proved transitioned
  | nativeDeposit => exact hc.kept rfl rfl rfl
  | tokenDeposit => exact hc.kept rfl rfl rfl
  | nativeClaim => exact hc.kept rfl rfl rfl
  | tokenClaim => exact hc.kept rfl rfl rfl
  | etherRescue => exact hc.kept rfl rfl rfl
  | tokenRescue => exact hc.kept rfl rfl rfl
  | propose proposed =>
    have hkept := proposed.settlement_eq
    exact hc.kept (by rw [hkept]) (by rw [hkept]) (by rw [proposed.bridge_eq])
  | cancel cancelled =>
    have hkept := cancelled.settlement_eq
    exact hc.kept (by rw [hkept]) (by rw [hkept]) (by rw [cancelled.bridge_eq])
  | activate kind activated =>
    have hkept := activated.settlement_eq
    rw [hnone (Or.inr kind)]
    exact hc.kept (by rw [hkept]) (by rw [hkept]) (by rw [activated.bridge_eq]; rfl)
  | status changed =>
    have hkept := changed.settlement_eq
    obtain ⟨_, hchanged⟩ := changed.bridge_eq
    exact hc.kept (by rw [hkept]) (by rw [hkept]) (by rw [hchanged])
  | tokenTransfer => exact hc.kept rfl rfl rfl
  | etherForced => exact hc.kept rfl rfl rfl

/-- The stored outer action state of every run is on the chain of its links. -/
theorem reached_onChain (d : Deployment env W)
    (G : SettlementProver env d.settlement.verifier d.settlement.programVKey)
    (B : BridgeProver env d.bridge.bridgeVerifier d.bridge.bridgeProgramVKey) {start : StepField}
    (hstart : fieldToBytes start = d.settlement.initialOuterActionState)
    (transactions : List Transaction)
    (hdirect : ∀ entry ∈ d.history transactions, appendsDirectly entry.2.call = false) :
    OnChain env.hashes start (outerLinks G B (d.history transactions)) (d.reached transactions) := by
  have hQ : ∀ entry ∈ d.history transactions, SameVerifiers d.start entry.1 ∧
      appendsDirectly entry.2.call = false := by
    intro entry hentry
    obtain ⟨before, hbefore⟩ := history_reached d hentry
    refine ⟨?_, hdirect entry hentry⟩
    rw [hbefore]
    exact reached_sameVerifiers d before
  have hinit := d.initialized
  obtain ⟨_, _, hbridge⟩ := hinit.bridge_eq
  apply reached_induction d (J := fun history c => OnChain env.hashes start (outerLinks G B history) c)
    ?_ ?_ hQ
  · refine ⟨?_, ?_, ?_⟩
    · rw [hinit.actionState_eq, ← hstart]
      rfl
    · intro state hvalid
      rw [hinit.outerActionStateInfo_eq] at hvalid
      by_cases hstate : state = d.settlement.initialOuterActionState
      · exact ⟨0, le_refl 0, hstate.trans hstart.symm⟩
      · rw [Function.update_of_ne hstate] at hvalid
        cases hvalid
    · intro state hvalid
      rw [hbridge] at hvalid
      cases hvalid
  · intro history c tx next hc hentry heffect
    obtain ⟨hverifiers, hdirectBefore⟩ := hentry
    have hlinks : outerLinks G B (history ++ [(c, tx)]) =
        outerLinks G B history ++ callLinks G B tx.call := by
      rw [outerLinks, List.flatMap_append, List.flatMap_singleton]
      rfl
    rw [hlinks]
    refine onChain_of_effect G B ?_ ?_ ?_ ?_ hdirectBefore hc heffect
    · rw [hverifiers.verifier, hinit.verifier_eq]
    · rw [hverifiers.programVKey, hinit.programVKey_eq]
    · rw [hverifiers.bridgeVerifier, hbridge]
    · rw [hverifiers.bridgeProgramVKey, hbridge]

end EthereumSettlement.OuterActionChain
