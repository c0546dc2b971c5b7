import EthereumSettlement.ReferenceDeployment
import EthereumSettlement.StepEffects

/-!
# The settlement contract on its own

Runs of the settlement contract interleave its entry points in any order, with
any sender and any receipt that the verifier accepts. The checkpoints of outer
action states are exactly heads that the contract once had, the ledger root
follows the stored outer state, and the registry count adds up the records of
the accepted receipts. Every run of the whole system is such a run for the
settlement contract: a bridge transition is a sequence of its appends.
-/

namespace EthereumSettlement.SettlementRuns

open ByteWords CheckedCalls TransitionRuns PastaPoseidon SettlementCodec BridgeCodec ZekoSettlement
open EthereumZekoBridge BridgeSystem StepEffects ReferenceDeployment OpenZeppelin

/-- The entry points of the settlement contract, with sender and block. -/
inductive SettlementAction
  | grantRole (ctx : CallContext) (role : Bytes32) (account : Address)
  | revokeRole (ctx : CallContext) (role : Bytes32) (account : Address)
  | renounceRole (ctx : CallContext) (role : Bytes32) (callerConfirmation : Address)
  | setVkHash (ctx : CallContext) (newVkHash : Bytes32)
  | setBridgeContract (ctx : CallContext) (newBridge : Address)
  | appendOuterWitnessBatch (sender : Address) (stateBefore stateAfter : Bytes32) (count : BitVec 32)
  | verifyAndUpdateRoot (ctx : CallContext) (publicValues proofBytes : Bytes)

/-- The receipt that an action submits, decoded. -/
def SettlementAction.receipt : SettlementAction → Option DecodedPublicValues
  | .verifyAndUpdateRoot _ publicValues _ => (decodePublicValues publicValues).toOption
  | _ => none

section Runs

variable (env : Environment)

/-- The call of an action. -/
def actionCall (s : SettlementStorage) : SettlementAction → SettlementCall
  | .grantRole ctx role account => ZekoSettlement.grantRole env s ctx role account
  | .revokeRole ctx role account => ZekoSettlement.revokeRole env s ctx role account
  | .renounceRole ctx role confirmation => ZekoSettlement.renounceRole env s ctx role confirmation
  | .setVkHash ctx newVkHash => ZekoSettlement.setVkHash env s ctx newVkHash
  | .setBridgeContract ctx newBridge => ZekoSettlement.setBridgeContract env s ctx newBridge
  | .appendOuterWitnessBatch sender stateBefore stateAfter count =>
    ZekoSettlement.appendOuterWitnessBatch env s sender stateBefore stateAfter count
  | .verifyAndUpdateRoot ctx publicValues proofBytes =>
    ZekoSettlement.verifyAndUpdateRoot env s ctx publicValues proofBytes

/-- The storage after an accepted action. -/
def act (s : SettlementStorage) (action : SettlementAction) :
    Except SettlementError SettlementStorage := do
  let result ← actionCall env s action
  pure result.1

/-- A deployed settlement contract: the arguments of its initializer and the
storage that it left. -/
structure SettlementDeployment where
  /-- Context of the deploying transaction. -/
  ctx : CallContext
  /-- Arguments of the initializer. -/
  parameters : SettlementParameters
  /-- Storage that it left. -/
  start : SettlementStorage
  /-- Events that it left. -/
  events : List SettlementEvent
  /-- The initializer succeeds. -/
  deployed : initializeSettlement env ctx parameters = .ok (start, events)

/-- What an accepted action does. -/
inductive ActionEffect (s : SettlementStorage) : SettlementAction → SettlementStorage → Prop
  | administer {action : SettlementAction} {next : SettlementStorage} (kind : action.receipt = none)
      (administered : ∃ vkHash bridgeContract hasRole, next = { s with
        vkHash := vkHash, bridgeContract := bridgeContract, hasRole := hasRole }) :
      ActionEffect s action next
  | append {sender : Address} {stateBefore stateAfter : Bytes32} {count : BitVec 32}
      {next : SettlementStorage}
      (appended : WitnessAppended s stateBefore stateAfter count next) :
      ActionEffect s (.appendOuterWitnessBatch sender stateBefore stateAfter count) next
  | settle {ctx : CallContext} {publicValues proofBytes : Bytes} {decoded : DecodedPublicValues}
      {next : SettlementStorage} (decode : decodePublicValues publicValues = .ok decoded)
      (settled : ReceiptSettled env s decoded next) :
      ActionEffect s (.verifyAndUpdateRoot ctx publicValues proofBytes) next

end Runs

variable {env : Environment}

/-- Every accepted action has one of the listed effects. -/
theorem act_effect {s next : SettlementStorage} {action : SettlementAction}
    (h : act env s action = .ok next) : ActionEffect env s action next := by
  rw [act, bind_eq_ok] at h
  obtain ⟨result, hcall, hnext⟩ := h
  rw [pure_eq_ok] at hnext
  subst hnext
  cases action with
  | appendOuterWitnessBatch sender stateBefore stateAfter count =>
    exact .append (appendOuterWitnessBatch_eq_ok env hcall).1
  | verifyAndUpdateRoot ctx publicValues proofBytes =>
    obtain ⟨decoded, -, hdecode, hsettled, -⟩ := verifyAndUpdateRoot_eq_ok env hcall
    exact .settle hdecode hsettled
  | grantRole ctx role account =>
    refine .administer rfl ?_
    simp only [actionCall, ZekoSettlement.grantRole_eq_ok] at hcall
    obtain ⟨-, rfl⟩ := hcall
    exact ⟨_, _, _, rfl⟩
  | revokeRole ctx role account =>
    refine .administer rfl ?_
    simp only [actionCall, ZekoSettlement.revokeRole_eq_ok] at hcall
    obtain ⟨-, rfl⟩ := hcall
    exact ⟨_, _, _, rfl⟩
  | renounceRole ctx role confirmation =>
    refine .administer rfl ?_
    simp only [actionCall, ZekoSettlement.renounceRole_eq_ok] at hcall
    obtain ⟨-, rfl⟩ := hcall
    exact ⟨_, _, _, rfl⟩
  | setVkHash ctx newVkHash =>
    refine .administer rfl ?_
    simp only [actionCall, ZekoSettlement.setVkHash, onlyRole_eq_ok, bind_eq_ok,
      exists_const, pure_eq_ok] at hcall
    obtain ⟨-, rfl⟩ := hcall
    exact ⟨_, _, _, rfl⟩
  | setBridgeContract ctx newBridge =>
    refine .administer rfl ?_
    simp only [actionCall, ZekoSettlement.setBridgeContract, onlyRole_eq_ok, bind_eq_ok,
      require_eq_ok, exists_const, pure_eq_ok, AccessControl.internalRevokeRole_eq,
      AccessControl.internalGrantRole_eq] at hcall
    obtain ⟨-, -, rfl⟩ := hcall
    exact ⟨_, _, _, rfl⟩

namespace SettlementDeployment

/-- The storage reached by attempting the actions in order. -/
def reached (d : SettlementDeployment env) (actions : List SettlementAction) : SettlementStorage :=
  run (act env) d.start actions

/-- The accepted actions, each with the storage it was accepted in. -/
def history (d : SettlementDeployment env) (actions : List SettlementAction) :
    List (SettlementStorage × SettlementAction) :=
  accepted (act env) d.start actions

/-- The storages that a run went through, from the initial one to the last. -/
def visited (d : SettlementDeployment env) (actions : List SettlementAction) :
    List SettlementStorage :=
  (d.history actions).map (·.1) ++ [d.reached actions]

/-- The receipts accepted in a run, oldest first. -/
def receipts (d : SettlementDeployment env) (actions : List SettlementAction) :
    List DecodedPublicValues :=
  (d.history actions).filterMap (·.2.receipt)

end SettlementDeployment

/-- What holds after a history of accepted actions. -/
structure SettlementSound (history : List (SettlementStorage × SettlementAction))
    (s : SettlementStorage) : Prop where
  /-- The current head has a checkpoint of the current length. -/
  head : s.outerActionStateInfo s.actionState = ⟨s.outerActionStateLength, true⟩
  /-- No checkpoint is longer than the current chain. -/
  bounded : ∀ state, (s.outerActionStateInfo state).valid = true →
    (s.outerActionStateInfo state).length.toNat ≤ s.outerActionStateLength.toNat
  /-- Every checkpoint was the head at its length. -/
  heads : ∀ state, (s.outerActionStateInfo state).valid = true →
    ∃ earlier ∈ history.map (·.1) ++ [s], earlier.actionState = state ∧
      earlier.outerActionStateLength = (s.outerActionStateInfo state).length
  /-- The ledger root is a field of the outer state. -/
  root : s.currentRoot = s.outerState 2
  /-- The registry count adds up the accepted records. -/
  counted : s.assetRegistryCount.toNat =
    ((history.filterMap (·.2.receipt)).map appendedRecords).sum
  /-- The registry stays within its capacity. -/
  capacity : s.assetRegistryCount.toNat ≤ assetRegistryCapacity

/-- A later storage was visited by the history that ends in it. -/
theorem mem_visited_concat {history : List (SettlementStorage × SettlementAction)}
    {s next earlier : SettlementStorage} {action : SettlementAction}
    (h : earlier ∈ history.map (·.1) ++ [s]) :
    earlier ∈ (history ++ [(s, action)]).map (·.1) ++ [next] := by
  rw [List.map_append]
  exact List.mem_append_left _ h

section Step

variable {history : List (SettlementStorage × SettlementAction)} {s next : SettlementStorage}
  {action : SettlementAction}

/-- A new head with a checkpoint of its own length keeps the checkpoints sound. -/
theorem checkpoints_moved {stateAfter : Bytes32} (moved : SettlementAction)
    (h : SettlementSound history s)
    (hstate : next.actionState = stateAfter)
    (hlength : s.outerActionStateLength.toNat ≤ next.outerActionStateLength.toNat)
    (hinfo : next.outerActionStateInfo =
      Function.update s.outerActionStateInfo stateAfter ⟨next.outerActionStateLength, true⟩) :
    next.outerActionStateInfo next.actionState = ⟨next.outerActionStateLength, true⟩ ∧
    ∀ state, (next.outerActionStateInfo state).valid = true →
      (next.outerActionStateInfo state).length.toNat ≤ next.outerActionStateLength.toNat ∧
      ∃ earlier ∈ (history ++ [(s, moved)]).map (·.1) ++ [next], earlier.actionState = state ∧
        earlier.outerActionStateLength = (next.outerActionStateInfo state).length := by
  have hhead : next.outerActionStateInfo stateAfter = ⟨next.outerActionStateLength, true⟩ := by
    rw [hinfo, Function.update_self]
  refine ⟨hstate ▸ hhead, ?_⟩
  intro state hvalid
  by_cases hnew : state = stateAfter
  · rw [hnew, hhead]
    exact ⟨le_refl _, next, List.mem_append_right _ List.mem_cons_self, hstate, rfl⟩
  · have hold : next.outerActionStateInfo state = s.outerActionStateInfo state := by
      rw [hinfo, Function.update_of_ne hnew]
    rw [hold] at hvalid ⊢
    obtain ⟨earlier, hearlier, hhas⟩ := h.heads state hvalid
    exact ⟨le_trans (h.bounded state hvalid) hlength, earlier, mem_visited_concat hearlier, hhas⟩

/-- The receipts of a history that grew by an action. -/
theorem receipts_concat :
    (history ++ [(s, action)]).filterMap (·.2.receipt) =
      history.filterMap (·.2.receipt) ++ action.receipt.toList := by
  rw [List.filterMap_append]
  cases hreceipt : action.receipt with
  | none => simp [hreceipt]
  | some decoded => simp [hreceipt]

/-- Administration keeps the invariant. -/
theorem SettlementSound.administered (h : SettlementSound history s) (kind : action.receipt = none)
    (hnext : ∃ vkHash bridgeContract hasRole, next = { s with
      vkHash := vkHash, bridgeContract := bridgeContract, hasRole := hasRole }) :
    SettlementSound (history ++ [(s, action)]) next := by
  obtain ⟨_, _, _, rfl⟩ := hnext
  refine ⟨h.head, h.bounded, ?_, h.root, ?_, h.capacity⟩
  · intro state hvalid
    obtain ⟨earlier, hearlier, hhas⟩ := h.heads state hvalid
    exact ⟨earlier, mem_visited_concat hearlier, hhas⟩
  · rw [receipts_concat, kind, Option.toList_none, List.append_nil]
    exact h.counted

/-- Appends keep the invariant. -/
theorem SettlementSound.appended {stateBefore stateAfter : Bytes32} {count : BitVec 32}
    (h : SettlementSound history s) (kind : action.receipt = none)
    (happended : WitnessAppended s stateBefore stateAfter count next) :
    SettlementSound (history ++ [(s, action)]) next := by
  have hlength := happended.length_eq
  obtain ⟨hhead, hcheckpoints⟩ := checkpoints_moved action h happended.actionState_eq
    (by omega) happended.outerActionStateInfo_eq
  refine ⟨hhead, fun state hvalid => (hcheckpoints state hvalid).1,
    fun state hvalid => (hcheckpoints state hvalid).2, ?_, ?_, ?_⟩
  · rw [happended.currentRoot_eq, happended.outerState_eq, h.root]
  · rw [receipts_concat, kind, Option.toList_none, List.append_nil,
      happended.assetRegistryCount_eq]
    exact h.counted
  · rw [happended.assetRegistryCount_eq]
    exact h.capacity

/-- A receipt adds the records that it appends. -/
theorem registry_settled {decoded : DecodedPublicValues} (hsettled : ReceiptSettled env s decoded next)
    (hcapacity : s.assetRegistryCount.toNat ≤ assetRegistryCapacity) :
    next.assetRegistryCount.toNat = s.assetRegistryCount.toNat + appendedRecords decoded ∧
      next.assetRegistryCount.toNat ≤ assetRegistryCapacity := by
  have hcount := hsettled.assetRegistryCount_eq
  rw [settledRegistryCount] at hcount
  by_cases hfour : decoded.version = 4
  · rw [if_pos hfour] at hcount
    rw [hcount]
    exact hsettled.appended (.inr hfour)
  · rw [if_neg hfour] at hcount
    by_cases hthree : decoded.version = 3
    · rw [if_pos hthree] at hcount
      rw [hcount]
      exact hsettled.appended (.inl hthree)
    · rw [if_neg hthree] at hcount
      rw [hcount, appendedRecords, if_neg hthree, if_neg hfour]
      exact ⟨rfl, hcapacity⟩

/-- Accepted receipts keep the invariant. -/
theorem SettlementSound.settled {decoded : DecodedPublicValues} (h : SettlementSound history s)
    (kind : action.receipt = some decoded) (hsettled : ReceiptSettled env s decoded next) :
    SettlementSound (history ++ [(s, action)]) next := by
  have hlength := hsettled.lengthAfter
  rw [← hsettled.outerActionStateLength_eq] at hlength
  have hinfo := hsettled.outerActionStateInfo_eq
  rw [← hsettled.outerActionStateLength_eq] at hinfo
  obtain ⟨hhead, hcheckpoints⟩ := checkpoints_moved action h hsettled.actionState_eq
    (by omega) hinfo
  obtain ⟨hcount, hcapacity⟩ := registry_settled hsettled h.capacity
  refine ⟨hhead, fun state hvalid => (hcheckpoints state hvalid).1,
    fun state hvalid => (hcheckpoints state hvalid).2, ?_, ?_, hcapacity⟩
  · rw [hsettled.currentRoot_eq, hsettled.outerState_eq]
  · rw [receipts_concat, kind, Option.toList_some, List.map_append, List.sum_append, hcount,
      h.counted]
    simp

/-- Every accepted action keeps the invariant. -/
theorem SettlementSound.effect (h : SettlementSound history s)
    (heffect : ActionEffect env s action next) :
    SettlementSound (history ++ [(s, action)]) next := by
  cases heffect with
  | administer kind administered => exact h.administered kind administered
  | append appended => exact h.appended rfl appended
  | @settle ctx publicValues proofBytes decoded _ decode settled =>
    refine h.settled ?_ settled
    rw [SettlementAction.receipt, decode]
    rfl

end Step

/-- A freshly initialized contract has one checkpoint and no records. -/
theorem start_sound (d : SettlementDeployment env) : SettlementSound [] d.start := by
  have h := d.deployed
  simp only [initializeSettlement, bind_eq_ok, require_eq_ok, exists_const, pure_eq_ok] at h
  obtain ⟨-, -, recorded, hrecorded, hstart⟩ := h
  obtain ⟨table, rfl⟩ := recordAcceptedInnerState_eq_ok hrecorded
  obtain ⟨hstorage, -⟩ := Prod.mk.inj hstart
  have htable : d.start.outerActionStateInfo = Function.update (fun _ => ⟨0, false⟩)
      d.parameters.initialOuterActionState ⟨d.parameters.initialOuterActionStateLength, true⟩ := by
    rw [← hstorage]
  have hinfo : ∀ state, (d.start.outerActionStateInfo state).valid = true →
      state = d.parameters.initialOuterActionState := by
    intro state hvalid
    by_contra hne
    rw [htable, Function.update_of_ne hne] at hvalid
    cases hvalid
  have hhead : d.start.outerActionStateInfo d.parameters.initialOuterActionState =
      ⟨d.parameters.initialOuterActionStateLength, true⟩ := by
    rw [htable, Function.update_self]
  have hstate : d.start.actionState = d.parameters.initialOuterActionState := by rw [← hstorage]
  have hlength : d.start.outerActionStateLength = d.parameters.initialOuterActionStateLength := by
    rw [← hstorage]
  have hcount : d.start.assetRegistryCount = 0 := by
    rw [← hstorage]
    rfl
  refine ⟨?_, ?_, ?_, ?_, ?_, ?_⟩
  · rw [hstate, hhead, hlength]
  · intro state hvalid
    rw [hinfo state hvalid, hhead, hlength]
  · intro state hvalid
    refine ⟨d.start, List.mem_cons_self, ?_, ?_⟩
    · rw [hinfo state hvalid, hstate]
    · rw [hinfo state hvalid, hhead, hlength]
  · rw [← hstorage]
  · rw [hcount]
    rfl
  · rw [hcount]
    exact Nat.zero_le _

/-- The invariant holds after every run. -/
theorem reached_sound (d : SettlementDeployment env) (actions : List SettlementAction) :
    SettlementSound (d.history actions) (d.reached actions) :=
  history_invariant (J := fun history s => SettlementSound history s) (Q := fun _ => True)
    (fun _ _ _ _ hs _ h => hs.effect (act_effect h)) actions [] (start_sound d)
    (fun _ _ => trivial)

/-- The appended records are one for each receipt of the third version and the
batch counts of the fourth. -/
theorem sum_appendedRecords (receipts : List DecodedPublicValues) :
    (receipts.map appendedRecords).sum = receipts.countP (fun r => r.version = 3) +
      ((receipts.filter fun r => r.version = 4).map fun r => r.assetRecordBatchCount.toNat).sum := by
  induction receipts with
  | nil => rfl
  | cons receipt receipts ih =>
    simp only [List.map_cons, List.sum_cons, ih, appendedRecords, List.countP_cons,
      List.filter_cons, decide_eq_true_eq]
    by_cases hthree : receipt.version = 3
    · have hfour : receipt.version ≠ 4 := by
        rw [hthree]
        decide
      rw [if_pos hthree, if_pos hthree, if_neg hfour]
      omega
    · by_cases hfour : receipt.version = 4
      · rw [if_neg hthree, if_pos hfour, if_neg hthree, if_pos hfour, List.map_cons, List.sum_cons]
        omega
      · rw [if_neg hthree, if_neg hfour, if_neg hthree, if_neg hfour]
        omega

/-- The invariants of the settlement contract, over every run of its entry points
with any receipts that the verifier accepts: the current head has a checkpoint
of the current length; no checkpoint is longer than the chain; the ledger root is
field 2 of the outer state; the registry count is the number of accepted
third-version receipts plus the appended records of the accepted fourth-version
receipts, at most 256; and an accepted receipt raises the sequence by one and
synchronizes with a state that was the head at exactly the synchronized length. -/
theorem settlement_invariants (d : SettlementDeployment env) (actions : List SettlementAction) :
    (d.reached actions).outerActionStateInfo (d.reached actions).actionState =
      ⟨(d.reached actions).outerActionStateLength, true⟩ ∧
    (∀ state, ((d.reached actions).outerActionStateInfo state).valid = true →
      ((d.reached actions).outerActionStateInfo state).length.toNat ≤
        (d.reached actions).outerActionStateLength.toNat) ∧
    (d.reached actions).currentRoot = (d.reached actions).outerState 2 ∧
    (d.reached actions).assetRegistryCount.toNat =
      (d.receipts actions).countP (fun r => r.version = 3) +
        (((d.receipts actions).filter fun r => r.version = 4).map
          fun r => r.assetRecordBatchCount.toNat).sum ∧
    (d.reached actions).assetRegistryCount.toNat ≤ 256 ∧
    ∀ ctx publicValues proofBytes result,
      ZekoSettlement.verifyAndUpdateRoot env (d.reached actions) ctx publicValues proofBytes =
        .ok result →
      result.1.batchSequence.toNat = (d.reached actions).batchSequence.toNat + 1 ∧
      ∃ decoded, decodePublicValues publicValues = .ok decoded ∧
        ∃ head ∈ d.visited actions,
          head.actionState = decoded.synchronizedOuterActionState ∧
          head.outerActionStateLength = decoded.synchronizedOuterActionStateLength := by
  have hsound := reached_sound d actions
  have hcounted := hsound.counted
  rw [sum_appendedRecords] at hcounted
  refine ⟨hsound.head, hsound.bounded, hsound.root, hcounted, hsound.capacity, ?_⟩
  intro ctx publicValues proofBytes result haccepted
  obtain ⟨decoded, -, hdecode, hsettled, -⟩ := verifyAndUpdateRoot_eq_ok env haccepted
  have hsynchronized := hsettled.synchronized
  have hvalid : ((d.reached actions).outerActionStateInfo
      decoded.synchronizedOuterActionState).valid = true := by rw [hsynchronized]
  obtain ⟨head, hhead, hstate, hlength⟩ := hsound.heads _ hvalid
  rw [hsynchronized] at hlength
  refine ⟨?_, decoded, hdecode, head, hhead, hstate, hlength⟩
  rw [hsettled.batchSequence_eq, hsettled.sequence]

/-- The settlement contract of the concrete deployment. -/
def settlementContract : SettlementDeployment environment where
  ctx := ⟨admin, 1000⟩
  parameters := settlementParameters
  start := ((initializeSettlement environment ⟨admin, 1000⟩ settlementParameters).toOption.get
    (by decide)).1
  events := ((initializeSettlement environment ⟨admin, 1000⟩ settlementParameters).toOption.get
    (by decide)).2
  deployed := eq_ok_get (by decide)

/-- The concrete receipt is accepted once the bridge is named, with sequence one. -/
theorem settlement_invariants_first :
    ∃ result, ZekoSettlement.verifyAndUpdateRoot environment
        (settlementContract.reached [.setBridgeContract ⟨admin, 1000⟩ bridgeAddress])
        ⟨admin, 1000⟩ settlementReceipt [] = .ok result ∧
      result.1.batchSequence.toNat = 0 + 1 := by
  have haccepted : (ZekoSettlement.verifyAndUpdateRoot environment
      (settlementContract.reached [.setBridgeContract ⟨admin, 1000⟩ bridgeAddress])
      ⟨admin, 1000⟩ settlementReceipt []).toOption.isSome = true := by decide +kernel
  have hsequence : (settlementContract.reached
      [.setBridgeContract ⟨admin, 1000⟩ bridgeAddress]).batchSequence.toNat = 0 := by
    decide +kernel
  obtain ⟨-, -, -, -, -, hreceipts⟩ := settlement_invariants settlementContract
    [.setBridgeContract ⟨admin, 1000⟩ bridgeAddress]
  have hnext := (hreceipts _ _ _ _ (eq_ok_get haccepted)).1
  rw [hsequence] at hnext
  exact ⟨_, eq_ok_get haccepted, hnext⟩

variable {W : TokenWorld}

/-- A run of one accepted action. -/
theorem run_single {s : SettlementStorage} {action : SettlementAction}
    {result : SettlementStorage × List SettlementEvent} (h : actionCall env s action = .ok result) :
    run (act env) s [action] = result.1 := by
  have hact : act env s action = .ok result.1 := by rw [act, h]; rfl
  rw [run_cons, exec_of_ok hact]
  rfl

/-- The appends of a bridge transition are a run of the settlement contract. -/
theorem appendActions_run {publicValues : Bytes} {remaining i : ℕ} {stateBefore : Bytes32}
    {s : SettlementStorage} {result : Bytes32 × SettlementStorage × List SettlementEvent}
    (h : appendActions env publicValues remaining i stateBefore s = .ok result) :
    ∃ actions, run (act env) s actions = result.2.1 := by
  induction remaining generalizing i stateBefore s result with
  | zero =>
    rw [appendActions, pure_eq_ok] at h
    subst h
    exact ⟨[], rfl⟩
  | succ remaining ih =>
    simp only [appendActions, bind_eq_ok, callSettlement_eq_ok, pure_eq_ok] at h
    obtain ⟨appended, happended, rest, hrest, rfl⟩ := h
    obtain ⟨actions, hactions⟩ := ih hrest
    refine ⟨.appendOuterWitnessBatch env.bridgeAddress stateBefore
      (readActionState publicValues i) 1 :: actions, ?_⟩
    have hfirst : act env s (.appendOuterWitnessBatch env.bridgeAddress stateBefore
        (readActionState publicValues i) 1) = .ok appended.1 := by
      rw [act, actionCall, happended]
      rfl
    rw [run_cons, exec_of_ok hfirst, hactions]

/-- A settlement call of a transaction is a run of one action. -/
theorem settlementStep_run {c next : Chain W} (action : SettlementAction)
    (h : BridgeSystem.settlementStep c (actionCall env c.settlement action) = .ok next) :
    ∃ actions, run (act env) c.settlement actions = next.settlement := by
  simp only [BridgeSystem.settlementStep, bind_eq_ok, callSettlement_eq_ok, pure_eq_ok] at h
  obtain ⟨result, hresult, rfl⟩ := h
  exact ⟨[action], run_single hresult⟩

/-- Calls that never reach the settlement contract. -/
def keepsSettlement : Call → Bool
  | .emergencyWithdrawToken .. | .submitDeposit .. | .depositETH .. => true
  | .claimNativeWithdrawal .. | .claimERC20Withdrawal .. => true
  | .proposeAsset .. | .cancelLastPendingAsset .. | .activateAsset .. => true
  | .activateAssetFromBatch .. | .setAssetStatus .. => true
  | .transferToken .. | .forceEther .. => true
  | _ => false

/-- They keep its storage. -/
theorem settlement_kept {c next : Chain W} {ctx : CallContext} {call : Call}
    (h : Effect env c ctx call next) (hcall : keepsSettlement call = true) :
    next.settlement = c.settlement := by
  cases h with
  | @administer call _ kind administered =>
    cases call <;> first | exact absurd kind Bool.false_ne_true | exact absurd hcall Bool.false_ne_true
  | settle => cases hcall
  | append => cases hcall
  | transition => cases hcall
  | nativeDeposit => rfl
  | tokenDeposit => rfl
  | nativeClaim => rfl
  | tokenClaim => rfl
  | etherRescue => rfl
  | tokenRescue => rfl
  | propose proposed => exact proposed.settlement_eq
  | cancel cancelled => exact cancelled.settlement_eq
  | activate _ activated => exact activated.settlement_eq
  | status changed => exact changed.settlement_eq
  | tokenTransfer => rfl
  | etherForced => rfl

/-- A transaction of the whole system is a run of the settlement contract. -/
theorem step_run {c next : Chain W} {tx : Transaction} (h : BridgeSystem.step env c tx = .ok next) :
    ∃ actions, run (act env) c.settlement actions = next.settlement := by
  have heffect := step_effect env h
  rw [BridgeSystem.step, require_bind_eq_ok] at h
  obtain ⟨-, h⟩ := h
  obtain ⟨ctx, call⟩ := tx
  have hkept : next.settlement = c.settlement →
      ∃ actions, run (act env) c.settlement actions = next.settlement :=
    fun hsame => ⟨[], hsame.symm⟩
  cases call with
  | settlementGrantRole role account => exact settlementStep_run (.grantRole ctx role account) h
  | settlementRevokeRole role account => exact settlementStep_run (.revokeRole ctx role account) h
  | settlementRenounceRole role confirmation =>
    exact settlementStep_run (.renounceRole ctx role confirmation) h
  | setVkHash newVkHash => exact settlementStep_run (.setVkHash ctx newVkHash) h
  | setBridgeContract newBridge => exact settlementStep_run (.setBridgeContract ctx newBridge) h
  | appendOuterWitnessBatch stateBefore stateAfter count =>
    exact settlementStep_run (.appendOuterWitnessBatch ctx.sender stateBefore stateAfter count) h
  | verifyAndUpdateRoot publicValues proofBytes =>
    exact settlementStep_run (.verifyAndUpdateRoot ctx publicValues proofBytes) h
  | submitBridgeTransition publicValues proofBytes =>
    simp only [execute, submitBridgeTransition, applyBridgeTransition, onlyBridgeRole_eq_ok,
      whenNotPaused_eq_ok, bind_eq_ok, require_eq_ok, exists_const, pure_eq_ok] at h
    obtain ⟨-, -, -, decoded, -, -, -, -, -, length, -, -, -, -, -, nonce, -, -, -, appended, happended,
      -, rfl⟩ := h
    exact appendActions_run happended
  | bridgeGrantRole role account =>
    apply hkept
    simp only [execute, grantBridgeRole_eq_ok] at h
    obtain ⟨_, -, rfl⟩ := h
    rfl
  | bridgeRevokeRole role account =>
    apply hkept
    simp only [execute, revokeBridgeRole_eq_ok] at h
    obtain ⟨_, -, rfl⟩ := h
    rfl
  | bridgeRenounceRole role confirmation =>
    apply hkept
    simp only [execute, renounceBridgeRole_eq_ok] at h
    obtain ⟨_, -, rfl⟩ := h
    rfl
  | pause =>
    apply hkept
    simp only [execute, pause_eq_ok] at h
    obtain ⟨_, -, _, -, rfl⟩ := h
    rfl
  | unpause =>
    apply hkept
    simp only [execute, unpause_eq_ok] at h
    obtain ⟨_, -, _, -, rfl⟩ := h
    rfl
  | setWithdrawalDelaySlots newDelay =>
    apply hkept
    simp only [execute, setWithdrawalDelaySlots, bind_eq_ok, pure_eq_ok] at h
    obtain ⟨_, -, rfl⟩ := h
    rfl
  | _ => exact hkept (settlement_kept heffect rfl)

/-- Every run of the whole system is a run of its settlement contract. -/
theorem reached_settlement (d : Deployment env W) :
    ∃ s : SettlementDeployment env, s.parameters = d.settlement ∧ ∀ transactions, ∃ actions,
      s.reached actions = (d.reached transactions).settlement := by
  have hdeployed := d.deployed
  simp only [deploy, bind_eq_ok, pure_eq_ok, callSettlement_eq_ok] at hdeployed
  obtain ⟨settled, hsettled, bridged, -, hstart⟩ := hdeployed
  refine ⟨⟨d.ctx, d.settlement, settled.1, settled.2, hsettled⟩, rfl, ?_⟩
  have hstep : ∀ (c : Chain W) (tx : Transaction) (next : Chain W),
      (∃ actions, run (act env) settled.1 actions = c.settlement) →
      BridgeSystem.step env c tx = .ok next →
      ∃ actions, run (act env) settled.1 actions = next.settlement := by
    rintro c tx next ⟨actions, hactions⟩ hnext
    obtain ⟨more, hmore⟩ := step_run hnext
    refine ⟨actions ++ more, ?_⟩
    rw [run_append, hactions, hmore]
  have hfirst : ∃ actions, run (act env) settled.1 actions = d.start.settlement := by
    refine ⟨[], ?_⟩
    rw [← hstart]
    rfl
  exact fun transactions => run_invariant hstep hfirst transactions

end EthereumSettlement.SettlementRuns
