import EthereumSettlement.DepositChain
import EthereumSettlement.ReferenceDeployment
import Mathlib.Data.List.Forall2

/-!
# Every deposit is bridged exactly once

A bridge receipt replays a stretch of the deposit chain between two states that
the contract stores. When the verifier accepts only receipts that the bridge
guest emits, and no two strings hashed on either side collide, the replayed
deposits are the unbridged ones, in order. The witness links of the outer action
chain are therefore the actions of the bridged deposits, one each, in the order
of their nonces.
-/

namespace EthereumSettlement.BridgedDeposits

open ByteWords CheckedCalls HashCommitments TransitionRuns PastaPoseidon InnerActionCommitment
open SettlementCodec BridgeCodec BridgeGuest ZekoSettlement EthereumZekoBridge BridgeSystem
open StepEffects RunInvariants DepositChain ReferenceDeployment

section Stretches

variable {H : Hashes}

/-- The strings of two stretches one after the other. -/
theorem depositChainInputs_append (chainId : BitVec 256) (bridgeAddress : Address) (state : Bytes32)
    (first second : List DepositRecord) :
    depositChainInputs H chainId bridgeAddress state (first ++ second) =
      depositChainInputs H chainId bridgeAddress state first ++
        depositChainInputs H chainId bridgeAddress
          (first.foldl (depositChainStep H chainId bridgeAddress) state) second := by
  induction first generalizing state with
  | nil => rfl
  | cons record first ih =>
    rw [List.cons_append, depositChainInputs, depositChainInputs, ih, List.foldl_cons,
      List.cons_append, List.cons_append]

/-- The leaf string of every record of a stretch is hashed. -/
theorem leafInput_mem {chainId : BitVec 256} {bridgeAddress : Address} {state : Bytes32}
    {records : List DepositRecord} {record : DepositRecord} (h : record ∈ records) :
    record.leafInput H chainId bridgeAddress ∈
      depositChainInputs H chainId bridgeAddress state records := by
  induction records generalizing state with
  | nil => exact absurd h List.not_mem_nil
  | cons first records ih =>
    rw [depositChainInputs]
    rcases List.mem_cons.mp h with rfl | hrest
    · exact List.mem_cons_self
    · exact List.mem_cons_of_mem _ (List.mem_cons_of_mem _ (ih hrest))

/-- The state string of every link of a stretch is hashed. -/
theorem depositStateInput_mem {chainId : BitVec 256} {bridgeAddress : Address} {state : Bytes32}
    {records : List DepositRecord} {pair : Bytes32 × Bytes32}
    (h : pair ∈ chainPairs (computeNextDepositState H) state
      (records.map (·.leaf H chainId bridgeAddress))) :
    depositStateInput H pair.1 pair.2 ∈
      depositChainInputs H chainId bridgeAddress state records := by
  induction records generalizing state with
  | nil => exact absurd h List.not_mem_nil
  | cons first records ih =>
    rw [depositChainInputs]
    rw [List.map_cons, chainPairs] at h
    rcases List.mem_cons.mp h with rfl | hrest
    · exact List.mem_cons_of_mem _ List.mem_cons_self
    · exact List.mem_cons_of_mem _ (List.mem_cons_of_mem _ (ih hrest))

/-- Records with equal leaves are equal, unless two leaf strings collide. -/
theorem records_of_leaves {c d : BitVec 256} {a b : Address} {records others : List DepositRecord}
    {strings : List Bytes} (hcf : CollisionFree H.keccak256 strings)
    (hrecords : ∀ record ∈ records, record.leafInput H c a ∈ strings)
    (hothers : ∀ record ∈ others, record.leafInput H d b ∈ strings)
    (h : records.map (·.leaf H c a) = others.map (·.leaf H d b)) :
    records = others ∧ (records ≠ [] → c = d ∧ a = b) := by
  induction records generalizing others with
  | nil =>
    cases others with
    | nil => exact ⟨rfl, fun hne => absurd rfl hne⟩
    | cons other others => cases h
  | cons record records ih =>
    cases others with
    | nil => cases h
    | cons other others =>
      rw [List.map_cons, List.map_cons] at h
      obtain ⟨hleaf, hrest⟩ := List.cons.inj h
      have hinput := hcf _ (hrecords record List.mem_cons_self) _ (hothers other List.mem_cons_self)
        hleaf
      obtain ⟨hchain, hbridge, hrecord⟩ := DepositRecord.leafInput_injective H hinput
      have htail := (ih (fun r hr => hrecords r (List.mem_cons_of_mem _ hr))
        (fun r hr => hothers r (List.mem_cons_of_mem _ hr)) hrest).1
      exact ⟨by rw [hrecord, htail], fun _ => ⟨hchain, hbridge⟩⟩

/-- Two equally long stretches that end in one state are the same stretch, unless
two of their strings collide. -/
theorem stretch_unique {c d : BitVec 256} {a b : Address} {s t : Bytes32}
    {records others : List DepositRecord}
    (hcf : CollisionFree H.keccak256
      (depositChainInputs H c a s records ++ depositChainInputs H d b t others))
    (hlength : records.length = others.length)
    (hmeet : records.foldl (depositChainStep H c a) s = others.foldl (depositChainStep H d b) t) :
    s = t ∧ records = others ∧ (records ≠ [] → c = d ∧ a = b) := by
  have hpairs : CollisionFree (fun pair : Bytes32 × Bytes32 =>
      computeNextDepositState H pair.1 pair.2)
      (chainPairs (computeNextDepositState H) s (records.map (·.leaf H c a)) ++
        chainPairs (computeNextDepositState H) t (others.map (·.leaf H d b))) := by
    have hmem : ∀ pair ∈ chainPairs (computeNextDepositState H) s (records.map (·.leaf H c a)) ++
        chainPairs (computeNextDepositState H) t (others.map (·.leaf H d b)),
        depositStateInput H pair.1 pair.2 ∈
          depositChainInputs H c a s records ++ depositChainInputs H d b t others := by
      intro pair hpair
      rcases List.mem_append.mp hpair with hleft | hright
      · exact List.mem_append_left _ (depositStateInput_mem hleft)
      · exact List.mem_append_right _ (depositStateInput_mem hright)
    intro x hx y hy hsame
    have hinput := hcf _ (hmem x hx) _ (hmem y hy) hsame
    obtain ⟨hstate, hleaf⟩ := depositStateInput_injective H hinput
    exact Prod.ext hstate hleaf
  have hfold : (records.map (·.leaf H c a)).foldl (computeNextDepositState H) s =
      (others.map (·.leaf H d b)).foldl (computeNextDepositState H) t := by
    rw [List.foldl_map, List.foldl_map]
    exact hmeet
  obtain ⟨hstart, hleaves⟩ := chain_binding hpairs
    (by rw [List.length_map, List.length_map, hlength]) hfold
  obtain ⟨hrecords, hcontext⟩ := records_of_leaves hcf
    (fun record hrecord => List.mem_append_left _ (leafInput_mem hrecord))
    (fun record hrecord => List.mem_append_right _ (leafInput_mem hrecord)) hleaves
  exact ⟨hstart, hrecords, hcontext⟩

end Stretches

/-- A verifier that accepts only what the bridge guest emits: an input of the
guest for each accepted receipt. -/
structure BridgeProver (env : Environment) (verifier : Address) (programVKey : Bytes32) where
  /-- The input from which the guest emitted a receipt. -/
  emitter : Bytes → BridgeTransitionInput
  /-- Accepted receipts were emitted. -/
  emits : ∀ publicValues proofBytes,
    env.verifyProof verifier programVKey publicValues proofBytes = true →
    bridgeGuest env.hashes (emitter publicValues) = .ok publicValues

variable {env : Environment} {W : TokenWorld} {verifier : Address} {programVKey : Bytes32}

/-- Every leaf and state string that the bridge guest hashed for some receipts. -/
def BridgeProver.strings (B : BridgeProver env verifier programVKey) (receipts : List Bytes) :
    List Bytes :=
  receipts.flatMap fun publicValues =>
    depositChainInputs env.hashes (toWord (B.emitter publicValues).ethereum.chainId)
      (B.emitter publicValues).ethereum.bridgeAddress
      (B.emitter publicValues).ethereum.depositState
      (depositRecords (B.emitter publicValues).ethereum.depositNonce
        (B.emitter publicValues).deposits)

/-- The receipt that a call submits to the bridge. -/
def callBridgeReceipt : Call → Option Bytes
  | .submitBridgeTransition publicValues _ => some publicValues
  | _ => none

/-- The bridge receipts accepted in a history, oldest first. -/
def bridgeReceipts (history : List (Chain W × Transaction)) : List Bytes :=
  history.filterMap fun entry => callBridgeReceipt entry.2.call

/-- Earlier receipts stay in the history. -/
theorem bridgeReceipts_subset (history : List (Chain W × Transaction))
    (entry : Chain W × Transaction) :
    bridgeReceipts history ⊆ bridgeReceipts (history ++ [entry]) := by
  intro publicValues h
  rw [bridgeReceipts, List.filterMap_append]
  exact List.mem_append_left _ h

/-- The receipt of the last transaction is in the history. -/
theorem mem_bridgeReceipts (history : List (Chain W × Transaction)) {c : Chain W} {tx : Transaction}
    {publicValues : Bytes} (h : callBridgeReceipt tx.call = some publicValues) :
    publicValues ∈ bridgeReceipts (history ++ [(c, tx)]) := by
  rw [bridgeReceipts, List.filterMap_append]
  apply List.mem_append_right
  simp only [List.filterMap_cons, h, List.filterMap_nil, List.mem_singleton]

/-- The guest's states are the ones that the contract reads. -/
theorem appendedStates_encode {v : BridgeTransitionPublicValuesV2} {encoded : Bytes}
    (h : v.encode = .ok encoded) :
    appendedStates encoded v.decoded.depositCount = v.actions.map (·.stateAfter) := by
  have hcount : v.decoded.depositCount.toNat = v.actions.length := by
    rw [BridgeTransitionPublicValuesV2.encode, require_bind_eq_ok] at h
    change (BitVec.ofNat 32 v.actions.length).toNat = _
    rw [BitVec.toNat_ofNat, Nat.mod_eq_of_lt h.1]
  apply List.ext_getElem
  · rw [appendedStates_length, List.length_map, hcount]
  · intro i hi hi'
    rw [List.length_map] at hi'
    simp only [appendedStates, List.getElem_map, List.getElem_range', Nat.zero_add, Nat.one_mul]
    exact readActionState_encode h i hi'

/-- Whether a contribution is a witness link. -/
def isWitness : OuterContribution → Bool
  | .witness _ _ _ => true
  | .commit _ => false

/-- The witness links of a log, oldest first. -/
def witnessLinksOf (log : List ChainEvent) : List OuterContribution :=
  (contributions log).filter isWitness

/-- A witness link is the action of a deposit, taken from the state before it. -/
def Bridges (env : Environment) (link : OuterContribution) (record : DepositRecord) : Prop :=
  ∃ state, link = .witness (fieldToBytes state)
    (fieldToBytes (actionChainStep env.hashes env.bridgeAddress state record)) 1

/-- Contributions that lead from one outer action state to another. -/
inductive OuterChain (start : Bytes32) : List OuterContribution → Bytes32 → Prop
  | nil : OuterChain start [] start
  | commit {links : List OuterContribution} {state : Bytes32} (stateAfter : Bytes32)
      (chain : OuterChain start links state) :
      OuterChain start (links ++ [.commit stateAfter]) stateAfter
  | witness {links : List OuterContribution} {state : Bytes32} (stateAfter : Bytes32)
      (count : BitVec 32) (chain : OuterChain start links state) :
      OuterChain start (links ++ [.witness state stateAfter count]) stateAfter

/-- Consecutive links extend the outer chain. -/
theorem OuterChain.links {start state : Bytes32} {contributions : List OuterContribution}
    (h : OuterChain start contributions state) (states : List Bytes32) :
    OuterChain start (contributions ++ witnessLinks state states) (lastState state states) := by
  induction states generalizing state contributions with
  | nil =>
    rw [witnessLinks, List.append_nil]
    exact h
  | cons stateAfter states ih =>
    have hnext := ih (h.witness stateAfter 1)
    rw [List.append_assoc] at hnext
    exact hnext

/-- The links of a replayed stretch are the actions of its deposits. -/
theorem witnessLinks_bridge (state : StepField) (records : List DepositRecord) :
    List.Forall₂ (Bridges env)
      (witnessLinks (fieldToBytes state)
        ((actionChainStates env.hashes env.bridgeAddress state records).map fieldToBytes))
      records := by
  induction records generalizing state with
  | nil => exact List.Forall₂.nil
  | cons record records ih => exact List.Forall₂.cons ⟨state, rfl⟩ (ih _)

/-- Consecutive links are witness links. -/
theorem filter_witnessLinks (state : Bytes32) (states : List Bytes32) :
    (witnessLinks state states).filter isWitness = witnessLinks state states := by
  rw [List.filter_eq_self]
  induction states generalizing state with
  | nil => exact fun link hlink => absurd hlink List.not_mem_nil
  | cons stateAfter states ih =>
    intro link hlink
    rcases List.mem_cons.mp hlink with rfl | hrest
    · rfl
    · exact ih _ link hrest

/-- The strings that the guest hashes of an input's deposits. -/
def inputStrings (H : Hashes) (input : BridgeTransitionInput) : List Bytes :=
  depositChainInputs H (toWord input.ethereum.chainId) input.ethereum.bridgeAddress
    input.ethereum.depositState (depositRecords input.ethereum.depositNonce input.deposits)

/-- A transition of a receipt that the guest derives from an input replays the
unbridged deposits, for the chain and the bridge of the input. -/
theorem derived_stretch {c next : Chain W} {input : BridgeTransitionInput}
    {v : BridgeTransitionPublicValuesV2} {publicValues : Bytes} {decoded : DecodedBridgePublicValues}
    (hfolded : DepositsFolded env c) (hderive : deriveBridgeTransition env.hashes input = .ok v)
    (hencode : v.encode = .ok publicValues)
    (htransitioned : Transitioned c publicValues decoded next)
    (hcf : CollisionFree env.hashes.keccak256
      (depositChainInputs env.hashes env.chainId env.bridgeAddress (initialDepositState env)
        (deposits c.log) ++ inputStrings env.hashes input)) :
    (deposits c.log).drop c.bridge.bridgedDepositNonce.toNat =
        depositRecords input.ethereum.depositNonce input.deposits ∧
      env.chainId = toWord input.ethereum.chainId ∧
      env.bridgeAddress = input.ethereum.bridgeAddress := by
  have hemitted := deriveBridgeTransition_eq_ok env.hashes hderive
  have hdecoded : decoded = v.decoded :=
    Except.ok.inj (htransitioned.decode.symm.trans (decodeBridgePublicValues_encode hencode))
  have hchecked := htransitioned.checked
  have hcountNat : decoded.depositCount.toNat = v.actions.length := by
    rw [BridgeTransitionPublicValuesV2.encode, require_bind_eq_ok] at hencode
    rw [hdecoded]
    change (BitVec.ofNat 32 v.actions.length).toNat = _
    rw [BitVec.toNat_ofNat, Nat.mod_eq_of_lt hencode.1]
  have hactions := hemitted.actions_length
  have hnonces := hchecked.nonce_eq
  rw [hchecked.nonceAfter, hchecked.nonceBefore] at hnonces
  have hafter : v.ethereumStateAfter = depositFold env (deposits c.log) := by
    have hstored := hchecked.stateAfter
    rw [hfolded.current, hdecoded] at hstored
    exact hstored
  have hsplit : depositFold env (deposits c.log) =
      ((deposits c.log).drop c.bridge.bridgedDepositNonce.toNat).foldl
        (depositChainStep env.hashes env.chainId env.bridgeAddress)
        (depositFold env ((deposits c.log).take c.bridge.bridgedDepositNonce.toNat)) := by
    rw [depositFold, depositFold, ← List.foldl_append, List.take_append_drop]
  have hlength : ((deposits c.log).drop c.bridge.bridgedDepositNonce.toNat).length =
      (depositRecords input.ethereum.depositNonce input.deposits).length := by
    rw [List.length_drop, depositRecords_length, hfolded.count]
    omega
  have hinputs := depositChainInputs_append (H := env.hashes) env.chainId env.bridgeAddress
    (initialDepositState env) ((deposits c.log).take c.bridge.bridgedDepositNonce.toNat)
    ((deposits c.log).drop c.bridge.bridgedDepositNonce.toNat)
  rw [List.take_append_drop] at hinputs
  have hstretch : CollisionFree env.hashes.keccak256
      (depositChainInputs env.hashes env.chainId env.bridgeAddress
        (depositFold env ((deposits c.log).take c.bridge.bridgedDepositNonce.toNat))
        ((deposits c.log).drop c.bridge.bridgedDepositNonce.toNat) ++
      inputStrings env.hashes input) := by
    apply hcf.mono
    intro string hstring
    rcases List.mem_append.mp hstring with hown | hguest
    · apply List.mem_append_left
      rw [hinputs]
      exact List.mem_append_right _ hown
    · exact List.mem_append_right _ hguest
  have hmeet := hsplit.symm.trans (hafter.symm.trans hemitted.ethereumStateAfter)
  obtain ⟨-, hrecords, hcontext⟩ := stretch_unique hstretch hlength hmeet
  have hnonempty : (deposits c.log).drop c.bridge.bridgedDepositNonce.toNat ≠ [] := by
    intro hnil
    have hzero := congrArg List.length hnil
    rw [hlength, depositRecords_length, List.length_nil] at hzero
    exact hemitted.nonempty (List.length_eq_zero_iff.mp hzero)
  exact ⟨hrecords, hcontext hnonempty⟩

/-- A transition of a guest-emitted receipt replays the unbridged deposits. -/
theorem transition_replays (B : BridgeProver env verifier programVKey) {c next : Chain W}
    {publicValues proofBytes : Bytes} {decoded : DecodedBridgePublicValues}
    (hfolded : DepositsFolded env c)
    (hproved : env.verifyProof verifier programVKey publicValues proofBytes = true)
    (htransitioned : Transitioned c publicValues decoded next)
    (hcf : CollisionFree env.hashes.keccak256
      (depositChainInputs env.hashes env.chainId env.bridgeAddress (initialDepositState env)
        (deposits c.log) ++ B.strings [publicValues])) :
    ∃ state, c.settlement.actionState = fieldToBytes state ∧
      appendedStates publicValues decoded.depositCount =
        (actionChainStates env.hashes env.bridgeAddress state
          ((deposits c.log).drop c.bridge.bridgedDepositNonce.toNat)).map fieldToBytes := by
  have hemits := B.emits publicValues proofBytes hproved
  rw [bridgeGuest, bind_eq_ok] at hemits
  obtain ⟨v, hderive, hencode⟩ := hemits
  have hemitted := deriveBridgeTransition_eq_ok env.hashes hderive
  have hdecoded : decoded = v.decoded :=
    Except.ok.inj (htransitioned.decode.symm.trans (decodeBridgePublicValues_encode hencode))
  have hown : CollisionFree env.hashes.keccak256
      (depositChainInputs env.hashes env.chainId env.bridgeAddress (initialDepositState env)
        (deposits c.log) ++ inputStrings env.hashes (B.emitter publicValues)) := by
    apply hcf.mono
    intro string hstring
    rcases List.mem_append.mp hstring with hlog | hguest
    · exact List.mem_append_left _ hlog
    · exact List.mem_append_right _
        (List.mem_flatMap.mpr ⟨publicValues, List.mem_cons_self, hguest⟩)
  obtain ⟨hrecords, -, hbridge⟩ := derived_stretch hfolded hderive hencode htransitioned hown
  obtain ⟨state, hstate, hstateBefore, -, hstates⟩ := hemitted.actionStates
  refine ⟨state, ?_, ?_⟩
  · rw [hstate, ← hstateBefore, ← htransitioned.checked.actionStateBefore, hdecoded]
    rfl
  · rw [hdecoded, appendedStates_encode hencode, hstates, hrecords, ← hbridge]

/-- The contributions in the log lead to the current outer action state. -/
theorem outerChain_of_moved {start : Bytes32} {c next : Chain W} {call : Call}
    (hc : OuterChain start (contributions c.log) c.settlement.actionState)
    (h : ChainsMoved env c next call) :
    OuterChain start (contributions next.log) next.settlement.actionState := by
  cases h with
  | deposit _ linked =>
    rw [linked.contributions_eq, linked.settlement_eq]
    exact hc
  | transition _ transitioned =>
    rw [(transitioned_views transitioned).2, transitioned.appended.framed.actionState_eq]
    exact hc.links _
  | other _ _ outer =>
    cases outer with
    | kept contributions_eq actionState_eq =>
      rw [contributions_eq, actionState_eq]
      exact hc
    | committed _ _ settled contributions_eq =>
      rw [contributions_eq, settled.actionState_eq]
      exact hc.commit _
    | appended appended contributions_eq =>
      rw [contributions_eq, appended.actionState_eq, appended.stateBefore_eq]
      exact hc.witness _ _

/-- A call that appends to the outer chain without the bridge. -/
def appendsDirectly : Call → Bool
  | .appendOuterWitnessBatch _ _ _ => true
  | _ => false

/-- The strings hashed by the deposits of a log. -/
def depositStrings (env : Environment) (log : List ChainEvent) : List Bytes :=
  depositChainInputs env.hashes env.chainId env.bridgeAddress (initialDepositState env) (deposits log)

/-- No transaction forgets a deposit's strings. -/
theorem depositStrings_subset {c next : Chain W} {call : Call} (h : ChainsMoved env c next call) :
    depositStrings env c.log ⊆ depositStrings env next.log := by
  unfold depositStrings
  cases h with
  | deposit _ linked =>
    rw [linked.deposits_eq, depositChainInputs_append]
    exact List.subset_append_left _ _
  | transition _ transitioned =>
    rw [(transitioned_views transitioned).1]
    exact List.Subset.refl _
  | other _ kept _ =>
    rw [kept.deposits_eq]
    exact List.Subset.refl _

/-- The witness links are the actions of the bridged deposits. -/
def DepositsBridged (env : Environment) (c : Chain W) : Prop :=
  List.Forall₂ (Bridges env) (witnessLinksOf c.log)
    ((deposits c.log).take c.bridge.bridgedDepositNonce.toNat)

/-- One transaction without a direct append keeps the links and the bridged
deposits together. -/
theorem depositsBridged_of_moved (B : BridgeProver env verifier programVKey) {c next : Chain W}
    {call : Call} (hverifier : c.bridge.bridgeVerifier = verifier)
    (hkey : c.bridge.bridgeProgramVKey = programVKey) (hfolded : DepositsFolded env c)
    (hdirect : appendsDirectly call = false)
    (hcf : CollisionFree env.hashes.keccak256
      (depositStrings env c.log ++ B.strings (callBridgeReceipt call).toList))
    (hc : DepositsBridged env c) (h : ChainsMoved env c next call) : DepositsBridged env next := by
  cases h with
  | deposit _ linked =>
    have hbridged := hfolded.bridged
    have hcount := hfolded.count
    rw [DepositsBridged, witnessLinksOf, linked.contributions_eq, linked.deposits_eq,
      linked.bridged_eq, List.take_append_of_le_length (by omega)]
    exact hc
  | @transition publicValues proofBytes decoded proved transitioned =>
    rw [hverifier, hkey] at proved
    obtain ⟨state, hstate, hstates⟩ := transition_replays B hfolded proved transitioned hcf
    obtain ⟨hdeposits, hcontributions⟩ := transitioned_views transitioned
    have hlast : next.bridge.bridgedDepositNonce = c.bridge.depositNonce := by
      rw [transitioned.bridge_eq]
      exact transitioned.checked.nonceAfter
    have hall : (deposits c.log).take c.bridge.depositNonce.toNat =
        (deposits c.log).take c.bridge.bridgedDepositNonce.toNat ++
          (deposits c.log).drop c.bridge.bridgedDepositNonce.toNat := by
      rw [List.take_append_drop, List.take_of_length_le (le_of_eq hfolded.count)]
    rw [DepositsBridged, witnessLinksOf, hcontributions, hdeposits, hlast, hall, List.filter_append,
      filter_witnessLinks, hstate, hstates]
    exact List.rel_append hc (witnessLinks_bridge state _)
  | other _ kept outer =>
    have hlinks : witnessLinksOf next.log = witnessLinksOf c.log := by
      unfold witnessLinksOf
      cases outer with
      | kept contributions_eq => rw [contributions_eq]
      | committed _ _ _ contributions_eq =>
        rw [contributions_eq, List.filter_append]
        exact List.append_nil _
      | appended => cases hdirect
    rw [DepositsBridged, hlinks, kept.deposits_eq, kept.bridged_eq]
    exact hc

/-- Exactly-once bridging. In every reachable state the stored deposit states are
the folds of the deposits in the order of their nonces, and the bridged nonce
does not exceed the last. The contributions in the log lead from the initial to
the current outer action state; when nothing but the bridge appends witness
links, the verifier accepts only guest-emitted receipts and no two strings hashed
by deposits or guest runs collide, the witness links are the actions of the
deposits up to the bridged nonce, one each and in order. -/
theorem deposits_bridged_once (d : Deployment env W)
    (B : BridgeProver env d.bridge.bridgeVerifier d.bridge.bridgeProgramVKey)
    (transactions : List Transaction) :
    ((deposits (d.reached transactions).log).length =
        (d.reached transactions).bridge.depositNonce.toNat ∧
      (∀ i record, (deposits (d.reached transactions).log)[i]? = some record →
        record.nonce.toNat = i + 1) ∧
      (∀ nonce : BitVec 64, nonce ≤ (d.reached transactions).bridge.depositNonce →
        (d.reached transactions).bridge.depositStateByNonce nonce =
          ((deposits (d.reached transactions).log).take nonce.toNat).foldl
            (depositChainStep env.hashes env.chainId env.bridgeAddress)
            (initialDepositState env)) ∧
      (d.reached transactions).bridge.currentDepositState =
        (d.reached transactions).bridge.depositStateByNonce
          (d.reached transactions).bridge.depositNonce ∧
      (d.reached transactions).bridge.bridgedDepositNonce ≤
        (d.reached transactions).bridge.depositNonce) ∧
    OuterChain d.settlement.initialOuterActionState (contributions (d.reached transactions).log)
      (d.reached transactions).settlement.actionState ∧
    ((∀ entry ∈ d.history transactions, appendsDirectly entry.2.call = false) →
      CollisionFree env.hashes.keccak256 (depositStrings env (d.reached transactions).log ++
        B.strings (bridgeReceipts (d.history transactions))) →
      List.Forall₂ (Bridges env) (witnessLinksOf (d.reached transactions).log)
        ((deposits (d.reached transactions).log).take
          (d.reached transactions).bridge.bridgedDepositNonce.toNat)) := by
  have hfolded := reached_depositsFolded d transactions
  refine ⟨⟨hfolded.count, hfolded.nonces, hfolded.states, ?_, hfolded.bridged⟩, ?_, ?_⟩
  · rw [hfolded.states _ (Nat.le_refl _), hfolded.current,
      List.take_of_length_le (le_of_eq hfolded.count)]
  · apply reached_induction d (J := fun _ c => OuterChain d.settlement.initialOuterActionState
      (contributions c.log) c.settlement.actionState) ?_ ?_ (history_registrySound d)
    · rw [d.initialized.log_eq, d.initialized.actionState_eq]
      exact OuterChain.nil
    · intro history c tx next hc hregistry heffect
      exact outerChain_of_moved hc (chainsMoved_of_effect hregistry heffect)
  · intro hdirect
    have hQ : ∀ entry ∈ d.history transactions, RegistrySound entry.1 ∧
        DepositsFolded env entry.1 ∧ SameVerifiers d.start entry.1 ∧
        appendsDirectly entry.2.call = false := by
      intro entry hentry
      obtain ⟨before, hbefore⟩ := history_reached d hentry
      refine ⟨history_registrySound d entry hentry, ?_, ?_, hdirect entry hentry⟩
      · rw [hbefore]
        exact reached_depositsFolded d before
      · rw [hbefore]
        exact reached_sameVerifiers d before
    apply reached_induction d (J := fun history c => CollisionFree env.hashes.keccak256
      (depositStrings env c.log ++ B.strings (bridgeReceipts history)) → DepositsBridged env c)
      ?_ ?_ hQ
    · intro _
      obtain ⟨_, _, hbridge⟩ := d.initialized.bridge_eq
      rw [DepositsBridged, witnessLinksOf, d.initialized.log_eq, hbridge]
      exact List.Forall₂.nil
    · intro history c tx next hc hentry heffect hcf
      obtain ⟨hregistry, hfoldedBefore, hverifiers, hdirectBefore⟩ := hentry
      obtain ⟨_, _, hstart⟩ := d.initialized.bridge_eq
      have hmoved : ChainsMoved env c next tx.call := chainsMoved_of_effect hregistry heffect
      have hstrings := depositStrings_subset hmoved
      have hverifier : c.bridge.bridgeVerifier = d.bridge.bridgeVerifier := by
        rw [hverifiers.bridgeVerifier, hstart]
      have hkey : c.bridge.bridgeProgramVKey = d.bridge.bridgeProgramVKey := by
        rw [hverifiers.bridgeProgramVKey, hstart]
      refine depositsBridged_of_moved B hverifier hkey hfoldedBefore hdirectBefore ?_ (hc ?_) hmoved
      · apply hcf.mono
        intro string hstring
        rcases List.mem_append.mp hstring with hown | hguest
        · exact List.mem_append_left _ (hstrings hown)
        · obtain ⟨publicValues, hreceipt, hinput⟩ := List.mem_flatMap.mp hguest
          apply List.mem_append_right
          refine List.mem_flatMap.mpr ⟨publicValues, ?_, hinput⟩
          exact mem_bridgeReceipts history (Option.mem_toList.mp hreceipt)
      · apply hcf.mono
        intro string hstring
        rcases List.mem_append.mp hstring with hown | hguest
        · exact List.mem_append_left _ (hstrings hown)
        · obtain ⟨publicValues, hreceipt, hinput⟩ := List.mem_flatMap.mp hguest
          apply List.mem_append_right
          exact List.mem_flatMap.mpr
            ⟨publicValues, bridgeReceipts_subset history (c, tx) hreceipt, hinput⟩

/-- The verifier of the concrete deployment accepts only what the bridge guest
emits. -/
def bridgeProver :
    BridgeProver environment deployment.bridge.bridgeVerifier deployment.bridge.bridgeProgramVKey where
  emitter := fun _ => bridgeInput
  emits := by
    intro publicValues proofBytes h
    have haccepted : (bridgeVKey = settlementVKey ∧ publicValues = settlementReceipt) ∨
        (bridgeVKey = bridgeVKey ∧ publicValues = bridgeReceipt) := of_decide_eq_true h
    rcases haccepted with ⟨hkey, -⟩ | ⟨-, rfl⟩
    · exact absurd hkey (by decide)
    · exact bridgeGuest_emits

/-- The setup, and the bridge receipt of both deposits. -/
def bridged : List Transaction :=
  setup ++ [⟨⟨admin, 1000⟩, .submitBridgeTransition bridgeReceipt []⟩]

/-- The whole run is accepted, and nothing in it appends directly. -/
theorem bridged_run : (deployment.reached bridged).bridge.bridgedDepositNonce = 2 ∧
    (deposits (deployment.reached bridged).log).length = 2 ∧
    (deployment.history bridged).all (fun entry => !appendsDirectly entry.2.call) = true ∧
    digestsDistinct environment.hashes.keccak256
      (depositStrings environment (deployment.reached bridged).log ++
        bridgeProver.strings (bridgeReceipts (deployment.history bridged))) [] = true := by
  decide +kernel

/-- Both deposits of the concrete deployment are bridged, one witness link each. -/
theorem deposits_bridged_once_setup :
    (deployment.reached bridged).bridge.bridgedDepositNonce = 2 ∧
    (witnessLinksOf (deployment.reached bridged).log).length = 2 ∧
    List.Forall₂ (Bridges environment) (witnessLinksOf (deployment.reached bridged).log)
      ((deposits (deployment.reached bridged).log).take 2) := by
  obtain ⟨hnonce, hcount, hdirect, hdigests⟩ := bridged_run
  have hlinks := (deposits_bridged_once deployment bridgeProver bridged).2.2
    (fun entry hentry => by simpa using List.all_eq_true.mp hdirect entry hentry)
    (collisionFree_of_digests hdigests)
  rw [hnonce] at hlinks
  have hlength := hlinks.length_eq
  rw [List.length_take, hcount] at hlength
  exact ⟨hnonce, hlength, hlinks⟩

end EthereumSettlement.BridgedDeposits
