import EthereumSettlement.RunInvariants

/-!
# The deposit accumulator

Accepted deposits are linked into a hash chain, one nonce after the other, and
the bridge keeps every state of the chain. In every reachable state the stored
states are the folds of the deposits in the log, and the bridged nonce does not
exceed the last one. Everything the chain depends on is changed by deposits and
by bridge transitions only.
-/

namespace EthereumSettlement.DepositChain

open ByteWords CheckedCalls HashCommitments TransitionRuns PastaPoseidon InnerActionCommitment
open SettlementCodec BridgeCodec BridgeGuest ZekoSettlement EthereumZekoBridge BridgeSystem
open StepEffects RunInvariants

variable {env : Environment} {W : TokenWorld}

/-- A record of a deposit that the bridge admits in a state. -/
inductive RecordAdmitted (s : BridgeStorage) : DepositRecord → Prop
  | native {value : BitVec 256} {zekoRecipient : Bytes32} {nonce : BitVec 64} (value_ne : value ≠ 0)
      (whole_gwei : value.toNat % gwei = 0)
      (recipient_lt : (zekoRecipient &&& BitVec.ofNat 256 (2 ^ 255 - 1)).toNat < fieldOrder) :
      RecordAdmitted s (nativeRecord value zekoRecipient nonce)
  | token {token : Address} {amount : BitVec 256} {zekoRecipient : Bytes32} {nonce : BitVec 64}
      (registered : s.canonicalTokenRegistered token = true)
      (commitment_ne : s.recordCommitmentByToken token ≠ 0) (amount_ne : amount ≠ 0)
      (amount_lt : amount.toNat < 2 ^ 64)
      (recipient_lt : (zekoRecipient &&& BitVec.ofNat 256 (2 ^ 255 - 1)).toNat < fieldOrder) :
      RecordAdmitted s (tokenRecord s token amount zekoRecipient nonce)

/-- The call that brings a native record, with the deposited value. -/
def callRecord (s : BridgeStorage) : Call → Option DepositRecord
  | .depositETH value zekoRecipient => some (nativeRecord value zekoRecipient (s.depositNonce + 1))
  | .submitDeposit token amount zekoRecipient =>
    some (tokenRecord s token amount zekoRecipient (s.depositNonce + 1))
  | _ => none

/-- A deposit links its record into the chain. -/
structure DepositLinked (env : Environment) (c next : Chain W) (record : DepositRecord) : Prop where
  /-- The deposit passes the checks of its kind. -/
  admitted : RecordAdmitted c.bridge record
  /-- The deposit takes the next number. -/
  nonce_eq : record.nonce.toNat = c.bridge.depositNonce.toNat + 1
  /-- Its nonce becomes the last one. -/
  depositNonce_eq : next.bridge.depositNonce = record.nonce
  /-- The accumulator takes it. -/
  current_eq : next.bridge.currentDepositState =
    depositChainStep env.hashes env.chainId env.bridgeAddress c.bridge.currentDepositState record
  /-- The new accumulator is stored under its nonce. -/
  states_eq : next.bridge.depositStateByNonce = Function.update c.bridge.depositStateByNonce
    record.nonce (depositChainStep env.hashes env.chainId env.bridgeAddress
      c.bridge.currentDepositState record)
  /-- No deposit becomes bridged. -/
  bridged_eq : next.bridge.bridgedDepositNonce = c.bridge.bridgedDepositNonce
  /-- No action state becomes processed. -/
  processed_eq : next.bridge.processedActionState = c.bridge.processedActionState
  /-- The log has one deposit more. -/
  deposits_eq : deposits next.log = deposits c.log ++ [record]
  /-- The log has no further contributions. -/
  contributions_eq : contributions next.log = contributions c.log
  /-- The settlement contract is unchanged. -/
  settlement_eq : next.settlement = c.settlement

/-- A transaction that leaves the deposit chain alone. -/
structure DepositsKept (c next : Chain W) : Prop where
  /-- No deposit is counted. -/
  depositNonce_eq : next.bridge.depositNonce = c.bridge.depositNonce
  /-- The accumulator is unchanged. -/
  current_eq : next.bridge.currentDepositState = c.bridge.currentDepositState
  /-- The stored accumulators are unchanged. -/
  states_eq : next.bridge.depositStateByNonce = c.bridge.depositStateByNonce
  /-- No deposit becomes bridged. -/
  bridged_eq : next.bridge.bridgedDepositNonce = c.bridge.bridgedDepositNonce
  /-- No action state becomes processed. -/
  processed_eq : next.bridge.processedActionState = c.bridge.processedActionState
  /-- The log has no deposit more. -/
  deposits_eq : deposits next.log = deposits c.log

/-- What a transaction that leaves the deposit chain alone may do to the outer
action chain: nothing, one commit, or one direct append. -/
inductive OuterMoved (env : Environment) (c next : Chain W) : Call → Prop
  | kept {call : Call} (contributions_eq : contributions next.log = contributions c.log)
      (actionState_eq : next.settlement.actionState = c.settlement.actionState)
      (length_eq : next.settlement.outerActionStateLength = c.settlement.outerActionStateLength)
      (info_eq : next.settlement.outerActionStateInfo = c.settlement.outerActionStateInfo) :
      OuterMoved env c next call
  | committed {publicValues proofBytes : Bytes} {decoded : DecodedPublicValues}
      (proved : env.verifyProof c.settlement.verifier c.settlement.programVKey publicValues
        proofBytes = true)
      (decode : decodePublicValues publicValues = .ok decoded)
      (settled : ReceiptSettled env c.settlement decoded next.settlement)
      (contributions_eq : contributions next.log =
        contributions c.log ++ [.commit decoded.outerActionStateAfter]) :
      OuterMoved env c next (.verifyAndUpdateRoot publicValues proofBytes)
  | appended {stateBefore stateAfter : Bytes32} {count : BitVec 32}
      (appended : WitnessAppended c.settlement stateBefore stateAfter count next.settlement)
      (contributions_eq : contributions next.log =
        contributions c.log ++ [.witness stateBefore stateAfter count]) :
      OuterMoved env c next (.appendOuterWitnessBatch stateBefore stateAfter count)

/-- What a transaction does to both chains. -/
inductive ChainsMoved (env : Environment) (c next : Chain W) : Call → Prop
  | deposit {call : Call} {record : DepositRecord} (brings : callRecord c.bridge call = some record)
      (linked : DepositLinked env c next record) : ChainsMoved env c next call
  | transition {publicValues proofBytes : Bytes} {decoded : DecodedBridgePublicValues}
      (proved : env.verifyProof c.bridge.bridgeVerifier c.bridge.bridgeProgramVKey publicValues
        proofBytes = true)
      (transitioned : Transitioned c publicValues decoded next) :
      ChainsMoved env c next (.submitBridgeTransition publicValues proofBytes)
  | other {call : Call} (brings : callRecord c.bridge call = none) (kept : DepositsKept c next)
      (outer : OuterMoved env c next call) : ChainsMoved env c next call

/-- Quiet events leave both views of a log. -/
theorem quiet_append (log : List ChainEvent) {events : List ChainEvent}
    (h : ∀ event ∈ events, QuietEvent event) :
    deposits (log ++ events) = deposits log ∧ contributions (log ++ events) = contributions log := by
  rw [deposits_append, contributions_append, deposits_quiet h, contributions_quiet h,
    List.append_nil, List.append_nil]
  exact ⟨rfl, rfl⟩

/-- Administration and activation bring no record. -/
theorem callRecord_of_kind {s : BridgeStorage} {call : Call}
    (kind : call.isAdministration = true ∨ call.isActivation = true) : callRecord s call = none := by
  rcases kind with kind | kind
  · cases call <;> cases kind <;> rfl
  · cases call <;> cases kind <;> rfl

/-- A checked increment is the next nonce. -/
theorem nonce_succ {nonce next : BitVec 64} (h : next.toNat = nonce.toNat + 1) : next = nonce + 1 := by
  have hlt := next.isLt
  apply BitVec.eq_of_toNat_eq
  rw [BitVec.toNat_add, h]
  have hone : (1 : BitVec 64).toNat = 1 := rfl
  rw [hone, Nat.mod_eq_of_lt (by omega)]

/-- Quiet events beside an unchanged deposit chain and outer chain. -/
theorem ChainsMoved.quiet {c next : Chain W} {call : Call} {events : List ChainEvent}
    (brings : callRecord c.bridge call = none)
    (hnonce : next.bridge.depositNonce = c.bridge.depositNonce)
    (hcurrent : next.bridge.currentDepositState = c.bridge.currentDepositState)
    (hstates : next.bridge.depositStateByNonce = c.bridge.depositStateByNonce)
    (hbridged : next.bridge.bridgedDepositNonce = c.bridge.bridgedDepositNonce)
    (hprocessed : next.bridge.processedActionState = c.bridge.processedActionState)
    (hsettlement : next.settlement.actionState = c.settlement.actionState ∧
      next.settlement.outerActionStateLength = c.settlement.outerActionStateLength ∧
      next.settlement.outerActionStateInfo = c.settlement.outerActionStateInfo)
    (hlog : next.log = c.log ++ events) (hquiet : ∀ event ∈ events, QuietEvent event) :
    ChainsMoved env c next call := by
  have hviews := quiet_append c.log hquiet
  rw [← hlog] at hviews
  exact .other brings ⟨hnonce, hcurrent, hstates, hbridged, hprocessed, hviews.1⟩
    (.kept hviews.2 hsettlement.1 hsettlement.2.1 hsettlement.2.2)

/-- A single quiet event. -/
theorem quiet_singleton {event : ChainEvent} (h : QuietEvent event) :
    ∀ other ∈ [event], QuietEvent other := by
  intro other hother
  rw [List.mem_singleton.mp hother]
  exact h

/-- Every transaction moves both chains in one of the listed ways. -/
theorem chainsMoved_of_effect {c next : Chain W} {ctx : CallContext} {call : Call}
    (hregistry : RegistrySound c) (h : Effect env c ctx call next) :
    ChainsMoved env c next call := by
  cases h with
  | administer kind administered =>
    obtain ⟨_, _, _, hsettlement⟩ := administered.settlement_eq
    obtain ⟨_, _, _, hbridge⟩ := administered.bridge_eq
    obtain ⟨events, hlog, hquiet⟩ := administered.log_eq
    apply ChainsMoved.quiet (callRecord_of_kind (.inl kind)) _ _ _ _ _ _ hlog hquiet
    · rw [hbridge]
    · rw [hbridge]
    · rw [hbridge]
    · rw [hbridge]
    · rw [hbridge]
    · rw [hsettlement]
      exact ⟨rfl, rfl, rfl⟩
  | settle proved decode settled reported =>
    refine .other rfl ⟨rfl, rfl, rfl, rfl, rfl, ?_⟩ (.committed proved decode settled ?_)
    · rw [deposits_append, deposits_settlement, List.append_nil]
    · rw [contributions_append, contributions_settlement, reported]
  | append appended reported =>
    refine .other rfl ⟨rfl, rfl, rfl, rfl, rfl, ?_⟩ (.appended appended ?_)
    · rw [deposits_append, deposits_settlement, List.append_nil]
    · rw [contributions_append, contributions_settlement, reported]
  | transition proved transitioned => exact .transition proved transitioned
  | nativeDeposit deposited =>
    have hnonce := nonce_succ deposited.nonce_eq
    refine .deposit (by rw [callRecord, ← hnonce]) ⟨.native deposited.value_ne deposited.whole_gwei
      deposited.recipient_lt, deposited.nonce_eq, rfl, rfl, rfl, rfl, rfl, ?_, ?_, rfl⟩
    · rw [afterNativeDeposit, deposits_append]
      rfl
    · rw [afterNativeDeposit, contributions_append]
      exact List.append_nil _
  | @tokenDeposit token amount zekoRecipient nonce _ _ _ deposited =>
    have hnonce := nonce_succ deposited.nonce_eq
    have htoken : token ≠ 0 := by
      rintro rfl
      have hregistered := deposited.registered
      rw [hregistry.zero] at hregistered
      cases hregistered
    refine .deposit (by rw [callRecord, ← hnonce]) ⟨.token deposited.registered
      deposited.commitment_ne deposited.amount_ne deposited.amount_lt deposited.recipient_lt,
      deposited.nonce_eq, rfl, rfl, rfl, rfl, rfl, ?_, ?_, rfl⟩
    · rw [afterTokenDeposit, deposits_append]
      congr 1
      simp only [tokenDepositEvents, deposits, List.map_cons, List.map_nil, List.filterMap_cons,
        eventDeposit, if_neg htoken, List.filterMap_nil, tokenRecord]
    · rw [afterTokenDeposit, contributions_append]
      exact List.append_nil _
  | nativeClaim =>
    exact .quiet rfl rfl rfl rfl rfl rfl ⟨rfl, rfl, rfl⟩ rfl (quiet_singleton ⟨rfl, rfl⟩)
  | tokenClaim =>
    exact .quiet rfl rfl rfl rfl rfl rfl ⟨rfl, rfl, rfl⟩ rfl (quiet_singleton ⟨rfl, rfl⟩)
  | etherRescue =>
    exact .quiet rfl rfl rfl rfl rfl rfl ⟨rfl, rfl, rfl⟩ rfl (quiet_singleton ⟨rfl, rfl⟩)
  | tokenRescue =>
    exact .quiet rfl rfl rfl rfl rfl rfl ⟨rfl, rfl, rfl⟩ rfl (quiet_singleton ⟨rfl, rfl⟩)
  | propose proposed =>
    have hbridge := proposed.bridge_eq
    have hsettlement := proposed.settlement_eq
    exact .quiet rfl (by rw [hbridge]) (by rw [hbridge]) (by rw [hbridge]) (by rw [hbridge])
      (by rw [hbridge]) (by rw [hsettlement]; exact ⟨rfl, rfl, rfl⟩) proposed.log_eq
      (quiet_singleton ⟨rfl, rfl⟩)
  | cancel cancelled =>
    have hbridge := cancelled.bridge_eq
    have hsettlement := cancelled.settlement_eq
    obtain ⟨_, _, hlog⟩ := cancelled.log_eq
    exact .quiet rfl (by rw [hbridge]) (by rw [hbridge]) (by rw [hbridge]) (by rw [hbridge])
      (by rw [hbridge]) (by rw [hsettlement]; exact ⟨rfl, rfl, rfl⟩) hlog
      (quiet_singleton ⟨rfl, rfl⟩)
  | activate kind activated =>
    have hbridge := activated.bridge_eq
    have hsettlement := activated.settlement_eq
    obtain ⟨events, hlog, hquiet⟩ := activated.log_eq
    exact .quiet (callRecord_of_kind (.inr kind)) (by rw [hbridge]; rfl) (by rw [hbridge]; rfl)
      (by rw [hbridge]; rfl) (by rw [hbridge]; rfl) (by rw [hbridge]; rfl)
      (by rw [hsettlement]; exact ⟨rfl, rfl, rfl⟩) hlog hquiet
  | status changed =>
    obtain ⟨_, hbridge⟩ := changed.bridge_eq
    have hsettlement := changed.settlement_eq
    obtain ⟨events, hlog, hquiet⟩ := changed.log_eq
    exact .quiet rfl (by rw [hbridge]) (by rw [hbridge]) (by rw [hbridge]) (by rw [hbridge])
      (by rw [hbridge]) (by rw [hsettlement]; exact ⟨rfl, rfl, rfl⟩) hlog hquiet
  | tokenTransfer => exact .other rfl ⟨rfl, rfl, rfl, rfl, rfl, rfl⟩ (.kept rfl rfl rfl rfl)
  | etherForced => exact .other rfl ⟨rfl, rfl, rfl, rfl, rfl, rfl⟩ (.kept rfl rfl rfl rfl)

/-- What a transition does to both views of the log. -/
theorem transitioned_views {c next : Chain W} {publicValues : Bytes}
    {decoded : DecodedBridgePublicValues} (h : Transitioned c publicValues decoded next) :
    deposits next.log = deposits c.log ∧ contributions next.log = contributions c.log ++
      witnessLinks c.settlement.actionState (appendedStates publicValues decoded.depositCount) := by
  obtain ⟨events, hlog, hevents⟩ := h.log_eq
  have hquiet : ∀ event ∈ [ChainEvent.bridge (.bridgeTransitionAccepted
      decoded.zekoActionStateBefore decoded.zekoActionStateAfter decoded.ethereumStateAfter
      decoded.ethereumNonceAfter)], QuietEvent event := quiet_singleton ⟨rfl, rfl⟩
  rw [hlog]
  constructor
  · rw [(quiet_append _ hquiet).1, deposits_append, deposits_settlement, List.append_nil]
  · rw [(quiet_append _ hquiet).2, contributions_append, contributions_settlement, hevents]

/-- The deposit chain over some records. -/
def depositFold (env : Environment) (records : List DepositRecord) : Bytes32 :=
  records.foldl (depositChainStep env.hashes env.chainId env.bridgeAddress) (initialDepositState env)

/-- The stored states are the folds of the deposits in the log. -/
structure DepositsFolded (env : Environment) (c : Chain W) : Prop where
  /-- The log has as many deposits as are counted. -/
  count : (deposits c.log).length = c.bridge.depositNonce.toNat
  /-- They are numbered from one on. -/
  nonces : ∀ i record, (deposits c.log)[i]? = some record → record.nonce.toNat = i + 1
  /-- The accumulator of a nonce folds the deposits up to it. -/
  states : ∀ nonce : BitVec 64, nonce.toNat ≤ c.bridge.depositNonce.toNat →
    c.bridge.depositStateByNonce nonce = depositFold env ((deposits c.log).take nonce.toNat)
  /-- The current accumulator folds all of them. -/
  current : c.bridge.currentDepositState = depositFold env (deposits c.log)
  /-- Only counted deposits are bridged. -/
  bridged : c.bridge.bridgedDepositNonce.toNat ≤ c.bridge.depositNonce.toNat

/-- A transaction that leaves the deposit chain alone keeps the folds. -/
theorem DepositsFolded.kept {c next : Chain W} (h : DepositsFolded env c) (hkept : DepositsKept c next) :
    DepositsFolded env next := by
  constructor
  · rw [hkept.deposits_eq, hkept.depositNonce_eq]
    exact h.count
  · rw [hkept.deposits_eq]
    exact h.nonces
  · rw [hkept.deposits_eq, hkept.depositNonce_eq, hkept.states_eq]
    exact h.states
  · rw [hkept.deposits_eq, hkept.current_eq]
    exact h.current
  · rw [hkept.bridged_eq, hkept.depositNonce_eq]
    exact h.bridged

/-- A deposit extends the folds by its record. -/
theorem DepositsFolded.deposit {c next : Chain W} {record : DepositRecord}
    (h : DepositsFolded env c) (hlinked : DepositLinked env c next record) :
    DepositsFolded env next := by
  have hcount := h.count
  have hnonce := hlinked.nonce_eq
  have hfold : depositFold env (deposits c.log ++ [record]) =
      depositChainStep env.hashes env.chainId env.bridgeAddress c.bridge.currentDepositState
        record := by
    rw [depositFold, List.foldl_append, h.current]
    rfl
  constructor
  · rw [hlinked.deposits_eq, hlinked.depositNonce_eq, List.length_append, List.length_singleton]
    omega
  · intro i other hother
    rw [hlinked.deposits_eq] at hother
    by_cases hi : i < (deposits c.log).length
    · rw [List.getElem?_append_left hi] at hother
      exact h.nonces i other hother
    · have hlt := (List.getElem?_eq_some_iff.mp hother).1
      rw [List.length_append, List.length_singleton] at hlt
      have hindex : i = (deposits c.log).length := by omega
      rw [hindex, List.getElem?_concat_length] at hother
      rw [← Option.some.inj hother]
      omega
  · intro nonce hle
    rw [hlinked.depositNonce_eq] at hle
    rw [hlinked.states_eq, hlinked.deposits_eq]
    by_cases hlast : nonce = record.nonce
    · rw [hlast, Function.update_self, List.take_of_length_le, hfold]
      rw [List.length_append, List.length_singleton]
      omega
    · have hne : nonce.toNat ≠ record.nonce.toNat := fun hsame =>
        hlast (BitVec.eq_of_toNat_eq hsame)
      rw [Function.update_of_ne hlast, List.take_append_of_le_length (by omega)]
      exact h.states nonce (by omega)
  · rw [hlinked.deposits_eq, hlinked.current_eq, hfold]
  · have hbridged := h.bridged
    rw [hlinked.bridged_eq, hlinked.depositNonce_eq]
    omega

/-- A transition raises the bridged nonce to the last one. -/
theorem DepositsFolded.transition {c next : Chain W} {publicValues : Bytes}
    {decoded : DecodedBridgePublicValues} (h : DepositsFolded env c)
    (htransitioned : Transitioned c publicValues decoded next) : DepositsFolded env next := by
  have hbridge := htransitioned.bridge_eq
  have hdeposits := (transitioned_views htransitioned).1
  have hlast := htransitioned.checked.nonceAfter
  constructor
  · rw [hdeposits, hbridge]
    exact h.count
  · rw [hdeposits]
    exact h.nonces
  · rw [hdeposits, hbridge]
    exact h.states
  · rw [hdeposits, hbridge]
    exact h.current
  · rw [hbridge]
    change decoded.ethereumNonceAfter.toNat ≤ c.bridge.depositNonce.toNat
    rw [hlast]

/-- One transaction keeps the folds. -/
theorem depositsFolded_of_moved {c next : Chain W} {call : Call} (hc : DepositsFolded env c)
    (h : ChainsMoved env c next call) : DepositsFolded env next := by
  cases h with
  | deposit _ linked => exact hc.deposit linked
  | transition _ transitioned => exact hc.transition transitioned
  | other _ kept _ => exact hc.kept kept

/-- A fresh deployment has no deposits. -/
theorem start_depositsFolded (d : Deployment env W) : DepositsFolded env d.start := by
  obtain ⟨_, _, hbridge⟩ := d.initialized.bridge_eq
  have hdeposits : deposits d.start.log = [] := by
    rw [d.initialized.log_eq]
    rfl
  constructor
  · rw [hdeposits, hbridge]
    rfl
  · intro i record hrecord
    rw [hdeposits] at hrecord
    cases hrecord
  · intro nonce hle
    rw [hbridge] at hle ⊢
    have hzero : nonce = 0 := BitVec.eq_of_toNat_eq (Nat.le_zero.mp hle)
    rw [hzero, hdeposits]
    exact Function.update_self (0 : BitVec 64) (initialDepositState env) (fun _ => (0 : Bytes32))
  · rw [hdeposits, hbridge]
    rfl
  · rw [hbridge]
    exact Nat.le_refl _

/-- The stored states are the folds of the deposits in every reachable state. -/
theorem reached_depositsFolded (d : Deployment env W) (transactions : List Transaction) :
    DepositsFolded env (d.reached transactions) := by
  apply reached_induction d (J := fun _ c => DepositsFolded env c) (start_depositsFolded d) ?_
    (history_registrySound d)
  intro history c tx next hc hregistry heffect
  exact depositsFolded_of_moved hc (chainsMoved_of_effect hregistry heffect)

end EthereumSettlement.DepositChain
