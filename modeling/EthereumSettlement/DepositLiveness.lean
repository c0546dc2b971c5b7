import EthereumSettlement.FixedBytesText
import EthereumSettlement.OuterActionChain
import EthereumSettlement.RecordCommitments

/-!
# Deposit batches that the bridge accepts

Every deposit that the bridge contract admits passes the assertions of the bridge
guest, so that a batch of unbridged deposits can always be proved. The contract
and the gateway's preflight accept the batch exactly when it reaches the last
deposit: both compare the receipt with the current nonce and accumulator.
-/

namespace EthereumSettlement.DepositLiveness

open ByteWords CheckedCalls FixedBytesText HashCommitments TransitionRuns PastaPoseidon
open InnerActionCommitment SettlementCodec BridgeCodec BridgeGuest ZekoSettlement
open EthereumZekoBridge BridgeSystem StepEffects RunInvariants SettledReceipts ClaimSoundness
open DepositChain BridgedDeposits RecordCommitments OuterActionChain ReferenceDeployment OpenZeppelin

variable {env : Environment} {W : TokenWorld}

/-- The guest deposit that `canonical_deposit_batch` builds from a deposit's event. -/
def guestDeposit : DepositRecord → BridgeDeposit
  | .native zekoRecipient zekoAmount timeout _ =>
    ⟨0, 0, 0, 0, 0, BitVec.ofNat 256 (zekoAmount.toNat * gwei), some (zekoAmount.setWidth 64),
      zekoRecipient, timeout⟩
  | .erc20 token registryIndex recordCommitment assetId zekoRecipient amount timeout _ =>
    ⟨token, assetId, erc20ActionEncodingV2, registryIndex, recordCommitment, toWord amount,
      some amount, zekoRecipient, timeout⟩

/-- The unbridged deposits up to a nonce. -/
def unbridgedDeposits (c : Chain W) (last : BitVec 64) : List DepositRecord :=
  ((deposits c.log).take last.toNat).drop c.bridge.bridgedDepositNonce.toNat

/-- The guest's input for the unbridged deposits up to a nonce, with the states of
both contracts before them. -/
def batchInput (env : Environment) (c : Chain W) (last : BitVec 64) : BridgeTransitionInput where
  ethereum := ⟨env.chainId.setWidth 64, env.bridgeAddress, c.bridge.bridgedDepositNonce,
    c.bridge.depositStateByNonce c.bridge.bridgedDepositNonce⟩
  zeko := ⟨c.settlement.actionState, c.settlement.outerActionStateLength⟩
  deposits := (unbridgedDeposits c last).map guestDeposit

/-- What every admitted deposit satisfies. -/
def RecordProvable : DepositRecord → Prop
  | .native zekoRecipient zekoAmount _ _ => zekoAmount ≠ 0 ∧
    (zekoRecipient &&& BitVec.ofNat 256 (2 ^ 255 - 1)).toNat < fieldOrder
  | .erc20 token _ recordCommitment assetId zekoRecipient amount timeout _ =>
    token ≠ 0 ∧ assetId ≠ 0 ∧ recordCommitment ≠ 0 ∧ Canonical recordCommitment ∧ amount ≠ 0 ∧
    timeout = infiniteTimeout ∧
    (zekoRecipient &&& BitVec.ofNat 256 (2 ^ 255 - 1)).toNat < fieldOrder

/-- A native deposit below the bound of Zeko amounts; other deposits are. -/
def AmountFits : DepositRecord → Prop
  | .native _ zekoAmount _ _ => zekoAmount.toNat < 2 ^ 64
  | .erc20 .. => True

instance (record : DepositRecord) : Decidable (AmountFits record) :=
  match record with
  | .native .. => inferInstanceAs (Decidable (_ < _))
  | .erc20 .. => isTrue trivial

/-- The bridge admits only provable deposits. -/
theorem provable_of_admitted {c : Chain W} {record : DepositRecord} (hregistry : RegistrySound c)
    (hcanonical : CommitmentsCanonical c) (h : RecordAdmitted c.bridge record) :
    RecordProvable record := by
  cases h with
  | @native value zekoRecipient nonce value_ne whole_gwei recipient_lt =>
    refine ⟨?_, recipient_lt⟩
    intro hzero
    have hvalue : value.toNat ≠ 0 := fun h0 => value_ne (BitVec.eq_of_toNat_eq h0)
    have hlt : value.toNat / gwei < 2 ^ 256 :=
      lt_of_le_of_lt (Nat.div_le_self _ _) value.isLt
    have hamount := congrArg BitVec.toNat hzero
    rw [BitVec.toNat_ofNat, Nat.mod_eq_of_lt hlt] at hamount
    have hnat : (0 : BitVec 256).toNat = 0 := rfl
    rw [hnat] at hamount
    unfold gwei at hamount whole_gwei
    omega
  | @token token amount zekoRecipient nonce registered commitment_ne amount_ne amount_lt
      recipient_lt =>
    refine ⟨?_, hregistry.assetId token registered, commitment_ne, hcanonical token registered, ?_,
      rfl, recipient_lt⟩
    · rintro rfl
      rw [hregistry.zero] at registered
      cases registered
    · intro hzero
      apply amount_ne
      apply BitVec.eq_of_toNat_eq
      have hnarrow := congrArg BitVec.toNat hzero
      rw [BitVec.toNat_setWidth, Nat.mod_eq_of_lt amount_lt] at hnarrow
      exact hnarrow

/-- Every deposit in the log of a run is provable. -/
theorem reached_provable (d : Deployment env W)
    (G : SettlementProver env d.settlement.verifier d.settlement.programVKey)
    (transactions : List Transaction)
    (hcf : CollisionFreeFrom env.hashes.keccak256 0
      (activationsStrings env (d.history transactions) ++
        G.strings (settledReceipts (d.history transactions)))) :
    ∀ record ∈ deposits (d.reached transactions).log, RecordProvable record := by
  have hQ : ∀ entry ∈ d.history transactions,
      RegistrySound entry.1 ∧ CommitmentsCanonical entry.1 := by
    intro entry hentry
    obtain ⟨before, hreached, hsubset⟩ := history_split d hentry
    refine ⟨history_registrySound d entry hentry, ?_⟩
    rw [hreached]
    apply reached_commitmentsCanonical d G before
    apply hcf.mono
    intro string hstring
    rcases List.mem_append.mp hstring with hactivation | hguest
    · obtain ⟨earlier, hearlier, hown⟩ := List.mem_flatMap.mp hactivation
      exact List.mem_append_left _ (List.mem_flatMap.mpr ⟨earlier, hsubset hearlier, hown⟩)
    · obtain ⟨publicValues, hreceipt, hinput⟩ := List.mem_flatMap.mp hguest
      obtain ⟨earlier, hearlier, hcall⟩ := List.mem_filterMap.mp hreceipt
      exact List.mem_append_right _ (List.mem_flatMap.mpr ⟨publicValues,
        List.mem_filterMap.mpr ⟨earlier, hsubset hearlier, hcall⟩, hinput⟩)
  apply reached_induction d (J := fun _ c => ∀ record ∈ deposits c.log, RecordProvable record)
    ?_ ?_ hQ
  · intro record hrecord
    rw [d.initialized.log_eq] at hrecord
    exact absurd hrecord List.not_mem_nil
  · intro history c tx next hc hentry heffect
    have hmoved : ChainsMoved env c next tx.call := chainsMoved_of_effect hentry.1 heffect
    intro record hrecord
    generalize tx.call = call at hmoved
    cases hmoved with
    | deposit _ linked =>
      rw [linked.deposits_eq] at hrecord
      rcases List.mem_append.mp hrecord with hold | hnew
      · exact hc record hold
      · rw [List.mem_singleton.mp hnew]
        exact provable_of_admitted hentry.1 hentry.2 linked.admitted
    | transition _ transitioned =>
      rw [(transitioned_views transitioned).1] at hrecord
      exact hc record hrecord
    | other _ kept _ =>
      rw [kept.deposits_eq] at hrecord
      exact hc record hrecord

/-- An amount in wei that came from whole Zeko units has them back. -/
theorem wei_of_amount {zekoAmount : BitVec 256} (h : zekoAmount.toNat < 2 ^ 64) :
    (BitVec.ofNat 256 (zekoAmount.toNat * gwei)).toNat = zekoAmount.toNat * gwei ∧
      zekoAmount.toNat * gwei / weiPerZekoUnit = zekoAmount.toNat := by
  constructor
  · rw [BitVec.toNat_ofNat]
    apply Nat.mod_eq_of_lt
    unfold gwei
    omega
  · exact Nat.mul_div_cancel _ (by decide)

/-- The guest admits every provable deposit whose amount fits. -/
theorem guestDeposit_admissible {record : DepositRecord} (h : RecordProvable record)
    (hfits : AmountFits record) : DepositAdmissible (guestDeposit record) := by
  cases record with
  | native zekoRecipient zekoAmount timeout nonce =>
    obtain ⟨hamount, hrecipient⟩ := h
    have hbound : zekoAmount.toNat < 2 ^ 64 := hfits
    have hne : zekoAmount.toNat ≠ 0 := fun h0 => hamount (BitVec.eq_of_toNat_eq h0)
    obtain ⟨hwei, hdiv⟩ := wei_of_amount hbound
    have hword : BitVec.ofNat 256 zekoAmount.toNat = toWord (zekoAmount.setWidth 64) := by
      rw [toWord, BitVec.toNat_setWidth, Nat.mod_eq_of_lt hbound]
    refine ⟨hrecipient, ?_, ?_⟩
    · rw [BitVec.lt_def]
      change 0 < (BitVec.ofNat 256 (zekoAmount.toNat * gwei)).toNat
      rw [hwei]
      unfold gwei
      omega
    · have htoken : (guestDeposit (.native zekoRecipient zekoAmount timeout nonce)).token = 0 := rfl
      rw [if_pos htoken]
      refine ⟨rfl, rfl, rfl, rfl, ?_, ?_, ?_⟩
      · change (BitVec.ofNat 256 (zekoAmount.toNat * gwei)).toNat % weiPerZekoUnit = 0
        rw [hwei]
        exact Nat.mul_mod_left _ _
      · change (BitVec.ofNat 256 (zekoAmount.toNat * gwei)).toNat / weiPerZekoUnit < 2 ^ 64
        rw [hwei, hdiv]
        exact hbound
      · intro supplied hsupplied
        change BitVec.ofNat 256 ((BitVec.ofNat 256 (zekoAmount.toNat * gwei)).toNat / weiPerZekoUnit) =
          toWord supplied
        rw [hwei, hdiv, hword, Option.some.inj hsupplied]
  | erc20 token registryIndex recordCommitment assetId zekoRecipient amount timeout nonce =>
    obtain ⟨htoken, hasset, hcommitment, hcanonical, hamount, htimeout, hrecipient⟩ := h
    have hword : (toWord amount).toNat = amount.toNat := toWord_toNat (by decide) amount
    refine ⟨hrecipient, ?_, ?_⟩
    · rw [BitVec.lt_def]
      change 0 < (toWord amount).toNat
      rw [hword]
      exact Nat.pos_of_ne_zero fun h0 => hamount (BitVec.eq_of_toNat_eq h0)
    · have htokenEq : (guestDeposit (.erc20 token registryIndex recordCommitment assetId
          zekoRecipient amount timeout nonce)).token ≠ 0 := htoken
      rw [if_neg htokenEq]
      refine ⟨hasset, htimeout, rfl, hcommitment, hcanonical, ?_, amount, rfl, rfl⟩
      change (toWord amount).toNat < 2 ^ 64
      rw [hword]
      exact amount.isLt

/-- The guest replays a deposit as its own record. -/
theorem guestDeposit_record {record : DepositRecord} (h : RecordProvable record)
    (hfits : AmountFits record) : (guestDeposit record).record record.nonce = record := by
  cases record with
  | native zekoRecipient zekoAmount timeout nonce =>
    have hbound : zekoAmount.toNat < 2 ^ 64 := hfits
    obtain ⟨hwei, hdiv⟩ := wei_of_amount hbound
    simp only [guestDeposit, BridgeDeposit.record, ↓reduceIte, DepositRecord.nonce]
    rw [hwei, hdiv, BitVec.ofNat_toNat, BitVec.setWidth_eq]
  | erc20 token registryIndex recordCommitment assetId zekoRecipient amount timeout nonce =>
    have htoken : (guestDeposit (.erc20 token registryIndex recordCommitment assetId zekoRecipient
        amount timeout nonce)).token ≠ 0 := h.1
    rw [BridgeDeposit.record, if_neg htoken]
    rfl

/-- The guest replays consecutive deposits as their own records. -/
theorem depositRecords_guestDeposit {records : List DepositRecord} {nonce : BitVec 64}
    (hprovable : ∀ record ∈ records, RecordProvable record ∧ AmountFits record)
    (hnonces : ∀ i record, records[i]? = some record → record.nonce.toNat = nonce.toNat + i + 1) :
    depositRecords nonce (records.map guestDeposit) = records := by
  induction records generalizing nonce with
  | nil => rfl
  | cons record records ih =>
    have hfirst : record.nonce = nonce + 1 := nonce_succ (hnonces 0 record rfl)
    obtain ⟨hrecord, hfits⟩ := hprovable record List.mem_cons_self
    rw [List.map_cons, depositRecords, ← hfirst, guestDeposit_record hrecord hfits]
    congr 1
    apply ih
    · exact fun other hother => hprovable other (List.mem_cons_of_mem _ hother)
    · intro i other hother
      have hnext := hnonces (i + 1) other hother
      have hnonce := hnonces 0 record rfl
      omega

/-- Recording an action state succeeds below the type limit. -/
theorem recordL2ActionState_of_lt {s : SettlementStorage} (target : Bytes32)
    (h : s.currentL2ActionStateIndex.toNat + 1 < 2 ^ 64) :
    ∃ next, recordL2ActionState s target = .ok next ∧
      next.currentL2ActionStateIndex.toNat ≤ s.currentL2ActionStateIndex.toNat + 1 := by
  have hone : (1 : BitVec 64).toNat = 1 := rfl
  have hstep : checkedAdd SettlementError.arithmeticPanic s.currentL2ActionStateIndex 1 =
      .ok (s.currentL2ActionStateIndex + 1) :=
    checkedAdd_of_lt (by rw [hone]; exact h)
  have hadded := checkedAdd_eq_ok.mp hstep
  rw [hone] at hadded
  unfold recordL2ActionState
  by_cases hknown : (s.l2ActionStateInfo target).valid = true
  · rw [if_pos hknown]
    exact ⟨s, rfl, Nat.le_succ _⟩
  · rw [if_neg hknown, hstep]
    exact ⟨_, rfl, le_of_eq hadded⟩

/-- A single append to a fresh state succeeds below the type limits. -/
theorem appendOuterWitnessBatch_of_fresh {s : SettlementStorage} {stateAfter : Bytes32}
    (hrole : s.hasRole (bridgeRole env) env.bridgeAddress = true)
    (hlength : s.outerActionStateLength.toNat + 1 < 2 ^ 32)
    (hindex : s.currentL2ActionStateIndex.toNat + 1 < 2 ^ 64)
    (hfresh : (s.outerActionStateInfo stateAfter).valid = false) :
    ∃ result, appendOuterWitnessBatch env s env.bridgeAddress s.actionState stateAfter 1 =
        .ok result ∧
      result.1.currentL2ActionStateIndex.toNat ≤ s.currentL2ActionStateIndex.toNat + 1 := by
  have hone : (1 : BitVec 32).toNat = 1 := rfl
  have hsum : checkedAdd SettlementError.arithmeticPanic s.outerActionStateLength 1 =
      .ok (s.outerActionStateLength + 1) :=
    checkedAdd_of_lt (by rw [hone]; exact hlength)
  have hnew : ¬((s.outerActionStateInfo stateAfter).valid = true ∧
      (s.outerActionStateInfo stateAfter).length ≠ s.outerActionStateLength + 1) := by
    rw [hfresh]
    exact fun h => absurd h.1 (by decide)
  obtain ⟨recorded, hrecorded, hle⟩ := recordL2ActionState_of_lt (s := { s with
    actionState := stateAfter
    outerActionStateLength := s.outerActionStateLength + 1
    validActionState := Function.update s.validActionState stateAfter true
    outerActionStateInfo := Function.update s.outerActionStateInfo stateAfter
      ⟨s.outerActionStateLength + 1, true⟩ }) stateAfter hindex
  refine ⟨(recorded, [.outerWitnessBatchAppended s.actionState stateAfter 1
    (s.outerActionStateLength + 1)]), ?_, hle⟩
  simp only [appendOuterWitnessBatch, onlyRole_eq_ok, bind_eq_ok, require_eq_ok, exists_const,
    pure_eq_ok]
  exact ⟨hrole, trivial, by decide, _, hsum, hnew, recorded, hrecorded, rfl⟩

/-- The append loop succeeds on distinct fresh states below the type limits. -/
theorem appendActions_of_fresh {publicValues : Bytes} {remaining i : ℕ} {s : SettlementStorage}
    (hrole : s.hasRole (bridgeRole env) env.bridgeAddress = true)
    (hlength : s.outerActionStateLength.toNat + remaining < 2 ^ 32)
    (hindex : s.currentL2ActionStateIndex.toNat + remaining < 2 ^ 64)
    (hdistinct : ((List.range' i remaining).map (readActionState publicValues)).Nodup)
    (hfresh : ∀ state ∈ (List.range' i remaining).map (readActionState publicValues),
      (s.outerActionStateInfo state).valid = false) :
    ∃ result, appendActions env publicValues remaining i s.actionState s = .ok result := by
  induction remaining generalizing i s with
  | zero => exact ⟨_, rfl⟩
  | succ remaining ih =>
    rw [List.range'_succ, List.map_cons] at hdistinct hfresh
    obtain ⟨hnew, hrest⟩ := List.nodup_cons.mp hdistinct
    obtain ⟨appended, happended, hnext⟩ := appendOuterWitnessBatch_of_fresh hrole (by omega)
      (by omega) (hfresh _ List.mem_cons_self)
    obtain ⟨hfirst, -⟩ := appendOuterWitnessBatch_eq_ok env happended
    have hone : (1 : BitVec 32).toNat = 1 := rfl
    have hlengthNext := hfirst.length_eq
    rw [hone] at hlengthNext
    obtain ⟨result, hresult⟩ := ih (i := i + 1) (s := appended.1)
      (by rw [hfirst.configuration.hasRole]; exact hrole) (by omega) (by omega) hrest (by
        intro state hstate
        have hne : state ≠ readActionState publicValues i := by
          intro hsame
          rw [hsame] at hstate
          exact hnew hstate
        rw [hfirst.outerActionStateInfo_eq, Function.update_of_ne hne]
        exact hfresh state (List.mem_cons_of_mem _ hstate))
    rw [hfirst.actionState_eq] at hresult
    simp only [appendActions, bind_eq_ok, callSettlement_eq_ok, pure_eq_ok]
    exact ⟨_, appended, happended, result, hresult, rfl⟩

/-- The last of consecutive states is one of them. -/
theorem lastState_mem {stateBefore : Bytes32} {states : List Bytes32} (h : states ≠ []) :
    lastState stateBefore states ∈ states := by
  induction states generalizing stateBefore with
  | nil => exact absurd rfl h
  | cons state states ih =>
    rw [lastState]
    by_cases hnil : states = []
    · rw [hnil]
      exact List.mem_cons_self
    · exact List.mem_cons_of_mem _ (ih hnil)

/-- A transition whose checks pass and whose appends succeed is accepted. -/
theorem applyBridgeTransition_of_checked {c : Chain W} {publicValues : Bytes}
    {decoded : DecodedBridgePublicValues}
    {result : Bytes32 × SettlementStorage × List SettlementEvent}
    (hdecode : decodeBridgePublicValues publicValues = .ok decoded)
    (hchecked : TransitionChecked c decoded)
    (happended : appendActions env publicValues decoded.depositCount.toNat 0
      c.settlement.actionState c.settlement = .ok result)
    (hlast : result.1 = decoded.zekoActionStateAfter) :
    ∃ next, applyBridgeTransition env c publicValues = .ok next := by
  have hwidth : (decoded.depositCount.setWidth 64).toNat = decoded.depositCount.toNat := by
    rw [BitVec.toNat_setWidth, Nat.mod_eq_of_lt (lt_trans decoded.depositCount.isLt (by decide))]
  have hlengthSum : checkedAdd BridgeError.arithmeticPanic decoded.zekoActionStateLengthBefore
      decoded.depositCount = .ok decoded.zekoActionStateLengthAfter :=
    checkedAdd_eq_ok.mpr hchecked.lengthAfter
  have hnonceSum : checkedAdd BridgeError.arithmeticPanic decoded.ethereumNonceBefore
      (decoded.depositCount.setWidth 64) = .ok decoded.ethereumNonceAfter := by
    rw [checkedAdd_eq_ok, hwidth]
    exact hchecked.nonce_eq
  simp only [applyBridgeTransition, bind_eq_ok, require_eq_ok, exists_const, pure_eq_ok]
  rw [← hchecked.actionStateBefore] at happended
  exact ⟨_, decoded, hdecode, hchecked.count_ne, hchecked.nonceBefore, hchecked.actionStateBefore,
    hchecked.lengthBefore, _, hlengthSum, rfl, hchecked.stateBefore, hchecked.nonceAfter,
    hchecked.stateAfter, _, hnonceSum, rfl, hchecked.unprocessed, result, happended, hlast, rfl⟩

/-- The circumstances in which a batch of unbridged deposits is proved: a state on
the outer chain whose deposits are folded and provable, the bridge's role, and
counters below their type limits. -/
structure BatchReady (env : Environment) (start : StepField) (links : List StepField) (c : Chain W)
    (last : BitVec 64) : Prop where
  /-- The stored accumulators fold the deposits in the log. -/
  folded : DepositsFolded env c
  /-- The outer action state is that of the links so far. -/
  onChain : OnChain env.hashes start links c
  /-- The guest accepts every deposit. -/
  provable : ∀ record ∈ deposits c.log, RecordProvable record
  /-- Native amounts fit Zeko amounts. -/
  amounts : ∀ record ∈ unbridgedDeposits c last, AmountFits record
  /-- The chain identifier fits the guest's. -/
  chainId : env.chainId.toNat < 2 ^ 64
  /-- The outer chain with the new links does not collide. -/
  collisionFree : CollisionFreeFrom
    (fun p : StepField × StepField => merkleActionsAdd env.hashes p.1 p.2) start
    (chainPairs (merkleActionsAdd env.hashes) start
      (links ++ depositLinks env.hashes env.bridgeAddress (unbridgedDeposits c last)))
  /-- The bridge may append outer actions. -/
  role : c.settlement.hasRole (bridgeRole env) env.bridgeAddress = true
  /-- The outer length stays below its limit. -/
  length : c.settlement.outerActionStateLength.toNat + (unbridgedDeposits c last).length < 2 ^ 32
  /-- The action-state index stays below its limit. -/
  index : c.settlement.currentL2ActionStateIndex.toNat + (unbridgedDeposits c last).length < 2 ^ 64
  /-- The range is not empty and does not exceed the deposits. -/
  after : c.bridge.bridgedDepositNonce.toNat < last.toNat
  /-- The range ends at a counted deposit. -/
  upTo : last.toNat ≤ c.bridge.depositNonce.toNat

namespace BatchReady

variable {start : StepField} {links : List StepField} {c : Chain W} {last : BitVec 64}

/-- The number of deposits in the range. -/
theorem count (h : BatchReady env start links c last) :
    (unbridgedDeposits c last).length = last.toNat - c.bridge.bridgedDepositNonce.toNat := by
  have hcount := h.folded.count
  have hupTo := h.upTo
  rw [unbridgedDeposits, List.length_drop, List.length_take]
  omega

/-- Deposits of the range are deposits of the log. -/
theorem mem_deposits {record : DepositRecord} (hrecord : record ∈ unbridgedDeposits c last) :
    record ∈ deposits c.log :=
  List.mem_of_mem_take (List.mem_of_mem_drop hrecord)

/-- The guest replays the range as the deposits of the log. -/
theorem records (h : BatchReady env start links c last) :
    depositRecords c.bridge.bridgedDepositNonce ((unbridgedDeposits c last).map guestDeposit) =
      unbridgedDeposits c last := by
  apply depositRecords_guestDeposit
  · intro record hrecord
    exact ⟨h.provable record (mem_deposits hrecord), h.amounts record hrecord⟩
  · intro i record hrecord
    rw [unbridgedDeposits, List.getElem?_drop] at hrecord
    have hlt := (List.getElem?_eq_some_iff.mp hrecord).1
    rw [List.length_take] at hlt
    rw [List.getElem?_take_of_lt (by omega)] at hrecord
    exact h.folded.nonces _ record hrecord

/-- The guest accepts the range. -/
theorem derived (h : BatchReady env start links c last) :
    ∃ v, deriveBridgeTransition env.hashes (batchInput env c last) = .ok v := by
  have hcount := h.count
  have hafter := h.after
  apply deriveBridgeTransition_of_admissible
  · intro hnil
    have hlength := congrArg List.length hnil
    simp only [batchInput, List.length_map, List.length_nil] at hlength
    omega
  · exact ⟨_, h.onChain.current.symm⟩
  · intro deposit hdeposit
    obtain ⟨record, hrecord, rfl⟩ := List.mem_map.mp hdeposit
    exact guestDeposit_admissible (h.provable record (mem_deposits hrecord))
      (h.amounts record hrecord)
  · simp only [batchInput, List.length_map]
    exact h.length

/-- What the guest's receipt for the range says. -/
structure Receipt (env : Environment) (start : StepField) (links : List StepField) (c : Chain W)
    (last : BitVec 64) (v : BridgeTransitionPublicValuesV2) : Prop where
  /-- It starts at the accumulator of the last bridged deposit. -/
  stateBefore : v.ethereumStateBefore =
    c.bridge.depositStateByNonce c.bridge.bridgedDepositNonce
  /-- It ends at the accumulator of the last deposit of the range. -/
  stateAfter : v.ethereumStateAfter = c.bridge.depositStateByNonce last
  /-- It starts at the last bridged deposit. -/
  nonceBefore : v.ethereumNonceBefore = c.bridge.bridgedDepositNonce
  /-- It ends at the last deposit of the range. -/
  nonceAfter : v.ethereumNonceAfter = last
  /-- It appends to the current outer action state. -/
  actionBefore : v.zekoActionStateBefore = c.settlement.actionState
  /-- It starts at the current outer length. -/
  lengthBefore : v.zekoActionStateLengthBefore = c.settlement.outerActionStateLength
  /-- It counts the deposits of the range. -/
  lengthAfter : v.zekoActionStateLengthAfter.toNat =
    c.settlement.outerActionStateLength.toNat + (unbridgedDeposits c last).length
  /-- It has an action for each deposit of the range. -/
  count : v.actions.length = (unbridgedDeposits c last).length
  /-- Its intermediate states are those of the outer chain. -/
  states : v.actions.map (·.stateAfter) = (actionChainStates env.hashes env.bridgeAddress
    (links.foldl (merkleActionsAdd env.hashes) start) (unbridgedDeposits c last)).map fieldToBytes
  /-- It ends at the last of them. -/
  actionAfter : v.zekoActionStateAfter =
    lastState c.settlement.actionState (v.actions.map (·.stateAfter))

/-- The guest's receipt for the range ends at the contract's state of its nonce. -/
theorem receipt (h : BatchReady env start links c last) {v : BridgeTransitionPublicValuesV2}
    (hderived : deriveBridgeTransition env.hashes (batchInput env c last) = .ok v) :
    Receipt env start links c last v := by
  have hemitted := deriveBridgeTransition_eq_ok env.hashes hderived
  have hrecords : depositRecords (batchInput env c last).ethereum.depositNonce
      (batchInput env c last).deposits = unbridgedDeposits c last := h.records
  have hcount := h.count
  have hafter := h.after
  have hupTo := h.upTo
  have hchain : toWord (batchInput env c last).ethereum.chainId = env.chainId := by
    apply BitVec.eq_of_toNat_eq
    rw [toWord_toNat (by decide)]
    change (env.chainId.setWidth 64).toNat = _
    rw [BitVec.toNat_setWidth, Nat.mod_eq_of_lt h.chainId]
  have hlength : (batchInput env c last).deposits.length = (unbridgedDeposits c last).length :=
    List.length_map ..
  have hcurrent := h.onChain.current
  rw [chainState_length] at hcurrent
  obtain ⟨state, hstate, hstateBefore, hstateAfter, hstates⟩ := hemitted.actionStates
  have hfold : state = links.foldl (merkleActionsAdd env.hashes) start :=
    fieldToBytes_injective (hstate.trans hcurrent)
  rw [hrecords, hfold] at hstates hstateAfter
  have hbridge : (batchInput env c last).ethereum.bridgeAddress = env.bridgeAddress := rfl
  rw [hbridge] at hstates hstateAfter
  refine ⟨hemitted.ethereumStateBefore, ?_, hemitted.ethereumNonceBefore, ?_, hstateBefore,
    hemitted.lengthBefore, ?_, ?_, hstates, ?_⟩
  · have hsplit : (deposits c.log).take last.toNat =
        (deposits c.log).take c.bridge.bridgedDepositNonce.toNat ++ unbridgedDeposits c last := by
      have htake : (deposits c.log).take c.bridge.bridgedDepositNonce.toNat =
          ((deposits c.log).take last.toNat).take c.bridge.bridgedDepositNonce.toNat := by
        rw [List.take_take, Nat.min_eq_left (by omega)]
      rw [htake, unbridgedDeposits, List.take_append_drop]
    have hbefore : (batchInput env c last).ethereum.depositState =
        depositFold env ((deposits c.log).take c.bridge.bridgedDepositNonce.toNat) :=
      h.folded.states _ h.folded.bridged
    rw [hemitted.ethereumStateAfter, hrecords, hchain, hbridge, hbefore,
      h.folded.states last hupTo, hsplit, depositFold, depositFold, List.foldl_append]
  · have hlt := last.isLt
    rw [hemitted.ethereumNonceAfter, hlength, hcount]
    apply BitVec.eq_of_toNat_eq
    change (c.bridge.bridgedDepositNonce + BitVec.ofNat 64 _).toNat = _
    rw [BitVec.toNat_add, BitVec.toNat_ofNat]
    omega
  · rw [hemitted.lengthAfter, hlength]
    rfl
  · rw [hemitted.actions_length, hlength]
  · rw [hstateAfter, hstates, hcurrent, lastState_actionChainStates, depositLinks, List.foldl_map]
    rfl

/-- The new states are fresh: no checkpoint and no processed state has them, and
they are distinct. -/
theorem fresh (h : BatchReady env start links c last) :
    ((actionChainStates env.hashes env.bridgeAddress (links.foldl (merkleActionsAdd env.hashes) start)
      (unbridgedDeposits c last)).map fieldToBytes).Nodup ∧
    ∀ state ∈ (actionChainStates env.hashes env.bridgeAddress
      (links.foldl (merkleActionsAdd env.hashes) start) (unbridgedDeposits c last)).map fieldToBytes,
      (c.settlement.outerActionStateInfo state).valid = false ∧
        c.bridge.processedActionState state = false :=
  h.onChain.fresh h.collisionFree

/-- The contract accepts the receipt exactly when the range reaches the last
deposit. -/
theorem accepted_iff (h : BatchReady env start links c last) {v : BridgeTransitionPublicValuesV2}
    {encoded : Bytes} (hreceipt : Receipt env start links c last v) (hencode : v.encode = .ok encoded) :
    (∃ next, applyBridgeTransition env c encoded = .ok next) ↔ last = c.bridge.depositNonce := by
  have hdecode := decodeBridgePublicValues_encode hencode
  constructor
  · rintro ⟨next, hnext⟩
    obtain ⟨decoded, htransitioned⟩ := applyBridgeTransition_eq_ok env hnext
    have hdecoded : decoded = v.decoded :=
      Except.ok.inj (htransitioned.decode.symm.trans hdecode)
    rw [← htransitioned.checked.nonceAfter, hdecoded]
    exact hreceipt.nonceAfter.symm
  · intro hlast
    have hcount := h.count
    have hafter := h.after
    have hlength := h.length
    have hlimit := h.index
    have hcountNat : v.decoded.depositCount.toNat = (unbridgedDeposits c last).length := by
      rw [← hreceipt.count]
      change (BitVec.ofNat 32 v.actions.length).toNat = _
      rw [BitVec.toNat_ofNat, hreceipt.count]
      exact Nat.mod_eq_of_lt (by omega)
    have hstates := appendedStates_encode hencode
    rw [hreceipt.states] at hstates
    have hactions := hreceipt.actionAfter
    rw [hreceipt.states] at hactions
    obtain ⟨hdistinct, hfresh⟩ := h.fresh
    rw [← hstates] at hdistinct hfresh hactions
    have hnew : v.zekoActionStateAfter ∈ appendedStates encoded v.decoded.depositCount := by
      rw [hactions]
      apply lastState_mem
      intro hnil
      have hzero := congrArg List.length hnil
      rw [appendedStates_length, hcountNat, List.length_nil] at hzero
      omega
    have hchecked : TransitionChecked c v.decoded := by
      refine ⟨?_, hreceipt.nonceBefore, hreceipt.actionBefore, hreceipt.lengthBefore, ?_, ?_, ?_, ?_,
        ?_, (hfresh _ hnew).2⟩
      · intro hzero
        have hnat := congrArg BitVec.toNat hzero
        rw [hcountNat] at hnat
        have hnone : (0 : BitVec 32).toNat = 0 := rfl
        omega
      · rw [hcountNat]
        change v.zekoActionStateLengthAfter.toNat = v.zekoActionStateLengthBefore.toNat + _
        rw [hreceipt.lengthAfter, hreceipt.lengthBefore]
      · change c.bridge.depositStateByNonce v.ethereumNonceBefore = v.ethereumStateBefore
        rw [hreceipt.nonceBefore, hreceipt.stateBefore]
      · exact hreceipt.nonceAfter.trans hlast
      · change v.ethereumStateAfter = c.bridge.currentDepositState
        rw [hreceipt.stateAfter, hlast, h.folded.states _ (le_refl _), h.folded.current,
          List.take_of_length_le (le_of_eq h.folded.count)]
      · rw [hcountNat]
        change v.ethereumNonceAfter.toNat = v.ethereumNonceBefore.toNat + _
        rw [hreceipt.nonceAfter, hreceipt.nonceBefore]
        omega
    have hloop : ∃ result, appendActions env encoded v.decoded.depositCount.toNat 0
        c.settlement.actionState c.settlement = .ok result :=
      appendActions_of_fresh h.role (by omega) (by omega) hdistinct
        (fun state hstate => (hfresh state hstate).1)
    obtain ⟨result, happended⟩ := hloop
    have hlastState := (appendActions_eq_ok env rfl happended).2.1
    exact applyBridgeTransition_of_checked hdecode hchecked happended
      (hlastState.trans hactions.symm)

end BatchReady

/-- Every run whose receipts are guest-emitted and whose hashes do not collide is
ready to batch its unbridged deposits. -/
theorem reached_batchReady (d : Deployment env W)
    (G : SettlementProver env d.settlement.verifier d.settlement.programVKey)
    (B : BridgeProver env d.bridge.bridgeVerifier d.bridge.bridgeProgramVKey) {start : StepField}
    (hstart : fieldToBytes start = d.settlement.initialOuterActionState)
    (hchain : env.chainId.toNat < 2 ^ 64) (transactions : List Transaction) (last : BitVec 64)
    (hdirect : ∀ entry ∈ d.history transactions, appendsDirectly entry.2.call = false)
    (hkeccak : CollisionFreeFrom env.hashes.keccak256 0
      (activationsStrings env (d.history transactions) ++
        G.strings (settledReceipts (d.history transactions))))
    (hposeidon : CollisionFreeFrom
      (fun p : StepField × StepField => merkleActionsAdd env.hashes p.1 p.2) start
      (chainPairs (merkleActionsAdd env.hashes) start
        (outerLinks G B (d.history transactions) ++ depositLinks env.hashes env.bridgeAddress
          (unbridgedDeposits (d.reached transactions) last))))
    (hrole : (d.reached transactions).settlement.hasRole (bridgeRole env) env.bridgeAddress = true)
    (hamounts : ∀ record ∈ unbridgedDeposits (d.reached transactions) last, AmountFits record)
    (hlength : (d.reached transactions).settlement.outerActionStateLength.toNat +
      (unbridgedDeposits (d.reached transactions) last).length < 2 ^ 32)
    (hindex : (d.reached transactions).settlement.currentL2ActionStateIndex.toNat +
      (unbridgedDeposits (d.reached transactions) last).length < 2 ^ 64)
    (hafter : (d.reached transactions).bridge.bridgedDepositNonce.toNat < last.toNat)
    (hupTo : last.toNat ≤ (d.reached transactions).bridge.depositNonce.toNat) :
    BatchReady env start (outerLinks G B (d.history transactions)) (d.reached transactions) last where
  folded := reached_depositsFolded d transactions
  onChain := reached_onChain d G B hstart transactions hdirect
  provable := reached_provable d G transactions hkeccak
  amounts := hamounts
  chainId := hchain
  collisionFree := hposeidon
  role := hrole
  length := hlength
  index := hindex
  after := hafter
  upTo := hupTo

/-- The encoder accepts every receipt of a ready batch. -/
theorem BatchReady.encoded {start : StepField} {links : List StepField} {c : Chain W}
    {last : BitVec 64} (h : BatchReady env start links c last) {v : BridgeTransitionPublicValuesV2}
    (hreceipt : BatchReady.Receipt env start links c last v) : ∃ encoded, v.encode = .ok encoded := by
  have hcount : v.actions.length < 2 ^ 32 := by
    have hlength := h.length
    rw [hreceipt.count]
    omega
  rw [BridgeTransitionPublicValuesV2.encode]
  simp only [bind_eq_ok, require_eq_ok, exists_const, pure_eq_ok]
  exact ⟨_, hcount, rfl⟩

/-- No deposit can block the bridge. In every reachable state with unbridged
deposits, the guest run on all of them, from the states of both contracts,
succeeds, ends at the contract's last nonce and state, and its receipt passes
every check of `submitBridgeTransition` behind role, pause and proof. Receipts
are guest-emitted, only the bridge appends witness links, no hashed strings
collide, native amounts fit, and counters stay below their type limits. -/
theorem deposits_never_block (d : Deployment env W)
    (G : SettlementProver env d.settlement.verifier d.settlement.programVKey)
    (B : BridgeProver env d.bridge.bridgeVerifier d.bridge.bridgeProgramVKey) {start : StepField}
    (hstart : fieldToBytes start = d.settlement.initialOuterActionState)
    (hchain : env.chainId.toNat < 2 ^ 64) (transactions : List Transaction)
    (hdirect : ∀ entry ∈ d.history transactions, appendsDirectly entry.2.call = false)
    (hkeccak : CollisionFreeFrom env.hashes.keccak256 0
      (activationsStrings env (d.history transactions) ++
        G.strings (settledReceipts (d.history transactions))))
    (hposeidon : CollisionFreeFrom
      (fun p : StepField × StepField => merkleActionsAdd env.hashes p.1 p.2) start
      (chainPairs (merkleActionsAdd env.hashes) start
        (outerLinks G B (d.history transactions) ++ depositLinks env.hashes env.bridgeAddress
          (unbridgedDeposits (d.reached transactions) (d.reached transactions).bridge.depositNonce))))
    (hrole : (d.reached transactions).settlement.hasRole (bridgeRole env) env.bridgeAddress = true)
    (hamounts : ∀ record ∈ unbridgedDeposits (d.reached transactions)
      (d.reached transactions).bridge.depositNonce, AmountFits record)
    (hlength : (d.reached transactions).settlement.outerActionStateLength.toNat +
      (unbridgedDeposits (d.reached transactions)
        (d.reached transactions).bridge.depositNonce).length < 2 ^ 32)
    (hindex : (d.reached transactions).settlement.currentL2ActionStateIndex.toNat +
      (unbridgedDeposits (d.reached transactions)
        (d.reached transactions).bridge.depositNonce).length < 2 ^ 64)
    (hunbridged : (d.reached transactions).bridge.bridgedDepositNonce <
      (d.reached transactions).bridge.depositNonce) :
    ∃ v encoded next,
      deriveBridgeTransition env.hashes (batchInput env (d.reached transactions)
        (d.reached transactions).bridge.depositNonce) = .ok v ∧
      v.ethereumStateAfter = (d.reached transactions).bridge.depositStateByNonce
        (d.reached transactions).bridge.depositNonce ∧
      v.ethereumNonceAfter = (d.reached transactions).bridge.depositNonce ∧
      v.encode = .ok encoded ∧
      applyBridgeTransition env (d.reached transactions) encoded = .ok next := by
  have hready := reached_batchReady d G B hstart hchain transactions _ hdirect hkeccak hposeidon hrole
    hamounts hlength hindex hunbridged (le_refl _)
  obtain ⟨v, hderived⟩ := hready.derived
  have hreceipt := hready.receipt hderived
  obtain ⟨encoded, hencode⟩ := hready.encoded hreceipt
  obtain ⟨next, hnext⟩ := (hready.accepted_iff hreceipt hencode).mpr rfl
  exact ⟨v, encoded, next, hderived, hreceipt.stateAfter, hreceipt.nonceAfter, hencode, hnext⟩

/-- After its setup the concrete deployment is ready to batch both deposits. -/
theorem setup_ready :
    digestsDistinct environment.hashes.keccak256
      (activationsStrings environment (deployment.history setup) ++
        settlementProver.strings (settledReceipts (deployment.history setup)))
      [((0 : Bytes32).toNat, none)] = true ∧
    CollisionFreeFrom
      (fun p : StepField × StepField => merkleActionsAdd environment.hashes p.1 p.2) 1
      (chainPairs (merkleActionsAdd environment.hashes) 1
        (outerLinks settlementProver bridgeProver (deployment.history setup) ++
          depositLinks environment.hashes environment.bridgeAddress
            (unbridgedDeposits (deployment.reached setup)
              (deployment.reached setup).bridge.depositNonce))) ∧
    (deployment.history setup).all (fun entry => !appendsDirectly entry.2.call) = true ∧
    (deployment.reached setup).settlement.hasRole (bridgeRole environment)
      environment.bridgeAddress = true ∧
    (∀ record ∈ unbridgedDeposits (deployment.reached setup)
      (deployment.reached setup).bridge.depositNonce, AmountFits record) ∧
    (deployment.reached setup).settlement.outerActionStateLength.toNat +
      (unbridgedDeposits (deployment.reached setup)
        (deployment.reached setup).bridge.depositNonce).length < 2 ^ 32 ∧
    (deployment.reached setup).settlement.currentL2ActionStateIndex.toNat +
      (unbridgedDeposits (deployment.reached setup)
        (deployment.reached setup).bridge.depositNonce).length < 2 ^ 64 ∧
    (deployment.reached setup).bridge.bridgedDepositNonce = 0 ∧
    (deployment.reached setup).bridge.depositNonce = 2 := by
  decide +kernel

/-- Both deposits of the concrete deployment are proved and accepted. -/
theorem deposits_never_block_setup :
    (deployment.reached setup).bridge.bridgedDepositNonce = 0 ∧
    (deployment.reached setup).bridge.depositNonce = 2 ∧
    ∃ v encoded next,
      deriveBridgeTransition environment.hashes (batchInput environment (deployment.reached setup)
        (deployment.reached setup).bridge.depositNonce) = .ok v ∧
      v.ethereumNonceAfter = (deployment.reached setup).bridge.depositNonce ∧
      v.encode = .ok encoded ∧
      applyBridgeTransition environment (deployment.reached setup) encoded = .ok next := by
  obtain ⟨hdigests, hposeidon, hdirect, hrole, hamounts, hlength, hindex, hbridged, hlast⟩ :=
    setup_ready
  have hcanonical : fieldToBytes (1 : StepField) = deployment.settlement.initialOuterActionState := by
    decide
  have hunbridged : (deployment.reached setup).bridge.bridgedDepositNonce <
      (deployment.reached setup).bridge.depositNonce := by
    rw [hbridged, hlast]
    decide
  obtain ⟨v, encoded, next, hderived, -, hnonce, hencode, hnext⟩ :=
    deposits_never_block deployment settlementProver bridgeProver hcanonical (by decide) setup
      (fun entry hentry => by simpa using List.all_eq_true.mp hdirect entry hentry)
      (collisionFreeFrom_of_digests hdigests) hposeidon hrole hamounts hlength hindex hunbridged
  exact ⟨hbridged, hlast, v, encoded, next, hderived, hnonce, hencode, hnext⟩

/-- `validate_preflight` for a bridge receipt, with the chain at the latest block
and the verification key of the gateway's own program. -/
def validateBridgePreflight (env : Environment) (c : Chain W) (localVKey : Bytes32)
    (input : BridgeTransitionInput) (values : BridgeTransitionPublicValuesV2) :
    Except String Unit := do
  require (toWord input.ethereum.chainId = env.chainId) "chain id mismatch"
  require (input.ethereum.bridgeAddress = env.bridgeAddress) "bridge address mismatch"
  require (c.bridge.paused = false) "bridge contract is paused"
  require (values.ethereumNonceBefore = c.bridge.bridgedDepositNonce)
    "bridge batch does not start at the next unbridged nonce"
  require (c.bridge.processedActionState values.zekoActionStateAfter = false)
    "bridge action state already processed"
  ensureHexEq localVKey c.bridge.bridgeProgramVKey "bridge program vkey"
  require (values.ethereumStateBefore = c.bridge.depositStateByNonce values.ethereumNonceBefore)
    "historical deposit state mismatch"
  require (values.ethereumNonceAfter = c.bridge.depositNonce) "deposit nonce after mismatch"
  require (values.ethereumStateAfter = c.bridge.currentDepositState)
    "current deposit state mismatch"
  require (values.zekoActionStateBefore = c.settlement.actionState)
    "settlement outer action state mismatch"
  require (values.zekoActionStateLengthBefore = c.settlement.outerActionStateLength)
    "settlement outer action-state length mismatch"
  require (values.actions.length < 2 ^ 32) "out of range integral type conversion attempted"
  let lengthAfter ← checkedAdd "bridge action-state length overflow"
    values.zekoActionStateLengthBefore (BitVec.ofNat 32 values.actions.length)
  require (values.zekoActionStateLengthAfter = lengthAfter)
    "bridge action-state length transition mismatch"
  require (values.actions.getLast?.map (·.stateAfter) = some values.zekoActionStateAfter)
    "bridge final action-state checkpoint mismatch"

/-- The last of consecutive states, read from the end. -/
theorem getLast?_eq_lastState {stateBefore : Bytes32} {states : List Bytes32} (h : states ≠ []) :
    states.getLast? = some (lastState stateBefore states) := by
  induction states generalizing stateBefore with
  | nil => exact absurd rfl h
  | cons state states ih =>
    rw [lastState]
    by_cases hnil : states = []
    · rw [hnil]
      rfl
    · obtain ⟨second, rest, rfl⟩ := List.exists_cons_of_ne_nil hnil
      rw [List.getLast?_cons_cons]
      exact ih hnil

/-- The preflight accepts the receipt of a ready batch exactly when the range
reaches the last deposit, on an unpaused bridge with the gateway's key. -/
theorem BatchReady.preflight_iff {start : StepField} {links : List StepField} {c : Chain W}
    {last : BitVec 64} (h : BatchReady env start links c last) {v : BridgeTransitionPublicValuesV2}
    (hreceipt : BatchReady.Receipt env start links c last v) (hunpaused : c.bridge.paused = false) :
    validateBridgePreflight env c c.bridge.bridgeProgramVKey (batchInput env c last) v = .ok () ↔
      last = c.bridge.depositNonce := by
  have hcount := h.count
  have hafter := h.after
  have hlength := h.length
  have hwidth : v.actions.length < 2 ^ 32 := by
    rw [hreceipt.count]
    omega
  have hchain : toWord (batchInput env c last).ethereum.chainId = env.chainId := by
    apply BitVec.eq_of_toNat_eq
    rw [toWord_toNat (by decide)]
    change (env.chainId.setWidth 64).toNat = _
    rw [BitVec.toNat_setWidth, Nat.mod_eq_of_lt h.chainId]
  have hsum : checkedAdd "bridge action-state length overflow" v.zekoActionStateLengthBefore
      (BitVec.ofNat 32 v.actions.length) = .ok v.zekoActionStateLengthAfter := by
    rw [checkedAdd_eq_ok, BitVec.toNat_ofNat, Nat.mod_eq_of_lt hwidth, hreceipt.lengthAfter,
      hreceipt.lengthBefore, hreceipt.count]
  have hnonempty : v.actions.map (·.stateAfter) ≠ [] := by
    intro hnil
    have hzero := congrArg List.length hnil
    rw [List.length_map, hreceipt.count, List.length_nil] at hzero
    omega
  have hlast : v.actions.getLast?.map (·.stateAfter) = some v.zekoActionStateAfter := by
    rw [← List.getLast?_map, hreceipt.actionAfter]
    exact getLast?_eq_lastState hnonempty
  have hfresh : c.bridge.processedActionState v.zekoActionStateAfter = false := by
    apply (h.fresh.2 _ ?_).2
    rw [hreceipt.actionAfter, ← hreceipt.states]
    exact lastState_mem hnonempty
  simp only [validateBridgePreflight, bind_eq_ok, require_eq_ok, ensureHexEq_eq_ok, exists_const]
  constructor
  · rintro ⟨-, -, -, -, -, -, -, hnonce, -⟩
    rw [← hnonce]
    exact hreceipt.nonceAfter.symm
  · intro hcurrent
    refine ⟨hchain, rfl, hunpaused, hreceipt.nonceBefore, hfresh, trivial, ?_, ?_, ?_,
      hreceipt.actionBefore, hreceipt.lengthBefore, hwidth, _, hsum, rfl, hlast⟩
    · rw [hreceipt.nonceBefore, hreceipt.stateBefore]
    · rw [hreceipt.nonceAfter, hcurrent]
    · rw [hreceipt.stateAfter, hcurrent, h.folded.states _ (le_refl _), h.folded.current,
        List.take_of_length_le (le_of_eq h.folded.count)]

/-- Whoever proves the unbridged deposits up to a nonce gets a receipt, and the
contract and the gateway's preflight accept the receipt exactly when the nonce is
the last one: a receipt for a finalized part of the deposits is refused as long
as a later deposit stands behind it. The assumptions are those under which no
deposit blocks the bridge. -/
theorem batch_accepted_iff (d : Deployment env W)
    (G : SettlementProver env d.settlement.verifier d.settlement.programVKey)
    (B : BridgeProver env d.bridge.bridgeVerifier d.bridge.bridgeProgramVKey) {start : StepField}
    (hstart : fieldToBytes start = d.settlement.initialOuterActionState)
    (hchain : env.chainId.toNat < 2 ^ 64) (transactions : List Transaction) (last : BitVec 64)
    (hdirect : ∀ entry ∈ d.history transactions, appendsDirectly entry.2.call = false)
    (hkeccak : CollisionFreeFrom env.hashes.keccak256 0
      (activationsStrings env (d.history transactions) ++
        G.strings (settledReceipts (d.history transactions))))
    (hposeidon : CollisionFreeFrom
      (fun p : StepField × StepField => merkleActionsAdd env.hashes p.1 p.2) start
      (chainPairs (merkleActionsAdd env.hashes) start
        (outerLinks G B (d.history transactions) ++ depositLinks env.hashes env.bridgeAddress
          (unbridgedDeposits (d.reached transactions) last))))
    (hrole : (d.reached transactions).settlement.hasRole (bridgeRole env) env.bridgeAddress = true)
    (hamounts : ∀ record ∈ unbridgedDeposits (d.reached transactions) last, AmountFits record)
    (hlength : (d.reached transactions).settlement.outerActionStateLength.toNat +
      (unbridgedDeposits (d.reached transactions) last).length < 2 ^ 32)
    (hindex : (d.reached transactions).settlement.currentL2ActionStateIndex.toNat +
      (unbridgedDeposits (d.reached transactions) last).length < 2 ^ 64)
    (hafter : (d.reached transactions).bridge.bridgedDepositNonce < last)
    (hupTo : last ≤ (d.reached transactions).bridge.depositNonce)
    (hunpaused : (d.reached transactions).bridge.paused = false) :
    ∃ v encoded,
      deriveBridgeTransition env.hashes (batchInput env (d.reached transactions) last) = .ok v ∧
      v.encode = .ok encoded ∧
      ((∃ next, applyBridgeTransition env (d.reached transactions) encoded = .ok next) ↔
        last = (d.reached transactions).bridge.depositNonce) ∧
      (validateBridgePreflight env (d.reached transactions)
        (d.reached transactions).bridge.bridgeProgramVKey
        (batchInput env (d.reached transactions) last) v = .ok () ↔
        last = (d.reached transactions).bridge.depositNonce) := by
  have hready := reached_batchReady d G B hstart hchain transactions last hdirect hkeccak hposeidon
    hrole hamounts hlength hindex hafter hupTo
  obtain ⟨v, hderived⟩ := hready.derived
  have hreceipt := hready.receipt hderived
  obtain ⟨encoded, hencode⟩ := hready.encoded hreceipt
  exact ⟨v, encoded, hderived, hencode, hready.accepted_iff hreceipt hencode,
    hready.preflight_iff hreceipt hunpaused⟩

/-- The two deposits of the concrete deployment, proved together, are accepted. -/
theorem batch_accepted_setup :
    (deployment.reached setup).bridge.bridgedDepositNonce < 2 ∧
    (deployment.reached setup).bridge.depositNonce = 2 ∧
    ∃ v encoded,
      deriveBridgeTransition environment.hashes
        (batchInput environment (deployment.reached setup) 2) = .ok v ∧
      v.encode = .ok encoded ∧
      (∃ next, applyBridgeTransition environment (deployment.reached setup) encoded = .ok next) ∧
      validateBridgePreflight environment (deployment.reached setup)
        (deployment.reached setup).bridge.bridgeProgramVKey
        (batchInput environment (deployment.reached setup) 2) v = .ok () := by
  obtain ⟨hdigests, hposeidon, hdirect, hrole, hamounts, hlength, hindex, hbridged, hlast⟩ :=
    setup_ready
  rw [hlast] at hposeidon hamounts hlength hindex
  have hcanonical : fieldToBytes (1 : StepField) = deployment.settlement.initialOuterActionState := by
    decide
  have hunpaused : (deployment.reached setup).bridge.paused = false := by decide +kernel
  have hafter : (deployment.reached setup).bridge.bridgedDepositNonce < 2 := by
    rw [hbridged]
    decide
  obtain ⟨v, encoded, hderived, hencode, haccepted, hpreflight⟩ :=
    batch_accepted_iff deployment settlementProver bridgeProver hcanonical (by decide) setup 2
      (fun entry hentry => by simpa using List.all_eq_true.mp hdirect entry hentry)
      (collisionFreeFrom_of_digests hdigests) hposeidon hrole hamounts hlength hindex hafter
      (by rw [hlast]; decide) hunpaused
  exact ⟨hafter, hlast, v, encoded, hderived, hencode, haccepted.mpr hlast.symm,
    hpreflight.mpr hlast.symm⟩

/-- What the contract and the preflight say to the receipt for the deposits up to
a nonce: whether the one accepts it, and the verdict of the other. -/
def batchVerdicts (env : Environment) (c : Chain W) (last : BitVec 64) :
    Except String (Bool × Except String Unit) := do
  let v ← deriveBridgeTransition env.hashes (batchInput env c last)
  let encoded ← v.encode
  pure ((applyBridgeTransition env c encoded).isOk,
    validateBridgePreflight env c c.bridge.bridgeProgramVKey (batchInput env c last) v)

/-- The first deposit of the concrete deployment is provable, but the second one
stands behind it: the contract and the preflight refuse the receipt. -/
theorem first_batch_refused :
    (deployment.reached setup).bridge.bridgedDepositNonce < 1 ∧
    1 ≤ (deployment.reached setup).bridge.depositNonce ∧
    ∃ v encoded,
      deriveBridgeTransition environment.hashes
        (batchInput environment (deployment.reached setup) 1) = .ok v ∧
      v.encode = .ok encoded ∧
      (¬ ∃ next, applyBridgeTransition environment (deployment.reached setup) encoded = .ok next) ∧
      validateBridgePreflight environment (deployment.reached setup)
        (deployment.reached setup).bridge.bridgeProgramVKey
        (batchInput environment (deployment.reached setup) 1) v =
          .error "deposit nonce after mismatch" := by
  have hrun : (deployment.reached setup).bridge.bridgedDepositNonce < 1 ∧
      1 ≤ (deployment.reached setup).bridge.depositNonce ∧
      batchVerdicts environment (deployment.reached setup) 1 =
        .ok (false, .error "deposit nonce after mismatch") := by
    decide +kernel
  obtain ⟨hafter, hupTo, hverdicts⟩ := hrun
  simp only [batchVerdicts, bind_eq_ok, pure_eq_ok, Prod.mk.injEq] at hverdicts
  obtain ⟨v, hderived, encoded, hencode, hrefused, hpreflight⟩ := hverdicts
  refine ⟨hafter, hupTo, v, encoded, hderived, hencode, ?_, hpreflight⟩
  rintro ⟨next, hnext⟩
  rw [hnext] at hrefused
  cases hrefused

end EthereumSettlement.DepositLiveness
