import EthereumSettlement.BridgeCodec
import EthereumSettlement.RegistryCheckpoint

/-!
# Deposit commitments and the bridge guest

A deposit is one Keccak leaf and one link of the deposit chain on Ethereum, and
one five-field outer witness action on Zeko. The bridge guest replays a range of
deposits on both sides. The strings below are written once over 32-byte words
and used by the guest and by the contract with their own arguments.
-/

namespace EthereumSettlement.BridgeGuest

open ByteWords CheckedCalls HashCommitments PastaPoseidon InnerActionCommitment RegistryCheckpoint
open BridgeCodec

variable (H : Hashes)

/-- The eight words of a native deposit leaf. -/
def depositLeafInput (chainId bridgeAddress token zekoRecipient zekoAmount timeout nonce : Bytes32) :
    Bytes :=
  abiEncode [domainHash H "ZEKO_BRIDGE_DEPOSIT_LEAF_V1", chainId, bridgeAddress, token,
    zekoRecipient, zekoAmount, timeout, nonce]

/-- The twelve words of an ERC-20 deposit leaf. -/
def erc20DepositLeafInput (chainId bridgeAddress token encodingVersion registryIndex
    recordCommitment assetId zekoRecipient amount timeout nonce : Bytes32) : Bytes :=
  abiEncode [domainHash H "ZEKO_ERC20_DEPOSIT_LEAF_V3", chainId, bridgeAddress, token,
    encodingVersion, registryIndex, recordCommitment, assetId, zekoRecipient, amount, timeout, nonce]

/-- The three words of a deposit state. -/
def depositStateInput (previousState depositLeaf : Bytes32) : Bytes :=
  abiEncode [domainHash H "ZEKO_BRIDGE_DEPOSIT_STATE_V1", previousState, depositLeaf]

/-- `compute_ethereum_state` and `computeNextDepositState`. -/
def computeNextDepositState (previousState depositLeaf : Bytes32) : Bytes32 :=
  H.keccak256 (depositStateInput H previousState depositLeaf)

/-- State strings determine the previous state and the leaf. -/
theorem depositStateInput_injective {s t l m : Bytes32}
    (h : depositStateInput H s l = depositStateInput H t m) : s = t ∧ l = m := by
  have hw := abiEncode_injective h
  simpa only [List.cons.injEq, and_true, true_and] using hw

/-- `BridgeDeposit`. -/
structure BridgeDeposit where
  /-- Address of the token, zero for ether. -/
  token : Address
  /-- Identifier of the asset. -/
  assetId : Bytes32
  /-- Version of the encoding of token actions. -/
  encodingVersion : BitVec 32
  /-- Index of the asset's record in the registry. -/
  registryIndex : BitVec 32
  /-- Poseidon commitment of the asset's record. -/
  recordCommitment : Bytes32
  /-- Amount on Ethereum. -/
  amount : Bytes32
  /-- Amount on Zeko, where it fits a word. -/
  zekoAmount : Option (BitVec 64)
  /-- Mina key that receives the deposit, as the contract packs it. -/
  zekoRecipient : Bytes32
  /-- Timeout slot on Zeko. -/
  timeout : BitVec 64
  deriving DecidableEq

/-- `EthereumBridgeState`. -/
structure EthereumBridgeState where
  /-- Identifier of the Ethereum chain. -/
  chainId : BitVec 64
  /-- Address of the bridge contract. -/
  bridgeAddress : Address
  /-- Last deposit before the range. -/
  depositNonce : BitVec 64
  /-- Deposit accumulator before the range. -/
  depositState : Bytes32
  deriving DecidableEq

/-- `ZekoBridgeState`. -/
structure ZekoBridgeState where
  /-- Outer action state before the appended actions. -/
  actionState : Bytes32
  /-- Outer length before the appended actions. -/
  actionStateLength : BitVec 32
  deriving DecidableEq

/-- `BridgeTransitionInput`. -/
structure BridgeTransitionInput where
  /-- Where the range starts on Ethereum. -/
  ethereum : EthereumBridgeState
  /-- Where the actions are appended on Zeko. -/
  zeko : ZekoBridgeState
  /-- The deposits of the range. -/
  deposits : List BridgeDeposit
  deriving DecidableEq

/-- `WEI_PER_ZEKO_UNIT`. -/
def weiPerZekoUnit : ℕ := 1000000000

/-- `INFINITE_TIMEOUT`. -/
def infiniteTimeout : BitVec 64 := 4294967295

/-- `unpack_zeko_address`. -/
def unpackZekoAddress (address : Bytes32) : Except String (BitVec 256 × Bool) := do
  let x := address &&& BitVec.ofNat 256 (2 ^ 255 - 1)
  require (x.toNat < fieldOrder) "invalid zeko address field"
  pure (x, address.msb)

/-- A native deposit may name its Zeko amount, which must then be the right one. -/
def checkSuppliedAmount (amount : BitVec 256) : Option (BitVec 64) → Except String Unit
  | none => pure ()
  | some supplied => require (amount = toWord supplied) "native Zeko amount mismatch"

/-- The amount checks of one deposit: the amount of its Zeko action. -/
def checkDepositAmount (deposit : BridgeDeposit) : Except String (BitVec 256) := do
  require (0 < deposit.amount) "zero deposit"
  if deposit.token = 0 then do
    require (deposit.encodingVersion = 0) "native deposit encoding version must be zero"
    require (deposit.assetId = 0) "native asset id must be zero"
    require (deposit.registryIndex = 0) "native deposit has a registry index"
    require (deposit.recordCommitment = 0) "native deposit has a record commitment"
    require (deposit.amount.toNat % weiPerZekoUnit = 0) "native deposit must have 1 gwei granularity"
    let amount := BitVec.ofNat 256 (deposit.amount.toNat / weiPerZekoUnit)
    require (amount.toNat < 2 ^ 64) "native deposit exceeds Mina amount"
    checkSuppliedAmount amount deposit.zekoAmount
    pure amount
  else do
    require (deposit.assetId ≠ 0) "ERC20 asset id must be non-zero"
    require (deposit.timeout = infiniteTimeout) "canonical ERC20 deposit must use infinite timeout"
    require (deposit.encodingVersion = erc20ActionEncodingV2)
      "unsupported ERC20 deposit encoding version"
    require (deposit.recordCommitment ≠ 0) "registry ERC20 deposit record commitment is zero"
    let _ ← fieldFromBytes deposit.recordCommitment
    require (deposit.amount.toNat < 2 ^ 64) "ERC20 deposit exceeds Mina amount"
    match deposit.zekoAmount with
    | none => throw "canonical ERC20 deposit is missing Zeko amount"
    | some supplied => do
      require (deposit.amount = toWord supplied) "canonical ERC20 deposit must preserve base units"
      pure (toWord supplied)

/-- The leaf string of a deposit as the guest builds it. -/
def ethereumDepositLeafInput (ethereum : EthereumBridgeState) (deposit : BridgeDeposit)
    (zekoAmount : BitVec 256) (nonce : BitVec 64) : Bytes :=
  if deposit.token = 0 then
    depositLeafInput H (toWord ethereum.chainId) (toWord ethereum.bridgeAddress)
      (toWord deposit.token) deposit.zekoRecipient zekoAmount (toWord deposit.timeout) (toWord nonce)
  else
    erc20DepositLeafInput H (toWord ethereum.chainId) (toWord ethereum.bridgeAddress)
      (toWord deposit.token) (toWord erc20ActionEncodingV2) (toWord deposit.registryIndex)
      deposit.recordCommitment deposit.assetId deposit.zekoRecipient zekoAmount
      (toWord deposit.timeout) (toWord nonce)

/-- `compute_ethereum_deposit_leaf` or `compute_ethereum_erc20_deposit_leaf_v2`,
chosen by the token. -/
def computeEthereumDepositLeaf (ethereum : EthereumBridgeState) (deposit : BridgeDeposit)
    (zekoAmount : BitVec 256) (nonce : BitVec 64) : Bytes32 :=
  H.keccak256 (ethereumDepositLeafInput H ethereum deposit zekoAmount nonce)

/-- `fp_from_u256` and `fp_from_address`: reduction modulo the field order. -/
def fpFromNat (value : ℕ) : StepField := (value : StepField)

/-- `compute_deposit_aux`. -/
def computeDepositAux (holderAccountL1 : Address) (zekoAmount zekoRecipientX : BitVec 256)
    (zekoRecipientIsOdd : Bool) (timeout : BitVec 64) : StepField :=
  hashWithPrefix H "Ethereum deposit V1"
    [0, fpFromNat holderAccountL1.toNat, 0, fpFromNat zekoAmount.toNat,
      fpFromNat zekoRecipientX.toNat, if zekoRecipientIsOdd then 1 else 0, fpFromNat timeout.toNat]

/-- `compute_erc20_deposit_aux_v2`. -/
def computeErc20DepositAuxV2 (registryIndex : BitVec 32) (recordCommitment assetId : Bytes32)
    (holderAccountL1 : Address) (zekoAmount zekoRecipientX : BitVec 256)
    (zekoRecipientIsOdd : Bool) (timeout : BitVec 64) : Except String StepField := do
  let commitment ← fieldFromBytes recordCommitment
  pure (hashWithPrefix H "Ethereum ERC20 deposit V2"
    [fpFromNat erc20ActionEncodingV2.toNat, fpFromNat registryIndex.toNat, commitment,
      fpFromNat (assetId.extractLsb' 128 128).toNat, fpFromNat (assetId.extractLsb' 0 128).toNat, 0,
      fpFromNat holderAccountL1.toNat, 0, fpFromNat zekoAmount.toNat,
      fpFromNat zekoRecipientX.toNat, if zekoRecipientIsOdd then 1 else 0, fpFromNat timeout.toNat])

/-- The auxiliary hash of a deposit, chosen by the token. -/
def depositAux (ethereum : EthereumBridgeState) (deposit : BridgeDeposit)
    (zekoAmount : BitVec 256) (recipient : BitVec 256 × Bool) : Except String StepField :=
  if deposit.token = 0 then
    pure (computeDepositAux H ethereum.bridgeAddress zekoAmount recipient.1 recipient.2
      deposit.timeout)
  else
    computeErc20DepositAuxV2 H deposit.registryIndex deposit.recordCommitment deposit.assetId
      ethereum.bridgeAddress zekoAmount recipient.1 recipient.2 deposit.timeout

/-- `compute_zeko_outer_witness_fields` with the arguments the guest passes. -/
def computeZekoOuterWitnessFields (aux : StepField) : List StepField :=
  [1, aux, 0, 0, fpFromNat infiniteTimeout.toNat]

/-- `merkle_actions_add`: one step of the outer action chain. -/
def merkleActionsAdd (hash actionsHash : StepField) : StepField :=
  hashWithPrefix H "MinaZkappSeqEvents**" [hash, actionsHash]

/-- The action-list hash of a single witness action. -/
def witnessActionListHash (aux : StepField) : StepField :=
  hashWithPrefix H "MinaZkappSeqEvents**"
    [emptyHashWithPrefix H "MinaZkappActionsEmpty",
      hashWithPrefix H "MinaZkappEvent******" (computeZekoOuterWitnessFields aux)]

/-- The running values of the guest's loop. -/
structure BridgeProgress where
  /-- Deposit accumulator so far. -/
  ethereumState : Bytes32
  /-- Outer action state so far. -/
  zekoActionState : StepField
  /-- Nonce of the next deposit. -/
  nextNonce : BitVec 64
  /-- Outer actions so far. -/
  actions : List BridgeOuterActionV2
  deriving DecidableEq

/-- One iteration of the guest's loop. The nonce wraps: the guest is compiled
without overflow checks. -/
def bridgeDepositStep (ethereum : EthereumBridgeState) (progress : BridgeProgress)
    (deposit : BridgeDeposit) : Except String BridgeProgress := do
  let recipient ← unpackZekoAddress deposit.zekoRecipient
  let zekoAmount ← checkDepositAmount deposit
  let nonce := progress.nextNonce + 1
  let leaf := computeEthereumDepositLeaf H ethereum deposit zekoAmount nonce
  let aux ← depositAux H ethereum deposit zekoAmount recipient
  let zekoActionState := merkleActionsAdd H progress.zekoActionState (witnessActionListHash H aux)
  pure {
    ethereumState := computeNextDepositState H progress.ethereumState leaf
    zekoActionState := zekoActionState
    nextNonce := nonce
    actions := progress.actions ++
      [⟨fun i => fieldToBytes ((computeZekoOuterWitnessFields aux).getD i 0),
        fieldToBytes zekoActionState⟩] }

/-- The guest's loop over the deposits. -/
def bridgeDepositLoop (ethereum : EthereumBridgeState) :
    BridgeProgress → List BridgeDeposit → Except String BridgeProgress
  | progress, [] => pure progress
  | progress, deposit :: deposits => do
    let next ← bridgeDepositStep H ethereum progress deposit
    bridgeDepositLoop ethereum next deposits

/-- `derive_bridge_transition`. -/
def deriveBridgeTransition (input : BridgeTransitionInput) :
    Except String BridgeTransitionPublicValuesV2 := do
  require (input.deposits.length < 2 ^ 32) "too many deposits"
  require (input.deposits ≠ []) "empty deposit batch"
  let actionState ← fieldFromBytes input.zeko.actionState
  let final ← bridgeDepositLoop H input.ethereum
    ⟨input.ethereum.depositState, actionState, input.ethereum.depositNonce, []⟩ input.deposits
  let lengthAfter ← checkedAddU32 "outer action-state length overflow" input.zeko.actionStateLength
    (BitVec.ofNat 32 input.deposits.length)
  pure {
    ethereumStateBefore := input.ethereum.depositState
    ethereumStateAfter := final.ethereumState
    ethereumNonceBefore := input.ethereum.depositNonce
    ethereumNonceAfter := final.nextNonce
    zekoActionStateBefore := fieldToBytes actionState
    zekoActionStateAfter := fieldToBytes final.zekoActionState
    zekoActionStateLengthBefore := input.zeko.actionStateLength
    zekoActionStateLengthAfter := lengthAfter
    actions := final.actions }

/-- The bridge guest: the bytes it commits, or the assertion that stops it. -/
def bridgeGuest (input : BridgeTransitionInput) : Except String Bytes := do
  let publicValues ← deriveBridgeTransition H input
  publicValues.encode

/-- What a deposit leaf commits to, beside the chain and the bridge. -/
inductive DepositRecord
  | native (zekoRecipient : Bytes32) (zekoAmount : BitVec 256) (timeout nonce : BitVec 64)
  | erc20 (token : Address) (registryIndex : BitVec 32) (recordCommitment assetId : Bytes32)
      (zekoRecipient : Bytes32) (amount timeout nonce : BitVec 64)
  deriving DecidableEq

namespace DepositRecord

/-- The position of a deposit in the deposit chain. -/
def nonce : DepositRecord → BitVec 64
  | native _ _ _ nonce => nonce
  | erc20 _ _ _ _ _ _ _ nonce => nonce

/-- The leaf string of a deposit. -/
def leafInput (chainId : BitVec 256) (bridgeAddress : Address) : DepositRecord → Bytes
  | native zekoRecipient zekoAmount timeout nonce =>
    depositLeafInput H chainId (toWord bridgeAddress) 0 zekoRecipient zekoAmount (toWord timeout)
      (toWord nonce)
  | erc20 token registryIndex recordCommitment assetId zekoRecipient amount timeout nonce =>
    erc20DepositLeafInput H chainId (toWord bridgeAddress) (toWord token)
      (toWord erc20ActionEncodingV2) (toWord registryIndex) recordCommitment assetId zekoRecipient
      (toWord amount) (toWord timeout) (toWord nonce)

/-- The leaf of a deposit. -/
def leaf (chainId : BitVec 256) (bridgeAddress : Address) (record : DepositRecord) : Bytes32 :=
  H.keccak256 (record.leafInput H chainId bridgeAddress)

/-- The auxiliary hash of the Zeko action that a deposit stands for. -/
def aux (bridgeAddress : Address) : DepositRecord → StepField
  | native zekoRecipient zekoAmount timeout _ =>
    computeDepositAux H bridgeAddress zekoAmount (zekoRecipient &&& BitVec.ofNat 256 (2 ^ 255 - 1))
      zekoRecipient.msb timeout
  | erc20 _ registryIndex recordCommitment assetId zekoRecipient amount timeout _ =>
    hashWithPrefix H "Ethereum ERC20 deposit V2"
      [fpFromNat erc20ActionEncodingV2.toNat, fpFromNat registryIndex.toNat,
        fpFromNat recordCommitment.toNat, fpFromNat (assetId.extractLsb' 128 128).toNat,
        fpFromNat (assetId.extractLsb' 0 128).toNat, 0, fpFromNat bridgeAddress.toNat, 0,
        fpFromNat amount.toNat,
        fpFromNat (zekoRecipient &&& BitVec.ofNat 256 (2 ^ 255 - 1)).toNat,
        if zekoRecipient.msb then 1 else 0, fpFromNat timeout.toNat]

/-- The action-list hash that a deposit adds to the outer action chain. -/
def actionListHash (bridgeAddress : Address) (record : DepositRecord) : StepField :=
  witnessActionListHash H (record.aux H bridgeAddress)

/-- Leaf strings determine the chain, the bridge and the deposit. -/
theorem leafInput_injective {c d : BitVec 256} {a b : Address} {r q : DepositRecord}
    (h : r.leafInput H c a = q.leafInput H d b) : c = d ∧ a = b ∧ r = q := by
  cases r with
  | native =>
    cases q with
    | native =>
      have hw := abiEncode_injective h
      simp only [List.cons.injEq, and_true, true_and] at hw
      obtain ⟨hc, ha, hrecipient, hamount, htimeout, hnonce⟩ := hw
      refine ⟨hc, toWord_injective (by decide) ha, ?_⟩
      rw [hrecipient, hamount, toWord_injective (by decide) htimeout,
        toWord_injective (by decide) hnonce]
    | erc20 =>
      have hw := abiEncode_injective h
      simp only [List.cons.injEq, reduceCtorEq, and_false] at hw
  | erc20 =>
    cases q with
    | native =>
      have hw := abiEncode_injective h
      simp only [List.cons.injEq, reduceCtorEq, and_false] at hw
    | erc20 =>
      have hw := abiEncode_injective h
      simp only [List.cons.injEq, and_true, true_and] at hw
      obtain ⟨hc, ha, htoken, hindex, hcommitment, hasset, hrecipient, hamount, htimeout,
        hnonce⟩ := hw
      refine ⟨hc, toWord_injective (by decide) ha, ?_⟩
      rw [hcommitment, hasset, hrecipient, toWord_injective (by decide) htoken,
        toWord_injective (by decide) hindex, toWord_injective (by decide) hamount,
        toWord_injective (by decide) htimeout, toWord_injective (by decide) hnonce]

end DepositRecord

/-- One link of the deposit chain. -/
def depositChainStep (chainId : BitVec 256) (bridgeAddress : Address) (state : Bytes32)
    (record : DepositRecord) : Bytes32 :=
  computeNextDepositState H state (record.leaf H chainId bridgeAddress)

/-- One deposit's link of the outer action chain. -/
def actionChainStep (bridgeAddress : Address) (state : StepField) (record : DepositRecord) :
    StepField :=
  merkleActionsAdd H state (record.actionListHash H bridgeAddress)

/-- The outer action states after each deposit of a list. -/
def actionChainStates (bridgeAddress : Address) : StepField → List DepositRecord → List StepField
  | _, [] => []
  | state, record :: records =>
    actionChainStep H bridgeAddress state record ::
      actionChainStates bridgeAddress (actionChainStep H bridgeAddress state record) records

/-- Every leaf and state string of a stretch of the deposit chain. -/
def depositChainInputs (chainId : BitVec 256) (bridgeAddress : Address) :
    Bytes32 → List DepositRecord → List Bytes
  | _, [] => []
  | state, record :: records =>
    record.leafInput H chainId bridgeAddress ::
      depositStateInput H state (record.leaf H chainId bridgeAddress) ::
      depositChainInputs chainId bridgeAddress (depositChainStep H chainId bridgeAddress state record)
        records

/-- The record a guest deposit is replayed as, at a nonce. -/
def BridgeDeposit.record (deposit : BridgeDeposit) (nonce : BitVec 64) : DepositRecord :=
  if deposit.token = 0 then
    .native deposit.zekoRecipient (BitVec.ofNat 256 (deposit.amount.toNat / weiPerZekoUnit))
      deposit.timeout nonce
  else
    .erc20 deposit.token deposit.registryIndex deposit.recordCommitment deposit.assetId
      deposit.zekoRecipient (deposit.zekoAmount.getD 0) deposit.timeout nonce

/-- The records of consecutive guest deposits after a nonce. -/
def depositRecords : BitVec 64 → List BridgeDeposit → List DepositRecord
  | _, [] => []
  | nonce, deposit :: deposits => deposit.record (nonce + 1) :: depositRecords (nonce + 1) deposits

/-- Exactly the deposits that pass the guest's assertions. -/
def DepositAdmissible (deposit : BridgeDeposit) : Prop :=
  (deposit.zekoRecipient &&& BitVec.ofNat 256 (2 ^ 255 - 1)).toNat < fieldOrder ∧
  0 < deposit.amount ∧
  if deposit.token = 0 then
    deposit.encodingVersion = 0 ∧ deposit.assetId = 0 ∧ deposit.registryIndex = 0 ∧
    deposit.recordCommitment = 0 ∧ deposit.amount.toNat % weiPerZekoUnit = 0 ∧
    deposit.amount.toNat / weiPerZekoUnit < 2 ^ 64 ∧
    ∀ supplied ∈ deposit.zekoAmount,
      BitVec.ofNat 256 (deposit.amount.toNat / weiPerZekoUnit) = toWord supplied
  else
    deposit.assetId ≠ 0 ∧ deposit.timeout = infiniteTimeout ∧
    deposit.encodingVersion = erc20ActionEncodingV2 ∧ deposit.recordCommitment ≠ 0 ∧
    Canonical deposit.recordCommitment ∧ deposit.amount.toNat < 2 ^ 64 ∧
    ∃ supplied, deposit.zekoAmount = some supplied ∧ deposit.amount = toWord supplied

/-- The loop's values after a deposit is replayed as a record. -/
def BridgeProgress.advance (progress : BridgeProgress) (chainId : BitVec 256)
    (bridgeAddress : Address) (record : DepositRecord) : BridgeProgress where
  ethereumState := depositChainStep H chainId bridgeAddress progress.ethereumState record
  zekoActionState := actionChainStep H bridgeAddress progress.zekoActionState record
  nextNonce := record.nonce
  actions := progress.actions ++
    [⟨fun i => fieldToBytes ((computeZekoOuterWitnessFields (record.aux H bridgeAddress)).getD i 0),
      fieldToBytes (actionChainStep H bridgeAddress progress.zekoActionState record)⟩]

/-- The check of a supplied amount. -/
theorem checkSuppliedAmount_eq_ok {amount : BitVec 256} {zekoAmount : Option (BitVec 64)} {u : Unit} :
    checkSuppliedAmount amount zekoAmount = .ok u ↔
      ∀ supplied ∈ zekoAmount, amount = toWord supplied := by
  cases zekoAmount with
  | none => simp only [checkSuppliedAmount, pure_eq_ok, Option.not_mem_none, false_implies,
      implies_true]
  | some supplied => simp only [checkSuppliedAmount, require_eq_ok, Option.mem_def,
      Option.some.injEq, forall_eq']

/-- A native deposit's amount checks. -/
theorem checkDepositAmount_native {deposit : BridgeDeposit} {zekoAmount : BitVec 256}
    (htoken : deposit.token = 0) :
    checkDepositAmount deposit = .ok zekoAmount ↔
      (0 < deposit.amount ∧ deposit.encodingVersion = 0 ∧ deposit.assetId = 0 ∧
        deposit.registryIndex = 0 ∧ deposit.recordCommitment = 0 ∧
        deposit.amount.toNat % weiPerZekoUnit = 0 ∧
        deposit.amount.toNat / weiPerZekoUnit < 2 ^ 64 ∧
        ∀ supplied ∈ deposit.zekoAmount,
          BitVec.ofNat 256 (deposit.amount.toNat / weiPerZekoUnit) = toWord supplied) ∧
      zekoAmount = BitVec.ofNat 256 (deposit.amount.toNat / weiPerZekoUnit) := by
  have hfits : (BitVec.ofNat 256 (deposit.amount.toNat / weiPerZekoUnit)).toNat =
      deposit.amount.toNat / weiPerZekoUnit := by
    rw [BitVec.toNat_ofNat, Nat.mod_eq_of_lt (lt_of_le_of_lt (Nat.div_le_self _ _)
      deposit.amount.isLt)]
  simp only [checkDepositAmount, if_pos htoken, bind_eq_ok, require_eq_ok, exists_const, pure_eq_ok,
    checkSuppliedAmount_eq_ok, hfits, and_assoc]
  constructor
  · rintro ⟨h1, h2, h3, h4, h5, h6, h7, h8, rfl⟩
    exact ⟨h1, h2, h3, h4, h5, h6, h7, h8, rfl⟩
  · rintro ⟨h1, h2, h3, h4, h5, h6, h7, h8, rfl⟩
    exact ⟨h1, h2, h3, h4, h5, h6, h7, h8, rfl⟩

/-- An ERC-20 deposit's amount checks. -/
theorem checkDepositAmount_erc20 {deposit : BridgeDeposit} {zekoAmount : BitVec 256}
    (htoken : deposit.token ≠ 0) :
    checkDepositAmount deposit = .ok zekoAmount ↔
      0 < deposit.amount ∧ deposit.assetId ≠ 0 ∧ deposit.timeout = infiniteTimeout ∧
        deposit.encodingVersion = erc20ActionEncodingV2 ∧ deposit.recordCommitment ≠ 0 ∧
        Canonical deposit.recordCommitment ∧ deposit.amount.toNat < 2 ^ 64 ∧
        ∃ supplied, deposit.zekoAmount = some supplied ∧ deposit.amount = toWord supplied ∧
          zekoAmount = toWord supplied := by
  simp only [checkDepositAmount, if_neg htoken, bind_eq_ok, require_eq_ok, exists_const,
    ← fieldFromBytes_isOk]
  cases deposit.zekoAmount with
  | none => simp only [throw_eq_ok, and_false, exists_false, reduceCtorEq, false_and]
  | some supplied =>
    simp only [bind_eq_ok, require_eq_ok, exists_const, pure_eq_ok, Option.some.injEq]
    constructor
    · rintro ⟨h1, h2, h3, h4, h5, value, h6, h7, h8, h9⟩
      exact ⟨h1, h2, h3, h4, h5, ⟨value, h6⟩, h7, supplied, rfl, h8, h9.symm⟩
    · rintro ⟨h1, h2, h3, h4, h5, ⟨value, h6⟩, h7, _, rfl, h8, h9⟩
      exact ⟨h1, h2, h3, h4, h5, value, h6, h7, h8, h9.symm⟩

/-- Recipients below the field order are unpacked into coordinate and parity. -/
theorem unpackZekoAddress_eq_ok {address : Bytes32} {recipient : BitVec 256 × Bool} :
    unpackZekoAddress address = .ok recipient ↔
      (address &&& BitVec.ofNat 256 (2 ^ 255 - 1)).toNat < fieldOrder ∧
        recipient = (address &&& BitVec.ofNat 256 (2 ^ 255 - 1), address.msb) := by
  rw [unpackZekoAddress, require_bind_eq_ok, pure_eq_ok]
  exact and_congr_right fun _ => eq_comm

/-- One iteration succeeds exactly on admissible deposits and then replays the
deposit's record. -/
theorem bridgeDepositStep_eq_ok {ethereum : EthereumBridgeState} {progress next : BridgeProgress}
    {deposit : BridgeDeposit} :
    bridgeDepositStep H ethereum progress deposit = .ok next ↔
      DepositAdmissible deposit ∧ next = progress.advance H (toWord ethereum.chainId)
        ethereum.bridgeAddress (deposit.record (progress.nextNonce + 1)) := by
  simp only [bridgeDepositStep, bind_eq_ok, pure_eq_ok, unpackZekoAddress_eq_ok]
  by_cases htoken : deposit.token = 0
  · simp only [checkDepositAmount_native htoken, depositAux, htoken, ↓reduceIte, pure_eq_ok,
      DepositAdmissible, BridgeDeposit.record, computeEthereumDepositLeaf,
      ethereumDepositLeafInput]
    constructor
    · rintro ⟨_, ⟨hrecipient, rfl⟩, _, ⟨⟨hamount, hrest⟩, rfl⟩, _, rfl, rfl⟩
      exact ⟨⟨hrecipient, hamount, hrest⟩, rfl⟩
    · rintro ⟨⟨hrecipient, hamount, hrest⟩, rfl⟩
      exact ⟨_, ⟨hrecipient, rfl⟩, _, ⟨⟨hamount, hrest⟩, rfl⟩, _, rfl, rfl⟩
  · simp only [checkDepositAmount_erc20 htoken, depositAux, if_neg htoken, DepositAdmissible,
      BridgeDeposit.record, computeEthereumDepositLeaf, ethereumDepositLeafInput,
      computeErc20DepositAuxV2, bind_eq_ok, pure_eq_ok, fieldFromBytes_eq_ok]
    constructor
    · rintro ⟨_, ⟨hrecipient, rfl⟩, _, ⟨hamount, hasset, htimeout, hencoding, hcommitment, hcanonical,
        hlt, supplied, hsupplied, heq, rfl⟩, _, ⟨value, hvalue, rfl⟩, rfl⟩
      refine ⟨⟨hrecipient, hamount, hasset, htimeout, hencoding, hcommitment, hcanonical, hlt,
        supplied, hsupplied, heq⟩, ?_⟩
      have hcast : fpFromNat deposit.recordCommitment.toNat = value := by
        rw [← hvalue, fieldToBytes_toNat, fpFromNat, ZMod.natCast_zmod_val]
      have hword : (toWord supplied).toNat = supplied.toNat := by
        rw [toWord, BitVec.toNat_ofNat, Nat.mod_eq_of_lt (lt_trans supplied.isLt (by decide))]
      rw [hsupplied, Option.getD_some, ← hcast, hword]
      rfl
    · rintro ⟨⟨hrecipient, hamount, hasset, htimeout, hencoding, hcommitment, hcanonical, hlt,
        supplied, hsupplied, heq⟩, rfl⟩
      obtain ⟨value, hvalue⟩ := hcanonical
      have hcast : fpFromNat deposit.recordCommitment.toNat = value := by
        rw [← hvalue, fieldToBytes_toNat, fpFromNat, ZMod.natCast_zmod_val]
      have hword : (toWord supplied).toNat = supplied.toNat := by
        rw [toWord, BitVec.toNat_ofNat, Nat.mod_eq_of_lt (lt_trans supplied.isLt (by decide))]
      refine ⟨_, ⟨hrecipient, rfl⟩, _, ⟨hamount, hasset, htimeout, hencoding, hcommitment,
        ⟨value, hvalue⟩, hlt, supplied, hsupplied, heq, rfl⟩, _, ⟨value, hvalue, rfl⟩, ?_⟩
      rw [hsupplied, Option.getD_some, ← hcast, hword]
      rfl

/-- The loop's values after a list of records. -/
def BridgeProgress.advanceAll (progress : BridgeProgress) (chainId : BitVec 256)
    (bridgeAddress : Address) (records : List DepositRecord) : BridgeProgress :=
  records.foldl (fun progress record => progress.advance H chainId bridgeAddress record) progress

/-- The loop succeeds exactly when every deposit is admissible and then replays
the records of the deposits. -/
theorem bridgeDepositLoop_eq_ok {ethereum : EthereumBridgeState} {progress final : BridgeProgress}
    {deposits : List BridgeDeposit} :
    bridgeDepositLoop H ethereum progress deposits = .ok final ↔
      (∀ deposit ∈ deposits, DepositAdmissible deposit) ∧
        final = progress.advanceAll H (toWord ethereum.chainId) ethereum.bridgeAddress
          (depositRecords progress.nextNonce deposits) := by
  induction deposits generalizing progress with
  | nil =>
    rw [bridgeDepositLoop, pure_eq_ok]
    constructor
    · intro h
      exact ⟨fun deposit hmem => absurd hmem List.not_mem_nil, h.symm⟩
    · intro h
      exact h.2.symm
  | cons deposit deposits ih =>
    have hnonce : (progress.advance H (toWord ethereum.chainId) ethereum.bridgeAddress
        (deposit.record (progress.nextNonce + 1))).nextNonce = progress.nextNonce + 1 := by
      unfold BridgeDeposit.record
      split <;> rfl
    simp only [bridgeDepositLoop, bind_eq_ok, bridgeDepositStep_eq_ok, List.forall_mem_cons]
    constructor
    · rintro ⟨next, ⟨hadmissible, rfl⟩, hrest⟩
      obtain ⟨hall, hfinal⟩ := ih.mp hrest
      rw [hnonce] at hfinal
      exact ⟨⟨hadmissible, hall⟩, hfinal⟩
    · rintro ⟨⟨hadmissible, hall⟩, hfinal⟩
      refine ⟨_, ⟨hadmissible, rfl⟩, ih.mpr ⟨hall, ?_⟩⟩
      rw [hnonce]
      exact hfinal

/-- The deposit chain after a list of records. -/
theorem advanceAll_ethereumState (progress : BridgeProgress) (chainId : BitVec 256)
    (bridgeAddress : Address) (records : List DepositRecord) :
    (progress.advanceAll H chainId bridgeAddress records).ethereumState =
      records.foldl (depositChainStep H chainId bridgeAddress) progress.ethereumState := by
  induction records generalizing progress with
  | nil => rfl
  | cons record records ih => exact ih (progress.advance H chainId bridgeAddress record)

/-- The outer action chain after a list of records. -/
theorem advanceAll_zekoActionState (progress : BridgeProgress) (chainId : BitVec 256)
    (bridgeAddress : Address) (records : List DepositRecord) :
    (progress.advanceAll H chainId bridgeAddress records).zekoActionState =
      records.foldl (actionChainStep H bridgeAddress) progress.zekoActionState := by
  induction records generalizing progress with
  | nil => rfl
  | cons record records ih => exact ih (progress.advance H chainId bridgeAddress record)

/-- The emitted states are those of the outer action chain. -/
theorem advanceAll_actions (progress : BridgeProgress) (chainId : BitVec 256)
    (bridgeAddress : Address) (records : List DepositRecord) :
    (progress.advanceAll H chainId bridgeAddress records).actions.map (·.stateAfter) =
      progress.actions.map (·.stateAfter) ++
        (actionChainStates H bridgeAddress progress.zekoActionState records).map fieldToBytes := by
  induction records generalizing progress with
  | nil =>
    rw [actionChainStates, List.map_nil, List.append_nil]
    rfl
  | cons record records ih =>
    have hnext := ih (progress.advance H chainId bridgeAddress record)
    rw [actionChainStates, List.map_cons]
    refine hnext.trans ?_
    simp only [BridgeProgress.advance, List.map_append, List.map_cons, List.map_nil,
      List.append_assoc, List.cons_append, List.nil_append]

/-- There is one record for each deposit. -/
@[simp] theorem depositRecords_length (nonce : BitVec 64) (deposits : List BridgeDeposit) :
    (depositRecords nonce deposits).length = deposits.length := by
  induction deposits generalizing nonce with
  | nil => rfl
  | cons deposit deposits ih => rw [depositRecords, List.length_cons, ih, List.length_cons]

/-- The nonce advances by one for each deposit. -/
theorem advanceAll_nextNonce (progress : BridgeProgress) (chainId : BitVec 256)
    (bridgeAddress : Address) (deposits : List BridgeDeposit) :
    (progress.advanceAll H chainId bridgeAddress
      (depositRecords progress.nextNonce deposits)).nextNonce =
        progress.nextNonce + BitVec.ofNat 64 deposits.length := by
  induction deposits generalizing progress with
  | nil =>
    rw [List.length_nil]
    exact (BitVec.add_zero _).symm
  | cons deposit deposits ih =>
    have hnonce : (progress.advance H chainId bridgeAddress
        (deposit.record (progress.nextNonce + 1))).nextNonce = progress.nextNonce + 1 := by
      unfold BridgeDeposit.record
      split <;> rfl
    have hnext := ih (progress.advance H chainId bridgeAddress
      (deposit.record (progress.nextNonce + 1)))
    rw [hnonce] at hnext
    refine hnext.trans ?_
    rw [List.length_cons, BitVec.add_assoc]
    congr 1
    apply BitVec.eq_of_toNat_eq
    have hone : (1 : BitVec 64).toNat = 1 := rfl
    simp only [BitVec.toNat_add, BitVec.toNat_ofNat, hone]
    omega

/-- What an emitted bridge receipt says about the guest's input. -/
structure BridgeEmitted (input : BridgeTransitionInput) (v : BridgeTransitionPublicValuesV2) :
    Prop where
  /-- Every deposit passed the guest's assertions. -/
  admissible : ∀ deposit ∈ input.deposits, DepositAdmissible deposit
  /-- The batch is not empty. -/
  nonempty : input.deposits ≠ []
  /-- It starts at the deposit state of the input. -/
  ethereumStateBefore : v.ethereumStateBefore = input.ethereum.depositState
  /-- It starts at the deposit nonce of the input. -/
  ethereumNonceBefore : v.ethereumNonceBefore = input.ethereum.depositNonce
  /-- It counts the deposits of the input. -/
  ethereumNonceAfter : v.ethereumNonceAfter =
    input.ethereum.depositNonce + BitVec.ofNat 64 input.deposits.length
  /-- The deposit chain is replayed. -/
  ethereumStateAfter : v.ethereumStateAfter =
    (depositRecords input.ethereum.depositNonce input.deposits).foldl
      (depositChainStep H (toWord input.ethereum.chainId) input.ethereum.bridgeAddress)
      input.ethereum.depositState
  /-- The source action state is canonical, and the outer action chain is
  replayed from it. -/
  actionStates : ∃ actionState, fieldToBytes actionState = input.zeko.actionState ∧
    v.zekoActionStateBefore = input.zeko.actionState ∧
    v.zekoActionStateAfter = fieldToBytes
      ((depositRecords input.ethereum.depositNonce input.deposits).foldl
        (actionChainStep H input.ethereum.bridgeAddress) actionState) ∧
    v.actions.map (·.stateAfter) = (actionChainStates H input.ethereum.bridgeAddress actionState
      (depositRecords input.ethereum.depositNonce input.deposits)).map fieldToBytes
  /-- It starts at the outer length of the input. -/
  lengthBefore : v.zekoActionStateLengthBefore = input.zeko.actionStateLength
  /-- It appends one action for each deposit. -/
  lengthAfter : v.zekoActionStateLengthAfter.toNat =
    input.zeko.actionStateLength.toNat + input.deposits.length

/-- The chain has one state for each record. -/
@[simp] theorem actionChainStates_length (bridgeAddress : Address) (state : StepField)
    (records : List DepositRecord) :
    (actionChainStates H bridgeAddress state records).length = records.length := by
  induction records generalizing state with
  | nil => rfl
  | cons record records ih => rw [actionChainStates, List.length_cons, ih, List.length_cons]

/-- A receipt has one action for each deposit. -/
theorem BridgeEmitted.actions_length {input : BridgeTransitionInput}
    {v : BridgeTransitionPublicValuesV2} (h : BridgeEmitted H input v) :
    v.actions.length = input.deposits.length := by
  obtain ⟨actionState, -, -, -, hactions⟩ := h.actionStates
  have hlength := congrArg List.length hactions
  rw [List.length_map, List.length_map, actionChainStates_length, depositRecords_length] at hlength
  exact hlength

/-- `derive_bridge_transition` establishes its record of facts. -/
theorem deriveBridgeTransition_eq_ok {input : BridgeTransitionInput}
    {v : BridgeTransitionPublicValuesV2} (h : deriveBridgeTransition H input = .ok v) :
    BridgeEmitted H input v := by
  simp only [deriveBridgeTransition, bind_eq_ok, require_eq_ok, exists_const, pure_eq_ok,
    fieldFromBytes_eq_ok, bridgeDepositLoop_eq_ok] at h
  obtain ⟨hcount, hnonempty, actionState, hstate, final, ⟨hadmissible, rfl⟩, lengthAfter, hlength,
    rfl⟩ := h
  have hstates := advanceAll_actions H
    ⟨input.ethereum.depositState, actionState, input.ethereum.depositNonce, []⟩
    (toWord input.ethereum.chainId) input.ethereum.bridgeAddress
    (depositRecords input.ethereum.depositNonce input.deposits)
  have hsum := checkedAdd_eq_ok.mp hlength
  rw [BitVec.toNat_ofNat, Nat.mod_eq_of_lt hcount] at hsum
  exact {
    admissible := hadmissible
    nonempty := hnonempty
    ethereumStateBefore := rfl
    ethereumNonceBefore := rfl
    ethereumNonceAfter := advanceAll_nextNonce H _ _ _ input.deposits
    ethereumStateAfter := advanceAll_ethereumState H _ _ _ _
    actionStates := ⟨actionState, hstate, hstate,
      congrArg fieldToBytes (advanceAll_zekoActionState H _ _ _ _), hstates⟩
    lengthBefore := rfl
    lengthAfter := hsum }

/-- The guest accepts every nonempty batch of admissible deposits whose length
fits, from any canonical action state. -/
theorem deriveBridgeTransition_of_admissible {input : BridgeTransitionInput}
    (hnonempty : input.deposits ≠ []) (hcanonical : Canonical input.zeko.actionState)
    (hadmissible : ∀ deposit ∈ input.deposits, DepositAdmissible deposit)
    (hlength : input.zeko.actionStateLength.toNat + input.deposits.length < 2 ^ 32) :
    ∃ v, deriveBridgeTransition H input = .ok v := by
  obtain ⟨actionState, hstate⟩ := hcanonical
  have hcount : input.deposits.length < 2 ^ 32 := by omega
  have hsum : input.zeko.actionStateLength.toNat +
      (BitVec.ofNat 32 input.deposits.length).toNat < 2 ^ 32 := by
    rw [BitVec.toNat_ofNat, Nat.mod_eq_of_lt hcount]
    exact hlength
  simp only [deriveBridgeTransition, bind_eq_ok, require_eq_ok, exists_const, pure_eq_ok,
    fieldFromBytes_eq_ok, bridgeDepositLoop_eq_ok]
  exact ⟨_, hcount, hnonempty, actionState, hstate, _, ⟨hadmissible, rfl⟩, _,
    checkedAdd_of_lt hsum, rfl⟩

end EthereumSettlement.BridgeGuest
