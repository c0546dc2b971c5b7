import EthereumSettlement.FixedBytesText
import EthereumSettlement.RegistryContinuity
import EthereumSettlement.SettlementRuns
import EthereumSettlement.SettlementDecoder
import EthereumSettlement.ReferenceDeployment

/-!
# What the gateway's checks say about a settlement

Before it submits a settlement, the gateway compares the receipt with the contract's
storage and demands that enough slots remain. The contract checks more than that. The
module says what is left to check once the preflight accepts a receipt that the guest
emitted, that a preflight accepts only while no other outer action was appended since the
context of the proof was read, and what can still go wrong with the transaction for as
long as the demanded slots last.
-/

namespace EthereumSettlement.SettlementPreflight

open ByteWords CheckedCalls FixedBytesText HashCommitments PastaPoseidon TransitionRuns
open SettlementCodec SettlementDecoder
open RegistryCheckpoint RegistryContinuity SettlementReceipt ZekoSettlement SettlementRuns
open ReferenceHashes ReferenceDeployment OpenZeppelin

/-- `hydrate_settlement_context`, with the storage at the latest block and the decoded hash of
the Mina transaction. -/
def hydrateSettlementContext (env : Environment) (s : SettlementStorage)
    (supplied : Option SettlementContextV1) (minaTransactionHash : Bytes32) :
    Except String SettlementContextV1 := do
  let sequence ← checkedAdd "settlement batch sequence overflow" s.batchSequence 1
  let context : SettlementContextV1 := ⟨env.chainId.setWidth 64, env.settlementAddress, sequence,
    minaTransactionHash, s.outerActionStateLength⟩
  require (∀ found ∈ supplied, found = context) "stale settlement Ethereum context"
  pure context

/-- `validate_preflight` for a settlement receipt, with the storage at the latest block and
the verification key of the gateway's own program. The release build wraps the next
sequence. -/
def validateSettlementPreflight (env : Environment) (s : SettlementStorage) (localVKey : Bytes32)
    (values : SettlementPublicValuesV1) : Except String Unit := do
  ensureHexEq localVKey s.programVKey "settlement program vkey"
  require (values.vkHash = s.vkHash) "vk hash mismatch"
  require (toWord values.chainId = env.chainId) "settlement chain id mismatch"
  require (values.settlementContract = env.settlementAddress)
    "settlement contract address mismatch"
  require (values.batchSequence = s.batchSequence + 1) "settlement batch sequence mismatch"
  require (values.outerActionStateBefore = s.actionState) "action state mismatch"
  require (values.outerActionStateLengthBefore = s.outerActionStateLength)
    "outer action-state length mismatch"
  (List.finRange 8).forM fun index =>
    require (values.stateBefore.fields index = s.outerState index)
      s!"outer state field {index} mismatch"
  require (values.stateBefore.fields 2 = s.currentRoot) "current root mismatch"

/-- `settlement_lifetime` for a settlement receipt: the current slot of a block with the
timestamp, and the last slot of the receipt. -/
def settlementLifetime (s : SettlementStorage) (timestamp : BitVec 256)
    (values : SettlementPublicValues) : Except String (BitVec 64 × BitVec 64) :=
  match currentVirtualSlot s timestamp with
  | .ok current => pure (current, values.settlement.slotUpper.setWidth 64)
  | .error _ => throw "execution reverted"

/-- `require_settlement_lifetime`. -/
def requireSettlementLifetime (s : SettlementStorage) (timestamp : BitVec 256)
    (values : SettlementPublicValues) (minRemainingSlots : BitVec 64) : Except String Unit := do
  let lifetime ← settlementLifetime s timestamp values
  let remaining ← checkedSub "settlement proof expired" lifetime.2 lifetime.1
  require (minRemainingSlots ≤ remaining)
    ("settlement proof has " ++ toString remaining.toNat ++ " slots remaining; at least " ++
      toString minRemainingSlots.toNat ++ " are required")

/-- The facts of a receipt that the guest has checked before it emits it. -/
structure Emitted (values : SettlementPublicValues) : Prop where
  /-- The mode is the supported one. -/
  daMode : values.settlement.daMode = .multisig
  /-- A settlement appends one outer action. -/
  lengthAfter : values.settlement.outerActionStateLengthAfter.toNat =
    values.settlement.outerActionStateLengthBefore.toNat + 1
  /-- A batch spans the transition of the inner length. -/
  range : ∀ batch, values.innerActionBatch = some batch →
    batch.innerActionStartIndex.toNat = (values.settlement.stateBefore.fields 4).toNat ∧
    batch.innerActionStartIndex.toNat + batch.innerActionCount.toNat =
      (values.settlement.stateAfter.fields 4).toNat ∧
    (values.settlement.stateAfter.fields 4).toNat < 2 ^ 32
  /-- What is checked of one record. -/
  record : ∀ r, values = .v3 r → r.assetRegistryRoot ≠ 0 ∧
    r.assetRegistryCount.toNat ≤ assetRegistryCapacity ∧ r.assetRegistrySchemaVersion = 1 ∧
    r.assetRecordHash ≠ 0
  /-- What is checked of a tree of records. -/
  records : ∀ r, values = .v4 r → r.assetRegistryRoot ≠ 0 ∧ r.assetRecordBatchCount ≠ 0 ∧
    r.assetRegistryCount.toNat ≤ assetRegistryCapacity ∧ r.assetRegistrySchemaVersion = 1

/-- What the contract checks of a receipt beyond the preflight, apart from the sender, the
bridge and the time. -/
structure Settleable (s : SettlementStorage) (values : SettlementPublicValues) : Prop where
  /-- The sequence is not the last one. -/
  sequence : s.batchSequence.toNat + 1 < 2 ^ 64
  /-- The synchronized action state has a checkpoint of the synchronized length. -/
  synchronized : s.outerActionStateInfo values.settlement.synchronizedOuterActionState =
    ⟨values.settlement.synchronizedOuterActionStateLength, true⟩
  /-- The target action state has an index, or there is one left. -/
  indexed : (s.l2ActionStateInfo values.settlement.outerActionStateAfter).valid = true ∨
    s.currentL2ActionStateIndex.toNat + 1 < 2 ^ 64
  /-- The target inner length is a machine word. -/
  innerLength : (values.settlement.stateAfter.fields 4).toNat < 2 ^ 32
  /-- A batch has a nonzero root. -/
  innerRoot : ∀ batch, values.innerActionBatch = some batch → batch.innerActionRoot ≠ 0
  /-- One record raises the count by one. -/
  record : ∀ r, values = .v3 r → r.assetRecordCommitment ≠ 0 ∧
    r.assetRegistryCount.toNat = s.assetRegistryCount.toNat + 1
  /-- A tree of records raises the count by its size. -/
  records : ∀ r, values = .v4 r → r.assetRecordBatchRoot ≠ 0 ∧
    r.assetRegistryCount.toNat = s.assetRegistryCount.toNat + r.assetRecordBatchCount.toNat

/-- The slot of the block is within the slots of the receipt. -/
def InWindow (s : SettlementStorage) (timestamp : BitVec 256) (values : SettlementPublicValues) :
    Prop :=
  ∃ current, currentVirtualSlot s timestamp = .ok current ∧
    values.settlement.slotLower.toNat ≤ current.toNat ∧
    current.toNat ≤ values.settlement.slotUpper.toNat

/-- A batch names the bridge of the contract. -/
def NamesBridge (s : SettlementStorage) (values : SettlementPublicValues) : Prop :=
  ∀ batch, values.innerActionBatch = some batch → batch.bridgeAddress = s.bridgeContract

/-- A machine word that is not zero is positive. -/
theorem toNat_pos_iff {width : ℕ} {word : BitVec width} : 0 < word.toNat ↔ word ≠ 0 := by
  rw [BitVec.toNat_pos]
  exact BitVec.pos_iff_ne_zero word

section Emission

variable {H : Hashes}

/-- A batch that the guest derives spans the transition of the inner length. -/
theorem deriveV2Receipt_range {settlement : SettlementPublicValuesV1}
    {batch : InnerActionBatchWitnessV2} {receipt : SettlementPublicValuesV2}
    (h : deriveV2Receipt H settlement batch = .ok receipt) :
    receipt.innerActionStartIndex.toNat = (settlement.stateBefore.fields 4).toNat ∧
    receipt.innerActionStartIndex.toNat + receipt.innerActionCount.toNat =
      (settlement.stateAfter.fields 4).toNat ∧
    (settlement.stateAfter.fields 4).toNat < 2 ^ 32 := by
  have haccepted := deriveV2Receipt_eq_ok H h
  simp only [deriveV2Receipt, bind_eq_ok, require_eq_ok, exists_const, pure_eq_ok,
    fieldBytesToU32] at h
  obtain ⟨-, stateBefore, -, stateAfter, -, startIndex, ⟨hstart, hsame⟩, endIndex,
    ⟨hend, hlast⟩, hsum, -⟩ := h
  have hfirst : startIndex.toNat = (settlement.stateBefore.fields 4).toNat := by
    rw [← hsame, BitVec.toNat_setWidth, Nat.mod_eq_of_lt hstart]
    rfl
  have hfinal : endIndex.toNat = (settlement.stateAfter.fields 4).toNat := by
    rw [← hlast, BitVec.toNat_setWidth, Nat.mod_eq_of_lt hend]
    rfl
  have hindex : receipt.innerActionStartIndex = startIndex :=
    haccepted.startIndex_eq.trans hsame
  rw [hindex, haccepted.count_eq, hsum]
  exact ⟨hfirst, hfinal, hend⟩

/-- The count of a V4 receipt is that of the appended records. -/
theorem validateRegistryBatch_emitted {checkpoint : AssetRegistryBatchCheckpointV4}
    {chainId : BitVec 64} {bridgeAddress : Address} {identities : List RecordIdentity}
    (h : validateRegistryBatch H checkpoint chainId bridgeAddress = .ok identities) :
    checkpoint.root ≠ 0 ∧ BitVec.ofNat 32 identities.length ≠ 0 ∧
      checkpoint.count.toNat ≤ assetRegistryCapacity ∧ checkpoint.schemaVersion = 1 := by
  simp only [validateRegistryBatch, bind_eq_ok, require_eq_ok, exists_const, pure_eq_ok] at h
  obtain ⟨hschema, hroot, hnonempty, hcapacity, count, -, -, hfits, result, hresult, -, rfl⟩ := h
  have hlength := (validateRegistryAppends_replayed hresult).2.2
  have hsmall : checkpoint.appends.length < 2 ^ 32 := lt_of_le_of_lt hcapacity (by decide)
  have hpositive := List.length_pos_of_ne_nil hnonempty
  refine ⟨hroot, toNat_pos_iff.mp ?_, hfits, hschema⟩
  rw [BitVec.toNat_ofNat, hlength, Nat.mod_eq_of_lt hsmall]
  exact hpositive

/-- A derived receipt carries what the guest has checked. -/
theorem emitted_of_derived {appState : List StepField} {witness : SettlementWitnessV1}
    {vkHash : Bytes32} {values : SettlementPublicValues}
    (h : deriveReceiptValues H appState witness vkHash = .ok values) : Emitted values := by
  obtain ⟨hreceipt, -⟩ := deriveReceiptValues_eq_ok H h
  obtain ⟨body, action, before, hderived⟩ := deriveReceiptForAppState_eq_ok H hreceipt
  have hlength : values.settlement.outerActionStateLengthAfter.toNat =
      values.settlement.outerActionStateLengthBefore.toNat + 1 := by
    rw [hderived.lengthBefore_eq]
    exact checkedAdd_eq_ok.mp hderived.lengthAfter_eq
  have hsettlement : ∀ {v1 : SettlementPublicValuesV1} {batch : InnerActionBatchWitnessV2}
      {v2 : SettlementPublicValuesV2}, deriveV2Receipt H v1 batch = .ok v2 →
        ∀ found, some v2 = some found →
          found.innerActionStartIndex.toNat = (v2.settlement.stateBefore.fields 4).toNat ∧
          found.innerActionStartIndex.toNat + found.innerActionCount.toNat =
            (v2.settlement.stateAfter.fields 4).toNat ∧
          (v2.settlement.stateAfter.fields 4).toNat < 2 ^ 32 := by
    intro v1 batch v2 hv2 found hfound
    rw [← Option.some.inj hfound, (deriveV2Receipt_eq_ok H hv2).settlement_eq]
    exact deriveV2Receipt_range hv2
  rw [deriveReceiptValues, bind_eq_ok] at h
  obtain ⟨v1, hv1, hmatch⟩ := h
  dsimp only at hmatch
  split at hmatch
  · rw [pure_eq_ok] at hmatch
    subst hmatch
    exact ⟨hderived.daMode_eq, hlength, fun _ hbatch => (by cases hbatch),
      fun _ hthird => (by cases hthird), fun _ hfourth => (by cases hfourth)⟩
  · simp only [bind_eq_ok, pure_eq_ok] at hmatch
    obtain ⟨v2, hv2, rfl⟩ := hmatch
    exact ⟨hderived.daMode_eq, hlength, hsettlement hv2, fun _ hthird => (by cases hthird),
      fun _ hfourth => (by cases hfourth)⟩
  · simp only [validateRegistryTransition, bind_eq_ok, require_eq_ok, exists_const,
      pure_eq_ok] at hmatch
    obtain ⟨⟨-, -, -, -, next, -, -, hcapacity, -⟩, hroot, -, hschema, hhash, v2, hv2,
      commitment, -, rfl⟩ := hmatch
    refine ⟨hderived.daMode_eq, hlength, hsettlement hv2, ?_, fun _ hfourth => (by cases hfourth)⟩
    intro r hthird
    cases hthird
    exact ⟨hroot, hcapacity, hschema, hhash⟩
  · simp only [bind_eq_ok, pure_eq_ok] at hmatch
    obtain ⟨identities, hvalidated, batchRoot, -, v2, hv2, rfl⟩ := hmatch
    refine ⟨hderived.daMode_eq, hlength, hsettlement hv2, fun _ hthird => (by cases hthird), ?_⟩
    intro r hfourth
    cases hfourth
    exact validateRegistryBatch_emitted hvalidated
  all_goals exact absurd hmatch (by simp [throw_eq_ok])

end Emission

/-- A list of checks passes when every check does. -/
theorem forM_eq_ok {α ε : Type} {check : α → Except ε Unit} {inputs : List α} :
    inputs.forM check = .ok () ↔ ∀ input ∈ inputs, check input = .ok () := by
  induction inputs with
  | nil =>
    constructor
    · intro _ input hinput
      cases hinput
    · intro _
      rfl
  | cons input inputs ih =>
    change (check input >>= fun _ => inputs.forM check) = .ok () ↔ _
    rw [List.forall_mem_cons, ← ih, bind_eq_ok]
    constructor
    · intro h
      obtain ⟨u, hfirst, hrest⟩ := h
      exact ⟨hfirst, hrest⟩
    · intro h
      exact ⟨(), h.1, h.2⟩

section Acceptance

variable {env : Environment} {s : SettlementStorage} {values : SettlementPublicValues}

/-- The preflight accepts a receipt that agrees with the storage in every compared field. -/
theorem validateSettlementPreflight_eq_ok {localVKey : Bytes32} {v : SettlementPublicValuesV1} :
    validateSettlementPreflight env s localVKey v = .ok () ↔
      localVKey = s.programVKey ∧ v.vkHash = s.vkHash ∧ toWord v.chainId = env.chainId ∧
      v.settlementContract = env.settlementAddress ∧ v.batchSequence = s.batchSequence + 1 ∧
      v.outerActionStateBefore = s.actionState ∧
      v.outerActionStateLengthBefore = s.outerActionStateLength ∧
      v.stateBefore.fields = s.outerState ∧ v.stateBefore.fields 2 = s.currentRoot := by
  have hfields : (∀ index ∈ List.finRange 8, v.stateBefore.fields index = s.outerState index) ↔
      v.stateBefore.fields = s.outerState := by
    constructor
    · intro h
      funext index
      exact h index (List.mem_finRange index)
    · intro h index _
      rw [h]
  have hloop : ∀ u : Unit, ((List.finRange 8).forM fun index =>
      require (v.stateBefore.fields index = s.outerState index)
        s!"outer state field {index} mismatch") = .ok u ↔ v.stateBefore.fields = s.outerState := by
    intro u
    rw [← hfields, forM_eq_ok]
    simp only [require_eq_ok]
  simp only [validateSettlementPreflight, bind_eq_ok, require_eq_ok, ensureHexEq_eq_ok,
    exists_const, hloop]

/-- The sequence of a receipt is the next one. -/
theorem nextSequence_iff {sequence : BitVec 64} :
    (∃ expected, checkedAdd SettlementError.arithmeticPanic s.batchSequence 1 = .ok expected ∧
      sequence = expected) ↔
        sequence = s.batchSequence + 1 ∧ s.batchSequence.toNat + 1 < 2 ^ 64 := by
  constructor
  · intro h
    obtain ⟨expected, hexpected, hsame⟩ := h
    have hsum := checkedAdd_eq_ok.mp hexpected
    have hlt := expected.isLt
    have hone : (1 : BitVec 64).toNat = 1 := rfl
    exact ⟨hsame.trans (eq_add_of_checkedAdd hexpected), by omega⟩
  · intro h
    exact ⟨_, checkedAdd_of_lt h.2, h.1⟩

/-- The contract's checks of a receipt are those of the preflight, that the sequence is not
the last one, that the synchronized state has a checkpoint, and the slots. -/
theorem checkReceipt_iff {timestamp : BitVec 256} (hemitted : Emitted values)
    (hroot : s.currentRoot = s.outerState 2)
    (hbounded : ∀ state, (s.outerActionStateInfo state).valid = true →
      (s.outerActionStateInfo state).length.toNat ≤ s.outerActionStateLength.toNat) :
    checkReceipt env s timestamp values.decoded = .ok () ↔
      validateSettlementPreflight env s s.programVKey values.settlement = .ok () ∧
      s.batchSequence.toNat + 1 < 2 ^ 64 ∧
      s.outerActionStateInfo values.settlement.synchronizedOuterActionState =
        ⟨values.settlement.synchronizedOuterActionStateLength, true⟩ ∧
      InWindow s timestamp values := by
  have hlength := hemitted.lengthAfter
  have hwidth := values.settlement.outerActionStateLengthAfter.isLt
  have hone : (1 : BitVec 32).toNat = 1 := rfl
  have hmismatch : ((List.finRange 8).find? fun i =>
      decide (values.decoded.stateBefore i ≠ s.outerState i)) = none ↔
        values.settlement.stateBefore.fields = s.outerState := by
    rw [List.find?_eq_none]
    constructor
    · intro h
      funext i
      have hi := h i (List.mem_finRange i)
      exact of_not_not fun hne => hi (decide_eq_true hne)
    · intro h i _ hdiffers
      exact of_decide_eq_true hdiffers (congrFun h i)
  rw [validateSettlementPreflight_eq_ok]
  simp only [checkReceipt, bind_eq_ok, require_eq_ok, exists_const, hmismatch]
  constructor
  · intro h
    obtain ⟨-, hchain, hcontract, expected, hexpected, hsequence, hvk, hstate, haction, hbefore,
      lengthAfter, -, -, -, ⟨hvalid, hsynchronized⟩, -, slot, hslot, hlower, hupper⟩ := h
    obtain ⟨hnext, hroom⟩ := nextSequence_iff.mp ⟨expected, hexpected, hsequence⟩
    refine ⟨⟨trivial, hvk, hchain, hcontract, hnext, haction, hbefore, hstate, ?_⟩, hroom, ?_,
      slot, hslot, hlower, hupper⟩
    · rw [hstate, hroot]
    · change s.outerActionStateInfo values.decoded.synchronizedOuterActionState =
        ⟨values.decoded.synchronizedOuterActionStateLength, true⟩
      rw [← hvalid, ← hsynchronized]
  · intro h
    obtain ⟨⟨-, hvk, hchain, hcontract, hnext, haction, hbefore, hstate, -⟩, hroom, hinfo, slot,
      hslot, hlower, hupper⟩ := h
    obtain ⟨expected, hexpected, hsequence⟩ := nextSequence_iff.mpr ⟨hnext, hroom⟩
    have hsynchronized := hbounded values.settlement.synchronizedOuterActionState
      (by rw [hinfo])
    rw [hinfo, ← hbefore] at hsynchronized
    have hadded : checkedAdd SettlementError.arithmeticPanic
        values.settlement.outerActionStateLengthBefore 1 =
          .ok values.settlement.outerActionStateLengthAfter :=
      checkedAdd_eq_ok.mpr (by omega)
    have hslots : values.settlement.slotLower ≤ values.settlement.slotUpper := by
      rw [BitVec.le_def]
      omega
    have hmode : values.decoded.daMode = 1 := congrArg SettlementDaMode.toByte hemitted.daMode
    refine ⟨hmode, hchain, hcontract, expected, hexpected, hsequence, hvk,
      hstate, haction, hbefore, _, hadded, rfl, hsynchronized, ?_, hslots, slot, hslot, hlower,
      hupper⟩
    change (s.outerActionStateInfo values.settlement.synchronizedOuterActionState).valid = true ∧
      (s.outerActionStateInfo values.settlement.synchronizedOuterActionState).length =
        values.settlement.synchronizedOuterActionStateLength
    rw [hinfo]
    exact ⟨rfl, rfl⟩

/-- A field that fits a machine word is read as it. -/
theorem fieldToUint32_of_lt {value : Bytes32} (h : value.toNat < 2 ^ 32) :
    fieldToUint32 value = .ok (value.setWidth 32) :=
  require_bind_eq_ok.mpr ⟨h, rfl⟩

/-- Recording a receipt succeeds when the action state can be indexed and the inner length
read. -/
theorem recordReceipt_succeeds {timestamp : BitVec 256} {decoded : DecodedPublicValues}
    (hindexed : (s.l2ActionStateInfo decoded.outerActionStateAfter).valid = true ∨
      s.currentL2ActionStateIndex.toNat + 1 < 2 ^ 64)
    (hinner : (decoded.stateAfter 4).toNat < 2 ^ 32) :
    Succeeds (recordReceipt s timestamp decoded) := by
  have hone : (1 : BitVec 64).toNat = 1 := rfl
  rw [recordReceipt, succeeds_bind]
  have hrecorded : ∀ r : SettlementStorage,
      Succeeds (recordAcceptedInnerState r timestamp (decoded.stateAfter 3) (decoded.stateAfter 4)
        decoded.batchSequence) := by
    intro r
    unfold recordAcceptedInnerState
    by_cases hzero : decoded.stateAfter 3 = 0
    · rw [if_pos hzero]
      exact succeeds_pure
    · rw [if_neg hzero, succeeds_bind]
      exact ⟨(decoded.stateAfter 4).setWidth 32, fieldToUint32_of_lt hinner, succeeds_pure⟩
  unfold recordL2ActionState
  by_cases hvalid : (s.l2ActionStateInfo decoded.outerActionStateAfter).valid = true
  · rw [if_pos hvalid]
    exact ⟨_, rfl, hrecorded _⟩
  · rw [if_neg hvalid]
    have hroom := hindexed.resolve_left hvalid
    refine ⟨_, bind_eq_ok.mpr ⟨_, checkedAdd_of_lt ?_, rfl⟩, hrecorded _⟩
    dsimp only
    omega

/-- What recording a receipt keeps and demands. -/
theorem recordReceipt_kept {timestamp : BitVec 256} {decoded : DecodedPublicValues}
    {recorded : SettlementStorage} (h : recordReceipt s timestamp decoded = .ok recorded) :
    recorded.bridgeContract = s.bridgeContract ∧
    recorded.assetRegistryCount = s.assetRegistryCount ∧
    ((s.l2ActionStateInfo decoded.outerActionStateAfter).valid = true ∨
      s.currentL2ActionStateIndex.toNat + 1 < 2 ^ 64) := by
  simp only [recordReceipt, bind_eq_ok] at h
  obtain ⟨indexed, hindexed, haccepted⟩ := h
  obtain ⟨index, info, hsame⟩ := recordL2ActionState_eq_ok hindexed
  obtain ⟨table, hlast⟩ := recordAcceptedInnerState_eq_ok haccepted
  rw [hlast, hsame]
  refine ⟨rfl, rfl, ?_⟩
  by_cases hvalid : (s.l2ActionStateInfo decoded.outerActionStateAfter).valid = true
  · exact Or.inl hvalid
  · unfold recordL2ActionState at hindexed
    rw [if_neg hvalid, bind_eq_ok] at hindexed
    obtain ⟨next, hnext, -⟩ := hindexed
    have hsum := checkedAdd_eq_ok.mp hnext
    have hlt := next.isLt
    have hone : (1 : BitVec 64).toNat = 1 := rfl
    exact Or.inr (by dsimp only at hsum; omega)

/-- The batch of an emitted receipt, by its own fields. -/
theorem recordInnerActionBatch_some_iff {recorded : SettlementStorage}
    {batch : SettlementPublicValuesV2} (hemitted : Emitted values)
    (hbatch : values.innerActionBatch = some batch) (hversion : 2 ≤ values.decoded.version) :
    Succeeds (recordInnerActionBatch recorded values.decoded) ↔
      batch.bridgeAddress = recorded.bridgeContract ∧ batch.innerActionRoot ≠ 0 := by
  obtain ⟨hstart, hsum, hlast⟩ := hemitted.range batch hbatch
  have hdecoded : ∀ {α : Type} (field : SettlementPublicValuesV2 → α) (absent : α),
      (values.innerActionBatch.map field).getD absent = field batch := by
    intro α field absent
    rw [hbatch]
    rfl
  have hbridge : values.decoded.bridgeAddress = batch.bridgeAddress :=
    hdecoded SettlementPublicValuesV2.bridgeAddress 0
  have hroot : values.decoded.innerActionRoot = batch.innerActionRoot :=
    hdecoded SettlementPublicValuesV2.innerActionRoot 0
  have hindex : values.decoded.innerActionStartIndex = batch.innerActionStartIndex :=
    hdecoded SettlementPublicValuesV2.innerActionStartIndex 0
  have hcount : values.decoded.innerActionCount = batch.innerActionCount :=
    hdecoded SettlementPublicValuesV2.innerActionCount 0
  have hbefore : (values.decoded.stateBefore 4).toNat = batch.innerActionStartIndex.toNat :=
    hstart.symm
  have hafter : (values.decoded.stateAfter 4).toNat =
      batch.innerActionStartIndex.toNat + batch.innerActionCount.toNat := hsum.symm
  have hfits : (values.decoded.stateAfter 4).toNat < 2 ^ 32 := hlast
  have hreadBefore : fieldToUint32 (values.decoded.stateBefore 4) =
      .ok ((values.decoded.stateBefore 4).setWidth 32) := fieldToUint32_of_lt (by omega)
  have hreadAfter : fieldToUint32 (values.decoded.stateAfter 4) =
      .ok ((values.decoded.stateAfter 4).setWidth 32) := fieldToUint32_of_lt hfits
  have hfirst : (values.decoded.stateBefore 4).setWidth 32 = batch.innerActionStartIndex := by
    apply BitVec.eq_of_toNat_eq
    rw [BitVec.toNat_setWidth, Nat.mod_eq_of_lt (by omega), hbefore]
  have hfinal : (values.decoded.stateAfter 4).setWidth 32 =
      batch.innerActionStartIndex + batch.innerActionCount := by
    apply BitVec.eq_of_toNat_eq
    rw [BitVec.toNat_setWidth, BitVec.toNat_add, hafter]
  have hle : batch.innerActionStartIndex ≤
      batch.innerActionStartIndex + batch.innerActionCount := by
    rw [BitVec.le_def, BitVec.toNat_add, Nat.mod_eq_of_lt (by omega)]
    omega
  have hdifference : batch.innerActionStartIndex + batch.innerActionCount -
      batch.innerActionStartIndex = batch.innerActionCount := by
    rw [BitVec.add_comm]
    exact BitVec.add_sub_cancel _ _
  unfold recordInnerActionBatch
  rw [if_pos hversion, hbridge, hroot, hindex, hcount, hreadBefore, hreadAfter, hfirst, hfinal]
  simp only [succeeds_bind, require_eq_ok, exists_const, succeeds_pure, and_true]
  constructor
  · intro h
    obtain ⟨hsame, lengthBefore, hlengthBefore, lengthAfter, hlengthAfter, -, -, hnonzero⟩ := h
    exact ⟨hsame, hnonzero⟩
  · intro h
    exact ⟨h.1, _, rfl, _, rfl, ⟨hle, hdifference⟩, rfl, h.2⟩

/-- The batch of an emitted receipt is recorded when it names the bridge and its root is not
zero. -/
theorem recordInnerActionBatch_iff {recorded : SettlementStorage} (hemitted : Emitted values) :
    Succeeds (recordInnerActionBatch recorded values.decoded) ↔
      NamesBridge recorded values ∧
        ∀ batch, values.innerActionBatch = some batch → batch.innerActionRoot ≠ 0 := by
  have hall : ∀ batch : SettlementPublicValuesV2, values.innerActionBatch = some batch →
      (2 ≤ values.decoded.version) →
        (Succeeds (recordInnerActionBatch recorded values.decoded) ↔
          NamesBridge recorded values ∧
            ∀ found, values.innerActionBatch = some found → found.innerActionRoot ≠ 0) := by
    intro batch hbatch hversion
    rw [recordInnerActionBatch_some_iff hemitted hbatch hversion, NamesBridge, hbatch]
    simp only [Option.some.injEq, forall_eq']
  cases values with
  | v1 r =>
    constructor
    · intro _
      exact ⟨fun _ hbatch => (by cases hbatch), fun _ hbatch => (by cases hbatch)⟩
    · intro _
      exact succeeds_pure
  | v2 r => exact hall r rfl (by change (2 : BitVec 16) ≤ 2; decide)
  | v3 r => exact hall r.settlement rfl (by change (2 : BitVec 16) ≤ 3; decide)
  | v4 r => exact hall r.settlement rfl (by change (2 : BitVec 16) ≤ 4; decide)

/-- The record of an emitted V3 receipt is recorded when its commitment is not zero and its
count is the next one. -/
theorem recordAssetRecord_iff {recorded : SettlementStorage} (hemitted : Emitted values) :
    Succeeds (recordAssetRecord recorded values.decoded) ↔
      ∀ r, values = .v3 r → r.assetRecordCommitment ≠ 0 ∧
        r.assetRegistryCount.toNat = recorded.assetRegistryCount.toNat + 1 := by
  cases values with
  | v3 r =>
    obtain ⟨hroot, hcapacity, hschema, hhash⟩ := hemitted.record r rfl
    have hversion : (SettlementPublicValues.v3 r).decoded.version = 3 := rfl
    have hone : (1 : BitVec 32).toNat = 1 := rfl
    unfold recordAssetRecord
    rw [if_pos hversion]
    simp only [succeeds_bind, require_eq_ok, exists_const, succeeds_pure, and_true]
    constructor
    · intro h third hthird
      cases hthird
      obtain ⟨-, next, hnext, hcount, -, -, -, hcommitment⟩ := h
      have hsum := checkedAdd_eq_ok.mp hnext
      have hsame : r.assetRegistryCount = next := hcount
      exact ⟨hcommitment, by rw [hsame]; omega⟩
    · intro h
      obtain ⟨hcommitment, hcount⟩ := h r rfl
      exact ⟨hroot, r.assetRegistryCount, checkedAdd_eq_ok.mpr (by omega), rfl, hcapacity, hschema,
        hhash, hcommitment⟩
  | v1 r => exact ⟨fun _ _ hthird => (by cases hthird), fun _ => succeeds_pure⟩
  | v2 r => exact ⟨fun _ _ hthird => (by cases hthird), fun _ => succeeds_pure⟩
  | v4 r => exact ⟨fun _ _ hthird => (by cases hthird), fun _ => succeeds_pure⟩

/-- The records of an emitted V4 receipt are recorded when their root is not zero and the
count grows by their number. -/
theorem recordAssetRecordBatch_iff {recorded : SettlementStorage} (hemitted : Emitted values) :
    Succeeds (recordAssetRecordBatch recorded values.decoded) ↔
      ∀ r, values = .v4 r → r.assetRecordBatchRoot ≠ 0 ∧ r.assetRegistryCount.toNat =
        recorded.assetRegistryCount.toNat + r.assetRecordBatchCount.toNat := by
  cases values with
  | v4 r =>
    obtain ⟨hroot, hnonempty, hcapacity, hschema⟩ := hemitted.records r rfl
    have hversion : (SettlementPublicValues.v4 r).decoded.version = 4 := rfl
    unfold recordAssetRecordBatch
    rw [if_pos hversion]
    simp only [succeeds_bind, require_eq_ok, exists_const, succeeds_pure, and_true]
    constructor
    · intro h fourth hfourth
      cases hfourth
      obtain ⟨⟨-, hbatchRoot, -⟩, next, hnext, hcount, -⟩ := h
      have hsum := checkedAdd_eq_ok.mp hnext
      have hsame : r.assetRegistryCount = next := hcount
      exact ⟨hbatchRoot, by rw [hsame]; exact hsum⟩
    · intro h
      obtain ⟨hbatchRoot, hcount⟩ := h r rfl
      exact ⟨⟨hroot, hbatchRoot, hnonempty⟩, r.assetRegistryCount, checkedAdd_eq_ok.mpr hcount, rfl,
        hcapacity, hschema⟩
  | v1 r => exact ⟨fun _ _ hfourth => (by cases hfourth), fun _ => succeeds_pure⟩
  | v2 r => exact ⟨fun _ _ hfourth => (by cases hfourth), fun _ => succeeds_pure⟩
  | v3 r => exact ⟨fun _ _ hfourth => (by cases hfourth), fun _ => succeeds_pure⟩

/-- A V4 receipt has no single record that changes the count. -/
theorem registeredCount_eq {batched : SettlementStorage}
    {registered : SettlementStorage × List SettlementEvent} {r : SettlementPublicValuesV4}
    (h : recordAssetRecord batched values.decoded = .ok registered) (hfourth : values = .v4 r) :
    registered.1.assetRegistryCount = batched.assetRegistryCount := by
  obtain ⟨⟨schema, hregistered⟩, -⟩ := recordAssetRecord_eq_ok h
  have hversion : values.decoded.version ≠ 3 := by
    rw [hfourth]
    change (4 : BitVec 16) ≠ 3
    decide
  rw [hregistered]
  exact if_neg hversion

/-- The contract accepts an emitted and proved receipt exactly when the preflight accepts it,
the sender may submit it, the slot is within its slots, and the rest of the checks pass. -/
theorem accepted_iff {ctx : CallContext} {proofBytes : Bytes} (hemitted : Emitted values)
    (hroot : s.currentRoot = s.outerState 2)
    (hbounded : ∀ state, (s.outerActionStateInfo state).valid = true →
      (s.outerActionStateInfo state).length.toNat ≤ s.outerActionStateLength.toNat)
    (hproof : env.verifyProof s.verifier s.programVKey values.encode proofBytes = true) :
    Succeeds (verifyAndUpdateRoot env s ctx values.encode proofBytes) ↔
      validateSettlementPreflight env s s.programVKey values.settlement = .ok () ∧
      Settleable s values ∧ InWindow s ctx.timestamp values ∧ NamesBridge s values ∧
      s.hasRole (proverRole env) ctx.sender = true := by
  constructor
  · intro h
    obtain ⟨result, h⟩ := h
    simp only [verifyAndUpdateRoot, bind_eq_ok, onlyRole_eq_ok, require_eq_ok, exists_const,
      pure_eq_ok] at h
    obtain ⟨hrole, -, decoded, hdecoded, u, hchecked, recorded, hrecorded, batched, hbatched,
      registered, hregistered, settled, hsettled, innerLength, hinner, -⟩ := h
    have hsame := Except.ok.inj (hdecoded.symm.trans (decodePublicValues_encode values))
    rw [hsame] at hchecked hrecorded hbatched hregistered hsettled hinner
    obtain ⟨hpreflight, hsequence, hsynchronized, hwindow⟩ :=
      (checkReceipt_iff hemitted hroot hbounded).mp hchecked
    obtain ⟨hbridgeKept, hcountKept, hindexed⟩ := recordReceipt_kept hrecorded
    obtain ⟨hnames, hinnerRoot⟩ := (recordInnerActionBatch_iff hemitted).mp ⟨_, hbatched⟩
    have hrecord := (recordAssetRecord_iff hemitted).mp ⟨_, hregistered⟩
    have hrecords := (recordAssetRecordBatch_iff hemitted).mp ⟨_, hsettled⟩
    have hbatchedCount : batched.1.assetRegistryCount = s.assetRegistryCount := by
      rw [(recordInnerActionBatch_eq_ok hbatched).1]
      exact hcountKept
    rw [fieldToUint32, require_bind_eq_ok] at hinner
    refine ⟨hpreflight, ⟨hsequence, hsynchronized, hindexed, hinner.1, hinnerRoot, ?_, ?_⟩, hwindow,
      fun batch hbatch => (hnames batch hbatch).trans hbridgeKept, hrole⟩
    · intro r hthird
      rw [← hbatchedCount]
      exact hrecord r hthird
    · intro r hfourth
      rw [← hbatchedCount, ← registeredCount_eq hregistered hfourth]
      exact hrecords r hfourth
  · intro h
    obtain ⟨hpreflight, hsettleable, hwindow, hnames, hrole⟩ := h
    have hchecked := (checkReceipt_iff hemitted hroot hbounded).mpr
      ⟨hpreflight, hsettleable.sequence, hsettleable.synchronized, hwindow⟩
    have hrecordable : Succeeds (recordReceipt s ctx.timestamp values.decoded) :=
      recordReceipt_succeeds hsettleable.indexed hsettleable.innerLength
    obtain ⟨recorded, hrecorded⟩ := hrecordable
    obtain ⟨hbridgeKept, hcountKept, -⟩ := recordReceipt_kept hrecorded
    have hbatchable : Succeeds (recordInnerActionBatch recorded values.decoded) :=
      (recordInnerActionBatch_iff hemitted).mpr
        ⟨fun batch hbatch => (hnames batch hbatch).trans hbridgeKept.symm, hsettleable.innerRoot⟩
    obtain ⟨batched, hbatched⟩ := hbatchable
    have hbatchedCount : batched.1.assetRegistryCount = s.assetRegistryCount := by
      rw [(recordInnerActionBatch_eq_ok hbatched).1]
      exact hcountKept
    have hregistrable : Succeeds (recordAssetRecord batched.1 values.decoded) := by
      rw [recordAssetRecord_iff hemitted, hbatchedCount]
      exact hsettleable.record
    obtain ⟨registered, hregistered⟩ := hregistrable
    have hsettled : Succeeds (recordAssetRecordBatch registered.1 values.decoded) := by
      rw [recordAssetRecordBatch_iff hemitted]
      intro r hfourth
      rw [registeredCount_eq hregistered hfourth, hbatchedCount]
      exact hsettleable.records r hfourth
    obtain ⟨settled, hsettled⟩ := hsettled
    have hinner : fieldToUint32 (values.decoded.stateAfter 4) =
        .ok ((values.decoded.stateAfter 4).setWidth 32) :=
      fieldToUint32_of_lt hsettleable.innerLength
    refine ⟨(settled.1, batched.2 ++ registered.2 ++ settled.2 ++
      [.settlementAccepted values.decoded.batchSequence values.decoded.minaTransactionHash
        (values.decoded.stateAfter 2) values.decoded.outerActionStateAfter
        values.decoded.outerActionStateLengthAfter (values.decoded.stateAfter 3)
        ((values.decoded.stateAfter 4).setWidth 32) values.decoded.slotLower
        values.decoded.slotUpper]), ?_⟩
    simp only [verifyAndUpdateRoot, bind_eq_ok, onlyRole_eq_ok, require_eq_ok, exists_const,
      pure_eq_ok]
    exact ⟨hrole, hproof, _, decodePublicValues_encode values, (), hchecked, recorded, hrecorded,
      batched, hbatched, registered, hregistered, settled, hsettled, _, hinner, rfl⟩

end Acceptance

section Slots

variable {s : SettlementStorage}

/-- The slots that have passed at a time. -/
def elapsedSlots (s : SettlementStorage) (time : ℕ) : ℕ :=
  if time ≤ s.genesisTimestamp.toNat then 0
  else (time - s.genesisTimestamp.toNat) / s.slotDuration.toNat

/-- Time that is worth so many slots lets at most as many slots pass. -/
theorem elapsedSlots_later {first later margin : ℕ} (hduration : 0 < s.slotDuration.toNat)
    (hafter : first ≤ later) (hmargin : later ≤ first + margin * s.slotDuration.toNat) :
    elapsedSlots s first ≤ elapsedSlots s later ∧
      elapsedSlots s later ≤ elapsedSlots s first + margin := by
  unfold elapsedSlots
  by_cases hlater : later ≤ s.genesisTimestamp.toNat
  · rw [if_pos hlater, if_pos (by omega)]
    omega
  · rw [if_neg hlater]
    by_cases hfirst : first ≤ s.genesisTimestamp.toNat
    · rw [if_pos hfirst]
      have hspan : later - s.genesisTimestamp.toNat ≤ margin * s.slotDuration.toNat := by omega
      have hdiv := Nat.div_le_div_right (c := s.slotDuration.toNat) hspan
      rw [Nat.mul_div_cancel _ hduration] at hdiv
      exact ⟨Nat.zero_le _, le_trans hdiv (Nat.le_add_left _ _)⟩
    · rw [if_neg hfirst]
      have hspan : later - s.genesisTimestamp.toNat ≤
          first - s.genesisTimestamp.toNat + margin * s.slotDuration.toNat := by omega
      have hdiv := Nat.div_le_div_right (c := s.slotDuration.toNat) hspan
      rw [Nat.add_mul_div_right _ _ hduration] at hdiv
      have hmono := Nat.div_le_div_right (c := s.slotDuration.toNat)
        (Nat.sub_le_sub_right hafter s.genesisTimestamp.toNat)
      exact ⟨hmono, hdiv⟩

/-- The slot of a block with a 64-bit timestamp counts the slots since the fork. -/
theorem currentVirtualSlot_iff {timestamp : BitVec 256} {current : BitVec 64}
    (hclock : timestamp.toNat < 2 ^ 64) :
    currentVirtualSlot s timestamp = .ok current ↔
      (timestamp.toNat ≤ s.genesisTimestamp.toNat ∨ 0 < s.slotDuration.toNat) ∧
      current.toNat = s.forkSlot.toNat + elapsedSlots s timestamp.toNat := by
  have hfork : (s.forkSlot.setWidth 64).toNat = s.forkSlot.toNat :=
    BitVec.toNat_setWidth_of_le (by decide)
  unfold currentVirtualSlot elapsedSlots
  by_cases hearly : timestamp.toNat ≤ s.genesisTimestamp.toNat
  · rw [if_pos hearly, if_pos hearly, pure_eq_ok, Nat.add_zero, ← hfork]
    constructor
    · intro h
      exact ⟨Or.inl hearly, congrArg BitVec.toNat h.symm⟩
    · intro h
      exact BitVec.eq_of_toNat_eq h.2.symm
  · have hquotient : (timestamp.toNat - s.genesisTimestamp.toNat) / s.slotDuration.toNat < 2 ^ 64 :=
      lt_of_le_of_lt (Nat.div_le_self _ _) (by omega)
    rw [if_neg hearly, if_neg hearly, require_bind_eq_ok, checkedAdd_eq_ok, ← toNat_pos_iff, hfork,
      BitVec.toNat_ofNat, Nat.mod_eq_of_lt hquotient]
    constructor
    · intro h
      exact ⟨Or.inr h.1, h.2⟩
    · intro h
      exact ⟨h.1.resolve_left hearly, h.2⟩

/-- While the demanded slots last, an open window stays open. -/
theorem window_lasts {values : SettlementPublicValues} {checkedAt timestamp : BitVec 256}
    {margin : BitVec 64} (hopen : InWindow s checkedAt values)
    (hlifetime : requireSettlementLifetime s checkedAt values margin = .ok ())
    (hafter : checkedAt.toNat ≤ timestamp.toNat) (hclock : timestamp.toNat < 2 ^ 64)
    (hmargin : timestamp.toNat ≤ checkedAt.toNat + margin.toNat * s.slotDuration.toNat) :
    InWindow s timestamp values := by
  obtain ⟨current, hcurrent, hlower, hupper⟩ := hopen
  have hwidth : (values.settlement.slotUpper.setWidth 64).toNat =
      values.settlement.slotUpper.toNat :=
    BitVec.toNat_setWidth_of_le (by decide)
  have hleft : current.toNat + margin.toNat ≤ values.settlement.slotUpper.toNat := by
    simp only [requireSettlementLifetime, settlementLifetime, hcurrent, bind_eq_ok, pure_eq_ok,
      require_eq_ok] at hlifetime
    obtain ⟨lifetime, hlifetime, remaining, hremaining, hle⟩ := hlifetime
    have hsub := checkedSub_eq_ok.mp hremaining
    rw [← hlifetime] at hsub
    dsimp only at hsub
    rw [BitVec.le_def] at hle
    omega
  obtain ⟨hstarted, hslot⟩ := (currentVirtualSlot_iff (by omega)).mp hcurrent
  by_cases hduration : 0 < s.slotDuration.toNat
  · obtain ⟨hmono, hspan⟩ := elapsedSlots_later hduration hafter hmargin
    have hupperWidth := values.settlement.slotUpper.isLt
    have hfits : s.forkSlot.toNat + elapsedSlots s timestamp.toNat < 2 ^ 64 := by omega
    refine ⟨BitVec.ofNat 64 (s.forkSlot.toNat + elapsedSlots s timestamp.toNat),
      (currentVirtualSlot_iff hclock).mpr ⟨Or.inr hduration, ?_⟩, ?_, ?_⟩
    · rw [BitVec.toNat_ofNat, Nat.mod_eq_of_lt hfits]
    · rw [BitVec.toNat_ofNat, Nat.mod_eq_of_lt hfits]
      omega
    · rw [BitVec.toNat_ofNat, Nat.mod_eq_of_lt hfits]
      omega
  · have hzero : s.slotDuration.toNat = 0 := by omega
    rw [hzero, Nat.mul_zero] at hmargin
    have hsame : timestamp = checkedAt := BitVec.eq_of_toNat_eq (by omega)
    rw [hsame]
    exact ⟨current, hcurrent, hlower, hupper⟩

end Slots

/-- Actions that may append to the outer action state. -/
def appendsOuter : SettlementAction → Bool
  | .appendOuterWitnessBatch _ _ _ _ => true
  | .verifyAndUpdateRoot _ _ _ => true
  | _ => false

/-- The storages differ at most in the verification-key hash, the bridge and the roles. -/
def Administered (s next : SettlementStorage) : Prop :=
  ∃ vkHash bridgeContract hasRole, next = { s with
    vkHash := vkHash, bridgeContract := bridgeContract, hasRole := hasRole }

section Runs

variable {env : Environment}

/-- An accepted action appends to the outer action state, or is administration. -/
theorem act_outer {s next : SettlementStorage} {action : SettlementAction}
    (h : act env s action = .ok next) :
    (appendsOuter action = false ∧ Administered s next) ∨
      (appendsOuter action = true ∧
        s.outerActionStateLength.toNat < next.outerActionStateLength.toNat) := by
  have hadministered : ∀ _ : appendsOuter action = false, ActionEffect env s action next →
      Administered s next := by
    intro hkind heffect
    cases heffect with
    | administer kind administered => exact administered
    | append appended => cases hkind
    | settle decode settled => cases hkind
  by_cases hkind : appendsOuter action = true
  · refine Or.inr ⟨hkind, ?_⟩
    cases action with
    | appendOuterWitnessBatch sender stateBefore stateAfter count =>
      rw [act, bind_eq_ok] at h
      obtain ⟨result, hcall, hnext⟩ := h
      rw [pure_eq_ok] at hnext
      have happended := (appendOuterWitnessBatch_eq_ok env hcall).1
      have hlength := happended.length_eq
      have hcount : count ≠ 0 := by
        simp only [actionCall, appendOuterWitnessBatch, bind_eq_ok, require_eq_ok,
          exists_const] at hcall
        obtain ⟨u, -, -, hcount, -⟩ := hcall
        exact hcount
      have hpositive := toNat_pos_iff.mpr hcount
      rw [← hnext]
      omega
    | verifyAndUpdateRoot ctx publicValues proofBytes =>
      cases act_effect h with
      | administer kind administered =>
        rw [act, bind_eq_ok] at h
        obtain ⟨result, hcall, -⟩ := h
        obtain ⟨decoded, -, hdecode, -⟩ := verifyAndUpdateRoot_eq_ok env hcall
        rw [SettlementAction.receipt, hdecode] at kind
        cases kind
      | settle decode settled =>
        have hlength := settled.lengthAfter
        rw [settled.outerActionStateLength_eq]
        omega
    | _ => cases hkind
  · have hfalse : appendsOuter action = false := Bool.eq_false_of_not_eq_true hkind
    exact Or.inl ⟨hfalse, hadministered hfalse (act_effect h)⟩

/-- Administration composes. -/
theorem Administered.trans {first second third : SettlementStorage}
    (h : Administered first second) (hnext : Administered second third) :
    Administered first third := by
  obtain ⟨_, _, _, rfl⟩ := h
  obtain ⟨vkHash, bridgeContract, hasRole, rfl⟩ := hnext
  exact ⟨vkHash, bridgeContract, hasRole, rfl⟩

/-- A run leaves the outer action state as it was and only administers, or it appends to it. -/
theorem run_outer (actions : List SettlementAction) (s : SettlementStorage) :
    ((∀ entry ∈ accepted (act env) s actions, appendsOuter entry.2 = false) ∧
      Administered s (run (act env) s actions)) ∨
    ((¬ ∀ entry ∈ accepted (act env) s actions, appendsOuter entry.2 = false) ∧
      s.outerActionStateLength.toNat <
        (run (act env) s actions).outerActionStateLength.toNat) := by
  induction actions generalizing s with
  | nil => exact Or.inl ⟨fun _ hentry => absurd hentry List.not_mem_nil, _, _, _, rfl⟩
  | cons action actions ih =>
    rw [run_cons]
    cases hact : act env s action with
    | error e =>
      simp only [accepted, exec, hact]
      exact ih s
    | ok next =>
      simp only [accepted, exec, hact, List.forall_mem_cons]
      rcases act_outer hact with ⟨hkind, hadministered⟩ | ⟨hkind, hlonger⟩
      · have hlength : next.outerActionStateLength = s.outerActionStateLength := by
          obtain ⟨_, _, _, hnext⟩ := hadministered
          rw [hnext]
        rcases ih next with ⟨hall, hrest⟩ | ⟨hnone, hrest⟩
        · exact Or.inl ⟨⟨hkind, hall⟩, hadministered.trans hrest⟩
        · rw [hlength] at hrest
          exact Or.inr ⟨fun hboth => hnone hboth.2, hrest⟩
      · have hne : ¬ appendsOuter action = false := by
          rw [hkind]
          exact Bool.noConfusion
        rcases ih next with ⟨hall, hrest⟩ | ⟨hnone, hrest⟩
        · obtain ⟨_, _, _, hlast⟩ := hrest
          rw [hlast]
          exact Or.inr ⟨fun hboth => hne hboth.1, hlonger⟩
        · exact Or.inr ⟨fun hboth => hne hboth.1, lt_trans hlonger hrest⟩

end Runs

section Results

variable {env : Environment} (d : SettlementDeployment env)

/-- For a receipt that the guest emitted and the verifier accepts, in every reachable
storage: the contract accepts it exactly when the preflight does, the sender is a prover,
the batch names the bridge, the block's slot is within the receipt's slots, and the checks
that the preflight leaves out pass. -/
theorem settlement_accepted_iff (actions : List SettlementAction) {appState : List StepField}
    {witness : SettlementWitnessV1} {vkHash : Bytes32} {values : SettlementPublicValues}
    (hderived : deriveReceiptValues env.hashes appState witness vkHash = .ok values)
    {ctx : CallContext} {proofBytes : Bytes}
    (hproof : env.verifyProof (d.reached actions).verifier (d.reached actions).programVKey
      values.encode proofBytes = true) :
    Succeeds (verifyAndUpdateRoot env (d.reached actions) ctx values.encode proofBytes) ↔
      validateSettlementPreflight env (d.reached actions) (d.reached actions).programVKey
        values.settlement = .ok () ∧
      Settleable (d.reached actions) values ∧ InWindow (d.reached actions) ctx.timestamp values ∧
      NamesBridge (d.reached actions) values ∧
      (d.reached actions).hasRole (proverRole env) ctx.sender = true := by
  have hsound := reached_sound d actions
  exact accepted_iff (emitted_of_derived hderived) hsound.root hsound.bounded hproof

/-- A preflight accepts a receipt only while no outer action was appended since the context
of its proof was read: since then there was administration at most. -/
theorem preflight_fresh (before more : List SettlementAction)
    {supplied : Option SettlementContextV1} {minaTransactionHash localVKey : Bytes32}
    {context : SettlementContextV1}
    (hhydrated : hydrateSettlementContext env (d.reached before) supplied minaTransactionHash =
      .ok context)
    {appState : List StepField} {witness : SettlementWitnessV1} {vkHash : Bytes32}
    {values : SettlementPublicValues} (hcontext : witness.context = context)
    (hderived : deriveReceiptValues env.hashes appState witness vkHash = .ok values)
    (hpreflight : validateSettlementPreflight env (d.reached (before ++ more)) localVKey
      values.settlement = .ok ()) :
    (∀ entry ∈ accepted (act env) (d.reached before) more, appendsOuter entry.2 = false) ∧
      Administered (d.reached before) (d.reached (before ++ more)) := by
  have hlength : (d.reached (before ++ more)).outerActionStateLength =
      (d.reached before).outerActionStateLength := by
    obtain ⟨-, -, -, -, -, -, hsame, -⟩ := validateSettlementPreflight_eq_ok.mp hpreflight
    obtain ⟨hreceipt, -⟩ := deriveReceiptValues_eq_ok env.hashes hderived
    obtain ⟨body, action, source, hfacts⟩ := deriveReceiptForAppState_eq_ok env.hashes hreceipt
    simp only [hydrateSettlementContext, bind_eq_ok, require_eq_ok, exists_const,
      pure_eq_ok] at hhydrated
    obtain ⟨sequence, -, -, hread⟩ := hhydrated
    rw [← hsame, hfacts.lengthBefore_eq, hcontext, ← hread]
  have hrun : d.reached (before ++ more) = run (act env) (d.reached before) more :=
    run_append d.start before more
  rw [hrun] at hlength ⊢
  rcases @run_outer env more (d.reached before) with hquiet | ⟨-, hlonger⟩
  · exact hquiet
  · rw [hlength] at hlonger
    exact absurd hlonger (Nat.lt_irrefl _)

/-- What can still go wrong after the gateway's checks. For a receipt whose preflight and
lifetime check passed in a reachable storage where the contract would have accepted it: in
every continuation, for as long as the demanded slots last, the contract accepts it exactly
if no other outer action was appended, the verification-key hash was not changed, the
batch still names the bridge, and the sender is a prover. -/
theorem preflight_lands (before more : List SettlementAction) {appState : List StepField}
    {witness : SettlementWitnessV1} {vkHash : Bytes32} {values : SettlementPublicValues}
    (hderived : deriveReceiptValues env.hashes appState witness vkHash = .ok values)
    {proofBytes : Bytes} (hproof : env.verifyProof (d.reached before).verifier
      (d.reached before).programVKey values.encode proofBytes = true)
    {localVKey : Bytes32} (hpreflight : validateSettlementPreflight env (d.reached before) localVKey
      values.settlement = .ok ())
    (hsettleable : Settleable (d.reached before) values) {checkedAt : BitVec 256}
    {margin : BitVec 64} (hopen : InWindow (d.reached before) checkedAt values)
    (hlifetime : requireSettlementLifetime (d.reached before) checkedAt values margin = .ok ())
    {ctx : CallContext} (hafter : checkedAt.toNat ≤ ctx.timestamp.toNat)
    (hclock : ctx.timestamp.toNat < 2 ^ 64)
    (hmargin : ctx.timestamp.toNat ≤
      checkedAt.toNat + margin.toNat * (d.reached before).slotDuration.toNat) :
    Succeeds (verifyAndUpdateRoot env (d.reached (before ++ more)) ctx values.encode proofBytes) ↔
      (∀ entry ∈ accepted (act env) (d.reached before) more, appendsOuter entry.2 = false) ∧
      (d.reached (before ++ more)).vkHash = values.settlement.vkHash ∧
      NamesBridge (d.reached (before ++ more)) values ∧
      (d.reached (before ++ more)).hasRole (proverRole env) ctx.sender = true := by
  have hsound := reached_sound d (before ++ more)
  have hemitted := emitted_of_derived hderived
  have hrun : d.reached (before ++ more) = run (act env) (d.reached before) more :=
    run_append d.start before more
  obtain ⟨hvkey, hvk, hchain, hcontract, hsequence, hstate, hlength, hfields, hroot⟩ :=
    validateSettlementPreflight_eq_ok.mp hpreflight
  rcases @run_outer env more (d.reached before) with ⟨hquiet, hsame⟩ | ⟨hmoved, hlonger⟩
  · obtain ⟨laterVk, laterBridge, laterRole, hlater⟩ := hsame
    rw [← hrun] at hlater
    have hproofLater : env.verifyProof (d.reached (before ++ more)).verifier
        (d.reached (before ++ more)).programVKey values.encode proofBytes = true := by
      rw [hlater]
      exact hproof
    rw [accepted_iff hemitted hsound.root hsound.bounded hproofLater,
      validateSettlementPreflight_eq_ok]
    have hwindow : InWindow (d.reached (before ++ more)) ctx.timestamp values := by
      have hlasts := window_lasts hopen hlifetime hafter hclock hmargin
      rw [hlater]
      exact hlasts
    have hrest : Settleable (d.reached (before ++ more)) values := by
      rw [hlater]
      exact ⟨hsettleable.sequence, hsettleable.synchronized, hsettleable.indexed,
        hsettleable.innerLength, hsettleable.innerRoot, hsettleable.record, hsettleable.records⟩
    constructor
    · intro h
      exact ⟨hquiet, h.1.2.1.symm, h.2.2.2⟩
    · intro h
      obtain ⟨-, hvkLater, hnames, hrole⟩ := h
      refine ⟨⟨rfl, hvkLater.symm, hchain, hcontract, ?_, ?_, ?_, ?_, ?_⟩, hrest, hwindow, hnames,
        hrole⟩
      all_goals rw [hlater]
      · exact hsequence
      · exact hstate
      · exact hlength
      · exact hfields
      · exact hroot
  · rw [← hrun] at hlonger
    constructor
    · intro h
      obtain ⟨result, h⟩ := h
      obtain ⟨decoded, -, hdecoded, hsettled, -⟩ := verifyAndUpdateRoot_eq_ok env h
      have hdecodedEq := Except.ok.inj (hdecoded.symm.trans (decodePublicValues_encode values))
      have hbefore := hsettled.lengthBefore
      rw [hdecodedEq] at hbefore
      have hunchanged : (d.reached before).outerActionStateLength =
          (d.reached (before ++ more)).outerActionStateLength := hlength.symm.trans hbefore
      rw [hunchanged] at hlonger
      exact absurd hlonger (Nat.lt_irrefl _)
    · intro h
      exact absurd h.1 hmoved

end Results

/-- The witness of a commit that may be settled up to slot five. -/
def windowWitness : SettlementWitnessV1 :=
  { settlementWitness with
    binding := { settlementWitness.binding with
      accountUpdateBody := ⟨List.replicate 5 0 ++ [innerActionState, 3] ++ List.replicate 8 0 ++
        [0x2e52e23ae3ca16e629a561048c49924814251ef18fed274d4e00ed5f74b14f1c] ++
        List.replicate 20 0 ++ [1], []⟩
      actions := [[0, 0, innerActionState, 3, 1, 0, 0, 5]] } }

/-- The digest of its account update. -/
def windowStatement : StepField :=
  0x395a2846f4fd12feb68778aa8c32669c89be009bc9af0cdd1fa426e920187c10

/-- Its receipt. -/
def windowReceipt : SettlementPublicValuesV3 where
  settlement := {
    settlement := {
      daMode := .multisig
      chainId := 1
      settlementContract := settlementAddress
      batchSequence := 1
      vkHash := vkHash
      appStatement := fieldToBytes windowStatement
      minaTransactionHash := 0
      stateBefore := ⟨fun _ => 0⟩
      stateAfter := ⟨fun index => [0, 0, 0, innerActionState, 3, 0, 0, 0].getD index 0⟩
      outerActionStateBefore := 1
      outerActionStateAfter := 0x9114074573866c7942d7fa2ac140b875ec2f366bef28a12fbf1ccd444c85fbd
      outerActionStateLengthBefore := 0
      outerActionStateLengthAfter := 1
      synchronizedOuterActionState := 1
      synchronizedOuterActionStateLength := 0
      slotLower := 0
      slotUpper := 5 }
    bridgeAddress := bridgeAddress
    innerActionRoot := claimRoot
    innerActionStartIndex := 0
    innerActionCount := 3 }
  assetRegistryRoot := registryRoot
  assetRegistryCount := 1
  assetRegistrySchemaVersion := 1
  assetRecordHash := checkpoint.recordHash
  assetRecordCommitment := recordCommitment

/-- The guest derives the receipt. -/
theorem windowReceipt_derived : deriveReceiptValues referenceHashes
    [windowStatement, appState.getD 1 0] windowWitness vkHash = .ok (.v3 windowReceipt) := by
  have hbytes : deriveReceiptBytes referenceHashes [windowStatement, appState.getD 1 0]
      windowWitness vkHash = .ok (SettlementPublicValues.v3 windowReceipt).encode := by
    decide +kernel
  simp only [deriveReceiptBytes, bind_eq_ok, pure_eq_ok] at hbytes
  obtain ⟨values, hvalues, hencoded⟩ := hbytes
  rw [hvalues, encode_injective hencoded]

/-- Surroundings whose verifier accepts the receipt. -/
def windowEnvironment : Environment :=
  { environment with
    verifyProof := fun _ programVKey publicValues _ =>
      decide (programVKey = settlementVKey ∧
        publicValues = (SettlementPublicValues.v3 windowReceipt).encode) }

/-- The settlement contract in these surroundings. -/
def windowContract : SettlementDeployment windowEnvironment where
  ctx := ⟨admin, 1000⟩
  parameters := settlementParameters
  start := ((initializeSettlement windowEnvironment ⟨admin, 1000⟩
    settlementParameters).toOption.get (by decide)).1
  events := ((initializeSettlement windowEnvironment ⟨admin, 1000⟩
    settlementParameters).toOption.get (by decide)).2
  deployed := eq_ok_get (by decide)

/-- The bridge is named before the gateway looks. -/
def windowBefore : List SettlementAction := [.setBridgeContract ⟨admin, 1000⟩ bridgeAddress]

/-- Afterwards the depositor becomes a prover. -/
def windowMore : List SettlementAction :=
  [.grantRole ⟨admin, 1003⟩ (proverRole windowEnvironment) depositor]

/-- The admin's transaction, at the time of the check. -/
def checkedCall : CallContext := ⟨admin, 1002⟩

/-- The depositor's transaction, two seconds after the check. -/
def windowCall : CallContext := ⟨depositor, 1004⟩

/-- What the run of the concrete settlement evaluates to. -/
theorem window_evaluated :
    (windowEnvironment.verifyProof (windowContract.reached windowBefore).verifier
      (windowContract.reached windowBefore).programVKey
      (SettlementPublicValues.v3 windowReceipt).encode [] = true ∧
    validateSettlementPreflight windowEnvironment (windowContract.reached windowBefore)
      (windowContract.reached windowBefore).programVKey
      (SettlementPublicValues.v3 windowReceipt).settlement = .ok () ∧
    (windowContract.reached windowBefore).bridgeContract = bridgeAddress ∧
    (windowContract.reached windowBefore).hasRole (proverRole windowEnvironment)
      checkedCall.sender = true) ∧
    ((windowContract.reached windowBefore).batchSequence.toNat + 1 < 2 ^ 64 ∧
    (windowContract.reached windowBefore).outerActionStateInfo
      (SettlementPublicValues.v3 windowReceipt).settlement.synchronizedOuterActionState =
        ⟨(SettlementPublicValues.v3 windowReceipt).settlement.synchronizedOuterActionStateLength,
          true⟩ ∧
    (windowContract.reached windowBefore).currentL2ActionStateIndex.toNat + 1 < 2 ^ 64 ∧
    windowReceipt.assetRegistryCount.toNat =
      (windowContract.reached windowBefore).assetRegistryCount.toNat + 1) ∧
    (currentVirtualSlot (windowContract.reached windowBefore) 1002 = .ok 2 ∧
    requireSettlementLifetime (windowContract.reached windowBefore) 1002 (.v3 windowReceipt) 3 =
      .ok () ∧
    windowCall.timestamp.toNat ≤ (1002 : BitVec 256).toNat + (3 : BitVec 64).toNat *
      (windowContract.reached windowBefore).slotDuration.toNat) ∧
    (∀ entry ∈ accepted (act windowEnvironment) (windowContract.reached windowBefore) windowMore,
      appendsOuter entry.2 = false) ∧
    (windowContract.reached (windowBefore ++ windowMore)).vkHash =
      (SettlementPublicValues.v3 windowReceipt).settlement.vkHash ∧
    (windowContract.reached (windowBefore ++ windowMore)).bridgeContract = bridgeAddress ∧
    (windowContract.reached (windowBefore ++ windowMore)).hasRole (proverRole windowEnvironment)
      windowCall.sender = true := by
  decide +kernel

/-- The bridge is the one that the receipt names. -/
theorem window_namesBridge {s : SettlementStorage} (h : s.bridgeContract = bridgeAddress) :
    NamesBridge s (.v3 windowReceipt) := by
  intro batch hbatch
  rw [h, ← Option.some.inj hbatch]
  rfl

/-- The rest of the contract's checks pass. -/
theorem window_settleable : Settleable (windowContract.reached windowBefore)
    (.v3 windowReceipt) := by
  obtain ⟨-, ⟨hsequence, hknown, hindex, hcount⟩, -⟩ := window_evaluated
  have hlength : ((SettlementPublicValues.v3 windowReceipt).settlement.stateAfter.fields 4).toNat <
      2 ^ 32 := by decide
  refine ⟨hsequence, hknown, Or.inr hindex, hlength, ?_, ?_, fun _ hfourth => (by cases hfourth)⟩
  · intro batch hbatch
    have hroot : windowReceipt.settlement.innerActionRoot ≠ 0 := by decide
    rw [← Option.some.inj hbatch]
    exact hroot
  · intro r hthird
    have hcommitment : windowReceipt.assetRecordCommitment ≠ 0 := by decide
    cases hthird
    exact ⟨hcommitment, hcount⟩

/-- The slot of the check is within the receipt's slots. -/
theorem window_open : InWindow (windowContract.reached windowBefore) 1002 (.v3 windowReceipt) := by
  obtain ⟨-, -, ⟨hcurrent, -⟩, -⟩ := window_evaluated
  have hlower : (SettlementPublicValues.v3 windowReceipt).settlement.slotLower.toNat ≤
      (2 : BitVec 64).toNat := by decide
  have hupper : (2 : BitVec 64).toNat ≤
      (SettlementPublicValues.v3 windowReceipt).settlement.slotUpper.toNat := by decide
  exact ⟨2, hcurrent, hlower, hupper⟩

/-- The admin settles the receipt at the time of the check. -/
theorem settlement_accepted_iff_window :
    Succeeds (verifyAndUpdateRoot windowEnvironment (windowContract.reached windowBefore)
      checkedCall (SettlementPublicValues.v3 windowReceipt).encode []) := by
  obtain ⟨⟨hproof, hpreflight, hbridge, hrole⟩, -⟩ := window_evaluated
  exact (settlement_accepted_iff windowContract windowBefore windowReceipt_derived hproof).mpr
    ⟨hpreflight, window_settleable, window_open, window_namesBridge hbridge, hrole⟩

/-- The context read before the preflight was still that of the preflight. -/
theorem preflight_fresh_window :
    ∃ context, hydrateSettlementContext windowEnvironment (windowContract.reached windowBefore) none
        0 = .ok context ∧
      ∀ entry ∈ accepted (act windowEnvironment) (windowContract.reached windowBefore) windowMore,
        appendsOuter entry.2 = false := by
  have hhydrated : hydrateSettlementContext windowEnvironment
      (windowContract.reached windowBefore) none 0 = .ok windowWitness.context := by
    decide +kernel
  have hpreflight : validateSettlementPreflight windowEnvironment
      (windowContract.reached (windowBefore ++ windowMore)) settlementVKey
        (SettlementPublicValues.v3 windowReceipt).settlement = .ok () := by
    decide +kernel
  exact ⟨_, hhydrated, (preflight_fresh windowContract windowBefore windowMore hhydrated rfl
    windowReceipt_derived hpreflight).1⟩

/-- The depositor, a prover by then, settles the receipt two seconds after the check. -/
theorem preflight_lands_window :
    Succeeds (verifyAndUpdateRoot windowEnvironment
      (windowContract.reached (windowBefore ++ windowMore)) windowCall
      (SettlementPublicValues.v3 windowReceipt).encode []) := by
  obtain ⟨⟨hproof, hpreflight, -⟩, -, ⟨-, hlifetime, hmargin⟩, hquiet, hvk, hbridge, hrole⟩ :=
    window_evaluated
  have hafter : (1002 : BitVec 256).toNat ≤ windowCall.timestamp.toNat := by decide
  have hclock : windowCall.timestamp.toNat < 2 ^ 64 := by decide
  exact (preflight_lands windowContract windowBefore windowMore windowReceipt_derived hproof
    hpreflight window_settleable window_open hlifetime hafter hclock hmargin).mpr
    ⟨hquiet, hvk, window_namesBridge hbridge, hrole⟩

end EthereumSettlement.SettlementPreflight
