import EthereumSettlement.AssetActivations
import EthereumSettlement.RegistryInvariant

/-!
# The last pending proposal

The administrator may cancel the last proposal while its index is not settled. Once
it is, exactly one settled receipt of the guest appended a record at that index. If
that record is the proposed one, the settlement contract stores what its activation
needs. A proposal that replaced the one that was settled is neither cancelled nor
activated: a record at a settled index is immutable.
-/

namespace EthereumSettlement.PendingProposals

open ByteWords CheckedCalls HashCommitments TransitionRuns PastaPoseidon InnerActionCommitment
open RegistryCheckpoint SettlementCodec SettlementReceipt ZekoSettlement EthereumZekoBridge
open ZekoAssetRegistry BridgeSystem StepEffects RunInvariants SettledReceipts ClaimSoundness
open RecordCommitments ReferenceHashes ReferenceDeployment InnerActionRanges RegistryContinuity
open ReceiptBinding AssetActivations RegistryInvariant

section Contract

variable {env : Environment} {W : TokenWorld}

/-- What the contract checks of a registry receipt beside its count. -/
structure RegistryChecked (decoded : DecodedPublicValues) : Prop where
  /-- The registry has the first schema. -/
  schema_eq : decoded.version = 3 ∨ decoded.version = 4 → decoded.assetRegistrySchemaVersion = 1
  /-- The record's commitment is not zero. -/
  commitment_ne : decoded.version = 3 → decoded.assetRecordCommitment ≠ 0
  /-- The root of the records is not zero. -/
  batchRoot_ne : decoded.version = 4 → decoded.assetRecordBatchRoot ≠ 0
  /-- There is a record. -/
  batchCount_ne : decoded.version = 4 → decoded.assetRecordBatchCount ≠ 0

/-- A settled receipt passed the registry checks, and a registry receipt stores the
first schema. -/
theorem verifyAndUpdateRoot_registry {s : SettlementStorage} {ctx : CallContext}
    {publicValues proofBytes : Bytes} {decoded : DecodedPublicValues}
    {result : SettlementStorage × List SettlementEvent}
    (hdecode : decodePublicValues publicValues = .ok decoded)
    (h : verifyAndUpdateRoot env s ctx publicValues proofBytes = .ok result) :
    RegistryChecked decoded ∧ result.1.assetRegistrySchemaVersion =
      if decoded.version = 3 ∨ decoded.version = 4 then 1 else s.assetRegistrySchemaVersion := by
  simp only [verifyAndUpdateRoot, bind_eq_ok, require_eq_ok, exists_const, pure_eq_ok] at h
  obtain ⟨-, -, -, decoded', hdecode', u, -, recorded, hrecorded, batched, hbatched,
    registered, hregistered, settled, hsettled, innerLength, -, rfl⟩ := h
  obtain rfl := Except.ok.inj (hdecode.symm.trans hdecode')
  simp only [recordReceipt, bind_eq_ok] at hrecorded
  obtain ⟨indexed, hindexed, haccepted⟩ := hrecorded
  obtain ⟨index, info, hindexedEq⟩ := recordL2ActionState_eq_ok hindexed
  obtain ⟨table, hrecordedEq⟩ := recordAcceptedInnerState_eq_ok haccepted
  have hbatchedEq := (recordInnerActionBatch_eq_ok hbatched).1
  have hkept : batched.1.assetRegistrySchemaVersion = s.assetRegistrySchemaVersion := by
    rw [hbatchedEq, hrecordedEq, hindexedEq]
  dsimp only
  unfold recordAssetRecord at hregistered
  unfold recordAssetRecordBatch at hsettled
  by_cases hthree : decoded.version = 3
  · have hfour : decoded.version ≠ 4 := by
      rw [hthree]
      decide
    rw [if_neg hfour, pure_eq_ok] at hsettled
    simp only [if_pos hthree, bind_eq_ok, require_eq_ok, exists_const, pure_eq_ok] at hregistered
    obtain ⟨-, nextCount, -, ⟨-, -, hschema, -, hcommitment⟩, rfl⟩ := hregistered
    rw [← hsettled, if_pos (Or.inl hthree)]
    exact ⟨⟨fun _ => hschema, fun _ => hcommitment, fun h => absurd h hfour,
      fun h => absurd h hfour⟩, hschema⟩
  · rw [if_neg hthree, pure_eq_ok] at hregistered
    rw [← hregistered] at hsettled
    by_cases hfour : decoded.version = 4
    · simp only [if_pos hfour, bind_eq_ok, require_eq_ok, exists_const, pure_eq_ok] at hsettled
      obtain ⟨⟨-, hroot, hcount⟩, nextCount, -, ⟨-, -, hschema⟩, rfl⟩ := hsettled
      rw [if_pos (Or.inr hfour)]
      exact ⟨⟨fun _ => hschema, fun h => absurd h hthree, fun _ => hroot, fun _ => hcount⟩, hschema⟩
    · rw [if_neg hfour, pure_eq_ok] at hsettled
      rw [← hsettled, if_neg (not_or.mpr ⟨hthree, hfour⟩)]
      exact ⟨⟨fun h => absurd h (not_or.mpr ⟨hthree, hfour⟩), fun h => absurd h hthree,
        fun h => absurd h hfour, fun h => absurd h hfour⟩, hkept⟩

/-- The registry checkpoint of the settlement contract is kept. -/
structure CheckpointKept (s next : SettlementStorage) : Prop extends TablesKept s next where
  /-- The count is unchanged. -/
  count_eq : next.assetRegistryCount = s.assetRegistryCount
  /-- The schema is unchanged. -/
  schema_eq : next.assetRegistrySchemaVersion = s.assetRegistrySchemaVersion

/-- An append of the bridge keeps the checkpoint's count and schema. -/
theorem appendOuterWitnessBatch_checkpoint {s : SettlementStorage} {sender : Address}
    {stateBefore stateAfter : Bytes32} {count : BitVec 32}
    {result : SettlementStorage × List SettlementEvent}
    (h : appendOuterWitnessBatch env s sender stateBefore stateAfter count = .ok result) :
    result.1.assetRegistryCount = s.assetRegistryCount ∧
      result.1.assetRegistrySchemaVersion = s.assetRegistrySchemaVersion := by
  simp only [appendOuterWitnessBatch, bind_eq_ok, require_eq_ok, exists_const, pure_eq_ok] at h
  obtain ⟨-, -, -, -, lengthAfter, -, -, recorded, hrecorded, rfl⟩ := h
  obtain ⟨index, info, rfl⟩ := recordL2ActionState_eq_ok hrecorded
  exact ⟨rfl, rfl⟩

/-- The appends of a bridge transition keep the checkpoint's count and schema. -/
theorem appendActions_checkpoint {publicValues : Bytes} {remaining i : ℕ} {stateBefore : Bytes32}
    {s : SettlementStorage} {result : Bytes32 × SettlementStorage × List SettlementEvent}
    (h : appendActions env publicValues remaining i stateBefore s = .ok result) :
    result.2.1.assetRegistryCount = s.assetRegistryCount ∧
      result.2.1.assetRegistrySchemaVersion = s.assetRegistrySchemaVersion := by
  induction remaining generalizing i stateBefore s result with
  | zero =>
    rw [appendActions, pure_eq_ok] at h
    subst h
    exact ⟨rfl, rfl⟩
  | succ remaining ih =>
    simp only [appendActions, bind_eq_ok, callSettlement_eq_ok, pure_eq_ok] at h
    obtain ⟨appended, happended, rest, hrest, rfl⟩ := h
    have hfirst := appendOuterWitnessBatch_checkpoint happended
    have hlater := ih hrest
    exact ⟨hlater.1.trans hfirst.1, hlater.2.trans hfirst.2⟩

/-- A bridge transition keeps the checkpoint's count and schema. -/
theorem submitBridgeTransition_checkpoint {c next : Chain W} {ctx : CallContext}
    {publicValues proofBytes : Bytes}
    (h : submitBridgeTransition env c ctx publicValues proofBytes = .ok next) :
    next.settlement.assetRegistryCount = c.settlement.assetRegistryCount ∧
      next.settlement.assetRegistrySchemaVersion = c.settlement.assetRegistrySchemaVersion := by
  simp only [submitBridgeTransition, applyBridgeTransition, bind_eq_ok, require_eq_ok, exists_const,
    pure_eq_ok] at h
  obtain ⟨-, -, -, -, -, decoded, -, -, -, -, -, expectedLength, -, -, -, -, -, expectedNonce, -, -,
    -, appended, happended, -, rfl⟩ := h
  exact appendActions_checkpoint happended

/-- A transaction settles a checked registry receipt or keeps the checkpoint. -/
inductive CheckpointStep (env : Environment) (c next : Chain W) (call : Call) : Prop
  | kept (none : callReceipt call = none) (kept : CheckpointKept c.settlement next.settlement)
  | settled (publicValues : Bytes) (decoded : DecodedPublicValues)
      (submitted : callReceipt call = some publicValues)
      (decode : decodePublicValues publicValues = .ok decoded)
      (settled : ReceiptSettled env c.settlement decoded next.settlement)
      (checked : RegistryChecked decoded)
      (schema_eq : next.settlement.assetRegistrySchemaVersion =
        if decoded.version = 3 ∨ decoded.version = 4 then 1
        else c.settlement.assetRegistrySchemaVersion)

/-- Every accepted transaction takes such a step. -/
theorem checkpoint_of_step {c next : Chain W} {tx : Transaction} (h : step env c tx = .ok next) :
    CheckpointStep env c next tx.call := by
  have heffect := step_effect env h
  have htables := settlement_of_effect heffect
  rw [step, require_bind_eq_ok] at h
  have hexecuted := h.2
  obtain ⟨ctx, call⟩ := tx
  have hkept : callReceipt call = none → next.settlement.assetRegistryCount =
        c.settlement.assetRegistryCount ∧ next.settlement.assetRegistrySchemaVersion =
          c.settlement.assetRegistrySchemaVersion → CheckpointStep env c next call := by
    intro hnone hsame
    rcases htables with ⟨-, hframe⟩ | ⟨publicValues, _, _, hsome, -⟩
    · exact .kept hnone ⟨hframe, hsame.1, hsame.2⟩
    · rw [hnone] at hsome
      cases hsome
  cases heffect with
  | @administer call _ kind administered =>
    obtain ⟨_, _, _, hsettlement⟩ := administered.settlement_eq
    have hnone : callReceipt call = none := by
      cases call <;> first | rfl | cases kind
    apply hkept hnone
    rw [hsettlement]
    exact ⟨rfl, rfl⟩
  | @settle publicValues proofBytes decoded settlement events proved decode settled =>
    simp only [execute, settlementStep, bind_eq_ok, callSettlement_eq_ok, pure_eq_ok] at hexecuted
    obtain ⟨result, hresult, hnext⟩ := hexecuted
    obtain ⟨hchecked, hschema⟩ := verifyAndUpdateRoot_registry decode hresult
    have hsettlement : result.1 = settlement := congrArg Chain.settlement hnext
    rw [hsettlement] at hschema
    exact .settled publicValues decoded rfl decode settled hchecked hschema
  | append =>
    simp only [execute, settlementStep, bind_eq_ok, callSettlement_eq_ok, pure_eq_ok] at hexecuted
    obtain ⟨result, hresult, hnext⟩ := hexecuted
    apply hkept rfl
    rw [← hnext]
    exact appendOuterWitnessBatch_checkpoint hresult
  | transition => exact hkept rfl (submitBridgeTransition_checkpoint hexecuted)
  | nativeDeposit => exact hkept rfl ⟨rfl, rfl⟩
  | tokenDeposit => exact hkept rfl ⟨rfl, rfl⟩
  | nativeClaim => exact hkept rfl ⟨rfl, rfl⟩
  | tokenClaim => exact hkept rfl ⟨rfl, rfl⟩
  | etherRescue => exact hkept rfl ⟨rfl, rfl⟩
  | tokenRescue => exact hkept rfl ⟨rfl, rfl⟩
  | propose proposed =>
    apply hkept rfl
    rw [proposed.settlement_eq]
    exact ⟨rfl, rfl⟩
  | cancel cancelled =>
    apply hkept rfl
    rw [cancelled.settlement_eq]
    exact ⟨rfl, rfl⟩
  | activate kind activated =>
    have hnone : callReceipt call = none := by
      cases call <;> first | rfl | cases kind
    apply hkept hnone
    rw [activated.settlement_eq]
    exact ⟨rfl, rfl⟩
  | status changed =>
    apply hkept rfl
    rw [changed.settlement_eq]
    exact ⟨rfl, rfl⟩
  | tokenTransfer => exact hkept rfl ⟨rfl, rfl⟩
  | etherForced => exact hkept rfl ⟨rfl, rfl⟩

/-- A registry receipt appends the record of an index. -/
structure AppendsIndex (decoded : DecodedPublicValues) (index : ℕ) : Prop where
  /-- It is a registry receipt. -/
  version_eq : decoded.version = 3 ∨ decoded.version = 4
  /-- The index lies below its count. -/
  index_lt : index < decoded.assetRegistryCount.toNat
  /-- The index is not below the count before it. -/
  index_new : decoded.assetRegistryCount.toNat ≤ index + appendedRecords decoded

/-- What the storage keeps of a settled receipt. -/
structure ReceiptStored (s : SettlementStorage) (decoded : DecodedPublicValues) : Prop where
  /-- The checks of the contract hold. -/
  checked : RegistryChecked decoded
  /-- Its sequence was counted. -/
  sequence_le : decoded.batchSequence.toNat ≤ s.batchSequence.toNat
  /-- Its records were counted. -/
  count_le : decoded.version = 3 ∨ decoded.version = 4 →
    decoded.assetRegistryCount.toNat ≤ s.assetRegistryCount.toNat
  /-- Its single record is settled. -/
  record : decoded.version = 3 → s.settledAssetRecord decoded.assetRecordHash = true
  /-- Its record batch is stored. -/
  recordBatch : decoded.version = 4 →
    s.assetRegistryRecordBatch decoded.batchSequence = receiptRecordBatch decoded

/-- Every index below the settled count was appended by exactly one receipt. -/
structure IndicesCovered (receipts : List Bytes) (s : SettlementStorage) : Prop where
  /-- A registry with records has the first schema. -/
  schema : 0 < s.assetRegistryCount.toNat → s.assetRegistrySchemaVersion = 1
  /-- Settled records have commitments. -/
  commitments : ∀ recordHash, s.settledAssetRecord recordHash = true →
    s.settledAssetRecordCommitment recordHash ≠ 0
  /-- Receipts are stored. -/
  stored : ∀ publicValues ∈ receipts, ∀ decoded, decodePublicValues publicValues = .ok decoded →
    ReceiptStored s decoded
  /-- Every index was appended. -/
  covered : ∀ index < s.assetRegistryCount.toNat, ∃ publicValues ∈ receipts, ∃ decoded,
    decodePublicValues publicValues = .ok decoded ∧ AppendsIndex decoded index
  /-- No index was appended twice. -/
  disjoint : ∀ publicValues ∈ receipts, ∀ other ∈ receipts, ∀ decoded otherDecoded index,
    decodePublicValues publicValues = .ok decoded → decodePublicValues other = .ok otherDecoded →
    AppendsIndex decoded index → AppendsIndex otherDecoded index → publicValues = other

/-- A kept checkpoint keeps what is stored of a receipt. -/
theorem ReceiptStored.kept {s next : SettlementStorage} {decoded : DecodedPublicValues}
    (h : ReceiptStored s decoded) (hkept : CheckpointKept s next) : ReceiptStored next decoded := by
  refine ⟨h.checked, ?_, ?_, ?_, ?_⟩
  · rw [hkept.batchSequence]
    exact h.sequence_le
  · rw [hkept.count_eq]
    exact h.count_le
  · rw [hkept.settledAssetRecord]
    exact h.record
  · rw [hkept.assetRegistryRecordBatch]
    exact h.recordBatch

/-- A kept checkpoint keeps its indices covered. -/
theorem IndicesCovered.kept {receipts : List Bytes} {s next : SettlementStorage}
    (h : IndicesCovered receipts s) (hkept : CheckpointKept s next) :
    IndicesCovered receipts next := by
  refine ⟨?_, ?_, ?_, ?_, h.disjoint⟩
  · rw [hkept.count_eq, hkept.schema_eq]
    exact h.schema
  · rw [hkept.settledAssetRecord, hkept.settledAssetRecordCommitment]
    exact h.commitments
  · intro publicValues hmem decoded hdecode
    exact (h.stored publicValues hmem decoded hdecode).kept hkept
  · rw [hkept.count_eq]
    exact h.covered

/-- A receipt moves the settled count past its own records. -/
theorem settledCount_eq {s next : SettlementStorage} {decoded : DecodedPublicValues}
    (h : ReceiptSettled env s decoded next) :
    next.assetRegistryCount.toNat = s.assetRegistryCount.toNat + appendedRecords decoded ∧
      (decoded.version = 3 ∨ decoded.version = 4 →
        next.assetRegistryCount.toNat = decoded.assetRegistryCount.toNat) := by
  have hcount := h.assetRegistryCount_eq
  rw [settledRegistryCount] at hcount
  by_cases hversion : decoded.version = 3 ∨ decoded.version = 4
  · have happended := (h.appended hversion).1
    have hstored : next.assetRegistryCount = decoded.assetRegistryCount := by
      rw [hcount]
      rcases hversion with hthree | hfour
      · rw [hthree]
        rfl
      · rw [if_pos hfour]
    rw [hstored]
    exact ⟨happended, fun _ => rfl⟩
  · obtain ⟨hthree, hfour⟩ := not_or.mp hversion
    rw [if_neg hfour, if_neg hthree] at hcount
    rw [hcount, appendedRecords, if_neg hthree, if_neg hfour]
    exact ⟨rfl, fun h => absurd h hversion⟩

/-- A later receipt keeps what is stored of an earlier one. -/
theorem ReceiptStored.settled {s next : SettlementStorage} {earlier decoded : DecodedPublicValues}
    (h : ReceiptStored s earlier) (hsettled : ReceiptSettled env s decoded next) :
    ReceiptStored next earlier := by
  have hsequence := hsettled.sequence
  have hcurrent := hsettled.batchSequence_eq
  have hle := h.sequence_le
  have hcount := (settledCount_eq hsettled).1
  refine ⟨h.checked, ?_, ?_, ?_, ?_⟩
  · rw [hcurrent]
    omega
  · intro hversion
    have hold := h.count_le hversion
    omega
  · intro hthree
    rw [hsettled.settledAssetRecord_eq, settledRecords, ite_update_apply]
    by_cases hwritten : decoded.version = 3 ∧ earlier.assetRecordHash = decoded.assetRecordHash
    · rw [if_pos hwritten]
    · rw [if_neg hwritten]
      exact h.record hthree
  · intro hfour
    have hne : earlier.batchSequence ≠ decoded.batchSequence := by
      intro hsame
      rw [hsame] at hle
      omega
    rw [hsettled.assetRegistryRecordBatch_eq, settledRecordBatches, ite_update_apply,
      if_neg (fun hboth => hne hboth.2)]
    exact h.recordBatch hfour

/-- A settled receipt is stored. -/
theorem receiptStored_self {s next : SettlementStorage} {decoded : DecodedPublicValues}
    (hsettled : ReceiptSettled env s decoded next) (hchecked : RegistryChecked decoded) :
    ReceiptStored next decoded := by
  have hcount := (settledCount_eq hsettled).2
  refine ⟨hchecked, ?_, ?_, ?_, ?_⟩
  · rw [hsettled.batchSequence_eq]
  · intro hversion
    rw [hcount hversion]
  · intro hthree
    rw [hsettled.settledAssetRecord_eq, settledRecords, if_pos hthree, Function.update_self]
  · intro hfour
    rw [hsettled.assetRegistryRecordBatch_eq, settledRecordBatches, if_pos hfour,
      Function.update_self]
    rfl

/-- A settled receipt covers the indices behind the settled count. -/
theorem IndicesCovered.settled {receipts : List Bytes} {s next : SettlementStorage}
    {publicValues : Bytes} {decoded : DecodedPublicValues} (h : IndicesCovered receipts s)
    (hdecode : decodePublicValues publicValues = .ok decoded)
    (hsettled : ReceiptSettled env s decoded next) (hchecked : RegistryChecked decoded)
    (hschema : next.assetRegistrySchemaVersion = if decoded.version = 3 ∨ decoded.version = 4 then 1
      else s.assetRegistrySchemaVersion) : IndicesCovered (receipts ++ [publicValues]) next := by
  obtain ⟨hcount, hnewCount⟩ := settledCount_eq hsettled
  have hself : ∀ otherDecoded, decodePublicValues publicValues = .ok otherDecoded →
      otherDecoded = decoded := by
    intro otherDecoded hother
    exact Except.ok.inj (hother.symm.trans hdecode)
  have hnew : ∀ index, AppendsIndex decoded index → s.assetRegistryCount.toNat ≤ index := by
    intro index hindex
    have hlast := hnewCount hindex.version_eq
    have hfirst := hindex.index_new
    omega
  have hold : ∀ other ∈ receipts, ∀ otherDecoded index,
      decodePublicValues other = .ok otherDecoded → AppendsIndex otherDecoded index →
        index < s.assetRegistryCount.toNat := by
    intro other hother otherDecoded index hotherDecode hindex
    have hle := (h.stored other hother otherDecoded hotherDecode).count_le hindex.version_eq
    have hlt := hindex.index_lt
    omega
  refine ⟨?_, ?_, ?_, ?_, ?_⟩
  · intro hpositive
    rw [hschema]
    by_cases hversion : decoded.version = 3 ∨ decoded.version = 4
    · rw [if_pos hversion]
    · rw [if_neg hversion]
      apply h.schema
      obtain ⟨hthree, hfour⟩ := not_or.mp hversion
      rw [appendedRecords, if_neg hthree, if_neg hfour] at hcount
      omega
  · intro recordHash hrecord
    rw [hsettled.settledAssetRecord_eq, settledRecords, ite_update_apply] at hrecord
    rw [hsettled.settledAssetRecordCommitment_eq, settledCommitments, ite_update_apply]
    by_cases hwritten : decoded.version = 3 ∧ recordHash = decoded.assetRecordHash
    · rw [if_pos hwritten]
      exact hchecked.commitment_ne hwritten.1
    · rw [if_neg hwritten] at hrecord ⊢
      exact h.commitments recordHash hrecord
  · intro other hother otherDecoded hotherDecode
    rcases List.mem_append.mp hother with hearlier | hlast
    · exact (h.stored other hearlier otherDecoded hotherDecode).settled hsettled
    · rw [List.mem_singleton.mp hlast] at hotherDecode
      rw [hself otherDecoded hotherDecode]
      exact receiptStored_self hsettled hchecked
  · intro index hindex
    by_cases hearlier : index < s.assetRegistryCount.toNat
    · obtain ⟨other, hother, hrest⟩ := h.covered index hearlier
      exact ⟨other, List.mem_append_left _ hother, hrest⟩
    · have hversion : decoded.version = 3 ∨ decoded.version = 4 := by
        by_contra hneither
        obtain ⟨hthree, hfour⟩ := not_or.mp hneither
        rw [appendedRecords, if_neg hthree, if_neg hfour] at hcount
        omega
      have hlast := hnewCount hversion
      exact ⟨publicValues, List.mem_append_right _ (List.mem_singleton_self _), decoded, hdecode,
        hversion, by omega, by omega⟩
  · intro first hfirst second hsecond firstDecoded secondDecoded index hfirstDecode hsecondDecode
      hfirstIndex hsecondIndex
    rcases List.mem_append.mp hfirst with hfirst | hfirst
    · rcases List.mem_append.mp hsecond with hsecond | hsecond
      · exact h.disjoint first hfirst second hsecond _ _ index hfirstDecode hsecondDecode
          hfirstIndex hsecondIndex
      · rw [List.mem_singleton.mp hsecond] at hsecondDecode
        rw [hself secondDecoded hsecondDecode] at hsecondIndex
        have hlt := hold first hfirst firstDecoded index hfirstDecode hfirstIndex
        have hle := hnew index hsecondIndex
        omega
    · rw [List.mem_singleton.mp hfirst] at hfirstDecode ⊢
      rw [hself firstDecoded hfirstDecode] at hfirstIndex
      rcases List.mem_append.mp hsecond with hsecond | hsecond
      · have hlt := hold second hsecond secondDecoded index hsecondDecode hsecondIndex
        have hle := hnew index hfirstIndex
        omega
      · exact (List.mem_singleton.mp hsecond).symm

/-- A fresh deployment has settled no record. -/
theorem start_settledCount (d : Deployment env W) :
    d.start.settlement.assetRegistryCount.toNat = 0 := by
  have h := d.deployed
  simp only [deploy, callSettlement_eq_ok, initializeSettlement, bind_eq_ok, require_eq_ok,
    exists_const, pure_eq_ok] at h
  obtain ⟨settled, ⟨-, -, recorded, hrecorded, rfl⟩, bridged, -, hstart⟩ := h
  obtain ⟨table, rfl⟩ := recordAcceptedInnerState_eq_ok hrecorded
  rw [← hstart]
  rfl

/-- In every reachable state, every index below the settled count was appended by
exactly one of the settled receipts. -/
theorem reached_indicesCovered (d : Deployment env W) (transactions : List Transaction) :
    IndicesCovered (settledReceipts (d.history transactions))
      (d.reached transactions).settlement := by
  have hinit := d.initialized
  have hstart : IndicesCovered [] d.start.settlement := by
    have hcounted : d.start.settlement.assetRegistryCount.toNat = 0 := start_settledCount d
    refine ⟨?_, ?_, ?_, ?_, ?_⟩
    · intro hpositive
      omega
    · intro recordHash hrecord
      rw [hinit.settledAssetRecord_eq] at hrecord
      cases hrecord
    · exact fun publicValues hmem => absurd hmem List.not_mem_nil
    · intro index hindex
      omega
    · exact fun publicValues hmem => absurd hmem List.not_mem_nil
  apply history_invariant (J := fun history c =>
    IndicesCovered (settledReceipts history) c.settlement) (Q := fun _ => True) ?_ transactions []
    hstart (fun _ _ => trivial)
  intro history c tx next hc _ h
  rw [settledReceipts_concat]
  cases checkpoint_of_step h with
  | kept hnone hkept =>
    rw [hnone, Option.toList_none, List.append_nil]
    exact hc.kept hkept
  | settled publicValues decoded hsome hdecode hsettled hchecked hschema =>
    rw [hsome]
    exact hc.settled hdecode hsettled hchecked hschema

end Contract

section Guest

variable {H : Hashes}

/-- The records that a witness appends to the registry. -/
def witnessRecords (witness : SettlementWitnessV1) : List AssetRecord :=
  match witness.assetRegistryCheckpoint, witness.assetRegistryBatch with
  | some checkpoint, none => [checkpoint.record]
  | none, some checkpoint => checkpoint.appends.map (·.record)
  | _, _ => []

/-- Replayed appends carry consecutive indices. -/
theorem validateRegistryAppends_indices {checkpoint : AssetRegistryBatchCheckpointV4}
    {chainId : BitVec 64} {bridgeAddress : Address} {offset : ℕ} {runningRoot : Bytes32}
    {appends : List AssetRegistryAppendV1} {result : Bytes32 × List RecordIdentity}
    (h : validateRegistryAppends H checkpoint chainId bridgeAddress offset runningRoot appends =
      .ok result) :
    (appends.map (·.record)).map (·.registryIndex.toNat) =
      List.range' (checkpoint.oldCount.toNat + offset) appends.length ∧
    result.2.map (·.index.toNat) =
      List.range' (checkpoint.oldCount.toNat + offset) appends.length := by
  obtain ⟨hchecked, hidentities⟩ := validateRegistryAppends_checked h
  have hrecords : (appends.map (·.record)).map (·.registryIndex.toNat) =
      List.range' (checkpoint.oldCount.toNat + offset) appends.length := by
    apply List.ext_getElem
    · rw [List.length_map, List.length_map, List.length_range']
    · intro i hi hrange
      rw [List.length_map, List.length_map] at hi
      rw [List.getElem_map, List.getElem_map, List.getElem_range', Nat.one_mul]
      exact (hchecked i hi).indexed
  refine ⟨hrecords, ?_⟩
  rw [← hrecords, hidentities, List.map_map, List.map_map]
  rfl

/-- A replayed append leaves its identity among the results. -/
theorem validateRegistryAppends_mem {checkpoint : AssetRegistryBatchCheckpointV4}
    {chainId : BitVec 64} {bridgeAddress : Address} {offset : ℕ} {runningRoot : Bytes32}
    {appends : List AssetRegistryAppendV1} {result : Bytes32 × List RecordIdentity}
    (h : validateRegistryAppends H checkpoint chainId bridgeAddress offset runningRoot appends =
      .ok result) : ∀ record ∈ appends.map (·.record), ∃ leaf,
        hashRegistryRecordLeaf H record = .ok leaf ∧
        ⟨record.registryIndex, hashCanonicalAssetRecord H record, fieldToBytes leaf⟩ ∈ result.2 := by
  obtain ⟨hchecked, hidentities⟩ := validateRegistryAppends_checked h
  intro record hrecord
  obtain ⟨append, happend, rfl⟩ := List.mem_map.mp hrecord
  obtain ⟨i, hi, rfl⟩ := List.getElem_of_mem happend
  refine ⟨recordLeaf H appends[i].record, (hchecked i hi).leaf, ?_⟩
  rw [hidentities]
  exact List.mem_map_of_mem happend

/-- The guest's registry receipts append the records of the witness, with
consecutive indices up to the receipt's count. -/
theorem deriveReceiptValues_indices {appState : List StepField} {witness : SettlementWitnessV1}
    {vkHash : Bytes32} {values : SettlementPublicValues}
    (h : deriveReceiptValues H appState witness vkHash = .ok values) :
    (witnessRecords witness = [] ∧ ¬(values.decoded.version = 3 ∨ values.decoded.version = 4)) ∨
    (values.decoded.version = 3 ∨ values.decoded.version = 4) ∧
    ∃ oldCount, values.decoded.assetRegistryCount.toNat = oldCount + appendedRecords values.decoded ∧
      (witnessRecords witness).map (·.registryIndex.toNat) =
        List.range' oldCount (appendedRecords values.decoded) := by
  rw [deriveReceiptValues, bind_eq_ok] at h
  obtain ⟨v1, -, hmatch⟩ := h
  dsimp only at hmatch
  split at hmatch
  · rename_i hcheckpoint hbatch
    rw [pure_eq_ok] at hmatch
    subst hmatch
    refine Or.inl ⟨by rw [witnessRecords, hcheckpoint, hbatch], ?_⟩
    change ¬((1 : BitVec 16) = 3 ∨ (1 : BitVec 16) = 4)
    decide
  · rename_i hcheckpoint hbatch
    simp only [bind_eq_ok, pure_eq_ok] at hmatch
    obtain ⟨v2, -, rfl⟩ := hmatch
    refine Or.inl ⟨by rw [witnessRecords, hcheckpoint, hbatch], ?_⟩
    change ¬((2 : BitVec 16) = 3 ∨ (2 : BitVec 16) = 4)
    decide
  · rename_i batch checkpoint _ hcheckpoint hbatch
    simp only [validateRegistryTransition, bind_eq_ok, require_eq_ok, exists_const,
      pure_eq_ok] at hmatch
    obtain ⟨⟨-, -, -, hindex, next, hnext, hcount, -⟩, -, -, -, -, v2, -, commitment, -, rfl⟩ := hmatch
    refine Or.inr ⟨Or.inl rfl, checkpoint.oldCount.toNat, ?_, ?_⟩
    · change checkpoint.count.toNat = checkpoint.oldCount.toNat + 1
      rw [hcount, checkedAdd_eq_ok.mp hnext]
      rfl
    · rw [witnessRecords, hcheckpoint, hbatch]
      change [checkpoint.record.registryIndex.toNat] = [checkpoint.oldCount.toNat]
      rw [hindex]
  · rename_i batch checkpoint _ hcheckpoint hbatch
    simp only [validateRegistryBatch, bind_eq_ok, require_eq_ok, exists_const,
      pure_eq_ok] at hmatch
    obtain ⟨identities, ⟨-, -, -, hcapacity, count, hcount, hsame, -, result, hresult, -, rfl⟩,
      batchRoot, -, v2, -, rfl⟩ := hmatch
    have hlength := (validateRegistryAppends_replayed hresult).2.2
    have hsmall : checkpoint.appends.length < 2 ^ 32 := lt_of_le_of_lt hcapacity (by decide)
    have happended : (BitVec.ofNat 32 result.2.length).toNat = checkpoint.appends.length := by
      rw [BitVec.toNat_ofNat, hlength, Nat.mod_eq_of_lt hsmall]
    refine Or.inr ⟨Or.inr rfl, checkpoint.oldCount.toNat, ?_, ?_⟩
    · change checkpoint.count.toNat =
        checkpoint.oldCount.toNat + (BitVec.ofNat 32 result.2.length).toNat
      rw [happended, hsame, checkedAdd_eq_ok.mp hcount, BitVec.toNat_ofNat, Nat.mod_eq_of_lt hsmall]
    · rw [witnessRecords, hcheckpoint, hbatch]
      change (checkpoint.appends.map (·.record)).map (·.registryIndex.toNat) =
        List.range' checkpoint.oldCount.toNat (BitVec.ofNat 32 result.2.length).toNat
      rw [happended]
      exact (validateRegistryAppends_indices hresult).1
  all_goals exact absurd hmatch (by simp [throw_eq_ok])

/-- A settled index belongs to exactly one record of the witness. -/
theorem record_of_index {appState : List StepField} {witness : SettlementWitnessV1}
    {vkHash : Bytes32} {values : SettlementPublicValues}
    (h : deriveReceiptValues H appState witness vkHash = .ok values) {index : ℕ}
    (hindex : AppendsIndex values.decoded index) :
    ∃ record ∈ witnessRecords witness, record.registryIndex.toNat = index := by
  rcases deriveReceiptValues_indices h with ⟨-, hversion⟩ | ⟨-, oldCount, hcount, hmap⟩
  · exact absurd hindex.version_eq hversion
  · have hnew := hindex.index_new
    have hlt := hindex.index_lt
    have hmem : index ∈ List.range' oldCount (appendedRecords values.decoded) := by
      rw [List.mem_range'_1]
      omega
    rw [← hmap] at hmem
    exact List.mem_map.mp hmem

/-- The record of a witness at an index is unique. -/
theorem witnessRecords_unique {appState : List StepField} {witness : SettlementWitnessV1}
    {vkHash : Bytes32} {values : SettlementPublicValues}
    (h : deriveReceiptValues H appState witness vkHash = .ok values) {first second : AssetRecord}
    (hfirst : first ∈ witnessRecords witness) (hsecond : second ∈ witnessRecords witness)
    (hindex : first.registryIndex = second.registryIndex) : first = second := by
  rcases deriveReceiptValues_indices h with ⟨hempty, -⟩ | ⟨-, oldCount, -, hmap⟩
  · rw [hempty] at hfirst
    exact absurd hfirst List.not_mem_nil
  · have hnodup : ((witnessRecords witness).map (·.registryIndex.toNat)).Nodup := by
      rw [hmap]
      exact List.nodup_range'
    exact List.inj_on_of_nodup_map hnodup hfirst hsecond (congrArg BitVec.toNat hindex)

/-- A witness of the guest with a batch of records appends those records. -/
theorem witnessRecords_of_batch {appState : List StepField} {witness : SettlementWitnessV1}
    {vkHash : Bytes32} {values : SettlementPublicValues} {checkpoint : AssetRegistryBatchCheckpointV4}
    (h : deriveReceiptValues H appState witness vkHash = .ok values)
    (hcheckpoint : witness.assetRegistryBatch = some checkpoint) :
    witnessRecords witness = checkpoint.appends.map (·.record) := by
  have hsingle : witness.assetRegistryCheckpoint = none := by
    rw [deriveReceiptValues, bind_eq_ok] at h
    obtain ⟨v1, -, hmatch⟩ := h
    cases hsingle : witness.assetRegistryCheckpoint with
    | none => rfl
    | some single =>
      cases hbatch : witness.innerActionBatch <;>
        simp [hbatch, hsingle, hcheckpoint, throw_eq_ok] at hmatch
  rw [witnessRecords, hsingle, hcheckpoint]

/-- A record of the witness was appended by its receipt. -/
theorem appendsIndex_of_mem {appState : List StepField} {witness : SettlementWitnessV1}
    {vkHash : Bytes32} {values : SettlementPublicValues}
    (h : deriveReceiptValues H appState witness vkHash = .ok values) {record : AssetRecord}
    (hrecord : record ∈ witnessRecords witness) :
    AppendsIndex values.decoded record.registryIndex.toNat := by
  rcases deriveReceiptValues_indices h with ⟨hempty, -⟩ | ⟨hversion, oldCount, hcount, hmap⟩
  · rw [hempty] at hrecord
    exact absurd hrecord List.not_mem_nil
  · have hmem := List.mem_map_of_mem (f := fun record : AssetRecord => record.registryIndex.toNat)
      hrecord
    rw [hmap, List.mem_range'_1] at hmem
    exact ⟨hversion, by omega, by omega⟩

/-- A placed record stays in its slot, as long as no other record has its index. -/
theorem placeRecords_leaf {level placed : List Bytes32} {identities : List RecordIdentity}
    (h : placeRecords H level identities = .ok placed)
    (hnodup : (identities.map (·.index.toNat)).Nodup) {identity : RecordIdentity}
    (hidentity : identity ∈ identities) (hslot : identity.index.toNat < level.length) :
    placed.getD identity.index.toNat 0 =
      assetRecordBatchLeaf H identity.recordHash identity.recordCommitment := by
  induction identities generalizing level with
  | nil => exact absurd hidentity List.not_mem_nil
  | cons first identities ih =>
    simp only [placeRecords, bind_eq_ok, require_eq_ok, exists_const] at h
    obtain ⟨-, -, hrest⟩ := h
    rw [List.map_cons, List.nodup_cons] at hnodup
    rcases List.mem_cons.mp hidentity with rfl | hlater
    · rcases placeRecords_getD hrest identity.index.toNat with hkept | ⟨other, hother, hsame, -⟩
      · rw [hkept, List.getD_eq_getElem?_getD, List.getElem?_set_self hslot]
        rfl
      · exact absurd (List.mem_map.mpr ⟨other, hother, hsame⟩) hnodup.1
    · exact ih hrest hnodup.2 hlater (by rw [List.length_set]; exact hslot)

/-- Every slot of a record tree can be opened. -/
theorem recordTree_opens {witness : SettlementWitnessV1} {root : Bytes32} {count : BitVec 32}
    {identities : List RecordIdentity} {level : List Bytes32}
    (h : RecordTree H witness root count identities level) {index : ℕ}
    (hindex : index < maxAssetRecords) : ∃ siblings : Fin 8 → Bytes32,
      pathRoot (assetRecordBatchNode H) (level.getD index 0) index (List.ofFn siblings) = root := by
  have hlength : (treeSiblings (assetRecordBatchNode H) assetRegistryTreeDepth (padded 0 level)
      index).length = 8 := by
    rw [treeSiblings_eq_map, List.length_map, List.length_range]
    rfl
  refine ⟨fun i => (treeSiblings (assetRecordBatchNode H) assetRegistryTreeDepth (padded 0 level)
    index).getD i 0, ?_⟩
  have hsiblings : List.ofFn (fun i : Fin 8 => (treeSiblings (assetRecordBatchNode H)
      assetRegistryTreeDepth (padded 0 level) index).getD i 0) =
      treeSiblings (assetRecordBatchNode H) assetRegistryTreeDepth (padded 0 level) index := by
    apply List.ext_getElem
    · rw [List.length_ofFn, hlength]
    · intro i hleft hright
      rw [List.getElem_ofFn, List.getD_eq_getElem]
  rw [hsiblings, h.root_eq]
  exact pathRoot_treeSiblings _ _ (padded 0 level) index hindex

/-- A single record of the witness is the one whose hash the receipt carries. -/
theorem single_record {appState : List StepField} {witness : SettlementWitnessV1}
    {vkHash : Bytes32} {values : SettlementPublicValues}
    (h : deriveReceiptValues H appState witness vkHash = .ok values)
    (hversion : values.decoded.version = 3) {record : AssetRecord}
    (hrecord : record ∈ witnessRecords witness) :
    hashCanonicalAssetRecord H record = values.decoded.assetRecordHash := by
  rw [deriveReceiptValues, bind_eq_ok] at h
  obtain ⟨v1, -, hmatch⟩ := h
  dsimp only at hmatch
  split at hmatch
  · rw [pure_eq_ok] at hmatch
    subst hmatch
    exact absurd hversion (by change (1 : BitVec 16) ≠ 3; decide)
  · simp only [bind_eq_ok, pure_eq_ok] at hmatch
    obtain ⟨v2, -, rfl⟩ := hmatch
    exact absurd hversion (by change (2 : BitVec 16) ≠ 3; decide)
  · rename_i batch checkpoint _ hcheckpoint hbatch
    simp only [validateRegistryTransition, bind_eq_ok, require_eq_ok, exists_const,
      pure_eq_ok] at hmatch
    obtain ⟨⟨-, -, -, -, next, -, -, -, u, -, hhash, -⟩, -, -, -, -, v2, -, commitment, -, rfl⟩ := hmatch
    rw [witnessRecords, hcheckpoint, hbatch] at hrecord
    rw [List.mem_singleton.mp hrecord]
    exact hhash
  · simp only [bind_eq_ok, pure_eq_ok] at hmatch
    obtain ⟨identities, -, batchRoot, -, v2, -, rfl⟩ := hmatch
    exact absurd hversion (by change (4 : BitVec 16) ≠ 3; decide)
  all_goals exact absurd hmatch (by simp [throw_eq_ok])

/-- A record of a batch can be opened against the receipt's record root, with its own
commitment. -/
theorem batch_record {appState : List StepField} {witness : SettlementWitnessV1}
    {vkHash : Bytes32} {values : SettlementPublicValues}
    (h : deriveReceiptValues H appState witness vkHash = .ok values)
    (hversion : values.decoded.version = 4) {record : AssetRecord}
    (hrecord : record ∈ witnessRecords witness) :
    ∃ (leaf : StepField) (siblings : Fin 8 → Bytes32), hashRegistryRecordLeaf H record = .ok leaf ∧
      pathRoot (assetRecordBatchNode H)
        (assetRecordBatchLeaf H (hashCanonicalAssetRecord H record) (fieldToBytes leaf))
        record.registryIndex.toNat (List.ofFn siblings) = values.decoded.assetRecordBatchRoot := by
  obtain ⟨identities, level, htree⟩ := (deriveReceiptValues_records h).2 hversion
  obtain ⟨batch, checkpoint, -, hcheckpoint, hvalidated⟩ := htree.validated
  have hindex := (appendsIndex_of_mem h hrecord).index_lt
  have hslot : record.registryIndex.toNat < maxAssetRecords := lt_of_lt_of_le hindex htree.capacity
  have hnone : witness.assetRegistryCheckpoint = none := by
    cases hsome : witness.assetRegistryCheckpoint with
    | none => rfl
    | some single =>
      rw [witnessRecords, hsome, hcheckpoint] at hrecord
      exact absurd hrecord List.not_mem_nil
  rw [witnessRecords, hnone, hcheckpoint] at hrecord
  simp only [validateRegistryBatch, bind_eq_ok, require_eq_ok, exists_const, pure_eq_ok] at hvalidated
  obtain ⟨-, -, -, -, count, -, -, -, result, hresult, -, rfl⟩ := hvalidated
  obtain ⟨leaf, hleaf, hmem⟩ := validateRegistryAppends_mem hresult record hrecord
  have hnodup : (result.2.map (·.index.toNat)).Nodup := by
    rw [(validateRegistryAppends_indices hresult).2]
    exact List.nodup_range'
  have hplaced := placeRecords_leaf htree.placed hnodup hmem
    (by rw [List.length_replicate]; exact hslot)
  obtain ⟨siblings, hopens⟩ := recordTree_opens htree hslot
  rw [hplaced] at hopens
  exact ⟨leaf, siblings, hleaf, hopens⟩

end Guest

section Proposals

variable (env : Environment) {W : TokenWorld}

/-- The token of the last proposal, which is pending. -/
structure LastPending (c : Chain W) (token : Address) : Prop where
  /-- The token is pending. -/
  pending : c.registry.assetStatusByToken token = .pending
  /-- Its record has the last index. -/
  last : (c.registry.assetRecordByToken token).registryIndex.toNat + 1 =
    c.registry.proposedAssetCount.toNat

/-- The caller can cancel the proposal. -/
def CancelSucceeds (c : Chain W) (ctx : CallContext) (token : Address) : Prop :=
  ∃ next, cancelLastPendingAsset env c ctx token = .ok next

/-- The caller can activate the proposal with some arguments, in one of both ways. -/
def ActivationSucceeds (c : Chain W) (ctx : CallContext) (token : Address) : Prop :=
  (∃ root count next, activateAsset env c ctx token root count = .ok next) ∨
  ∃ settlementSequence recordCommitment siblings next,
    activateAssetFromBatch env c ctx token settlementSequence recordCommitment siblings = .ok next

/-- An administrator can cancel or activate the last proposal. -/
def NotStuck (c : Chain W) : Prop :=
  ∀ (ctx : CallContext) (token : Address), c.bridge.hasRole (adminRole env) ctx.sender = true →
    LastPending c token → CancelSucceeds env c ctx token ∨ ActivationSucceeds env c ctx token

variable {env}

/-- The guest appended a record at an index in one of the settled receipts. -/
structure SettledAt {verifier : Address} {programVKey : Bytes32}
    (G : SettlementProver env verifier programVKey) (receipts : List Bytes) (index : BitVec 32)
    (record : AssetRecord) : Prop where
  /-- The record has the index. -/
  index_eq : record.registryIndex = index
  /-- A settled receipt of the guest appends it. -/
  appended : ∃ publicValues ∈ receipts, ∃ witness,
    (G.emitter publicValues).settlement = some witness ∧ record ∈ witnessRecords witness

/-- Live records have the first schema. -/
def SchemaRecorded (registry : RegistryLayout) : Prop :=
  ∀ token ∈ liveTokens registry, (registry.assetRecordByToken token).schemaVersion = 1

/-- One transaction keeps the schemas of live records. -/
theorem schemaRecorded_of_step {c next : Chain W} (hc : SchemaRecorded c.registry)
    (h : RegistryStep env c next) : SchemaRecorded next.registry := by
  cases h with
  | kept h =>
    rw [h.registry_eq]
    exact hc
  | @proposed record h =>
    obtain ⟨nextCount, -, hregistry⟩ := h.registry_eq
    intro token hlive
    rw [hregistry, liveTokens, live_insert _ _ (by decide), Set.mem_insert_iff] at hlive
    rw [hregistry]
    dsimp only
    by_cases hsame : token = record.ethereumToken
    · rw [hsame, Function.update_self]
      exact h.wellFormed.1
    · rw [Function.update_of_ne hsame]
      exact hc token (hlive.resolve_left hsame)
  | @cancelled cancelledToken h =>
    intro token hlive
    rw [h.registry_eq, liveTokens, live_erase] at hlive
    rw [h.registry_eq]
    have hne : token ≠ cancelledToken := hlive.2
    dsimp only
    rw [Function.update_of_ne hne]
    exact hc token hlive.1
  | @status changedToken newStatus h =>
    intro token hlive
    rw [h.registry_eq, liveTokens, live_insert _ _ h.newStatus_ne.1, Set.mem_insert_iff] at hlive
    rw [h.registry_eq]
    rcases hlive with hsame | hold
    · exact hc token (hsame ▸ h.live)
    · exact hc token hold

/-- Live records have the first schema in every reachable state. -/
theorem reached_schemaRecorded (d : Deployment env W) (transactions : List Transaction) :
    RegistryRepresented env (d.reached transactions) ∧
      SchemaRecorded (d.reached transactions).registry := by
  apply run_invariant (I := fun c => RegistryRepresented env c ∧ SchemaRecorded c.registry)
  · intro c tx next hc h
    exact ⟨registryRepresented_of_step hc.1 h, schemaRecorded_of_step hc.2 (registry_of_step hc.1 h)⟩
  · refine ⟨start_registryRepresented d, ?_⟩
    rw [d.initialized.registry_eq]
    exact fun token hlive => absurd rfl hlive

/-- The shared end of both activations succeeds for an unregistered token with a
commitment. -/
theorem activate_ok {c : Chain W} {record : AssetRecord} {recordCommitment : Bytes32}
    (hunregistered : c.bridge.canonicalTokenRegistered record.ethereumToken = false)
    (hcommitment : recordCommitment ≠ 0) (recordHash registryRoot : Bytes32)
    (registryCount registrySchema : BitVec 32) :
    ∃ next, activate c record recordHash recordCommitment registryRoot registryCount
      registrySchema = .ok next := by
  simp only [activate, activateAssetRecordFromRegistry, bind_eq_ok, require_eq_ok, exists_const,
    pure_eq_ok]
  exact ⟨_, _, ⟨hunregistered, hcommitment, rfl⟩, rfl⟩

/-- A pending token is not registered. -/
theorem unregistered_of_pending {c : Chain W} {token : Address} (hc : RegistryRepresented env c)
    (hpending : c.registry.assetStatusByToken token = .pending) :
    c.bridge.canonicalTokenRegistered (c.registry.assetRecordByToken token).ethereumToken = false := by
  have hlive : token ∈ liveTokens c.registry := by
    rw [liveTokens, Set.mem_ofPred_eq, hpending]
    decide
  have hne : token ≠ 0 := fun hzero => hlive (hzero ▸ hc.layout.zero_none)
  rw [hc.layout.token_eq token hlive, Bool.eq_false_iff]
  intro hregistered
  exact ((hc.policy.registered_iff token hne).mp hregistered).2 hpending

/-- The administrator can cancel the last proposal while its index and its hash are
not settled. -/
theorem cancel_ok {c : Chain W} {ctx : CallContext} {token : Address}
    (hc : RegistryRepresented env c)
    (hadmin : c.bridge.hasRole (adminRole env) ctx.sender = true) (h : LastPending c token)
    (hindex : c.settlement.assetRegistryCount.toNat ≤
      (c.registry.assetRecordByToken token).registryIndex.toNat)
    (hhash : c.settlement.settledAssetRecord
      (hashAssetRecord env (c.registry.assetRecordByToken token)) = false) :
    CancelSucceeds env c ctx token := by
  have hlast := h.last
  have hlive : token ∈ liveTokens c.registry := by
    rw [liveTokens, Set.mem_ofPred_eq, h.pending]
    decide
  obtain ⟨index, hused, htoken⟩ := hc.layout.indices.surjOn hlive
  have hsame := hc.layout.index_eq index hused
  rw [htoken] at hsame
  have hcount : c.registry.proposedAssetCount ≠ 0 := by
    intro hzero
    rw [hzero] at hlast
    have hnone : (0 : BitVec 32).toNat = 0 := rfl
    omega
  have hnext : checkedAdd BridgeCodec.BridgeError.arithmeticPanic
      (c.registry.assetRecordByToken token).registryIndex 1 =
        .ok c.registry.proposedAssetCount := checkedAdd_eq_ok.mpr hlast.symm
  simp only [CancelSucceeds, cancelLastPendingAsset, onlyBridgeAdmin, bind_eq_ok, require_eq_ok,
    exists_const, pure_eq_ok]
  exact ⟨_, hadmin, h.pending, hcount, _, hnext, ⟨rfl, by rw [hsame, htoken]⟩, ⟨hindex, hhash⟩, rfl⟩

/-- A cancelled proposal had no settled index. -/
theorem index_of_cancelLastPendingAsset {c next : Chain W} {ctx : CallContext} {token : Address}
    (h : cancelLastPendingAsset env c ctx token = .ok next) :
    c.settlement.assetRegistryCount.toNat ≤
      (c.registry.assetRecordByToken token).registryIndex.toNat := by
  simp only [cancelLastPendingAsset, bind_eq_ok, require_eq_ok, exists_const] at h
  obtain ⟨-, -, -, -, -, -, -, ⟨hindex, -⟩, -⟩ := h
  exact hindex

/-- The administrator can activate a pending record that is settled on its own. -/
theorem activateAsset_ok {c : Chain W} {ctx : CallContext} {token : Address}
    (hc : RegistryRepresented env c)
    (hadmin : c.bridge.hasRole (adminRole env) ctx.sender = true)
    (hpending : c.registry.assetStatusByToken token = .pending)
    (hsettled : c.settlement.settledAssetRecord
      (hashAssetRecord env (c.registry.assetRecordByToken token)) = true)
    (hcommitment : c.settlement.settledAssetRecordCommitment
      (hashAssetRecord env (c.registry.assetRecordByToken token)) ≠ 0)
    (hschema : c.settlement.assetRegistrySchemaVersion =
      (c.registry.assetRecordByToken token).schemaVersion)
    (hindex : (c.registry.assetRecordByToken token).registryIndex.toNat <
      c.settlement.assetRegistryCount.toNat) : ActivationSucceeds env c ctx token := by
  obtain ⟨next, hnext⟩ := activate_ok (unregistered_of_pending hc hpending) hcommitment
    (hashAssetRecord env (c.registry.assetRecordByToken token)) c.settlement.assetRegistryRoot
    c.settlement.assetRegistryCount c.settlement.assetRegistrySchemaVersion
  refine Or.inl ⟨c.settlement.assetRegistryRoot, c.settlement.assetRegistryCount, next, ?_⟩
  simp only [activateAsset, pendingRecord, onlyBridgeAdmin, bind_eq_ok, require_eq_ok, exists_const,
    pure_eq_ok]
  exact ⟨hadmin, _, ⟨hpending, rfl⟩, hsettled, hcommitment, ⟨trivial, trivial, hschema, hindex⟩,
    hnext⟩

/-- The administrator can activate a pending record that is settled in a batch. -/
theorem activateAssetFromBatch_ok {c : Chain W} {ctx : CallContext} {token : Address}
    (settlementSequence : BitVec 64) (recordCommitment : Bytes32) (siblings : Fin 8 → Bytes32)
    (hc : RegistryRepresented env c)
    (hadmin : c.bridge.hasRole (adminRole env) ctx.sender = true)
    (hpending : c.registry.assetStatusByToken token = .pending)
    (hbatch : (c.settlement.assetRegistryRecordBatch settlementSequence).valid = true ∧
      (c.settlement.assetRegistryRecordBatch settlementSequence).recordBatchRoot ≠ 0 ∧
      (c.settlement.assetRegistryRecordBatch settlementSequence).recordBatchCount ≠ 0 ∧
      recordCommitment ≠ 0 ∧
      (c.settlement.assetRegistryRecordBatch settlementSequence).registrySchemaVersion =
        (c.registry.assetRecordByToken token).schemaVersion ∧
      (c.registry.assetRecordByToken token).registryIndex <
        (c.settlement.assetRegistryRecordBatch settlementSequence).registryCount)
    (hroot : pathRoot (assetRecordBatchNode env.hashes)
      (assetRecordBatchLeaf env.hashes (hashAssetRecord env (c.registry.assetRecordByToken token))
        recordCommitment) (c.registry.assetRecordByToken token).registryIndex.toNat
      (List.ofFn siblings) =
        (c.settlement.assetRegistryRecordBatch settlementSequence).recordBatchRoot) :
    ActivationSucceeds env c ctx token := by
  obtain ⟨next, hnext⟩ := activate_ok (unregistered_of_pending hc hpending) hbatch.2.2.2.1
    (hashAssetRecord env (c.registry.assetRecordByToken token))
    (c.settlement.assetRegistryRecordBatch settlementSequence).registryRoot
    (c.settlement.assetRegistryRecordBatch settlementSequence).registryCount
    (c.settlement.assetRegistryRecordBatch settlementSequence).registrySchemaVersion
  refine Or.inr ⟨settlementSequence, recordCommitment, siblings, next, ?_⟩
  simp only [activateAssetFromBatch, pendingRecord, onlyBridgeAdmin, bind_eq_ok, require_eq_ok,
    exists_const, pure_eq_ok]
  exact ⟨hadmin, _, ⟨hpending, rfl⟩, hbatch, hroot, hnext⟩

/-- An activated record is settled on its own, or there is a settled record batch. -/
theorem settled_of_activationSucceeds {c : Chain W} {ctx : CallContext} {token : Address}
    (h : ActivationSucceeds env c ctx token) :
    c.settlement.settledAssetRecord
      (hashAssetRecord env (c.registry.assetRecordByToken token)) = true ∨
    ∃ settlementSequence,
      (c.settlement.assetRegistryRecordBatch settlementSequence).valid = true := by
  rcases h with ⟨root, count, next, hactivate⟩ | ⟨sequence, commitment, siblings, next, hactivate⟩
  · simp only [activateAsset, pendingRecord, bind_eq_ok, require_eq_ok, exists_const,
      pure_eq_ok] at hactivate
    obtain ⟨-, -, pending, ⟨-, rfl⟩, hsettled, -⟩ := hactivate
    exact Or.inl hsettled
  · simp only [activateAssetFromBatch, bind_eq_ok, require_eq_ok, exists_const] at hactivate
    obtain ⟨-, -, -, -, ⟨hvalid, -⟩, -⟩ := hactivate
    exact Or.inr ⟨sequence, hvalid⟩

section Guest

variable {verifier : Address} {programVKey : Bytes32}
  {G : SettlementProver env verifier programVKey} {receipts : List Bytes} {s : SettlementStorage}

/-- A settled receipt that can be decoded is the guest's, with a witness. -/
theorem receipt_emitted (hrecorded : ReceiptsRecorded env verifier programVKey receipts s)
    {publicValues : Bytes} (hreceipt : publicValues ∈ receipts) {decoded : DecodedPublicValues}
    (hdecode : decodePublicValues publicValues = .ok decoded) :
    ∃ witness values, (G.emitter publicValues).settlement = some witness ∧
      deriveReceiptValues env.hashes (G.V.appState (G.emitter publicValues).proof) witness G.vkHash =
        .ok values ∧ decoded = values.decoded := by
  obtain ⟨proofBytes, hproved⟩ := hrecorded.proved publicValues hreceipt
  obtain ⟨witness, values, hwitness, hvalues, -, hdecoded⟩ :=
    settlementGuest_decoded env.hashes (G.emits publicValues proofBytes hproved) hdecode
  exact ⟨witness, values, hwitness, hvalues, hdecoded⟩

/-- A settled receipt with a witness can be decoded. -/
theorem receipt_decodes (hrecorded : ReceiptsRecorded env verifier programVKey receipts s)
    {publicValues : Bytes} (hreceipt : publicValues ∈ receipts) {witness : SettlementWitnessV1}
    (hwitness : (G.emitter publicValues).settlement = some witness) :
    ∃ values, decodePublicValues publicValues = .ok values.decoded ∧
      deriveReceiptValues env.hashes (G.V.appState (G.emitter publicValues).proof) witness G.vkHash =
        .ok values := by
  obtain ⟨proofBytes, hproved⟩ := hrecorded.proved publicValues hreceipt
  have hguest := G.emits publicValues proofBytes hproved
  rw [settlementGuest, require_bind_eq_ok, hwitness] at hguest
  simp only [deriveReceiptBytes, bind_eq_ok, pure_eq_ok] at hguest
  obtain ⟨-, values, hvalues, hencoded⟩ := hguest
  exact ⟨values, by rw [← hencoded]; exact decodePublicValues_encode values, hvalues⟩

/-- The guest hashed every record that it appended. -/
theorem records_hashed {publicValues : Bytes} (hreceipt : publicValues ∈ receipts)
    {witness : SettlementWitnessV1} {values : SettlementPublicValues}
    (hwitness : (G.emitter publicValues).settlement = some witness)
    (hvalues : deriveReceiptValues env.hashes (G.V.appState (G.emitter publicValues).proof) witness
      G.vkHash = .ok values) {record : AssetRecord} (hrecord : record ∈ witnessRecords witness) :
    canonicalAssetRecordInput env.hashes record ∈ G.strings receipts := by
  have hv1 := (deriveReceiptValues_eq_ok env.hashes hvalues).1
  apply List.mem_flatMap.mpr
  refine ⟨publicValues, hreceipt, ?_⟩
  have hbatch : ∃ batch, witness.innerActionBatch = some batch := by
    cases hsome : witness.innerActionBatch with
    | some batch => exact ⟨batch, rfl⟩
    | none =>
      rw [deriveReceiptValues, bind_eq_ok] at hvalues
      obtain ⟨v1, -, hmatch⟩ := hvalues
      unfold witnessRecords at hrecord
      cases hsingle : witness.assetRegistryCheckpoint <;>
        cases hseveral : witness.assetRegistryBatch <;>
          simp [hsome, hsingle, hseveral, throw_eq_ok] at hmatch hrecord
  obtain ⟨batch, hbatch⟩ := hbatch
  rw [settlementGuestInputs, hwitness]
  dsimp only
  rw [hv1, hbatch]
  dsimp only
  unfold witnessRecords at hrecord
  cases hsingle : witness.assetRegistryCheckpoint with
  | some single =>
    cases hseveral : witness.assetRegistryBatch with
    | some several =>
      rw [hsingle, hseveral] at hrecord
      exact absurd hrecord List.not_mem_nil
    | none =>
      rw [hsingle, hseveral] at hrecord
      rw [List.mem_singleton.mp hrecord]
      apply List.mem_append_left
      apply List.mem_append_right
      exact List.mem_singleton_self _
  | none =>
    cases hseveral : witness.assetRegistryBatch with
    | none =>
      rw [hsingle, hseveral] at hrecord
      exact absurd hrecord List.not_mem_nil
    | some several =>
      rw [hsingle, hseveral] at hrecord
      obtain ⟨append, happend, rfl⟩ := List.mem_map.mp hrecord
      apply List.mem_append_right
      exact List.mem_append_left _ (List.mem_map_of_mem happend)

/-- A record whose hash is settled on its own was appended by a receipt of the
guest. -/
theorem settled_of_hash (hrecorded : ReceiptsRecorded env verifier programVKey receipts s)
    {record : AssetRecord}
    (hcf : CollisionFree env.hashes.keccak256
      (canonicalAssetRecordInput env.hashes record :: G.strings receipts))
    (hsettled : s.settledAssetRecord (hashAssetRecord env record) = true) :
    SettledAt G receipts record.registryIndex record := by
  obtain ⟨publicValues, hreceipt, decoded, hdecode, hversion, hhash, -⟩ :=
    hrecorded.records _ hsettled
  obtain ⟨witness, values, hwitness, hvalues, rfl⟩ := receipt_emitted (G := G) hrecorded hreceipt hdecode
  have hsome : ∃ other, other ∈ witnessRecords witness := by
    rcases deriveReceiptValues_indices hvalues with ⟨-, hneither⟩ | ⟨-, oldCount, -, hmap⟩
    · exact absurd (Or.inl hversion) hneither
    · apply List.exists_mem_of_ne_nil
      intro hempty
      rw [hempty, appendedRecords, if_pos hversion] at hmap
      exact absurd hmap (by simp)
  obtain ⟨other, hother⟩ := hsome
  have hstring := records_hashed hreceipt hwitness hvalues hother
  have hsame := single_record hvalues hversion hother
  have hequal : other = record := canonicalAssetRecordInput_injective
    (hcf _ (List.mem_cons_of_mem _ hstring) _ List.mem_cons_self (hsame.trans hhash))
  rw [hequal] at hother
  exact ⟨rfl, publicValues, hreceipt, witness, hwitness, hother⟩

/-- A record that the guest appended has an index below the settled count. -/
theorem SettledAt.index_lt (hrecorded : ReceiptsRecorded env verifier programVKey receipts s)
    (hcovered : IndicesCovered receipts s) {index : BitVec 32} {record : AssetRecord}
    (h : SettledAt G receipts index record) : index.toNat < s.assetRegistryCount.toNat := by
  obtain ⟨publicValues, hreceipt, witness, hwitness, hrecord⟩ := h.appended
  obtain ⟨values, hdecode, hvalues⟩ := receipt_decodes hrecorded hreceipt hwitness
  have happends := appendsIndex_of_mem hvalues hrecord
  have hle := (hcovered.stored publicValues hreceipt _ hdecode).count_le happends.version_eq
  rw [h.index_eq] at happends
  exact lt_of_lt_of_le happends.index_lt hle

/-- At every index below the settled count the guest appended exactly one record. -/
theorem settledAt_unique (hrecorded : ReceiptsRecorded env verifier programVKey receipts s)
    (hcovered : IndicesCovered receipts s) {index : BitVec 32}
    (hindex : index.toNat < s.assetRegistryCount.toNat) :
    ∃! record, SettledAt G receipts index record := by
  obtain ⟨publicValues, hreceipt, decoded, hdecode, happends⟩ := hcovered.covered _ hindex
  obtain ⟨witness, values, hwitness, hvalues, rfl⟩ := receipt_emitted (G := G) hrecorded hreceipt hdecode
  obtain ⟨record, hrecord, hsame⟩ := record_of_index hvalues happends
  have hrecordIndex : record.registryIndex = index := BitVec.eq_of_toNat_eq hsame
  refine ⟨record, ⟨hrecordIndex, publicValues, hreceipt, witness, hwitness, hrecord⟩, ?_⟩
  intro other hother
  obtain ⟨otherValues, hotherReceipt, otherWitness, hotherWitness, hotherRecord⟩ := hother.appended
  obtain ⟨derived, hotherDecode, hderived⟩ := receipt_decodes hrecorded hotherReceipt hotherWitness
  have hotherAppends := appendsIndex_of_mem hderived hotherRecord
  rw [hother.index_eq] at hotherAppends
  have hreceipts : publicValues = otherValues := hcovered.disjoint publicValues hreceipt otherValues
    hotherReceipt _ _ _ hdecode hotherDecode happends hotherAppends
  rw [← hreceipts, hwitness] at hotherWitness
  rw [← Option.some.inj hotherWitness] at hotherRecord
  exact witnessRecords_unique hvalues hotherRecord hrecord (hother.index_eq.trans hrecordIndex.symm)

end Guest

/-- A pending record that the guest appended can be activated. -/
theorem activation_of_settledAt {verifier : Address} {programVKey : Bytes32}
    {G : SettlementProver env verifier programVKey} {receipts : List Bytes} {c : Chain W}
    {ctx : CallContext} {token : Address}
    (hrecorded : ReceiptsRecorded env verifier programVKey receipts c.settlement)
    (hcovered : IndicesCovered receipts c.settlement) (hc : RegistryRepresented env c)
    (hschemas : SchemaRecorded c.registry)
    (hadmin : c.bridge.hasRole (adminRole env) ctx.sender = true)
    (hpending : c.registry.assetStatusByToken token = .pending)
    (hleaf : hashRegistryRecordLeaf env.hashes (c.registry.assetRecordByToken token) ≠ .ok 0)
    (h : SettledAt G receipts (c.registry.assetRecordByToken token).registryIndex
      (c.registry.assetRecordByToken token)) : ActivationSucceeds env c ctx token := by
  have hindex := h.index_lt hrecorded hcovered
  obtain ⟨publicValues, hreceipt, witness, hwitness, hrecord⟩ := h.appended
  obtain ⟨values, hdecode, hvalues⟩ := receipt_decodes hrecorded hreceipt hwitness
  have happends := appendsIndex_of_mem hvalues hrecord
  have hstored := hcovered.stored publicValues hreceipt _ hdecode
  have hlive : token ∈ liveTokens c.registry := by
    rw [liveTokens, Set.mem_ofPred_eq, hpending]
    decide
  have hschema := hschemas token hlive
  have hsettledSchema := hcovered.schema (lt_of_le_of_lt (Nat.zero_le _) hindex)
  rcases happends.version_eq with hthree | hfour
  · have hhash := single_record hvalues hthree hrecord
    have hsettled := hstored.record hthree
    rw [← hhash] at hsettled
    exact activateAsset_ok hc hadmin hpending hsettled (hcovered.commitments _ hsettled)
      (hsettledSchema.trans hschema.symm) hindex
  · obtain ⟨leaf, siblings, hleafEq, hopens⟩ := batch_record hvalues hfour hrecord
    have hcommitment : fieldToBytes leaf ≠ 0 := by
      intro hzero
      have hsame : leaf = 0 := fieldToBytes_injective (hzero.trans (by rfl))
      rw [hleafEq, hsame] at hleaf
      exact hleaf rfl
    have hbatch := hstored.recordBatch hfour
    have hchecked := hstored.checked
    apply activateAssetFromBatch_ok values.decoded.batchSequence (fieldToBytes leaf) siblings hc
      hadmin hpending
    · rw [hbatch]
      exact ⟨rfl, hchecked.batchRoot_ne hfour, hchecked.batchCount_ne hfour, hcommitment,
        (hchecked.schema_eq (Or.inr hfour)).trans hschema.symm, happends.index_lt⟩
    · rw [hbatch]
      exact hopens

/-- A record that was activated on its own is the one that the guest appended at its
index. -/
theorem settledAt_of_activateAsset {verifier : Address} {programVKey : Bytes32}
    {G : SettlementProver env verifier programVKey} {receipts : List Bytes} {c next : Chain W}
    {ctx : CallContext} {token : Address} {root : Bytes32} {count : BitVec 32}
    (hrecorded : ReceiptsRecorded env verifier programVKey receipts c.settlement)
    (hcf : CollisionFree env.hashes.keccak256
      (canonicalAssetRecordInput env.hashes (c.registry.assetRecordByToken token) ::
        G.strings receipts))
    (h : activateAsset env c ctx token root count = .ok next) :
    SettledAt G receipts (c.registry.assetRecordByToken token).registryIndex
      (c.registry.assetRecordByToken token) := by
  obtain ⟨recordCommitment, hactivated⟩ := activateAsset_eq_ok env h
  cases hactivated.committed with
  | single settled commitment_eq => exact settled_of_hash hrecorded hcf settled

/-- A record that was activated from a batch is the one that the guest appended at its
index. -/
theorem settledAt_of_activateAssetFromBatch {verifier : Address} {programVKey : Bytes32}
    {G : SettlementProver env verifier programVKey} {receipts : List Bytes} {c next : Chain W}
    {ctx : CallContext} {token : Address} {settlementSequence : BitVec 64}
    {recordCommitment : Bytes32} {siblings : Fin 8 → Bytes32}
    (hrecorded : ReceiptsRecorded env verifier programVKey receipts c.settlement)
    (hcf : CollisionFreeFrom env.hashes.keccak256 0
      (contractStrings env.hashes (c.registry.assetRecordByToken token) recordCommitment siblings ++
        G.strings receipts))
    (h : activateAssetFromBatch env c ctx token settlementSequence recordCommitment siblings =
      .ok next) :
    SettledAt G receipts (c.registry.assetRecordByToken token).registryIndex
      (c.registry.assetRecordByToken token) := by
  cases (activateAssetFromBatch_eq_ok env h).committed with
  | batch valid index_lt root_eq =>
    obtain ⟨publicValues, hopened⟩ := opened_activatedFromReceipt G hrecorded hcf valid index_lt root_eq
    obtain ⟨decoded, hdecode, -, -⟩ := hopened.decoded
    obtain ⟨witness, batch, checkpoint, identities, hwitness, happended⟩ := hopened.appended
    obtain ⟨emitted, values, hemitted, hvalues, -⟩ := receipt_emitted (G := G) hrecorded
      hopened.settled hdecode
    rw [hwitness] at hemitted
    rw [← Option.some.inj hemitted] at hvalues
    refine ⟨rfl, publicValues, hopened.settled, witness, hwitness, ?_⟩
    rw [witnessRecords_of_batch hvalues happended.checkpoint_eq]
    exact happended.record_mem

/-- In every reachable state, an administrator can cancel the last pending proposal,
or its index is settled. In the second case the guest appended exactly one record at
that index. If it is the proposed one, an administrator can activate it; if it is
another one, nobody can cancel or activate the proposal. -/
theorem lastPending_cancelled_or_settled (d : Deployment env W)
    (G : SettlementProver env d.settlement.verifier d.settlement.programVKey)
    (transactions : List Transaction) (ctx : CallContext) (token : Address)
    (hadmin : (d.reached transactions).bridge.hasRole (adminRole env) ctx.sender = true)
    (hlast : LastPending (d.reached transactions) token)
    (hcf : CollisionFree env.hashes.keccak256
      (canonicalAssetRecordInput env.hashes
        ((d.reached transactions).registry.assetRecordByToken token) ::
          G.strings (settledReceipts (d.history transactions))))
    (hleaf : hashRegistryRecordLeaf env.hashes
      ((d.reached transactions).registry.assetRecordByToken token) ≠ .ok 0) :
    CancelSucceeds env (d.reached transactions) ctx token ∨
    (((d.reached transactions).registry.assetRecordByToken token).registryIndex.toNat <
        (d.reached transactions).settlement.assetRegistryCount.toNat ∧
      (∃! settled, SettledAt G (settledReceipts (d.history transactions))
        ((d.reached transactions).registry.assetRecordByToken token).registryIndex settled) ∧
      (SettledAt G (settledReceipts (d.history transactions))
          ((d.reached transactions).registry.assetRecordByToken token).registryIndex
          ((d.reached transactions).registry.assetRecordByToken token) →
        ActivationSucceeds env (d.reached transactions) ctx token) ∧
      ∀ settled, SettledAt G (settledReceipts (d.history transactions))
          ((d.reached transactions).registry.assetRecordByToken token).registryIndex settled →
        settled ≠ (d.reached transactions).registry.assetRecordByToken token →
        ∀ caller, ¬ CancelSucceeds env (d.reached transactions) caller token ∧
          (∀ root count next,
            activateAsset env (d.reached transactions) caller token root count ≠ .ok next) ∧
          ∀ settlementSequence recordCommitment siblings next,
            CollisionFreeFrom env.hashes.keccak256 0
              (contractStrings env.hashes
                ((d.reached transactions).registry.assetRecordByToken token) recordCommitment
                siblings ++ G.strings (settledReceipts (d.history transactions))) →
            activateAssetFromBatch env (d.reached transactions) caller token settlementSequence
              recordCommitment siblings ≠ .ok next) := by
  obtain ⟨hc, hschemas⟩ := reached_schemaRecorded d transactions
  have hrecorded := reached_receipts d transactions
  have hcovered := reached_indicesCovered d transactions
  by_cases hindex : ((d.reached transactions).registry.assetRecordByToken token).registryIndex.toNat <
      (d.reached transactions).settlement.assetRegistryCount.toNat
  · have hunique := settledAt_unique (G := G) hrecorded hcovered hindex
    refine Or.inr ⟨hindex, hunique,
      activation_of_settledAt hrecorded hcovered hc hschemas hadmin hlast.pending hleaf, ?_⟩
    intro settled hsettled hother caller
    refine ⟨?_, ?_, ?_⟩
    · intro hcancel
      obtain ⟨next, hnext⟩ := hcancel
      have hunsettled := index_of_cancelLastPendingAsset hnext
      omega
    · intro root count next hactivate
      exact hother (hunique.unique hsettled (settledAt_of_activateAsset hrecorded hcf hactivate))
    · intro settlementSequence recordCommitment siblings next hbatch hactivate
      exact hother (hunique.unique hsettled
        (settledAt_of_activateAssetFromBatch hrecorded hbatch hactivate))
  · refine Or.inl (cancel_ok hc hadmin hlast (Nat.le_of_not_lt hindex) ?_)
    rw [Bool.eq_false_iff]
    intro hsettled
    exact hindex ((settled_of_hash (G := G) hrecorded hcf hsettled).index_lt hrecorded hcovered)

end Proposals

/-- The deployment whose verifier accepts the receipt of the first record. -/
def replacedDeployment : Deployment registryEnvironment ledgerWorld :=
  deployed ⟨admin, 1000⟩ settlementParameters ⟨admin, verifier, bridgeVKey⟩
    (fun _ => singleHolder depositor 10) 0 (by decide)

/-- The record proposed in place of the first one, with another cap. -/
def replacementRecord : AssetRecord := { assetRecord with inventoryCap := 2000 }

/-- Propose a record, cancel it, propose another one for the same token, and settle the
first. -/
def replacedRun : List Transaction :=
  [⟨⟨admin, 1000⟩, .setBridgeContract bridgeAddress⟩,
   ⟨⟨admin, 1000⟩, .proposeAsset assetRecord⟩,
   ⟨⟨admin, 1000⟩, .cancelLastPendingAsset token⟩,
   ⟨⟨admin, 1000⟩, .proposeAsset replacementRecord⟩,
   ⟨⟨admin, 1000⟩, .verifyAndUpdateRoot firstReceipt []⟩]

/-- The run settles a receipt of the guest with one record, and leaves the other record
pending and unsettled. -/
theorem replacedRun_state :
    settledReceipts (replacedDeployment.history replacedRun) = [firstReceipt] ∧
    (replacedDeployment.reached replacedRun).settlement.assetRegistryCount = 1 ∧
    (replacedDeployment.reached replacedRun).bridge.hasRole (adminRole registryEnvironment)
      (CallContext.mk admin 1000).sender = true ∧
    (replacedDeployment.reached replacedRun).registry.assetStatusByToken token = .pending ∧
    (replacedDeployment.reached replacedRun).registry.assetRecordByToken token = replacementRecord ∧
    (replacedDeployment.reached replacedRun).registry.proposedAssetCount = 1 ∧
    (replacedDeployment.reached replacedRun).settlement.settledAssetRecord
      (hashAssetRecord registryEnvironment replacementRecord) = false ∧
    (decodePublicValues firstReceipt).toOption.map (·.version) = some 3 := by
  decide +kernel

/-- Every settled receipt is one of the guest, and yet the last proposal can neither be
cancelled nor activated. -/
theorem replaced_stuck :
    (∀ publicValues ∈ settledReceipts (replacedDeployment.history replacedRun),
      settlementGuest registryEnvironment.hashes anyStatement vkHash (registryInput publicValues) =
        .ok publicValues) ∧
    ¬ NotStuck registryEnvironment (replacedDeployment.reached replacedRun) := by
  obtain ⟨hreceipts, hcount, hadmin, hpending, hrecord, hproposed, hunsettled, hversion⟩ :=
    replacedRun_state
  constructor
  · intro publicValues hreceipt
    rw [hreceipts, List.mem_singleton] at hreceipt
    rw [hreceipt]
    exact registryInput_emits firstReceipt List.mem_cons_self
  · intro hnotStuck
    have hlast : LastPending (replacedDeployment.reached replacedRun) token := by
      refine ⟨hpending, ?_⟩
      rw [hrecord, hproposed]
      rfl
    rcases hnotStuck ⟨admin, 1000⟩ token hadmin hlast with ⟨next, hcancel⟩ | hactivated
    · have hindex := index_of_cancelLastPendingAsset hcancel
      rw [hcount, hrecord] at hindex
      exact absurd hindex (by decide)
    · rcases settled_of_activationSucceeds hactivated with hsettled | ⟨settlementSequence, hvalid⟩
      · rw [hrecord, hunsettled] at hsettled
        exact absurd hsettled (by decide)
      · obtain ⟨publicValues, hreceipt, decoded, hdecode, hfour, -⟩ :=
          (reached_receipts replacedDeployment replacedRun).recordBatches settlementSequence hvalid
        rw [hreceipts, List.mem_singleton] at hreceipt
        rw [hreceipt] at hdecode
        rw [hdecode] at hversion
        have hthree : decoded.version = 3 := Option.some.inj hversion
        rw [hfour] at hthree
        exact absurd hthree (by decide)

/-- After the batch the administrator can activate the record. -/
theorem lastPending_cancelled_or_settled_batch :
    ((batchDeployment.reached batchSetup).registry.assetRecordByToken token).registryIndex.toNat <
        (batchDeployment.reached batchSetup).settlement.assetRegistryCount.toNat ∧
      ∃! settled, SettledAt batchProver (settledReceipts (batchDeployment.history batchSetup))
        ((batchDeployment.reached batchSetup).registry.assetRecordByToken token).registryIndex
        settled := by
  have hstate : (batchDeployment.reached batchSetup).bridge.hasRole (adminRole batchEnvironment)
        (CallContext.mk admin 1000).sender = true ∧
      (batchDeployment.reached batchSetup).registry.assetStatusByToken token = .pending ∧
      (batchDeployment.reached batchSetup).registry.assetRecordByToken token = assetRecord ∧
      (batchDeployment.reached batchSetup).registry.proposedAssetCount = 1 ∧
      (hashRegistryRecordLeaf batchEnvironment.hashes assetRecord).toOption ≠ some 0 ∧
      (batchDeployment.reached batchSetup).settlement.assetRegistryCount = 1 := by
    decide +kernel
  obtain ⟨hadmin, hpending, hrecord, hproposed, hleaf, hcount⟩ := hstate
  have hlast : LastPending (batchDeployment.reached batchSetup) token := by
    refine ⟨hpending, ?_⟩
    rw [hrecord, hproposed]
    rfl
  have hstrings : CollisionFree batchEnvironment.hashes.keccak256
      (canonicalAssetRecordInput batchEnvironment.hashes
        ((batchDeployment.reached batchSetup).registry.assetRecordByToken token) ::
          batchProver.strings (settledReceipts (batchDeployment.history batchSetup))) :=
    batch_collisionFree.1.mono fun input hinput => by
      rcases List.mem_cons.mp hinput with rfl | hguest
      · exact List.mem_append_left _ List.mem_cons_self
      · exact List.mem_append_right _ hguest
  rcases lastPending_cancelled_or_settled batchDeployment batchProver batchSetup ⟨admin, 1000⟩ token
    hadmin hlast hstrings (by
      rw [hrecord]
      intro hzero
      rw [hzero] at hleaf
      exact hleaf rfl) with hcancel | hsettled
  · obtain ⟨next, hcancel⟩ := hcancel
    have hindex := index_of_cancelLastPendingAsset hcancel
    rw [hcount, hrecord] at hindex
    exact absurd hindex (by decide)
  · exact ⟨hsettled.1, hsettled.2.1⟩

end EthereumSettlement.PendingProposals
