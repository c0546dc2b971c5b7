import EthereumSettlement.RunInvariants

/-!
# The receipts behind the settled tables

The settlement contract's batch and record tables are written by accepted
receipts only. Over every run, a valid entry of a table names one accepted
receipt of the history, accepted receipts have distinct sequences, and the
verifier of the deployment accepted each of them. Batches of inner actions that
are stored under different sequences span disjoint ranges of indices.
-/

namespace EthereumSettlement.SettledReceipts

open ByteWords CheckedCalls TransitionRuns PastaPoseidon SettlementCodec ZekoSettlement
open EthereumZekoBridge BridgeSystem StepEffects RunInvariants

variable {env : Environment} {W : TokenWorld}

/-- The receipt that a call submits for settlement. -/
def callReceipt : Call → Option Bytes
  | .verifyAndUpdateRoot publicValues _ => some publicValues
  | _ => none

/-- The receipts settled in a history, oldest first. -/
def settledReceipts (history : List (Chain W × Transaction)) : List Bytes :=
  history.filterMap fun entry => callReceipt entry.2.call

/-- The history grows by at most one receipt. -/
theorem settledReceipts_concat (history : List (Chain W × Transaction)) (c : Chain W)
    (tx : Transaction) :
    settledReceipts (history ++ [(c, tx)]) =
      settledReceipts history ++ (callReceipt tx.call).toList := by
  rw [settledReceipts, List.filterMap_append]
  cases hreceipt : callReceipt tx.call with
  | none =>
    simp only [List.filterMap_cons, hreceipt, List.filterMap_nil]
    rfl
  | some receipt =>
    simp only [List.filterMap_cons, hreceipt, List.filterMap_nil]
    rfl

/-- The tables that only receipts write. -/
structure TablesKept (s next : SettlementStorage) : Prop where
  /-- The outer state is unchanged. -/
  outerState : next.outerState = s.outerState
  /-- Nothing is settled. -/
  batchSequence : next.batchSequence = s.batchSequence
  /-- The stored batches are unchanged. -/
  innerActionBatch : next.innerActionBatch = s.innerActionBatch
  /-- The settled records are unchanged. -/
  settledAssetRecord : next.settledAssetRecord = s.settledAssetRecord
  /-- Their commitments are unchanged. -/
  settledAssetRecordCommitment :
    next.settledAssetRecordCommitment = s.settledAssetRecordCommitment
  /-- The record trees are unchanged. -/
  assetRegistryRecordBatch : next.assetRegistryRecordBatch = s.assetRegistryRecordBatch

/-- Every storage keeps its own tables. -/
theorem TablesKept.refl (s : SettlementStorage) : TablesKept s s := ⟨rfl, rfl, rfl, rfl, rfl, rfl⟩

/-- A transaction either submits no receipt and keeps the tables, or settles the
receipt that it submits. -/
theorem settlement_of_effect {c next : Chain W} {ctx : CallContext} {call : Call}
    (h : Effect env c ctx call next) :
    (callReceipt call = none ∧ TablesKept c.settlement next.settlement) ∨
    ∃ publicValues proofBytes decoded, callReceipt call = some publicValues ∧
      env.verifyProof c.settlement.verifier c.settlement.programVKey publicValues proofBytes =
        true ∧
      decodePublicValues publicValues = .ok decoded ∧
      ReceiptSettled env c.settlement decoded next.settlement := by
  cases h with
  | @administer call _ kind administered =>
    obtain ⟨_, _, _, hsettlement⟩ := administered.settlement_eq
    refine Or.inl ⟨?_, ?_⟩
    · cases call <;> first | rfl | cases kind
    · constructor <;> rw [hsettlement]
  | settle proved decode settled =>
    exact Or.inr ⟨_, _, _, rfl, proved, decode, settled⟩
  | append appended =>
    exact Or.inl ⟨rfl, appended.outerState_eq, appended.batchSequence_eq,
      appended.innerActionBatch_eq, appended.settledAssetRecord_eq,
      appended.settledAssetRecordCommitment_eq, appended.assetRegistryRecordBatch_eq⟩
  | transition _ transitioned =>
    have hframed := transitioned.appended.framed
    exact Or.inl ⟨rfl, hframed.outerState_eq, hframed.batchSequence_eq, hframed.innerActionBatch_eq,
      hframed.settledAssetRecord_eq, hframed.settledAssetRecordCommitment_eq,
      hframed.assetRegistryRecordBatch_eq⟩
  | nativeDeposit => exact Or.inl ⟨rfl, .refl _⟩
  | tokenDeposit => exact Or.inl ⟨rfl, .refl _⟩
  | nativeClaim => exact Or.inl ⟨rfl, .refl _⟩
  | tokenClaim => exact Or.inl ⟨rfl, .refl _⟩
  | etherRescue => exact Or.inl ⟨rfl, .refl _⟩
  | tokenRescue => exact Or.inl ⟨rfl, .refl _⟩
  | propose proposed =>
    rw [proposed.settlement_eq]
    exact Or.inl ⟨rfl, .refl _⟩
  | cancel cancelled =>
    rw [cancelled.settlement_eq]
    exact Or.inl ⟨rfl, .refl _⟩
  | @activate call _ _ _ kind activated =>
    rw [activated.settlement_eq]
    refine Or.inl ⟨?_, .refl _⟩
    cases call <;> first | rfl | cases kind
  | status changed =>
    rw [changed.settlement_eq]
    exact Or.inl ⟨rfl, .refl _⟩
  | tokenTransfer => exact Or.inl ⟨rfl, .refl _⟩
  | etherForced => exact Or.inl ⟨rfl, .refl _⟩

/-- A table entry after a conditional write. -/
theorem ite_update_apply {α β : Type} [DecidableEq α] (written : Prop) [Decidable written]
    (table : α → β) (key : α) (value : β) (k : α) :
    (if written then Function.update table key value else table) k =
      if written ∧ k = key then value else table k := by
  by_cases hwritten : written
  · by_cases hkey : k = key
    · rw [if_pos hwritten, if_pos ⟨hwritten, hkey⟩, hkey, Function.update_self]
    · rw [if_pos hwritten, if_neg (fun h => hkey h.2), Function.update_of_ne hkey]
  · rw [if_neg hwritten, if_neg (fun h => hwritten h.1)]

/-- The batch that a receipt of the second version or later stores. -/
def receiptBatch (decoded : DecodedPublicValues) : InnerActionBatch :=
  ⟨decoded.stateBefore 3, decoded.stateAfter 3, decoded.innerActionRoot,
    decoded.innerActionStartIndex, decoded.innerActionCount, decoded.slotUpper, true⟩

/-- The record batch that a receipt of the fourth version stores. -/
def receiptRecordBatch (decoded : DecodedPublicValues) : AssetRegistryRecordBatch :=
  ⟨decoded.assetRegistryRoot, decoded.assetRegistryCount, decoded.assetRegistrySchemaVersion,
    decoded.assetRecordBatchRoot, decoded.assetRecordBatchCount, true⟩

/-- What a list of settled receipts says about the storage they led to. -/
structure ReceiptsRecorded (env : Environment) (verifier : Address) (programVKey : Bytes32)
    (receipts : List Bytes) (s : SettlementStorage) : Prop where
  /-- The verifier accepted every receipt. -/
  proved : ∀ publicValues ∈ receipts, ∃ proofBytes,
    env.verifyProof verifier programVKey publicValues proofBytes = true
  /-- Sequences of receipts were counted. -/
  counted : ∀ publicValues ∈ receipts, ∀ decoded, decodePublicValues publicValues = .ok decoded →
    decoded.batchSequence.toNat ≤ s.batchSequence.toNat
  /-- Receipts of one sequence are the same. -/
  unique : ∀ publicValues ∈ receipts, ∀ other ∈ receipts, ∀ decoded otherDecoded,
    decodePublicValues publicValues = .ok decoded → decodePublicValues other = .ok otherDecoded →
    decoded.batchSequence = otherDecoded.batchSequence → publicValues = other
  /-- Valid batches come from receipts. -/
  batches : ∀ sequence, (s.innerActionBatch sequence).valid = true →
    ∃ publicValues ∈ receipts, ∃ decoded, decodePublicValues publicValues = .ok decoded ∧
      2 ≤ decoded.version ∧ decoded.batchSequence = sequence ∧
      s.innerActionBatch sequence = receiptBatch decoded
  /-- Settled records come from receipts. -/
  records : ∀ recordHash, s.settledAssetRecord recordHash = true →
    ∃ publicValues ∈ receipts, ∃ decoded, decodePublicValues publicValues = .ok decoded ∧
      decoded.version = 3 ∧ decoded.assetRecordHash = recordHash ∧
      s.settledAssetRecordCommitment recordHash = decoded.assetRecordCommitment
  /-- Valid record batches come from receipts. -/
  recordBatches : ∀ sequence, (s.assetRegistryRecordBatch sequence).valid = true →
    ∃ publicValues ∈ receipts, ∃ decoded, decodePublicValues publicValues = .ok decoded ∧
      decoded.version = 4 ∧ decoded.batchSequence = sequence ∧
      s.assetRegistryRecordBatch sequence = receiptRecordBatch decoded

/-- Kept tables keep what the receipts say about them. -/
theorem ReceiptsRecorded.kept {verifier : Address} {programVKey : Bytes32} {receipts : List Bytes}
    {s next : SettlementStorage} (h : ReceiptsRecorded env verifier programVKey receipts s)
    (hkept : TablesKept s next) : ReceiptsRecorded env verifier programVKey receipts next := by
  refine ⟨h.proved, ?_, h.unique, ?_, ?_, ?_⟩
  · rw [hkept.batchSequence]
    exact h.counted
  · rw [hkept.innerActionBatch]
    exact h.batches
  · rw [hkept.settledAssetRecord, hkept.settledAssetRecordCommitment]
    exact h.records
  · rw [hkept.assetRegistryRecordBatch]
    exact h.recordBatches

/-- Settling one more receipt extends what the receipts say. -/
theorem ReceiptsRecorded.settled {verifier : Address} {programVKey : Bytes32}
    {receipts : List Bytes} {s next : SettlementStorage} {publicValues proofBytes : Bytes}
    {decoded : DecodedPublicValues} (h : ReceiptsRecorded env verifier programVKey receipts s)
    (hproved : env.verifyProof verifier programVKey publicValues proofBytes = true)
    (hdecode : decodePublicValues publicValues = .ok decoded)
    (hsettled : ReceiptSettled env s decoded next) :
    ReceiptsRecorded env verifier programVKey (receipts ++ [publicValues]) next := by
  have hsequence := hsettled.sequence
  have hcurrent := hsettled.batchSequence_eq
  have hnew : ∀ other ∈ receipts, ∀ otherDecoded, decodePublicValues other = .ok otherDecoded →
      otherDecoded.batchSequence ≠ decoded.batchSequence := by
    intro other hother otherDecoded hotherDecode heq
    have hle := h.counted other hother otherDecoded hotherDecode
    rw [heq] at hle
    omega
  have hself : ∀ otherDecoded, decodePublicValues publicValues = .ok otherDecoded →
      otherDecoded = decoded := by
    intro otherDecoded hother
    exact Except.ok.inj (hother.symm.trans hdecode)
  refine ⟨?_, ?_, ?_, ?_, ?_, ?_⟩
  · intro other hother
    rcases List.mem_append.mp hother with hold | hlast
    · exact h.proved other hold
    · rw [List.mem_singleton.mp hlast]
      exact ⟨proofBytes, hproved⟩
  · intro other hother otherDecoded hotherDecode
    rcases List.mem_append.mp hother with hold | hlast
    · have hle := h.counted other hold otherDecoded hotherDecode
      rw [hcurrent]
      omega
    · rw [List.mem_singleton.mp hlast] at hotherDecode
      rw [hself otherDecoded hotherDecode, hcurrent]
  · intro first hfirst second hsecond firstDecoded secondDecoded hfirstDecode hsecondDecode heq
    rcases List.mem_append.mp hfirst with hfirst | hfirst
    · rcases List.mem_append.mp hsecond with hsecond | hsecond
      · exact h.unique first hfirst second hsecond _ _ hfirstDecode hsecondDecode heq
      · rw [List.mem_singleton.mp hsecond] at hsecondDecode
        rw [hself secondDecoded hsecondDecode] at heq
        exact absurd heq (hnew first hfirst firstDecoded hfirstDecode)
    · rcases List.mem_append.mp hsecond with hsecond | hsecond
      · rw [List.mem_singleton.mp hfirst] at hfirstDecode
        rw [hself firstDecoded hfirstDecode] at heq
        exact absurd heq.symm (hnew second hsecond secondDecoded hsecondDecode)
      · rw [List.mem_singleton.mp hfirst, List.mem_singleton.mp hsecond]
  · intro sequence hvalid
    rw [hsettled.innerActionBatch_eq, settledBatches, ite_update_apply] at hvalid ⊢
    by_cases hwritten : 2 ≤ decoded.version ∧ sequence = decoded.batchSequence
    · rw [if_pos hwritten]
      exact ⟨publicValues, by simp, decoded, hdecode, hwritten.1, hwritten.2.symm, rfl⟩
    · rw [if_neg hwritten] at hvalid ⊢
      obtain ⟨old, hold, hrest⟩ := h.batches sequence hvalid
      exact ⟨old, List.mem_append_left _ hold, hrest⟩
  · intro recordHash hvalid
    rw [hsettled.settledAssetRecord_eq, settledRecords, ite_update_apply] at hvalid
    rw [hsettled.settledAssetRecordCommitment_eq, settledCommitments, ite_update_apply]
    by_cases hwritten : decoded.version = 3 ∧ recordHash = decoded.assetRecordHash
    · rw [if_pos hwritten]
      exact ⟨publicValues, by simp, decoded, hdecode, hwritten.1, hwritten.2.symm, rfl⟩
    · rw [if_neg hwritten] at hvalid ⊢
      obtain ⟨old, hold, hrest⟩ := h.records recordHash hvalid
      exact ⟨old, List.mem_append_left _ hold, hrest⟩
  · intro sequence hvalid
    rw [hsettled.assetRegistryRecordBatch_eq, settledRecordBatches, ite_update_apply] at hvalid ⊢
    by_cases hwritten : decoded.version = 4 ∧ sequence = decoded.batchSequence
    · rw [if_pos hwritten]
      exact ⟨publicValues, by simp, decoded, hdecode, hwritten.1, hwritten.2.symm, rfl⟩
    · rw [if_neg hwritten] at hvalid ⊢
      obtain ⟨old, hold, hrest⟩ := h.recordBatches sequence hvalid
      exact ⟨old, List.mem_append_left _ hold, hrest⟩

/-- The receipts of a deployment's history explain the tables it reaches. -/
theorem reached_receipts (d : Deployment env W) (transactions : List Transaction) :
    ReceiptsRecorded env d.settlement.verifier d.settlement.programVKey
      (settledReceipts (d.history transactions)) (d.reached transactions).settlement := by
  have hinit := d.initialized
  have hstart : ReceiptsRecorded env d.settlement.verifier d.settlement.programVKey []
      d.start.settlement := by
    refine ⟨by simp, by simp, by simp, ?_, ?_, ?_⟩
    · intro sequence hvalid
      rw [hinit.innerActionBatch_eq] at hvalid
      cases hvalid
    · intro recordHash hvalid
      rw [hinit.settledAssetRecord_eq] at hvalid
      cases hvalid
    · intro sequence hvalid
      rw [hinit.assetRegistryRecordBatch_eq] at hvalid
      cases hvalid
  have hverifiers : ∀ entry ∈ d.history transactions, SameVerifiers d.start entry.1 := by
    intro entry hentry
    obtain ⟨before, hbefore⟩ := history_reached d hentry
    rw [hbefore]
    exact reached_sameVerifiers d before
  apply reached_induction d (J := fun history c => ReceiptsRecorded env d.settlement.verifier
    d.settlement.programVKey (settledReceipts history) c.settlement) hstart ?_ hverifiers
  intro history c tx next hc hsame heffect
  rw [settledReceipts_concat]
  rcases settlement_of_effect heffect with ⟨hnone, htables⟩ |
    ⟨publicValues, proofBytes, decoded, hsome, hproved, hdecode, hsettled⟩
  · rw [hnone, Option.toList_none, List.append_nil]
    exact hc.kept htables
  · rw [hsame.verifier, hsame.programVKey, hinit.verifier_eq, hinit.programVKey_eq] at hproved
    rw [hsome]
    exact hc.settled hproved hdecode hsettled

/-- A receipt settled by this entry has a batch. -/
def SettlesBatch (entry : Chain W × Transaction) : Prop :=
  ∀ publicValues, callReceipt entry.2.call = some publicValues →
    ∀ decoded, decodePublicValues publicValues = .ok decoded → 2 ≤ decoded.version

instance (entry : Chain W × Transaction) : Decidable (SettlesBatch entry) :=
  match hreceipt : callReceipt entry.2.call with
  | none => isTrue fun publicValues h => by rw [hreceipt] at h; cases h
  | some publicValues =>
    match hdecode : decodePublicValues publicValues with
    | .error _ => isTrue fun other h decoded hd => by
      rw [hreceipt] at h
      rw [← Option.some.inj h, hdecode] at hd
      cases hd
    | .ok decoded =>
      if hversion : 2 ≤ decoded.version then isTrue fun other h otherDecoded hd => by
        rw [hreceipt] at h
        rw [← Option.some.inj h, hdecode] at hd
        rw [← Except.ok.inj hd]
        exact hversion
      else isFalse fun h => hversion (h publicValues hreceipt decoded hdecode)

/-- The stored batches span consecutive ranges of inner-action indices. -/
structure BatchesOrdered (s : SettlementStorage) : Prop where
  /-- Sequences of batches were counted. -/
  counted : ∀ sequence, (s.innerActionBatch sequence).valid = true →
    sequence.toNat ≤ s.batchSequence.toNat
  /-- Ranges end at or before the current length. -/
  ended : ∀ sequence, (s.innerActionBatch sequence).valid = true →
    (s.innerActionBatch sequence).startIndex.toNat + (s.innerActionBatch sequence).count.toNat ≤
      (s.outerState 4).toNat
  /-- A later range starts after an earlier one ends. -/
  ordered : ∀ first second, (s.innerActionBatch first).valid = true →
    (s.innerActionBatch second).valid = true → first.toNat < second.toNat →
    (s.innerActionBatch first).startIndex.toNat + (s.innerActionBatch first).count.toNat ≤
      (s.innerActionBatch second).startIndex.toNat

/-- A receipt that does not lower the settled length keeps the order: a batch
starts at the length before it. -/
theorem BatchesOrdered.settled {s next : SettlementStorage} {decoded : DecodedPublicValues}
    (h : BatchesOrdered s) (hgrows : (decoded.stateBefore 4).toNat ≤ (decoded.stateAfter 4).toNat)
    (hsettled : ReceiptSettled env s decoded next) : BatchesOrdered next := by
  have hsequence := hsettled.sequence
  have hcurrent := hsettled.batchSequence_eq
  have hbefore : (decoded.stateBefore 4).toNat = (s.outerState 4).toNat := by
    rw [hsettled.stateBefore]
  have hafter : (next.outerState 4).toNat = (decoded.stateAfter 4).toNat := by
    rw [hsettled.outerState_eq]
  have hentry : ∀ sequence, next.innerActionBatch sequence =
      if 2 ≤ decoded.version ∧ sequence = decoded.batchSequence then receiptBatch decoded
      else s.innerActionBatch sequence := by
    intro sequence
    rw [hsettled.innerActionBatch_eq, settledBatches, ite_update_apply]
    rfl
  have hstartEq : (receiptBatch decoded).startIndex = decoded.innerActionStartIndex := rfl
  have hcountEq : (receiptBatch decoded).count = decoded.innerActionCount := rfl
  refine ⟨?_, ?_, ?_⟩
  · intro sequence hvalid
    rw [hentry] at hvalid
    rw [hcurrent]
    by_cases hnew : 2 ≤ decoded.version ∧ sequence = decoded.batchSequence
    · rw [hnew.2]
    · rw [if_neg hnew] at hvalid
      have hle := h.counted sequence hvalid
      omega
  · intro sequence hvalid
    rw [hentry] at hvalid ⊢
    by_cases hnew : 2 ≤ decoded.version ∧ sequence = decoded.batchSequence
    · obtain ⟨-, hend, -⟩ := hsettled.range hnew.1
      rw [if_pos hnew, hstartEq, hcountEq]
      omega
    · rw [if_neg hnew] at hvalid ⊢
      have hle := h.ended sequence hvalid
      omega
  · intro first second hfirst hsecond hlt
    rw [hentry] at hfirst hsecond ⊢
    rw [hentry second]
    by_cases hnewSecond : 2 ≤ decoded.version ∧ second = decoded.batchSequence
    · obtain ⟨hstart, -, -⟩ := hsettled.range hnewSecond.1
      have hold : ¬(2 ≤ decoded.version ∧ first = decoded.batchSequence) := by
        intro hnewFirst
        rw [hnewFirst.2, hnewSecond.2] at hlt
        exact absurd hlt (Nat.lt_irrefl _)
      rw [if_neg hold] at hfirst ⊢
      rw [if_pos hnewSecond, hstartEq]
      have hle := h.ended first hfirst
      omega
    · rw [if_neg hnewSecond] at hsecond ⊢
      have hcounted := h.counted second hsecond
      have hold : ¬(2 ≤ decoded.version ∧ first = decoded.batchSequence) := by
        intro hnewFirst
        rw [hnewFirst.2] at hlt
        omega
      rw [if_neg hold] at hfirst ⊢
      exact h.ordered first second hfirst hsecond hlt

/-- A receipt with a batch does not lower the settled length. -/
theorem length_grows {s next : SettlementStorage} {decoded : DecodedPublicValues}
    (hsettled : ReceiptSettled env s decoded next) (hversion : 2 ≤ decoded.version) :
    (decoded.stateBefore 4).toNat ≤ (decoded.stateAfter 4).toNat := by
  obtain ⟨hstart, hend, -⟩ := hsettled.range hversion
  omega

/-- Kept tables keep their ranges. -/
theorem BatchesOrdered.kept {s next : SettlementStorage} (h : BatchesOrdered s)
    (hkept : TablesKept s next) : BatchesOrdered next := by
  constructor
  · rw [hkept.innerActionBatch, hkept.batchSequence]
    exact h.counted
  · rw [hkept.innerActionBatch, hkept.outerState]
    exact h.ended
  · rw [hkept.innerActionBatch]
    exact h.ordered

/-- A fresh deployment has no batch. -/
theorem start_batchesOrdered (d : Deployment env W) : BatchesOrdered d.start.settlement := by
  have hbatches := d.initialized.innerActionBatch_eq
  have hinvalid : ∀ sequence, (d.start.settlement.innerActionBatch sequence).valid ≠ true := by
    intro sequence hvalid
    rw [hbatches] at hvalid
    cases hvalid
  exact ⟨fun sequence h => absurd h (hinvalid sequence),
    fun sequence h => absurd h (hinvalid sequence),
    fun first _ h => absurd h (hinvalid first)⟩

/-- One transaction keeps the order of ranges, if a receipt has a batch. -/
theorem batchesOrdered_of_effect {c next : Chain W} {tx : Transaction}
    (hc : BatchesOrdered c.settlement) (hbatch : SettlesBatch (c, tx))
    (h : Effect env c tx.ctx tx.call next) : BatchesOrdered next.settlement := by
  rcases settlement_of_effect h with ⟨-, htables⟩ |
    ⟨publicValues, _, decoded, hsome, -, hdecode, hsettled⟩
  · exact hc.kept htables
  · exact hc.settled (length_grows hsettled (hbatch publicValues hsome decoded hdecode)) hsettled

/-- A valid batch is never rewritten while the ranges are ordered. -/
theorem batch_kept_of_effect {c next : Chain W} {ctx : CallContext} {call : Call}
    (hc : BatchesOrdered c.settlement) (h : Effect env c ctx call next) {sequence : BitVec 64}
    (hvalid : (c.settlement.innerActionBatch sequence).valid = true) :
    next.settlement.innerActionBatch sequence = c.settlement.innerActionBatch sequence := by
  rcases settlement_of_effect h with ⟨-, htables⟩ | ⟨_, _, decoded, -, -, -, hsettled⟩
  · rw [htables.innerActionBatch]
  · have hcounted := hc.counted sequence hvalid
    have hnext := hsettled.sequence
    have hne : sequence ≠ decoded.batchSequence := by
      intro hsame
      rw [hsame] at hcounted
      omega
    rw [hsettled.innerActionBatch_eq, settledBatches, ite_update_apply,
      if_neg (fun hboth => hne hboth.2)]

end EthereumSettlement.SettledReceipts
