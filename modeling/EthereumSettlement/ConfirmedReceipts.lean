import EthereumSettlement.BridgeDecoder
import EthereumSettlement.GatewayTables
import EthereumSettlement.SettlementDecoder

/-!
# Applying confirmed receipts

A confirmed settlement or bridge receipt changes the virtual Mina accounts once:
the first application of a job stores a snapshot of every account it changes, and
a later one finds the snapshot and stops. Each application is one transaction.
-/

namespace EthereumSettlement.ConfirmedReceipts

open ByteWords CheckedCalls KeyedTables PastaPoseidon SettlementCodec SettlementDecoder BridgeCodec
open BridgeDecoder InnerActionRows SettlementReceipt GatewayTables

/-- An error of the receipt codec becomes the error of the transaction. -/
def liftCodec {α : Type} (result : Except String α) : Except GatewayError α :=
  result.mapError .other

/-- The block and the transaction that a receipt was confirmed in. -/
structure Inclusion where
  /-- Height of the block. -/
  blockNumber : ℕ
  /-- Hash of the block. -/
  blockHash : Bytes32
  /-- Hash of the Ethereum transaction. -/
  transactionHash : Bytes32
  deriving DecidableEq, Repr

/-- `snapshot_account`: `ON CONFLICT (job_id, public_key, token_id) DO NOTHING`. -/
def snapshotAccount (db : Database) (now : Timestamp) (jobId : Uuid) (account : Account)
    (inclusion : Inclusion) : Database :=
  if ∃ history ∈ db.accountHistory, history.jobId = jobId ∧ history.publicKey = account.publicKey
  then db
  else
    let history : AccountHistory :=
      ⟨jobId, account.publicKey, account.account, inclusion.blockNumber, inclusion.blockHash, now⟩
    { db with accountHistory := db.accountHistory ++ [history] }

/-- `store_account`. -/
def storeAccount (db : Database) (publicKey : String) (account : AccountJson)
    (inclusion : Inclusion) : Database :=
  let stored := fun row : Account => { row with
    account := account
    ethereumBlockNumber := some inclusion.blockNumber
    ethereumBlockHash := some inclusion.blockHash }
  { db with accounts := updateWhere (fun row => row.publicKey = publicKey) stored db.accounts }

/-- The action states an account shows before any action: five zeros. -/
def initialActionState : List Bytes32 := List.replicate 5 0

/-- `update_outer_account`. -/
def updateOuterAccount (db : Database) (now : Timestamp) (jobId : Uuid) (publicKey : String)
    (receipt : SettlementPublicValuesV1) (inclusion : Inclusion) : Except GatewayError Database := do
  let row ← requireSome (db.account? publicKey) "outer virtual Mina account is not configured"
  let db := snapshotAccount db now jobId row inclusion
  pure (storeAccount db publicKey { row.account with
    zkappState := some (List.ofFn receipt.stateAfter.fields)
    actionState := some (receipt.outerActionStateAfter :: receipt.outerActionStateBefore ::
      (row.account.actionState.getD initialActionState).take 3)
    provedState := some true } inclusion)

/-- `update_outer_account_actions`. -/
def updateOuterAccountActions (db : Database) (now : Timestamp) (jobId : Uuid) (publicKey : String)
    (expectedStateBefore : Bytes32) (statesAfter : List Bytes32) (inclusion : Inclusion) :
    Except GatewayError Database := do
  let row ← requireSome (db.account? publicKey) "outer virtual Mina account is not configured"
  let db := snapshotAccount db now jobId row inclusion
  let oldActions := row.account.actionState.getD initialActionState
  require (oldActions.head? = some expectedStateBefore)
    (.other "virtual Mina outer account action state is stale")
  pure (storeAccount db publicKey { row.account with
    actionState := some ((statesAfter.reverse ++ oldActions).take 5) } inclusion)

/-- `advance_fee_payer`, with the arguments of `update_fee_payer`. -/
def updateFeePayer (db : Database) (now : Timestamp) (jobId : Uuid) (publicKey : String) (nonce : ℕ)
    (inclusion : Inclusion) : Except GatewayError Database := do
  let row ← requireSome (db.account? publicKey) "fee-payer virtual Mina account is not configured"
  let currentNonce := row.account.nonce.getD 0
  require (currentNonce = nonce)
    (.other "virtual Mina fee-payer nonce does not match expected nonce")
  let db := snapshotAccount db now jobId row inclusion
  require (currentNonce + 1 < 2 ^ 64) (.other "fee-payer nonce overflow")
  pure (storeAccount db publicKey { row.account with nonce := some (currentNonce + 1) } inclusion)

/-- `INSERT INTO gateway_actions … ON CONFLICT (ethereum_tx_hash, ethereum_log_index, sequence)
DO UPDATE SET f`. -/
def upsertAction (db : Database) (action : ActionRow) (f : ActionRow → ActionRow) : Database :=
  let same := fun row : ActionRow => row.ethereumTxHash = action.ethereumTxHash ∧
    row.ethereumLogIndex = action.ethereumLogIndex ∧ row.sequence = action.sequence
  if ∃ row ∈ db.actions, same row then
    { db with actions := updateWhere same f db.actions }
  else
    { db with actions := db.actions ++ [action] }

/-- `INSERT INTO gateway_inner_action_leaves … ON CONFLICT (settlement_sequence, action_offset)
DO UPDATE`. -/
def upsertLeaf (leaves : List StoredLeaf) (row : InnerActionLeafRow) : List StoredLeaf :=
  let same := fun leaf : StoredLeaf => leaf.row.settlementSequence = row.settlementSequence ∧
    leaf.row.actionOffset = row.actionOffset
  if ∃ leaf ∈ leaves, same leaf then
    updateWhere same (fun _ => ⟨row, false⟩) leaves
  else
    leaves ++ [⟨row, false⟩]

/-- The batch of a settlement is stored when its input carries one. -/
def storeInnerActions (state : AppState) (db : Database) (input : JobInput)
    (decoded : SettlementPublicValues) (inclusion : Inclusion) : Except GatewayError Database := do
  match input.proof.bind ProofDocument.innerActionBatch with
  | none => pure db
  | some batch => do
    let receipt ← requireSome decoded.innerActionBatch
      "settlement receipt does not bind an inner-action batch"
    let rows ← liftCodec (storeInnerActionLeaves state.hashes batch receipt
      (BitVec.ofNat 64 inclusion.blockNumber) inclusion.blockHash inclusion.transactionHash)
    pure { db with innerActionLeaves := rows.foldl upsertLeaf db.innerActionLeaves }

/-- The deposits that a settlement synchronizes. -/
def Synchronizes (receipt : SettlementPublicValuesV1) (row : BridgeDepositRow) : Prop :=
  row.removed = false ∧ row.bridgeJobId.isSome ∧
    (∃ sequence ∈ row.outerActionSequence,
      sequence ≤ receipt.synchronizedOuterActionStateLength.toNat) ∧
    row.synchronizedSettlementJobId = none

instance (receipt : SettlementPublicValuesV1) (row : BridgeDepositRow) :
    Decidable (Synchronizes receipt row) :=
  inferInstanceAs (Decidable (_ ∧ _ ∧ (∃ sequence ∈ row.outerActionSequence, _ ≤ _) ∧ _))

/-- The job has account history: it was applied. -/
def Applied (db : Database) (jobId : Uuid) : Prop :=
  ∃ history ∈ db.accountHistory, history.jobId = jobId

instance (db : Database) (jobId : Uuid) : Decidable (Applied db jobId) :=
  inferInstanceAs (Decidable (∃ history ∈ db.accountHistory, _))

/-- `apply_confirmed_settlement`. -/
def applyConfirmedSettlement (state : AppState) (db : Database) (now : Timestamp) (jobId : Uuid)
    (input : JobInput) (publicValues : Bytes) (inclusion : Inclusion) :
    Except GatewayError Database := do
  let decoded ← liftCodec (SettlementPublicValues.decode publicValues)
  let receipt := decoded.settlement
  let _ ← liftCodec (toI64 receipt.batchSequence.toNat)
  let deposits := updateWhere (Synchronizes receipt)
    (fun row => { row with
      synchronizedSettlementJobId := some jobId
      synchronizedSettlementSequence := some receipt.batchSequence.toNat }) db.deposits
  let db := { db with deposits := deposits }
  if Applied db jobId then pure db
  else match input.submission with
  | none => pure db
  | some submission => do
    let actions ← requireSome (input.binding.map BindingDocument.actions)
      "settlement actions missing"
    let db := { db with outerPublicKey := some submission.outerAccountPublicKey }
    let db ← updateOuterAccount db now jobId submission.outerAccountPublicKey receipt inclusion
    let db ← updateFeePayer db now jobId submission.feePayerPublicKey submission.nonce inclusion
    let db := upsertAction db
      { address := submission.outerAccountPublicKey
        sequence := receipt.outerActionStateLengthAfter.toNat
        stateBefore := receipt.outerActionStateBefore
        stateAfter := receipt.outerActionStateAfter
        actionData := actions
        ethereumBlockNumber := inclusion.blockNumber
        ethereumBlockHash := inclusion.blockHash
        ethereumTxHash := inclusion.transactionHash
        ethereumLogIndex := 0
        removed := false } fun row => { row with removed := false }
    let db := db.deletePending fun command => command.jobId = jobId
    storeInnerActions state db input decoded inclusion

/-- The deposit update of `apply_confirmed_bridge` for one action. -/
def assignDeposit (jobId : Uuid) (decoded : BridgeTransitionPublicValuesV2) (db : Database)
    (entry : BridgeOuterActionV2 × ℕ) : Except GatewayError Database := do
  let nonce := decoded.ethereumNonceBefore.toNat + entry.2 + 1
  require (nonce < 2 ^ 64) (.other "bridge deposit nonce overflow")
  let sequence := decoded.zekoActionStateLengthBefore.toNat + entry.2 + 1
  require (sequence < 2 ^ 32) (.other "bridge action sequence overflow")
  let _ ← liftCodec (toI64 nonce)
  let assigned := fun row : BridgeDepositRow => row.log.nonce = nonce ∧ row.removed = false ∧
    (row.bridgeJobId = none ∨ row.bridgeJobId = some jobId)
  require (affected assigned db.deposits = 1)
    (.other "confirmed bridge receipt does not map to canonical deposit nonce")
  let assign := fun row : BridgeDepositRow => { row with
    bridgeJobId := some jobId
    outerActionSequence := some sequence
    outerActionStateAfter := some entry.1.stateAfter }
  pure { db with deposits := updateWhere assigned assign db.deposits }

/-- The action rows of a bridge receipt, each with the state before it. -/
def bridgeActionRows (publicKey : String) (decoded : BridgeTransitionPublicValuesV2)
    (inclusion : Inclusion) : Bytes32 → List (BridgeOuterActionV2 × ℕ) → List ActionRow
  | _, [] => []
  | stateBefore, (action, offset) :: rest =>
    { address := publicKey
      sequence := decoded.zekoActionStateLengthBefore.toNat + offset + 1
      stateBefore := stateBefore
      stateAfter := action.stateAfter
      actionData := [List.ofFn action.fields]
      ethereumBlockNumber := inclusion.blockNumber
      ethereumBlockHash := inclusion.blockHash
      ethereumTxHash := inclusion.transactionHash
      ethereumLogIndex := offset
      removed := false } :: bridgeActionRows publicKey decoded inclusion action.stateAfter rest

/-- `apply_confirmed_bridge`. -/
def applyConfirmedBridge (db : Database) (now : Timestamp) (jobId : Uuid) (publicValues : Bytes)
    (inclusion : Inclusion) : Except GatewayError Database := do
  let decoded ← liftCodec (BridgeTransitionPublicValuesV2.decode publicValues)
  require (decoded.actions ≠ []) (.other "bridge receipt contains no actions")
  require (decoded.zekoActionStateLengthBefore.toNat + decoded.actions.length < 2 ^ 32)
    (.other "bridge action-state length overflow")
  require (decoded.zekoActionStateLengthAfter.toNat =
      decoded.zekoActionStateLengthBefore.toNat + decoded.actions.length)
    (.other "bridge receipt action-state length mismatch")
  require (decoded.actions.getLast?.map BridgeOuterActionV2.stateAfter =
      some decoded.zekoActionStateAfter)
    (.other "bridge receipt final action state mismatch")
  let db ← decoded.actions.zipIdx.foldlM (assignDeposit jobId decoded) db
  if Applied db jobId then pure db
  else do
    let outerPublicKey ← requireSome db.outerPublicKey
      "VIRTUAL_MINA_OUTER_PUBLIC_KEY is required before applying a bridge receipt"
    let db ← updateOuterAccountActions db now jobId outerPublicKey decoded.zekoActionStateBefore
      (decoded.actions.map BridgeOuterActionV2.stateAfter) inclusion
    pure ((bridgeActionRows outerPublicKey decoded inclusion decoded.zekoActionStateBefore
      decoded.actions.zipIdx).foldl
      (fun db action => upsertAction db action fun row => { action with address := row.address }) db)

/-- The application of a receipt of either kind. -/
def applyConfirmed (state : AppState) (db : Database) (now : Timestamp) (kind : ProofKind)
    (jobId : Uuid) (input : JobInput) (publicValues : Bytes) (inclusion : Inclusion) :
    Except GatewayError Database :=
  match kind with
  | .settlement => applyConfirmedSettlement state db now jobId input publicValues inclusion
  | .bridge => applyConfirmedBridge db now jobId publicValues inclusion

/-- The job table, the writer row and the readiness flag are unchanged. -/
structure QueueFrame (db after : Database) : Prop where
  /-- The jobs are unchanged. -/
  jobs : after.jobs = db.jobs
  /-- The writer row is unchanged. -/
  writer : after.writer = db.writer
  /-- Readiness is unchanged. -/
  ready : after.recoveryReady = db.recoveryReady

namespace QueueFrame

variable {db after later : Database}

/-- An unchanged database meets the frame. -/
theorem refl (db : Database) : QueueFrame db db := ⟨rfl, rfl, rfl⟩

/-- Frames compose. -/
theorem trans (first : QueueFrame db after) (second : QueueFrame after later) :
    QueueFrame db later where
  jobs := second.jobs.trans first.jobs
  writer := second.writer.trans first.writer
  ready := second.ready.trans first.ready

end QueueFrame

section Frames

variable {state : AppState} {db after : Database} {now : Timestamp} {jobId : Uuid}
variable {inclusion : Inclusion}

/-- A snapshot writes the account history only. -/
theorem snapshotAccount_frame {account : Account} :
    QueueFrame db (snapshotAccount db now jobId account inclusion) := by
  unfold snapshotAccount
  split
  · exact QueueFrame.refl db
  · exact ⟨rfl, rfl, rfl⟩

/-- An action row changes the actions only. -/
theorem upsertAction_frame {action : ActionRow} {f : ActionRow → ActionRow} :
    QueueFrame db (upsertAction db action f) := by
  unfold upsertAction
  dsimp only
  split
  · exact ⟨rfl, rfl, rfl⟩
  · exact ⟨rfl, rfl, rfl⟩

/-- A snapshot and a stored account change the account tables only. -/
theorem storeAccount_snapshot_frame {account : Account} {publicKey : String} {json : AccountJson} :
    QueueFrame db (storeAccount (snapshotAccount db now jobId account inclusion) publicKey json
      inclusion) :=
  snapshotAccount_frame.trans ⟨rfl, rfl, rfl⟩

/-- The outer account of a settlement. -/
theorem updateOuterAccount_frame {publicKey : String} {receipt : SettlementPublicValuesV1}
    (h : updateOuterAccount db now jobId publicKey receipt inclusion = .ok after) :
    QueueFrame db after := by
  simp only [updateOuterAccount, bind_eq_ok, pure_eq_ok] at h
  obtain ⟨row, -, rfl⟩ := h
  exact storeAccount_snapshot_frame

/-- The outer account of a bridge transition. -/
theorem updateOuterAccountActions_frame {publicKey : String} {before : Bytes32}
    {states : List Bytes32}
    (h : updateOuterAccountActions db now jobId publicKey before states inclusion = .ok after) :
    QueueFrame db after := by
  simp only [updateOuterAccountActions, bind_eq_ok, require_eq_ok, exists_const, pure_eq_ok] at h
  obtain ⟨row, -, -, rfl⟩ := h
  exact storeAccount_snapshot_frame

/-- The account of the fee payer. -/
theorem updateFeePayer_frame {publicKey : String} {nonce : ℕ}
    (h : updateFeePayer db now jobId publicKey nonce inclusion = .ok after) :
    QueueFrame db after := by
  simp only [updateFeePayer, bind_eq_ok, require_eq_ok, exists_const, pure_eq_ok] at h
  obtain ⟨row, -, -, -, rfl⟩ := h
  exact storeAccount_snapshot_frame

/-- Stored inner actions change their own table only. -/
theorem storeInnerActions_frame {input : JobInput} {decoded : SettlementPublicValues}
    (h : storeInnerActions state db input decoded inclusion = .ok after) : QueueFrame db after := by
  unfold storeInnerActions at h
  split at h
  · rw [pure_eq_ok] at h
    rw [← h]
    exact QueueFrame.refl db
  · simp only [bind_eq_ok, pure_eq_ok] at h
    obtain ⟨-, -, -, -, rfl⟩ := h
    exact ⟨rfl, rfl, rfl⟩

/-- A confirmed settlement leaves the queue as it was. -/
theorem applyConfirmedSettlement_frame {input : JobInput} {publicValues : Bytes}
    (h : applyConfirmedSettlement state db now jobId input publicValues inclusion = .ok after) :
    QueueFrame db after := by
  simp only [applyConfirmedSettlement, bind_eq_ok] at h
  obtain ⟨decoded, -, sequence, -, h⟩ := h
  split at h
  · rw [pure_eq_ok] at h
    rw [← h]
    exact ⟨rfl, rfl, rfl⟩
  · split at h
    · rw [pure_eq_ok] at h
      rw [← h]
      exact ⟨rfl, rfl, rfl⟩
    · simp only [bind_eq_ok] at h
      obtain ⟨actions, -, outer, houter, payer, hpayer, hstore⟩ := h
      have hfirst := (updateOuterAccount_frame houter).trans (updateFeePayer_frame hpayer)
      have hpending : ∀ start : Database, QueueFrame start
          (start.deletePending fun command => command.jobId = jobId) := fun _ => ⟨rfl, rfl, rfl⟩
      have hlast := upsertAction_frame.trans
        ((hpending _).trans (storeInnerActions_frame hstore))
      have hall := hfirst.trans hlast
      exact ⟨hall.jobs, hall.writer, hall.ready⟩

/-- A confirmed bridge transition leaves the queue as it was. -/
theorem applyConfirmedBridge_frame {publicValues : Bytes}
    (h : applyConfirmedBridge db now jobId publicValues inclusion = .ok after) :
    QueueFrame db after := by
  simp only [applyConfirmedBridge, bind_eq_ok, require_eq_ok, exists_const] at h
  obtain ⟨decoded, -, -, -, -, -, assigned, hassigned, h⟩ := h
  have hdeposits : QueueFrame db assigned := by
    refine foldlM_related QueueFrame.refl QueueFrame.trans (fun start entry result hentry => ?_)
      _ hassigned
    simp only [assignDeposit, bind_eq_ok, require_eq_ok, exists_const, pure_eq_ok] at hentry
    obtain ⟨-, -, -, -, -, rfl⟩ := hentry
    exact ⟨rfl, rfl, rfl⟩
  split at h
  · rw [pure_eq_ok] at h
    rw [← h]
    exact hdeposits
  · simp only [bind_eq_ok, pure_eq_ok] at h
    obtain ⟨outerPublicKey, -, outer, houter, rfl⟩ := h
    exact (hdeposits.trans (updateOuterAccountActions_frame houter)).trans
      (foldl_related QueueFrame.refl QueueFrame.trans (fun _ _ => upsertAction_frame) _ _)

/-- An application leaves the job table, the writer row and the readiness flag as they were. -/
theorem applyConfirmed_frame {kind : ProofKind} {input : JobInput} {publicValues : Bytes}
    (h : applyConfirmed state db now kind jobId input publicValues inclusion = .ok after) :
    QueueFrame db after := by
  cases kind with
  | settlement => exact applyConfirmedSettlement_frame h
  | bridge => exact applyConfirmedBridge_frame h

end Frames

end EthereumSettlement.ConfirmedReceipts
