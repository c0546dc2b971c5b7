import EthereumSettlement.ConfirmedReceipts
import EthereumSettlement.FixedBytesText
import EthereumSettlement.OuterWriter
import Mathlib.Data.List.Sort

/-!
# The Ethereum indexer of the gateway

A tick indexes blocks and events, rolls orphaned blocks back, replays finalized
events into the virtual accounts and reconciles submitted jobs with their
receipts; only then does it report that recovery is ready. A tick is a sequence of
separate transactions, so it keeps what it has read, and several ticks may run at
once. What Ethereum answers enters as the arguments of the steps, and any call
may fail.
-/

namespace EthereumSettlement.GatewayIndexer

open ByteWords CheckedCalls FixedBytesText KeyedTables PastaPoseidon SettlementCodec SettlementDecoder
open InnerActionRows (tryFromIntError)
open GatewayTables OuterWriter ConfirmedReceipts

/-- The columns of a table row lie above a block height. -/
def Above (ancestor : ℕ) (number : Option ℕ) : Prop := ∃ height ∈ number, ancestor < height

instance (ancestor : ℕ) (number : Option ℕ) : Decidable (Above ancestor number) :=
  inferInstanceAs (Decidable (∃ height ∈ number, _))

/-- The guard of `rollback_canonical_chain`: consensus finality is never rolled back. -/
def rollbackAllowed (state : AppState) (db : Database) (ancestor : ℕ) : Prop :=
  state.ethereumFinalityMode = .finalized →
    ∀ row ∈ db.blocks, row.canonical → row.finalized → row.block.number ≤ ancestor

instance (state : AppState) (db : Database) (ancestor : ℕ) :
    Decidable (rollbackAllowed state db ancestor) :=
  inferInstanceAs (Decidable (_ → _))

/-- The settlements that a rollback may retry. -/
def Retryable (ancestor : ℕ) (job : Job) : Prop :=
  job.kind = .settlement ∧ job.input.recoveredFromEthereum = false ∧
    Above ancestor job.submittedBlockNumber ∧ job.status ∈ [.submitted, .confirmed]

instance (ancestor : ℕ) (job : Job) : Decidable (Retryable ancestor job) :=
  inferInstanceAs (Decidable (_ ∧ _))

/-- `ORDER BY submitted_block_number, created_at`. -/
def SubmittedBefore (first second : Job) : Prop :=
  first.submittedBlockNumber.getD 0 < second.submittedBlockNumber.getD 0 ∨
    (first.submittedBlockNumber.getD 0 = second.submittedBlockNumber.getD 0 ∧
      first.createdAt ≤ second.createdAt)

instance (first second : Job) : Decidable (SubmittedBefore first second) :=
  inferInstanceAs (Decidable (_ ∨ _))

/-- The earliest orphaned settlement. -/
def retrySettlement (ancestor : ℕ) (jobs : List Job) : Option Job :=
  let candidates := jobs.filter fun job => Retryable ancestor job
  candidates.find? fun job => ∀ other ∈ candidates, SubmittedBefore job other

/-- `ORDER BY ethereum_block_number DESC, created_at DESC`. -/
def LaterHistory (first second : AccountHistory) : Prop :=
  second.ethereumBlockNumber < first.ethereumBlockNumber ∨
    (first.ethereumBlockNumber = second.ethereumBlockNumber ∧ second.createdAt ≤ first.createdAt)

instance (first second : AccountHistory) : Decidable (LaterHistory first second) :=
  inferInstanceAs (Decidable (_ ∨ _))

/-- Restore the account of one snapshot. -/
def restoreAccount (accounts : List Account) (history : AccountHistory) : List Account :=
  updateWhere (fun row => row.publicKey = history.publicKey)
    (fun row => { row with
      account := history.accountBefore
      ethereumBlockNumber := none
      ethereumBlockHash := none }) accounts

/-- The tables of indexed Ethereum data after a rollback. -/
def rollbackIndex (db : Database) (ancestor : ℕ) : Database :=
  let orphaned := db.accountHistory.filter fun history => ancestor < history.ethereumBlockNumber
  let synchronized := fun row : BridgeDepositRow => ∃ job ∈ db.jobs,
    row.synchronizedSettlementJobId = some job.id ∧ Above ancestor job.submittedBlockNumber
  let bridged := fun row : BridgeDepositRow => ∃ job ∈ db.jobs,
    row.bridgeJobId = some job.id ∧ Above ancestor job.submittedBlockNumber
  let removedDeposits := updateWhere (fun row => row.removed = false ∧ ancestor < row.log.blockNumber)
    (fun row => { row with removed := true }) db.deposits
  let unsynchronized := updateWhere synchronized (fun row => { row with
    synchronizedSettlementJobId := none
    synchronizedSettlementSequence := none }) removedDeposits
  { db with
    accounts := (orphaned.insertionSort LaterHistory).foldl restoreAccount db.accounts
    accountHistory := db.accountHistory.filter fun history => history.ethereumBlockNumber ≤ ancestor
    blocks := updateWhere (fun row => row.canonical ∧ ancestor < row.block.number)
      (fun row => { row with canonical := false, finalized := false }) db.blocks
    actions := updateWhere (fun row => row.removed = false ∧ ancestor < row.ethereumBlockNumber)
      (fun row => { row with removed := true }) db.actions
    deposits := updateWhere bridged (fun row => { row with
      bridgeJobId := none
      outerActionSequence := none
      outerActionStateAfter := none
      synchronizedSettlementJobId := none
      synchronizedSettlementSequence := none }) unsynchronized
    innerActionLeaves := updateWhere
      (fun leaf => leaf.removed = false ∧ ancestor < leaf.row.ethereumBlockNumber)
      (fun leaf => { leaf with removed := true }) db.innerActionLeaves
    acceptedEvents := updateWhere (fun event => event.removed = false ∧ ancestor < event.blockNumber)
      (fun event => { event with removed := true }) db.acceptedEvents
    lastExplorerBlock := db.lastExplorerBlock.map (min ancestor) }

/-- A recovered job above the ancestor. -/
def OrphanedRecovery (ancestor : ℕ) (job : Job) : Prop :=
  job.input.recoveredFromEthereum = true ∧ Above ancestor job.submittedBlockNumber

instance (ancestor : ℕ) (job : Job) : Decidable (OrphanedRecovery ancestor job) :=
  inferInstanceAs (Decidable (_ ∧ _))

/-- A job whose identity a rollback keeps: it is signed, owns the writer or has a pending
command. -/
def Retained (db : Database) (job : Job) : Prop :=
  job.preparedTransaction.isSome ∨ db.writer.jobId = some job.id ∨
    ∃ command ∈ db.pendingCommands, command.jobId = job.id

instance (db : Database) (job : Job) : Decidable (Retained db job) :=
  inferInstanceAs (Decidable (_ ∨ _))

/-- The row of a recovered job that a rollback keeps. -/
def orphanedRow (now : Timestamp) (job : Job) : Job :=
  { job with
    status := .reorged
    completedAt := some now
    error := some
      "Recovered Ethereum submission was orphaned; awaiting canonical reconciliation" }

/-- The settlements that a rollback invalidates when it retries another one. -/
def Superseded (retryId : Uuid) (job : Job) : Prop :=
  job.kind = .settlement ∧ job.id ≠ retryId ∧
    job.status ∈ [.queued, .validating, .awaitingApproval, .approved, .proofRequested, .proving,
      .submitting, .submitted, .confirmed]

instance (retryId : Uuid) (job : Job) : Decidable (Superseded retryId job) :=
  inferInstanceAs (Decidable (_ ∧ _))

/-- The row of an invalidated settlement. -/
def supersededRow (now : Timestamp) (job : Job) : Job :=
  { job with
    status := .reorged
    completedAt := some now
    error := some "Settlement depends on state removed by an Ethereum reorganization" }

/-- The submissions that a rollback puts back into the queue. -/
def Requeued (ancestor : ℕ) (retryId : Option Uuid) (job : Job) : Prop :=
  Above ancestor job.submittedBlockNumber ∧ job.status ∈ [.submitted, .confirmed] ∧
    (job.kind ≠ .settlement ∨ retryId = some job.id)

instance (ancestor : ℕ) (retryId : Option Uuid) (job : Job) :
    Decidable (Requeued ancestor retryId job) :=
  inferInstanceAs (Decidable (_ ∧ _))

/-- The row of a requeued submission. -/
def requeuedRow (job : Job) : Job :=
  { job with
    status := if job.approval.isSome then .approved else .queued
    transactionHash := none
    submittedBlockNumber := none
    submittedBlockHash := none
    confirmations := 0
    completedAt := none
    error := some "Ethereum submission was removed by a chain reorganization" }

/-- The job updates of `rollback_after`, in their order. -/
def rollbackJobs (db : Database) (now : Timestamp) (ancestor : ℕ) (retryId : Option Uuid) :
    Except GatewayError Database := do
  let db ← db.updateJobs (fun job => OrphanedRecovery ancestor job ∧ Retained db job)
    (orphanedRow now)
  let deleted := db.jobs.filter fun job => OrphanedRecovery ancestor job ∧ ¬ Retained db job
  let kept := db.jobs.filter fun job => ¬ (OrphanedRecovery ancestor job ∧ ¬ Retained db job)
  let db ← db.storeJobs kept
  let db := { db with accountHistory := db.accountHistory.filter fun history =>
    ¬ ∃ job ∈ deleted, history.jobId = job.id }
  let db ← match retryId with
    | some retryId => db.updateJobs (Superseded retryId) (supersededRow now)
    | none => pure db
  db.updateJobs (Requeued ancestor retryId) requeuedRow

/-- `rollback_after`. -/
def rollbackAfter (db : Database) (now : Timestamp) (ancestor : ℕ) :
    Except GatewayError Database := do
  let retry := retrySettlement ancestor db.jobs
  let db := rollbackIndex { db with recoveryReady := false } ancestor
  let db ← rollbackJobs db now ancestor (retry.map Job.id)
  let db := db.deletePending fun command => ∃ job ∈ db.jobs, command.jobId = job.id ∧
    job.status = .reorged ∧ ¬ job.Signed
  match retry.bind fun job => job.input.submission.map fun submission => (job.id, submission) with
  | some (retryId, submission) =>
    pure (db.insertPending ⟨retryId, submission.feePayerPublicKey, submission.nonce,
      submission.commandBase64⟩)
  | none => pure db

/-- The upsert of a deposit event keeps the jobs of its row. -/
def upsertDeposit (deposits : List BridgeDepositRow) (log : BridgeDepositLog) :
    List BridgeDepositRow :=
  if ∃ row ∈ deposits, row.log.nonce = log.nonce then
    updateWhere (fun row => row.log.nonce = log.nonce)
      (fun row => { row with log := log, removed := false }) deposits
  else
    deposits ++ [⟨log, false, none, none, none, none, none⟩]

/-- The upsert of a block. -/
def upsertBlock (blocks : List BlockRow) (block : BlockRef) : List BlockRow :=
  if ∃ row ∈ blocks, row.block.number = block.number then
    updateWhere (fun row => row.block.number = block.number) (fun _ => ⟨block, false, true⟩) blocks
  else
    blocks ++ [⟨block, false, true⟩]

/-- The loop of `index_bridge_deposits`: no other row has the place of the log. -/
def insertDeposit (block : BlockRef) (deposits : List BridgeDepositRow) (log : BridgeDepositLog) :
    Except GatewayError (List BridgeDepositRow) := do
  require (log.blockNumber = block.number ∧ log.blockHash = block.hash)
    (.other "bridge deposit RPC returned logs outside the requested block")
  require (log.nonce < 2 ^ 63 ∧ log.blockNumber < 2 ^ 63 ∧ log.logIndex < 2 ^ 63)
    (.other tryFromIntError)
  require (∀ row ∈ deposits, row.log.nonce ≠ log.nonce →
      (row.log.transactionHash, row.log.logIndex) ≠ (log.transactionHash, log.logIndex))
    constraintViolated
  pure (upsertDeposit deposits log)

/-- `insert_block`: no other row has the hash. -/
def insertBlock (blocks : List BlockRow) (block : BlockRef) :
    Except GatewayError (List BlockRow) := do
  require (block.number < 2 ^ 63) (.other tryFromIntError)
  require (∀ row ∈ blocks, row.block.number ≠ block.number → row.block.hash ≠ block.hash)
    constraintViolated
  pure (upsertBlock blocks block)

/-- `index_bridge_deposits`: one block with all of its deposits. -/
def indexBridgeDeposits (db : Database) (block : BlockRef) (logs : List BridgeDepositLog) :
    Except GatewayError Database := do
  let deposits ← logs.foldlM (insertDeposit block) db.deposits
  let blocks ← insertBlock db.blocks block
  pure { db with deposits := deposits, blocks := blocks }

/-- The checks of `index_blocks` before it advances finality, and the height that it flags. -/
def finalizedThrough (state : AppState) (db : Database) (head : ℕ) (headHash : Bytes32)
    (finalized : Option BlockRef) : Except GatewayError (Option ℕ) := do
  require ((db.canonicalBlock? head).map (fun row => row.block.hash) = some headHash)
    (.other "Ethereum head changed while indexing; retry before advancing finality")
  match finalized with
  | some block => do
    require (block.number ≤ head) (.other "Ethereum finalized head is above latest head")
    require (∀ row ∈ db.canonicalBlock? block.number, row.block.hash = block.hash)
      (.other "Ethereum finalized head does not match the indexed canonical hash")
    require (∀ height ∈ finalizedHeight db, height ≤ block.number)
      (.other "Ethereum finalized head regressed")
    pure (some block.number)
  | none =>
    let depth := max state.ethereumConfirmations 1 - 1
    pure (if depth ≤ head then some (head - depth) else none)

/-- The finality update of `index_blocks`. -/
def storeFinality (db : Database) (through : Option ℕ) : Database :=
  let flagged := fun row : BlockRow => { row with
    finalized := row.canonical && through.any fun height => decide (row.block.number ≤ height) }
  { db with blocks := updateWhere (fun _ => True) flagged db.blocks }

/-- `index_explorer_events` upserts one accepted event. -/
def upsertEvent (db : Database) (event : AcceptedEvent) : Database :=
  let same := fun row : AcceptedEvent => row.kind = event.kind ∧
    row.transactionHash = event.transactionHash ∧ row.logIndex = event.logIndex
  let stored := { event with removed := false }
  if ∃ row ∈ db.acceptedEvents, same row then
    { db with acceptedEvents := updateWhere same (fun _ => stored) db.acceptedEvents }
  else
    { db with acceptedEvents := db.acceptedEvents ++ [stored] }

/-- `ORDER BY ethereum_block_number, ethereum_log_index`. -/
def EventBefore (first second : AcceptedEvent) : Prop :=
  first.blockNumber < second.blockNumber ∨
    (first.blockNumber = second.blockNumber ∧ first.logIndex ≤ second.logIndex)

instance (first second : AcceptedEvent) : Decidable (EventBefore first second) :=
  inferInstanceAs (Decidable (_ ∨ _))

/-- The event is in a canonical finalized block and not removed. -/
def Accepted (db : Database) (event : AcceptedEvent) : Prop :=
  event.removed = false ∧ ∃ row ∈ db.blocks, row.block.number = event.blockNumber ∧
    row.block.hash = event.blockHash ∧ row.canonical ∧ row.finalized

instance (db : Database) (event : AcceptedEvent) : Decidable (Accepted db event) :=
  inferInstanceAs (Decidable (_ ∧ _))

/-- The events that `recover_gateway_state` replays, in chain order. -/
def acceptedEvents (db : Database) : List AcceptedEvent :=
  (db.acceptedEvents.filter fun event => Accepted db event).insertionSort EventBefore

/-- The event was applied and its job confirmed. -/
def AlreadyApplied (db : Database) (event : AcceptedEvent) : Prop :=
  ∃ job ∈ db.jobs, Applied db job.id ∧ job.transactionHash = some event.transactionHash ∧
    job.status = .confirmed

instance (db : Database) (event : AcceptedEvent) : Decidable (AlreadyApplied db event) :=
  inferInstanceAs (Decidable (∃ job ∈ db.jobs, _))

/-- The job names the transaction, by its hash or by its signed bytes. -/
def Names (job : Job) (transactionHash : Bytes32) : Prop :=
  job.transactionHash = some transactionHash ∨
    job.preparedTransaction.map PreparedSubmission.transactionHash = some transactionHash

instance (job : Job) (transactionHash : Bytes32) : Decidable (Names job transactionHash) :=
  inferInstanceAs (Decidable (_ ∨ _))

/-- `SELECT … WHERE … ORDER BY created_at LIMIT 1`. -/
def findSubmission (db : Database) (transactionHash : Bytes32) : Option Job :=
  let candidates := db.jobs.filter fun job => Names job transactionHash
  candidates.find? fun job => ∀ other ∈ candidates, job.createdAt ≤ other.createdAt

/-- `recovered_settlement_input`. -/
def recoveredSettlementInput (state : AppState) (db : Database) (publicValues : Bytes) :
    Except GatewayError JobInput := do
  let decoded ← liftCodec (SettlementPublicValues.decode publicValues)
  let receipt := decoded.settlement
  let outerPublicKey ← requireSome db.outerPublicKey
    "VIRTUAL_MINA_OUTER_PUBLIC_KEY is required for gateway recovery"
  let feePayerPublicKey ← requireSome state.feePayerPublicKey
    "VIRTUAL_MINA_FEE_PAYER_PUBLIC_KEY is required for gateway recovery"
  let account ← requireSome (db.account? feePayerPublicKey)
    "no rows returned by a query that expected to return at least one row"
  let action := [0, receipt.stateAfter.fields 2, receipt.stateAfter.fields 3,
    receipt.stateAfter.fields 4, receipt.synchronizedOuterActionState,
    receipt.synchronizedOuterActionStateLength.setWidth 256, receipt.slotLower.setWidth 256,
    receipt.slotUpper.setWidth 256]
  pure {
    recoveredFromEthereum := true
    minaTransactionHash := none
    reservation := none
    submission := some ⟨outerPublicKey, feePayerPublicKey, account.account.nonce.getD 0, none⟩
    proof := some ⟨some ⟨none, none, [action]⟩, none, none⟩
    transition := none
    remainder := [] }

/-- The input of an event without a job. -/
def recoveredInput (state : AppState) (db : Database) (kind : ProofKind) (publicValues : Bytes) :
    Except GatewayError JobInput :=
  match kind with
  | .settlement => recoveredSettlementInput state db publicValues
  | .bridge => pure {
      recoveredFromEthereum := true
      minaTransactionHash := none
      reservation := none
      submission := none
      proof := none
      transition := none
      remainder := [] }

/-- The text of a proof kind. -/
def kindText : ProofKind → String
  | .settlement => "settlement"
  | .bridge => "bridge"

/-- The row that `recover_gateway_state` inserts for an unknown submitter. -/
def recoveredJob (now : Timestamp) (id : Uuid) (event : AcceptedEvent) (input : JobInput)
    (publicValues : Bytes) : Job where
  id := id
  kind := event.kind
  status := .confirmed
  idempotencyKey := some
    ("recovered:" ++ kindText event.kind ++ ":" ++ wordText event.transactionHash)
  inputDigest := none
  input := input
  publicValues := some publicValues
  cycleCount := none
  preflightInputDigest := none
  approval := none
  proofRequestIntent := none
  proofRequestId := none
  proofBytes := none
  preparedTransaction := none
  transactionHash := some event.transactionHash
  error := none
  errorClass := none
  attempts := 0
  retryCount := 0
  nextAttemptAt := none
  submittedBlockNumber := some event.blockNumber
  submittedBlockHash := some event.blockHash
  ethereumGasUsed := none
  confirmations := 1
  createdAt := now
  completedAt := some now

/-- The row that `recover_gateway_state` leaves for an applied event. -/
def confirmedRow (now : Timestamp) (event : AcceptedEvent) (publicValues : Bytes) (job : Job) :
    Job :=
  { job with
    status := .confirmed
    publicValues := some publicValues
    submittedBlockNumber := some event.blockNumber
    submittedBlockHash := some event.blockHash
    transactionHash := some event.transactionHash
    confirmations := max job.confirmations 1
    completedAt := some (job.completedAt.getD now) }

/-- What `reconcile_jobs` keeps of a job row. -/
structure ReconcileRow where
  /-- Identifier of the row. -/
  id : Uuid
  /-- Settlement or bridge transition. -/
  kind : ProofKind
  /-- Its input document. -/
  input : JobInput
  /-- Public values of the proof. -/
  publicValues : Option Bytes
  /-- Current status. -/
  status : ProofStatus
  /-- Whether the receipt was applied. -/
  stateApplied : Bool
  /-- Transaction that was submitted. -/
  transactionHash : Bytes32

/-- A transaction receipt. -/
structure Receipt where
  /-- Height of the block. -/
  blockNumber : ℕ
  /-- Hash of the block. -/
  blockHash : Bytes32
  /-- Whether the transaction succeeded. -/
  succeeded : Bool
  /-- Gas that it used. -/
  gasUsed : ℕ
  deriving DecidableEq, Repr

/-- The submission block of the job is canonical and finalized within the finalized height. -/
def FinalizedWithin (db : Database) (finalized : Option BlockRef) (job : Job) : Prop :=
  ∃ row ∈ db.blocks, job.submittedBlockNumber = some row.block.number ∧
    job.submittedBlockHash = some row.block.hash ∧ row.canonical ∧ row.finalized ∧
      ∃ block ∈ finalized, row.block.number ≤ block.number

instance (db : Database) (finalized : Option BlockRef) (job : Job) :
    Decidable (FinalizedWithin db finalized job) :=
  inferInstanceAs (Decidable (∃ row ∈ db.blocks, job.submittedBlockNumber = some row.block.number ∧
    job.submittedBlockHash = some row.block.hash ∧ row.canonical ∧ row.finalized ∧
      ∃ block ∈ finalized, row.block.number ≤ block.number))

/-- The rows that `reconcile_jobs` reads. -/
def NeedsReconciliation (state : AppState) (db : Database) (finalized : Option BlockRef)
    (job : Job) : Prop :=
  job.transactionHash.isSome ∧ job.status ∈ [.submitted, .confirmed, .reorged] ∧
    (state.ethereumFinalityMode = .confirmations ∨ job.status ≠ .confirmed ∨
      ¬ FinalizedWithin db finalized job ∨
      ((job.kind = .bridge ∨ job.input.submission.isSome) ∧ ¬ Applied db job.id))

instance (state : AppState) (db : Database) (finalized : Option BlockRef) (job : Job) :
    Decidable (NeedsReconciliation state db finalized job) :=
  inferInstanceAs (Decidable (_ ∧ _))

/-- One row of `reconcile_jobs`. -/
def reconcileRow (db : Database) (job : Job) : Option ReconcileRow :=
  job.transactionHash.map fun transactionHash =>
    { id := job.id
      kind := job.kind
      input := job.input
      publicValues := job.publicValues
      status := job.status
      stateApplied := Applied db job.id ∨ (job.kind = .settlement ∧ job.input.submission = none)
      transactionHash := transactionHash }

/-- The query of `reconcile_jobs`. -/
def reconcileRows (state : AppState) (db : Database) (finalized : Option BlockRef) :
    List ReconcileRow :=
  (db.jobs.filter fun job => NeedsReconciliation state db finalized job).filterMap (reconcileRow db)

/-- `transaction_is_finalized`. -/
def transactionIsFinalized (state : AppState) (blockNumber confirmations : ℕ)
    (finalized : Option BlockRef) : Bool :=
  match state.ethereumFinalityMode with
  | .finalized => finalized.any fun block => decide (blockNumber ≤ block.number)
  | .confirmations => decide (max state.ethereumConfirmations 1 ≤ confirmations)

/-- The confirmations of a receipt at a head. -/
def confirmationsAt (head : ℕ) (receipt : Receipt) : ℕ := head - receipt.blockNumber + 1

/-- What `reconcile_jobs` does with one row. -/
inductive Reconciliation
  | skip
  | revert (receipt : Receipt)
  | settle (receipt : Receipt) (confirmed : Bool)
  deriving DecidableEq

/-- The decision of `reconcile_jobs` on one row and the receipt of its transaction. -/
def reconcile (state : AppState) (db : Database) (head : ℕ) (finalized : Option BlockRef)
    (row : ReconcileRow) : Option Receipt → Reconciliation
  | none => .skip
  | some receipt =>
    if (db.canonicalBlock? receipt.blockNumber).map (fun block => block.block.hash) ≠
        some receipt.blockHash then .skip
    else
      let confirmed := transactionIsFinalized state receipt.blockNumber
        (confirmationsAt head receipt) finalized
      if row.status = .reorged ∧ (confirmed = false ∨ receipt.succeeded) then .skip
      else if receipt.succeeded = false ∧ confirmed then .revert receipt
      else .settle receipt confirmed

/-- The row of a reverted transaction. -/
def revertedRow (now : Timestamp) (head : ℕ) (receipt : Receipt) (job : Job) : Job :=
  { job with
    status := .ethereumReverted
    ethereumGasUsed := some receipt.gasUsed
    confirmations := min (confirmationsAt head receipt) (2 ^ 31 - 1)
    error := some "Ethereum transaction reverted"
    completedAt := some now }

/-- The last update of `reconcile_jobs` for one row. -/
def settledRow (now : Timestamp) (head : ℕ) (receipt : Receipt) (confirmed : Bool) (job : Job) :
    Job :=
  { job with
    status := if confirmed then .confirmed else .submitted
    submittedBlockNumber := some receipt.blockNumber
    submittedBlockHash := some receipt.blockHash
    ethereumGasUsed := some receipt.gasUsed
    confirmations := min (confirmationsAt head receipt) (2 ^ 31 - 1)
    completedAt := if confirmed then some (job.completedAt.getD now) else none }

/-- What a tick reads first: the head and the finalized block. -/
structure Tick where
  /-- Height of the head. -/
  head : ℕ
  /-- Last finalized block, if the remote has one. -/
  finalized : Option BlockRef
  deriving DecidableEq, Repr

/-- How far a tick has run, with what it still needs. -/
inductive IndexerStage
  | idle
  | indexing (tick : Tick)
  | rollingBack (tick : Tick) (ancestor : ℕ)
  | finalizing (tick : Tick) (through : Option ℕ)
  | exploring (tick : Tick)
  | recovering (tick : Tick) (events : List AcceptedEvent)
  | replaying (tick : Tick) (event : AcceptedEvent) (rest : List AcceptedEvent)
      (publicValues : Bytes)
  | inserting (tick : Tick) (event : AcceptedEvent) (rest : List AcceptedEvent)
      (publicValues : Bytes) (input : JobInput)
  | applying (tick : Tick) (event : AcceptedEvent) (rest : List AcceptedEvent)
      (publicValues : Bytes) (jobId : Uuid) (input : JobInput)
  | confirming (tick : Tick) (event : AcceptedEvent) (rest : List AcceptedEvent)
      (publicValues : Bytes) (jobId : Uuid)
  | reconciling (tick : Tick) (rows : List ReconcileRow)
  | reverting (tick : Tick) (row : ReconcileRow) (rest : List ReconcileRow) (receipt : Receipt)
  | settling (tick : Tick) (row : ReconcileRow) (rest : List ReconcileRow) (receipt : Receipt)
  | recording (tick : Tick) (row : ReconcileRow) (rest : List ReconcileRow) (receipt : Receipt)
      (confirmed : Bool)

/-- The next call of a tick, with what Ethereum answered it. -/
inductive IndexerStep
  | begin (head : ℕ) (finalized : Option BlockRef)
  | commonAncestor (ancestor : ℕ)
  | rollback
  | indexBlock (block : BlockRef) (logs : List BridgeDepositLog)
  | checkFinality (headHash : Bytes32)
  | storeFinality
  | storeEvent (event : AcceptedEvent)
  | storeCursor (through : ℕ)
  | readEvents
  | readEvent (publicValues : Bytes)
  | findSubmission
  | insertRecovered (id : Uuid)
  | applyEvent
  | confirmEvent
  | readJobs
  | readReceipt (receipt : Option Receipt)
  | storeReverted
  | applyReceipt
  | storeSettled
  | reportReady
  | abandon

/-- The stage after the receipt of a row is read: a newly confirmed receipt, or one without
account history, is applied before it is recorded. -/
def reconciledStage (tick : Tick) (row : ReconcileRow) (rest : List ReconcileRow) :
    Reconciliation → IndexerStage
  | .skip => .reconciling tick rest
  | .revert receipt => .reverting tick row rest receipt
  | .settle receipt confirmed =>
    if confirmed ∧ (row.status ≠ .confirmed ∨ row.stateApplied = false) then
      .settling tick row rest receipt
    else
      .recording tick row rest receipt confirmed

/-- One call of a tick: the database after it and the stage. -/
def tickStep (state : AppState) (db : Database) (now : Timestamp) :
    IndexerStage → IndexerStep → Except GatewayError (Database × IndexerStage)
  | _, .abandon => pure (db, .idle)
  | .idle, .begin head finalized => do
    require (finalized.isSome ↔ state.ethereumFinalityMode = .finalized)
      (.other "read Ethereum consensus-finalized head")
    pure (db, .indexing ⟨head, finalized⟩)
  | .indexing tick, .commonAncestor ancestor => do
    require (rollbackAllowed state db ancestor)
      (.other "Ethereum canonical chain conflicts with a consensus-finalized checkpoint")
    pure (db, .rollingBack tick ancestor)
  | .rollingBack tick ancestor, .rollback => do
    let db ← rollbackAfter db now ancestor
    pure (db, .indexing tick)
  | .indexing tick, .indexBlock block logs => do
    let db ← indexBridgeDeposits db block logs
    pure (db, .indexing tick)
  | .indexing tick, .checkFinality headHash => do
    let through ← finalizedThrough state db tick.head headHash tick.finalized
    pure (db, .finalizing tick through)
  | .finalizing tick through, .storeFinality =>
    pure (storeFinality db through, .exploring tick)
  | .exploring tick, .storeEvent event =>
    pure (upsertEvent db event, .exploring tick)
  | .exploring tick, .storeCursor through =>
    pure ({ db with lastExplorerBlock := some through }, .exploring tick)
  | .exploring tick, .readEvents =>
    pure (db, .recovering tick (acceptedEvents db))
  | .recovering tick (event :: rest), .readEvent publicValues =>
    if AlreadyApplied db event then pure (db, .recovering tick rest)
    else pure (db, .replaying tick event rest publicValues)
  | .replaying tick event rest publicValues, .findSubmission =>
    match findSubmission db event.transactionHash with
    | some job =>
      if event.kind = .settlement ∧ job.input.submission = none then do
        let input ← recoveredSettlementInput state db publicValues
        pure (db, .applying tick event rest publicValues job.id input)
      else
        pure (db, .applying tick event rest publicValues job.id job.input)
    | none => do
      let input ← recoveredInput state db event.kind publicValues
      pure (db, .inserting tick event rest publicValues input)
  | .inserting tick event rest publicValues input, .insertRecovered id => do
    let db ← db.storeJobs (db.jobs ++ [recoveredJob now id event input publicValues])
    pure (db, .applying tick event rest publicValues id input)
  | .applying tick event rest publicValues jobId input, .applyEvent => do
    let db ← applyConfirmed state db now event.kind jobId input publicValues
      ⟨event.blockNumber, event.blockHash, event.transactionHash⟩
    pure (db, .confirming tick event rest publicValues jobId)
  | .confirming tick event rest publicValues jobId, .confirmEvent => do
    let db ← db.updateJobs (fun job => job.id = jobId) (confirmedRow now event publicValues)
    pure (db, .recovering tick rest)
  | .recovering tick [], .readJobs =>
    pure (db, .reconciling tick (reconcileRows state db tick.finalized))
  | .reconciling tick (row :: rest), .readReceipt receipt =>
    pure (db, reconciledStage tick row rest (reconcile state db tick.head tick.finalized row receipt))
  | .reverting tick row rest receipt, .storeReverted => do
    let db ← db.updateJobs (fun job => job.id = row.id) (revertedRow now tick.head receipt)
    pure (db.deletePending fun command => command.jobId = row.id, .reconciling tick rest)
  | .settling tick row rest receipt, .applyReceipt => do
    let publicValues ← requireSome row.publicValues
      (kindText row.kind ++ " public values missing")
    let db ← applyConfirmed state db now row.kind row.id row.input publicValues
      ⟨receipt.blockNumber, receipt.blockHash, row.transactionHash⟩
    pure (db, .recording tick row rest receipt true)
  | .recording tick row rest receipt confirmed, .storeSettled => do
    let db ← db.updateJobs (fun job => job.id = row.id)
      (settledRow now tick.head receipt confirmed)
    pure (db, .reconciling tick rest)
  | .reconciling _ [], .reportReady => pure ({ db with recoveryReady := true }, .idle)
  | _, _ => throw (.other "out of order")

end EthereumSettlement.GatewayIndexer
