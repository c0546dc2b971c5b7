import EthereumSettlement.BridgeGuest
import EthereumSettlement.CheckedCalls
import EthereumSettlement.InnerActionRows
import EthereumSettlement.KeyedTables
import Mathlib.Algebra.Order.Group.Nat

/-!
# The tables of the gateway

The gateway keeps proof jobs, one writer row, virtual Mina accounts with their
history, bridge deposits, indexed blocks and accepted Ethereum events in one
PostgreSQL database. A hash, field or address column is the value its text
spells, a timestamp is a number of microseconds, and a document column is a
record of the paths that the gateway reads. Every write of the job table is
checked against the constraints of that table.
-/

namespace EthereumSettlement.GatewayTables

open ByteWords CheckedCalls KeyedTables PastaPoseidon InnerActionCommitment SettlementReceipt BridgeGuest
open InnerActionRows

/-- A `UUID` column. -/
abbrev Uuid := BitVec 128

/-- Row identifiers are compared lawfully. -/
instance uuidLawful : LawfulBEq Uuid := inferInstance

/-- A `TIMESTAMPTZ` column, in microseconds. -/
abbrev Timestamp := ℕ

/-- The text of a `UUID`: its hexadecimal digits in five groups. -/
def uuidText (id : Uuid) : String :=
  let digits := (Nat.toDigits 16 id.toNat).leftpad 32 '0'
  String.ofList (digits.take 8 ++ '-' :: (digits.drop 8).take 4 ++ '-' :: (digits.drop 12).take 4 ++
    '-' :: (digits.drop 16).take 4 ++ '-' :: digits.drop 20)

/-- `INTERVAL '1 second'`. -/
def second : ℕ := 1000000

/-- How a transaction of the gateway fails. -/
inductive GatewayError
  /-- `CoordinationError`. -/
  | conflict (code message : String)
  /-- Any other error, with its text. -/
  | other (message : String)
  deriving DecidableEq, Repr

/-- A value that a document, a row or the configuration must supply. -/
def requireSome {α : Type} (value : Option α) (message : String) : Except GatewayError α :=
  match value with
  | some value => pure value
  | none => throw (.other message)

/-- A demanded value is the supplied one. -/
@[simp] theorem requireSome_eq_ok {α : Type} {value : Option α} {message : String} {result : α} :
    requireSome value message = .ok result ↔ value = some result := by
  cases value with
  | none => simp [requireSome]
  | some value => simp [requireSome]

/-- The error a rejected constraint of the database raises. -/
def constraintViolated : GatewayError := .other "database constraint violated"

/-- `ProofKind`. -/
inductive ProofKind
  | settlement
  | bridge
  deriving DecidableEq, Repr

/-- `proof_status`. -/
inductive ProofStatus
  | queued
  | validating
  | awaitingApproval
  | approved
  | proofRequested
  | proving
  | submitting
  | submitted
  | executed
  | confirmed
  | failed
  | proofFailed
  | ethereumReverted
  | reorged
  | rejected
  deriving DecidableEq, Repr

/-- `ReservationToken`. -/
structure ReservationToken where
  /-- Identifier of the reservation. -/
  id : Uuid
  /-- Its token, as text. -/
  fencingToken : String
  deriving DecidableEq, Repr

/-- The `submission` object of a settlement input. -/
structure Submission where
  /-- Key of the outer account. -/
  outerAccountPublicKey : String
  /-- Key of the account that pays the Mina fee. -/
  feePayerPublicKey : String
  /-- Nonce of the fee payer. -/
  nonce : ℕ
  /-- The signed Mina command, if it is given. -/
  commandBase64 : Option String
  deriving DecidableEq, Repr

/-- The paths of the `proof.binding` object that the gateway reads. -/
structure BindingDocument where
  /-- `/proof/binding/stateBefore/fields`. -/
  stateBefore : Option (List Bytes32)
  /-- `/proof/binding/accountUpdateBody/fieldElements`. -/
  accountUpdateBody : Option (List Bytes32)
  /-- `/proof/binding/actions`. -/
  actions : List (List Bytes32)
  deriving DecidableEq

/-- The paths of the `proof` object that the gateway reads. -/
structure ProofDocument where
  /-- `/proof/binding`. -/
  binding : Option BindingDocument
  /-- `/proof/context`. -/
  context : Option SettlementContextV1
  /-- `/proof/innerActionBatch`. -/
  innerActionBatch : Option InnerActionBatchWitnessV2
  deriving DecidableEq

/-- The `input` document of a job. -/
structure JobInput where
  /-- Set for jobs that recovery found on Ethereum. -/
  recoveredFromEthereum : Bool
  /-- Hash of the Mina transaction, for a settlement. -/
  minaTransactionHash : Option String
  /-- Reservation that the job was admitted under. -/
  reservation : Option ReservationToken
  /-- The command to submit, for a settlement. -/
  submission : Option Submission
  /-- The Mina proof, for a settlement. -/
  proof : Option ProofDocument
  /-- The document of a bridge job. -/
  transition : Option BridgeTransitionInput
  /-- The text of every other path. -/
  remainder : Bytes

/-- `PreparedSubmission`. -/
structure PreparedSubmission where
  /-- Hash of the transaction. -/
  transactionHash : Bytes32
  /-- The signed transaction. -/
  rawTransaction : Bytes
  /-- Account that sends the transaction. -/
  sender : Address
  /-- Nonce of the sender. -/
  nonce : ℕ
  deriving DecidableEq, Repr

/-- The approval columns, which are all set or all null, with positive caps. -/
structure Approval where
  /-- Digest of the input document. -/
  inputDigest : Bytes32
  /-- Most proving work that may be bought. -/
  maxPgu : ℕ
  /-- Highest price for a unit of proving work. -/
  maxPricePerPgu : ℕ
  /-- When it was given. -/
  approvedAt : Timestamp
  /-- Both caps are positive. -/
  positive : 0 < maxPgu ∧ 0 < maxPricePerPgu
  deriving DecidableEq

/-- `/proof/binding` of an input document. -/
def JobInput.binding (input : JobInput) : Option BindingDocument :=
  input.proof.bind ProofDocument.binding

/-- A row of `proof_jobs`. -/
structure Job where
  /-- Identifier of the row. -/
  id : Uuid
  /-- Settlement or bridge transition. -/
  kind : ProofKind
  /-- Current status. -/
  status : ProofStatus
  /-- Key of the request that made it. -/
  idempotencyKey : Option String
  /-- The empty default text is `none`. -/
  inputDigest : Option Bytes32
  /-- Its input document. -/
  input : JobInput
  /-- Public values that the preflight computed. -/
  publicValues : Option Bytes
  /-- Cycles that the preflight execution took. -/
  cycleCount : Option ℕ
  /-- Digest of the input that the preflight ran on. -/
  preflightInputDigest : Option Bytes32
  /-- Approval of the proof's cost. -/
  approval : Option Approval
  /-- Mark left before the proof is requested. -/
  proofRequestIntent : Option Uuid
  /-- Request at the prover network. -/
  proofRequestId : Option String
  /-- The proof. -/
  proofBytes : Option Bytes
  /-- Transaction that is signed and stored before it is sent. -/
  preparedTransaction : Option PreparedSubmission
  /-- Transaction that was sent. -/
  transactionHash : Option Bytes32
  /-- Text of the last failure. -/
  error : Option String
  /-- Class of the last failure. -/
  errorClass : Option String
  /-- How often the job was claimed. -/
  attempts : ℕ
  /-- How often a failure was retried. -/
  retryCount : ℕ
  /-- When the job may be claimed again. -/
  nextAttemptAt : Option Timestamp
  /-- Block in which the transaction was included. -/
  submittedBlockNumber : Option ℕ
  /-- Hash of that block. -/
  submittedBlockHash : Option Bytes32
  /-- Gas that the transaction used. -/
  ethereumGasUsed : Option ℕ
  /-- Blocks on top of that block. -/
  confirmations : ℕ
  /-- When the row was made. -/
  createdAt : Timestamp
  /-- When the job ended. -/
  completedAt : Option Timestamp

/-- A job as the two `INSERT`s of the admission paths create it. -/
def Job.queued (id : Uuid) (kind : ProofKind) (input : JobInput) (idempotencyKey : Option String)
    (inputDigest : Bytes32) (now : Timestamp) : Job where
  id := id
  kind := kind
  status := .queued
  idempotencyKey := idempotencyKey
  inputDigest := some inputDigest
  input := input
  publicValues := none
  cycleCount := none
  preflightInputDigest := none
  approval := none
  proofRequestIntent := none
  proofRequestId := none
  proofBytes := none
  preparedTransaction := none
  transactionHash := none
  error := none
  errorClass := none
  attempts := 0
  retryCount := 0
  nextAttemptAt := none
  submittedBlockNumber := none
  submittedBlockHash := none
  ethereumGasUsed := none
  confirmations := 0
  createdAt := now
  completedAt := none

@[simp] theorem Job.queued_id {id : Uuid} {kind : ProofKind} {input : JobInput}
    {idempotencyKey : Option String} {inputDigest : Bytes32} {now : Timestamp} :
    (Job.queued id kind input idempotencyKey inputDigest now).id = id := rfl

/-- The job has a signed transaction or a transaction hash. -/
def Job.Signed (job : Job) : Prop :=
  job.preparedTransaction.isSome ∨ job.transactionHash.isSome

instance (job : Job) : Decidable job.Signed :=
  inferInstanceAs (Decidable (_ ∨ _))

/-- A proof was paid for or may have been, and its request is not known. -/
def Job.UnresolvedIntent (job : Job) : Prop :=
  job.proofRequestIntent.isSome ∧ job.proofRequestId = none

instance (job : Job) : Decidable job.UnresolvedIntent :=
  inferInstanceAs (Decidable (_ ∧ _))

/-- The condition on a job under which the writer row is released and a new job may be
admitted. -/
def Job.OutcomeKnown (job : Job) : Prop :=
  job.status ∈ [.confirmed, .ethereumReverted] ∨
    (job.transactionHash = none ∧ job.preparedTransaction = none ∧
      job.status ∈ [.executed, .failed, .proofFailed, .rejected, .reorged])

instance (job : Job) : Decidable job.OutcomeKnown :=
  inferInstanceAs (Decidable (_ ∨ _))

/-- The statuses of the partial index `one_active_settlement`. -/
def activeStatuses : List ProofStatus :=
  [.validating, .awaitingApproval, .approved, .proofRequested, .proving, .submitting, .submitted]

/-- The constraints of `proof_jobs`: the primary key, the unique idempotency keys, at most one
active settlement, at most one active bridge batch, and the range of `attempts`. -/
structure JobsConstrained (jobs : List Job) : Prop where
  /-- Identifiers are distinct. -/
  primaryKey : (jobs.map Job.id).Nodup
  /-- Keys are distinct. -/
  idempotencyKeys : (jobs.filterMap Job.idempotencyKey).Nodup
  /-- One settlement at most is active. -/
  oneActiveSettlement :
    affected (fun job => job.kind = .settlement ∧ job.status ∈ activeStatuses) jobs ≤ 1
  /-- One bridge transition at most is queued or active. -/
  oneActiveBridgeBatch :
    affected (fun job => job.kind = .bridge ∧ job.status ∈ .queued :: activeStatuses) jobs ≤ 1
  /-- Attempts fit their column. -/
  attempts : ∀ job ∈ jobs, job.attempts < 2 ^ 31

instance (jobs : List Job) : Decidable (JobsConstrained jobs) :=
  decidable_of_iff ((jobs.map Job.id).Nodup ∧ (jobs.filterMap Job.idempotencyKey).Nodup ∧
      affected (fun job => job.kind = .settlement ∧ job.status ∈ activeStatuses) jobs ≤ 1 ∧
      affected (fun job => job.kind = .bridge ∧ job.status ∈ .queued :: activeStatuses) jobs ≤ 1 ∧
      ∀ job ∈ jobs, job.attempts < 2 ^ 31)
    ⟨fun ⟨h1, h2, h3, h4, h5⟩ => ⟨h1, h2, h3, h4, h5⟩,
      fun ⟨h1, h2, h3, h4, h5⟩ => ⟨h1, h2, h3, h4, h5⟩⟩

/-- `Checkpoint`. -/
structure Checkpoint where
  /-- App state of the outer account. -/
  outerStateFields : List Bytes32
  /-- Settled ledger. -/
  ledgerHash : Bytes32
  /-- Last state of the outer action chain. -/
  actionState : Bytes32
  /-- Number of actions in the outer action chain. -/
  actionStateLength : BitVec 32
  /-- Block that it was read at. -/
  blockNumber : ℕ
  /-- Hash of that block. -/
  blockHash : Bytes32
  deriving DecidableEq, Repr

/-- The reservation columns of the writer row when they are set: the row has a job or an
expiry. -/
structure Holder where
  /-- Identifier of the reservation. -/
  reservationId : Uuid
  /-- Process that holds the reservation. -/
  ownerId : String
  /-- When the reservation lapses. -/
  expiresAt : Option Timestamp
  /-- Chain state that the holder started from. -/
  checkpoint : Option Checkpoint
  /-- Job that the reservation was attached to. -/
  jobId : Option Uuid
  /-- A job or an expiry keeps the row held. -/
  held : jobId.isSome ∨ expiresAt.isSome
  deriving DecidableEq

/-- `Owner`, the one row of `gateway_outer_writer`: its reservation columns are all null or
set together. -/
structure Owner where
  /-- Last token handed out. -/
  fencingToken : ℕ
  /-- Who holds the row. -/
  holder : Option Holder
  deriving DecidableEq

/-- The job that owns the writer row. -/
def Owner.jobId (owner : Owner) : Option Uuid := owner.holder.bind Holder.jobId

/-- A row of `gateway_pending_commands`. -/
structure PendingCommand where
  /-- The job it belongs to. -/
  jobId : Uuid
  /-- Fee payer of the command. -/
  publicKey : String
  /-- Its nonce. -/
  nonce : ℕ
  /-- The signed Mina command, where it is stored. -/
  commandBase64 : Option String
  deriving DecidableEq, Repr

/-- The keys of `account_json` that the gateway reads or writes. -/
structure AccountJson where
  /-- App state. -/
  zkappState : Option (List Bytes32)
  /-- Last action states. -/
  actionState : Option (List Bytes32)
  /-- Nonce. -/
  nonce : Option ℕ
  /-- Whether the app state was proved. -/
  provedState : Option Bool
  deriving DecidableEq, Repr

/-- A row of `gateway_accounts` with token `1`. -/
structure Account where
  /-- Key of the account. -/
  publicKey : String
  /-- The stored document. -/
  account : AccountJson
  /-- Block of the last change. -/
  ethereumBlockNumber : Option ℕ
  /-- Hash of that block. -/
  ethereumBlockHash : Option Bytes32
  deriving DecidableEq, Repr

/-- A row of `gateway_account_history`. -/
structure AccountHistory where
  /-- The job it belongs to. -/
  jobId : Uuid
  /-- Key of the account. -/
  publicKey : String
  /-- The document before the change. -/
  accountBefore : AccountJson
  /-- Block of the change. -/
  ethereumBlockNumber : ℕ
  /-- Hash of that block. -/
  ethereumBlockHash : Bytes32
  /-- When the row was made. -/
  createdAt : Timestamp
  deriving DecidableEq, Repr

/-- A deposit event of the bridge contract. -/
structure BridgeDepositLog where
  /-- Number of the deposit. -/
  nonce : ℕ
  /-- Leaf of the deposit in its accumulator. -/
  depositLeaf : Bytes32
  /-- Accumulator before the deposit. -/
  oldDepositState : Bytes32
  /-- Accumulator after the deposit. -/
  newDepositState : Bytes32
  /-- Height of the block. -/
  blockNumber : ℕ
  /-- Hash of the block. -/
  blockHash : Bytes32
  /-- Hash of the transaction. -/
  transactionHash : Bytes32
  /-- Index of the log in its block. -/
  logIndex : ℕ
  deriving DecidableEq, Repr

/-- A row of `gateway_bridge_deposits`. -/
structure BridgeDepositRow where
  /-- The indexed event. -/
  log : BridgeDepositLog
  /-- Set by a rollback past the block of the row. -/
  removed : Bool
  /-- Job that bridged the deposit. -/
  bridgeJobId : Option Uuid
  /-- Its position in the outer action chain. -/
  outerActionSequence : Option ℕ
  /-- Outer action state after it. -/
  outerActionStateAfter : Option Bytes32
  /-- Settlement that synchronized it. -/
  synchronizedSettlementJobId : Option Uuid
  /-- Sequence number of that settlement. -/
  synchronizedSettlementSequence : Option ℕ
  deriving DecidableEq, Repr

/-- `BlockRef`. -/
structure BlockRef where
  /-- Height of the block. -/
  number : ℕ
  /-- Its hash. -/
  hash : Bytes32
  /-- Hash of the block below. -/
  parentHash : Bytes32
  deriving DecidableEq, Repr

/-- A row of `gateway_blocks`. -/
structure BlockRow where
  /-- The block. -/
  block : BlockRef
  /-- Set once Ethereum has finalized the block. -/
  finalized : Bool
  /-- Cleared by a rollback past the block. -/
  canonical : Bool
  deriving DecidableEq, Repr

/-- A row of `gateway_explorer_settlements` or `gateway_explorer_bridge_transitions`. -/
structure AcceptedEvent where
  /-- Settlement or bridge transition. -/
  kind : ProofKind
  /-- Height of the block. -/
  blockNumber : ℕ
  /-- Hash of the block. -/
  blockHash : Bytes32
  /-- Hash of the transaction. -/
  transactionHash : Bytes32
  /-- Index of the log in its block. -/
  logIndex : ℕ
  /-- Set by a rollback past its block. -/
  removed : Bool
  deriving DecidableEq, Repr

/-- A row of `gateway_actions`. -/
structure ActionRow where
  /-- Account that has the action. -/
  address : String
  /-- Position in its action chain. -/
  sequence : ℕ
  /-- Action state before it. -/
  stateBefore : Bytes32
  /-- Action state after it. -/
  stateAfter : Bytes32
  /-- Fields of the action. -/
  actionData : List (List Bytes32)
  /-- Block in which Ethereum included it. -/
  ethereumBlockNumber : ℕ
  /-- Hash of that block. -/
  ethereumBlockHash : Bytes32
  /-- Transaction that Ethereum included. -/
  ethereumTxHash : Bytes32
  /-- Index of the log that it came with. -/
  ethereumLogIndex : ℕ
  /-- Set by a rollback past the block of the row. -/
  removed : Bool
  deriving DecidableEq

/-- A row of `gateway_inner_action_leaves`. -/
structure StoredLeaf where
  /-- What the recovery wrote. -/
  row : InnerActionLeafRow
  /-- Set by a rollback past the block of the row. -/
  removed : Bool

/-- The database of the gateway. -/
structure Database where
  /-- Set once the indexer has caught up. -/
  recoveryReady : Bool
  /-- Configured key of the outer account. -/
  outerPublicKey : Option String
  /-- The writer row. -/
  writer : Owner
  /-- `proof_jobs`. -/
  jobs : List Job
  /-- `gateway_pending_commands`. -/
  pendingCommands : List PendingCommand
  /-- `gateway_accounts`. -/
  accounts : List Account
  /-- `gateway_account_history`. -/
  accountHistory : List AccountHistory
  /-- `gateway_actions`. -/
  actions : List ActionRow
  /-- `gateway_bridge_deposits`. -/
  deposits : List BridgeDepositRow
  /-- `gateway_inner_action_leaves`. -/
  innerActionLeaves : List StoredLeaf
  /-- `gateway_blocks`. -/
  blocks : List BlockRow
  /-- The two tables of accepted receipts. -/
  acceptedEvents : List AcceptedEvent
  /-- Last block whose events were read. -/
  lastExplorerBlock : Option ℕ

namespace Database

variable (db : Database)

/-- Store the job table if it meets its constraints. -/
def storeJobs (jobs : List Job) : Except GatewayError Database := do
  require (JobsConstrained jobs) constraintViolated
  pure { db with jobs := jobs }

/-- `UPDATE proof_jobs SET f WHERE p`. -/
def updateJobs (p : Job → Prop) [DecidablePred p] (f : Job → Job) : Except GatewayError Database :=
  db.storeJobs (updateWhere p f db.jobs)

/-- An update of `proof_jobs` that must affect exactly one row. -/
def updateJob (p : Job → Prop) [DecidablePred p] (f : Job → Job) (message : String) :
    Except GatewayError Database := do
  require (affected p db.jobs = 1) (.other message)
  db.updateJobs p f

/-- `DELETE FROM gateway_pending_commands WHERE p`. -/
def deletePending (p : PendingCommand → Prop) [DecidablePred p] : Database :=
  { db with pendingCommands := db.pendingCommands.filter fun command => ¬ p command }

/-- `INSERT INTO gateway_pending_commands … ON CONFLICT (job_id, command_kind) DO NOTHING`. -/
def insertPending (command : PendingCommand) : Database :=
  if ∃ existing ∈ db.pendingCommands, existing.jobId = command.jobId then db
  else { db with pendingCommands := db.pendingCommands ++ [command] }

/-- The virtual account of a public key. -/
def account? (publicKey : String) : Option Account :=
  db.accounts.find? fun account => account.publicKey = publicKey

/-- The row of a canonical block. -/
def canonicalBlock? (number : ℕ) : Option BlockRow :=
  db.blocks.find? fun row => row.block.number = number ∧ row.canonical

variable {db}

/-- A stored job table is the stored table. -/
theorem storeJobs_eq_ok {jobs : List Job} {after : Database} :
    db.storeJobs jobs = .ok after ↔ JobsConstrained jobs ∧ { db with jobs := jobs } = after := by
  simp only [storeJobs, require_bind_eq_ok, pure_eq_ok]

/-- An update of the job table is the conditional update of its rows. -/
theorem updateJobs_eq_ok {p : Job → Prop} [DecidablePred p] {f : Job → Job} {after : Database} :
    db.updateJobs p f = .ok after ↔ JobsConstrained (updateWhere p f db.jobs) ∧
      { db with jobs := updateWhere p f db.jobs } = after :=
  storeJobs_eq_ok

/-- A one-row update of the job table. -/
theorem updateJob_eq_ok {p : Job → Prop} [DecidablePred p] {f : Job → Job} {message : String}
    {after : Database} :
    db.updateJob p f message = .ok after ↔ affected p db.jobs = 1 ∧
      JobsConstrained (updateWhere p f db.jobs) ∧
        { db with jobs := updateWhere p f db.jobs } = after := by
  simp only [updateJob, require_bind_eq_ok, updateJobs_eq_ok]

@[simp] theorem deletePending_jobs {p : PendingCommand → Prop} [DecidablePred p] :
    (db.deletePending p).jobs = db.jobs := rfl

@[simp] theorem deletePending_writer {p : PendingCommand → Prop} [DecidablePred p] :
    (db.deletePending p).writer = db.writer := rfl

@[simp] theorem deletePending_recoveryReady {p : PendingCommand → Prop} [DecidablePred p] :
    (db.deletePending p).recoveryReady = db.recoveryReady := rfl

@[simp] theorem insertPending_jobs {command : PendingCommand} :
    (db.insertPending command).jobs = db.jobs := by
  unfold insertPending
  split <;> rfl

@[simp] theorem insertPending_writer {command : PendingCommand} :
    (db.insertPending command).writer = db.writer := by
  unfold insertPending
  split <;> rfl

@[simp] theorem insertPending_recoveryReady {command : PendingCommand} :
    (db.insertPending command).recoveryReady = db.recoveryReady := by
  unfold insertPending
  split <;> rfl

end Database

/-- `FinalityMode`. -/
inductive FinalityMode
  | finalized
  | confirmations
  deriving DecidableEq, Repr

/-- The configuration of a gateway and the digest of its input documents. -/
structure AppState where
  /-- The hash primitives. -/
  hashes : Hashes
  /-- How finality is decided. -/
  ethereumFinalityMode : FinalityMode
  /-- Blocks that confirm a transaction. -/
  ethereumConfirmations : ℕ
  /-- Proofs are executed and not requested. -/
  executeOnly : Bool
  /-- Transactions go to a local mock. -/
  localMockSubmit : Bool
  /-- Proofs need an approval. -/
  requireProofApproval : Bool
  /-- Gas limit of submissions. -/
  gasLimit : Option ℕ
  /-- Highest price for a unit of proving work. -/
  maxPricePerPgu : Option ℕ
  /-- Key that signs Mina commands. -/
  feePayerPublicKey : Option String
  /-- Address of the bridge contract. -/
  bridgeAddress : Address
  /-- Digest of an input document. -/
  proofInputDigest : JobInput → Bytes32

end EthereumSettlement.GatewayTables
