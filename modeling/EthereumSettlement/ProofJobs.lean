import EthereumSettlement.OuterWriter

/-!
# The job queue of the gateway

Admission, approval and cancellation are single transactions. A worker claims a
job, keeps the row as it was at the claim, and then runs one statement after the
other; every statement names the job and the attempt of the claim. What a worker
reads from the prover network and from Ethereum enters as the arguments of its
steps, and any of its calls may fail.
-/

namespace EthereumSettlement.ProofJobs

open ByteWords CheckedCalls KeyedTables PastaPoseidon GatewayTables OuterWriter SettlementReceipt
open BridgeGuest InnerActionCommitment

/-- `FailureClass`. -/
inductive FailureClass
  | snapshotUnavailable
  | rateLimited
  | transport
  | insufficientFunds
  | staleCheckpoint
  | expired
  | rejected
  | unknown
  deriving DecidableEq, Repr

/-- `FailureClass::as_str`. -/
def FailureClass.asStr : FailureClass → String
  | snapshotUnavailable => "snapshot_unavailable"
  | rateLimited => "rate_limited"
  | transport => "transport"
  | insufficientFunds => "insufficient_funds"
  | staleCheckpoint => "stale_checkpoint"
  | expired => "expired"
  | rejected => "rejected"
  | unknown => "unknown"

/-- `FailureClass::retryable`. -/
def FailureClass.retryable : FailureClass → Bool
  | snapshotUnavailable | rateLimited | transport | insufficientFunds => true
  | staleCheckpoint | expired | rejected | unknown => false

/-- `retry_delay`, in seconds. -/
def retryDelay (attempt : ℕ) (failure : FailureClass) (jitter : ℕ) : ℕ :=
  let base := if failure = .insufficientFunds then 30 else 2
  let seconds := min (base * 2 ^ min attempt 8) 300
  seconds + jitter % (seconds / 4 + 1)

/-- `INSERT INTO proof_jobs … ON CONFLICT (idempotency_key) … RETURNING id`: the new row, or
the row that already has the key under the same digest. -/
def insertJob (db : Database) (job : Job) (message : String) :
    Except GatewayError (Uuid × Database) :=
  match job.idempotencyKey.bind fun key => db.jobs.find? fun old => old.idempotencyKey = some key with
  | some existing => do
    require (existing.inputDigest = job.inputDigest) (.other message)
    pure (existing.id, db)
  | none => do
    let db ← db.storeJobs (db.jobs ++ [job])
    pure (job.id, db)

/-- The default idempotency key of `create_job`. -/
def defaultKey (kind : ProofKind) (input : JobInput) : Option String :=
  match kind with
  | .settlement => input.minaTransactionHash.map fun hash =>
      settlementIdempotencyKey hash input.reservation
  | .bridge => none

/-- `create_job`, under the key of the request header or its default key. -/
def createJob (state : AppState) (db : Database) (now : Timestamp) (id reservationId : Uuid)
    (header : Option String) (kind : ProofKind) (input : JobInput) :
    Except GatewayError (Database × Uuid) := do
  let db ← lock db now
  let (actualId, db) ← insertJob db
    (Job.queued id kind input (header.or (defaultKey kind input)) (state.proofInputDigest input) now)
    "idempotency key already exists with a different payload"
  if actualId = id then do
    let db ← attachJob db now id reservationId kind input
    pure (db, actualId)
  else
    pure (db, actualId)

/-- `is_bytes32_hex`. -/
def isBytes32Hex (value : String) : Bool :=
  match value.toList with
  | '0' :: 'x' :: digits => digits.length = 64 ∧ digits.all fun digit =>
      digit.isDigit ∨ digit.toLower ∈ ['a', 'b', 'c', 'd', 'e', 'f']
  | _ => false

/-- `SettlementRequest`. -/
structure SettlementRequest where
  /-- Version of the schema. -/
  schemaVersion : ℕ
  /-- Hash of the Mina transaction that is settled. -/
  minaTransactionHash : String
  /-- The Mina proof. -/
  proof : ProofDocument
  /-- Reservation to attach, if there is one. -/
  reservation : Option ReservationToken
  /-- The text of every other path. -/
  remainder : Bytes

/-- The input document of `create_settlement`: the context is left to the worker and the inner
actions are bound to the configured bridge. -/
def SettlementRequest.input (state : AppState) (request : SettlementRequest) : JobInput where
  recoveredFromEthereum := false
  minaTransactionHash := some request.minaTransactionHash
  reservation := request.reservation
  submission := none
  proof := some { request.proof with
    context := none
    innerActionBatch := request.proof.innerActionBatch.map fun batch =>
      { batch with bridgeAddress := state.bridgeAddress } }
  transition := none
  remainder := request.remainder

/-- `create_settlement`. -/
def createSettlement (state : AppState) (db : Database) (now : Timestamp) (id : Uuid)
    (header : Option String) (request : SettlementRequest) :
    Except GatewayError (Database × Uuid) := do
  require (request.schemaVersion = 1) (.other "unsupported settlement schemaVersion")
  require (isBytes32Hex request.minaTransactionHash)
    (.other "minaTransactionHash must be a 32-byte 0x-prefixed hex value")
  require request.proof.binding.isSome
    (.other "settlement proof must include the OCaml account-update binding")
  createJob state db now id id header .settlement (request.input state)

/-- The input document of a bridge job. -/
def bridgeInput (input : BridgeTransitionInput) : JobInput where
  recoveredFromEthereum := false
  minaTransactionHash := none
  reservation := none
  submission := none
  proof := none
  transition := some input
  remainder := []

/-- `create_bridge`. -/
def createBridge (state : AppState) (db : Database) (now : Timestamp) (id reservationId : Uuid)
    (header : Option String) (input : BridgeTransitionInput) :
    Except GatewayError (Database × Uuid) :=
  createJob state db now id reservationId header .bridge (bridgeInput input)

/-- `GatewaySettlement`. -/
structure GatewaySettlement where
  /-- Version of the schema. -/
  schemaVersion : ℕ
  /-- Hash of the Mina transaction that is settled. -/
  minaTransactionHash : String
  /-- Key of the outer account. -/
  outerAccountPublicKey : String
  /-- Key of the account that pays the Mina fee. -/
  feePayerPublicKey : String
  /-- Nonce of the fee payer. -/
  nonce : ℕ
  /-- The signed Mina command. -/
  commandBase64 : String
  /-- The Mina proof. -/
  proof : ProofDocument
  /-- Reservation to attach, if there is one. -/
  reservation : Option ReservationToken
  /-- The text of every other path. -/
  remainder : Bytes

/-- The input document of `send_zkapp`. -/
def GatewaySettlement.input (settlement : GatewaySettlement) : JobInput where
  recoveredFromEthereum := false
  minaTransactionHash := some settlement.minaTransactionHash
  reservation := settlement.reservation
  submission := some ⟨settlement.outerAccountPublicKey, settlement.feePayerPublicKey,
    settlement.nonce, some settlement.commandBase64⟩
  proof := some { settlement.proof with context := none }
  transition := none
  remainder := settlement.remainder

/-- The checks of `send_zkapp` on a newly admitted settlement. -/
def checkSubmission (state : AppState) (db : Database) (settlement : GatewaySettlement) :
    Except GatewayError Unit := do
  let feePayer ← requireSome state.feePayerPublicKey "virtual Mina fee payer is not configured"
  require (feePayer = settlement.feePayerPublicKey)
    (.other "settlement fee payer does not match gateway configuration")
  let outer ← requireSome db.outerPublicKey "virtual Mina outer account is not configured"
  require (outer = settlement.outerAccountPublicKey)
    (.other "settlement outer account does not match gateway configuration")
  let account ← requireSome (db.account? settlement.feePayerPublicKey)
    "no rows returned by a query that expected to return at least one row"
  require (settlement.nonce = account.account.nonce.getD 0)
    (.other "settlement fee-payer nonce does not match gateway nonce")

/-- A newly inserted settlement is attached and checked; a replayed one is not. -/
def attachSubmission (state : AppState) (db : Database) (now : Timestamp) (id actualId : Uuid)
    (settlement : GatewaySettlement) : Except GatewayError Database :=
  if actualId = id then do
    let db ← attachSettlement db now id settlement.reservation settlement.input
    checkSubmission state db settlement
    pure db
  else pure db

/-- The jobs whose pending command `send_zkapp` stores. -/
def KeepsPending (job : Job) : Prop :=
  job.status ∉ [.confirmed, .executed, .failed, .proofFailed, .ethereumReverted, .reorged,
      .rejected] ∨
    (job.Signed ∧ job.status ∉ [.confirmed, .ethereumReverted])

instance (job : Job) : Decidable (KeepsPending job) :=
  inferInstanceAs (Decidable (_ ∨ _))

/-- `send_zkapp`. -/
def sendZkapp (state : AppState) (db : Database) (now : Timestamp) (id : Uuid)
    (settlement : GatewaySettlement) : Except GatewayError (Database × Uuid) := do
  require (settlement.schemaVersion = 1) (.other "unsupported settlement schema")
  require (isBytes32Hex settlement.minaTransactionHash)
    (.other "minaTransactionHash must be 32-byte hex")
  require settlement.proof.binding.isSome
    (.other "settlement proof export has no OCaml account-update binding")
  let db ← lock db now
  let (actualId, db) ← insertJob db
    (Job.queued id .settlement settlement.input
      (some (settlementIdempotencyKey settlement.minaTransactionHash settlement.reservation))
      (state.proofInputDigest settlement.input) now)
    "transaction hash was reused for different proof input"
  let db ← attachSubmission state db now id actualId settlement
  if ∃ job ∈ db.jobs, job.id = actualId ∧ KeepsPending job then
    pure (db.insertPending ⟨actualId, settlement.feePayerPublicKey, settlement.nonce,
      some settlement.commandBase64⟩, actualId)
  else
    pure (db, actualId)

/-- The deposits of the queued range. -/
def InBatch (first last : ℕ) (row : BridgeDepositRow) : Prop :=
  first ≤ row.log.nonce ∧ row.log.nonce ≤ last ∧ row.removed = false

instance (first last : ℕ) (row : BridgeDepositRow) : Decidable (InBatch first last row) :=
  inferInstanceAs (Decidable (_ ∧ _))

/-- The deposits a new batch may take: unassigned, assigned to the job itself, or left by a job
that an operator retries. -/
def Eligible (jobs : List Job) (id : Uuid) (allowTerminalRetry : Bool) (row : BridgeDepositRow) :
    Prop :=
  row.bridgeJobId = none ∨ row.bridgeJobId = some id ∨
    (allowTerminalRetry = true ∧ ∃ previous ∈ jobs, row.bridgeJobId = some previous.id ∧
      previous.status ∈ [.executed, .failed, .proofFailed, .ethereumReverted, .reorged, .rejected])

instance (jobs : List Job) (id : Uuid) (allowTerminalRetry : Bool) (row : BridgeDepositRow) :
    Decidable (Eligible jobs id allowTerminalRetry row) :=
  inferInstanceAs (Decidable (_ ∨ _))

/-- A newly inserted batch is attached; a replayed one is not. -/
def attachBatch (db : Database) (id actualId reservationId : Uuid) (input : JobInput) :
    Except GatewayError Database :=
  if actualId = id then attachBridge db id reservationId input else pure db

/-- `queue_canonical_deposit_batch`, for the batch read from Ethereum. -/
def queueCanonicalDepositBatch (state : AppState) (db : Database) (now : Timestamp)
    (id reservationId : Uuid) (idempotencyKey : Option String) (allowTerminalRetry : Bool)
    (input : BridgeTransitionInput) : Except GatewayError (Database × Uuid) := do
  let first := input.ethereum.depositNonce.toNat + 1
  let last := input.ethereum.depositNonce.toNat + input.deposits.length
  require (first < 2 ^ 64 ∧ last < 2 ^ 64) (.other "bridge deposit nonce overflow")
  let db ← lock db now
  require (affected (fun row => InBatch first last row ∧ Eligible db.jobs id allowTerminalRetry row)
      db.deposits = last + 1 - first)
    (.other "deposit batch already has a proof job; an operator must retry a failed batch")
  let (actualId, db) ← insertJob db
    (Job.queued id .bridge (bridgeInput input) idempotencyKey
      (state.proofInputDigest (bridgeInput input)) now)
    "idempotency key already exists with a different payload"
  let db ← attachBatch db id actualId reservationId (bridgeInput input)
  require (affected (InBatch first last) db.deposits = last + 1 - first)
    (.other "canonical deposit batch changed while it was queued")
  let assign := fun row : BridgeDepositRow => { row with bridgeJobId := some actualId }
  pure ({ db with deposits := updateWhere (InBatch first last) assign db.deposits }, actualId)

/-- `ApproveProofRequest`, with its two parsed caps. -/
structure ApproveProofRequest where
  /-- Digest of the input document. -/
  inputDigest : Bytes32
  /-- Most proving work that may be bought. -/
  maxPgu : ℕ
  /-- Highest price for a unit of proving work. -/
  maxPricePerPgu : ℕ

/-- The digest an approval names: `COALESCE(preflight_input_digest, input_digest)`. -/
def Job.approvalDigest (job : Job) : Option Bytes32 := job.preflightInputDigest.or job.inputDigest

/-- The row that an approval rewrites. -/
def Approvable (id : Uuid) (digest : Bytes32) (job : Job) : Prop :=
  job.id = id ∧ job.status = .awaitingApproval ∧ Job.approvalDigest job = some digest

instance (id : Uuid) (digest : Bytes32) (job : Job) : Decidable (Approvable id digest job) :=
  inferInstanceAs (Decidable (_ ∧ _))

/-- The row that an approval leaves. -/
def approvedRow (approval : Approval) (job : Job) : Job :=
  { job with status := .approved, approval := some approval, error := none }

/-- `approve_proof`. -/
def approveProof (state : AppState) (db : Database) (now : Timestamp) (id : Uuid)
    (request : ApproveProofRequest) : Except GatewayError Database := do
  require state.requireProofApproval (.other "proof approval mode is disabled")
  if positive : 0 < request.maxPgu ∧ 0 < request.maxPricePerPgu then do
    require (∀ cap ∈ state.gasLimit, request.maxPgu ≤ cap)
      (.other "maxPgu exceeds the configured hard cap")
    require (∀ cap ∈ state.maxPricePerPgu, request.maxPricePerPgu ≤ cap)
      (.other "maxPricePerPgu exceeds the configured hard cap")
    require (request.maxPgu < 2 ^ 63) (.other "maxPgu exceeds PostgreSQL BIGINT")
    require (request.maxPricePerPgu < 2 ^ 63) (.other "maxPricePerPgu exceeds PostgreSQL BIGINT")
    let job ← requireSome (db.jobs.find? fun job => job.id = id) "proof job not found"
    require (job.status = .awaitingApproval) (.other "proof job is not awaiting approval")
    require (Job.approvalDigest job = some request.inputDigest)
      (.other "approval input digest does not match the preflighted job")
    let _ ← requireSome job.publicValues "proof job has no public values"
    db.updateJob (Approvable id request.inputDigest)
      (approvedRow ⟨request.inputDigest, request.maxPgu, request.maxPricePerPgu, now, positive⟩)
      "proof job approval raced with another update"
  else
    throw (.other "must be greater than zero")

/-- The row that a cancellation rewrites: nothing was requested, signed or sent for it. -/
def Cancellable (id : Uuid) (job : Job) : Prop :=
  job.id = id ∧ job.proofRequestId = none ∧ job.proofRequestIntent = none ∧
    job.preparedTransaction = none ∧ job.transactionHash = none ∧
    job.status ∈ [.queued, .validating, .awaitingApproval, .approved]

instance (id : Uuid) (job : Job) : Decidable (Cancellable id job) :=
  inferInstanceAs (Decidable (_ ∧ _))

/-- The row that a cancellation leaves. -/
def cancelledRow (now : Timestamp) (job : Job) : Job :=
  { job with
    status := .rejected
    error := some "cancelled by operator before network proof request"
    completedAt := some now }

/-- `cancel_proof`. -/
def cancelProof (db : Database) (now : Timestamp) (id : Uuid) : Except GatewayError Database := do
  let db ← db.updateJob (Cancellable id) (cancelledRow now)
    ("proof job cannot be cancelled after a network request, signed transaction, " ++
      "or terminal transition")
  pure (db.deletePending fun command => command.jobId = id)

/-- `ClaimedJob`: the row as the claim leaves it, with the status before the claim. -/
structure ClaimedJob where
  /-- Identifier of the row. -/
  id : Uuid
  /-- How often the job was claimed. -/
  attempts : ℕ
  /-- Settlement or bridge transition. -/
  kind : ProofKind
  /-- Its input document. -/
  input : JobInput
  /-- Request at the prover network. -/
  proofRequestId : Option String
  /-- Status before the claim. -/
  claimedStatus : ProofStatus
  /-- Public values that the preflight computed. -/
  publicValues : Option Bytes
  /-- The proof. -/
  proofBytes : Option Bytes
  /-- Whether a transaction is already signed. -/
  prepared : Bool
  /-- Cycles that the preflight execution took. -/
  cycleCount : Option ℕ
  /-- Approval of the proof's cost. -/
  approval : Option Approval

/-- The snapshot that a claim of a row returns. -/
def ClaimedJob.of (job : Job) : ClaimedJob where
  id := job.id
  attempts := job.attempts + 1
  kind := job.kind
  input := job.input
  proofRequestId := job.proofRequestId
  claimedStatus := job.status
  publicValues := job.publicValues
  proofBytes := job.proofBytes
  prepared := job.preparedTransaction.isSome
  cycleCount := job.cycleCount
  approval := job.approval

/-- The rows `claim_job` may claim. -/
def Claimable (db : Database) (now : Timestamp) (queued : Job) : Prop :=
  queued.status ∈ [.queued, .approved] ∧
    (queued.proofRequestIntent = none ∨ queued.proofRequestId.isSome) ∧
    (∀ retry ∈ queued.nextAttemptAt, retry ≤ now) ∧
    (∀ holder ∈ db.writer.holder, holder.jobId = some queued.id) ∧
    (queued.kind = .settlement → ∀ active ∈ db.jobs, active.id ≠ queued.id →
      active.kind = .settlement → active.status ∉ activeStatuses) ∧
    ∀ active ∈ db.jobs, active.id ≠ queued.id → active.kind ≠ queued.kind →
      active.status ∉ activeStatuses

instance (db : Database) (now : Timestamp) (queued : Job) : Decidable (Claimable db now queued) :=
  inferInstanceAs (Decidable (_ ∧ _ ∧ (∀ retry ∈ queued.nextAttemptAt, retry ≤ now) ∧
    (∀ holder ∈ db.writer.holder, holder.jobId = some queued.id) ∧ _))

/-- The row that a claim leaves. -/
def claimedRow (job : Job) : Job :=
  { job with
    status := if job.status = .approved then .proving else .validating
    attempts := job.attempts + 1 }

/-- `claim_job`: the oldest claimable row that no other transaction has locked. -/
def claimJob (db : Database) (now : Timestamp) (locked : List Uuid) :
    Except GatewayError (Database × Option ClaimedJob) :=
  if db.recoveryReady then do
    let db ← lock db now
    let candidates := db.jobs.filter fun job => Claimable db now job ∧ job.id ∉ locked
    match candidates.find? fun job => ∀ other ∈ candidates, job.createdAt ≤ other.createdAt with
    | some job => do
      let db ← db.updateJobs (fun row => row.id = job.id) claimedRow
      pure (db, some (ClaimedJob.of job))
    | none => pure (db, none)
  else
    pure (db, none)

/-- The row that `recover_interrupted` leaves. -/
def interruptedRow (job : Job) : Job :=
  { job with
    status :=
      if job.UnresolvedIntent then .queued
      else if job.transactionHash.isSome ∧ job.preparedTransaction = none then .submitted
      else if job.approval.isSome then .approved
      else .queued
    error := some (if job.UnresolvedIntent then
        "SP1 request outcome is unknown; reconcile the persisted intent before retrying"
      else "worker restarted before completion")
    errorClass := if job.UnresolvedIntent then some "proof_request_ambiguous" else job.errorClass
    attempts := job.attempts + 1 }

/-- `recover_interrupted`. -/
def recoverInterrupted (db : Database) : Except GatewayError Database :=
  db.updateJobs (fun job => job.status ∈ [.validating, .proofRequested, .proving, .submitting])
    interruptedRow

/-- A statement that names the job and the attempt of a claim. -/
def Fenced (claim : ClaimedJob) (guard : Job → Prop) (job : Job) : Prop :=
  job.id = claim.id ∧ job.attempts = claim.attempts ∧ guard job

instance (claim : ClaimedJob) (guard : Job → Prop) [DecidablePred guard] (job : Job) :
    Decidable (Fenced claim guard job) :=
  inferInstanceAs (Decidable (_ ∧ _))

/-- The guard of the statements before a proof is requested. -/
def Validating (job : Job) : Prop := job.status = .validating ∧ job.proofRequestIntent = none

instance (job : Job) : Decidable (Validating job) := inferInstanceAs (Decidable (_ ∧ _))

/-- `hydrate_queued_settlement`, with the context read from Ethereum. -/
def hydrateQueuedSettlement (context : SettlementContextV1) (input : JobInput) :
    Except GatewayError JobInput := do
  let _ ← requireSome input.minaTransactionHash "queued settlement has no Mina transaction hash"
  let proof ← requireSome input.proof "queued settlement has no proof bundle"
  require (∀ supplied ∈ proof.context, supplied = context)
    (.other "stale settlement Ethereum context")
  pure { input with proof := some { proof with context := some context } }

/-- The `input` update of `process_job`. -/
def storeInput (db : Database) (claim : ClaimedJob) (input : JobInput) :
    Except GatewayError Database :=
  db.updateJob (Fenced claim Validating) (fun job => { job with input := input })
    "settlement job was cancelled"

/-- The `preflight_input_digest` update of `process_job`. -/
def storePreflightDigest (db : Database) (claim : ClaimedJob) (digest : Bytes32) :
    Except GatewayError Database :=
  db.updateJob (Fenced claim Validating)
    (fun job => { job with preflightInputDigest := some digest }) "proof job was cancelled"

/-- The `public_values, cycle_count` update of `process_job`. -/
def storePreflight (db : Database) (claim : ClaimedJob) (publicValues : Bytes) (cycles : Option ℕ) :
    Except GatewayError Database :=
  db.updateJob (Fenced claim Validating)
    (fun job => { job with publicValues := some publicValues, cycleCount := cycles })
    "proof job was cancelled"

/-- The `executed` update of `process_job`. -/
def storeExecuted (db : Database) (now : Timestamp) (claim : ClaimedJob) :
    Except GatewayError Database :=
  db.updateJob (Fenced claim Validating)
    (fun job => { job with status := .executed, completedAt := some now }) "proof job was cancelled"

/-- The `awaiting_approval` update of `process_job`. -/
def storeAwaitingApproval (db : Database) (claim : ClaimedJob) : Except GatewayError Database :=
  db.updateJob (Fenced claim Validating)
    (fun job => { job with status := .awaitingApproval, completedAt := none })
    "proof job was cancelled"

/-- The statement of `submit_local_mock`. -/
def storeMockCycles (db : Database) (claim : ClaimedJob) (cycles : Option ℕ) :
    Except GatewayError Database :=
  db.updateJob (Fenced claim fun job => job.status ∈ [.validating, .proving])
    (fun job => { job with cycleCount := cycles }) "proof job was cancelled before local submission"

/-- `set_status`. -/
def setStatus (db : Database) (claim : ClaimedJob) (status : ProofStatus) :
    Except GatewayError Database :=
  db.updateJob (Fenced claim fun job =>
      job.status ∉ [.reorged, .rejected, .confirmed, .ethereumReverted, .failed, .executed])
    (fun job => { job with status := status }) "proof job was cancelled"

/-- `begin_proof_request`. -/
def beginProofRequest (db : Database) (claim : ClaimedJob) (intent : Uuid) :
    Except GatewayError Database :=
  db.updateJob (Fenced claim fun job =>
      job.status = .proving ∧ job.proofRequestIntent = none ∧ job.proofRequestId = none)
    (fun job => { job with proofRequestIntent := some intent })
    "proof request already sealed or worker claim was fenced"

/-- `finish_proof_request`, which names the intent and not the attempt. -/
def finishProofRequest (db : Database) (jobId intent : Uuid) (requestId : String) :
    Except GatewayError Database :=
  db.updateJob
    (fun job => job.id = jobId ∧ job.proofRequestIntent = some intent ∧
      (job.proofRequestId = none ∨ job.proofRequestId = some requestId) ∧
      job.status ∈ [.queued, .approved, .proving, .proofRequested])
    (fun job => { job with
      proofRequestId := some requestId
      status := if job.status = .proving then .proofRequested else job.status
      error := none
      errorClass := none
      nextAttemptAt := none })
    "proof request response does not match its durable intent"

/-- The `proof_bytes` update of `process_job`. -/
def storeProof (db : Database) (claim : ClaimedJob) (publicValues proof : Bytes) :
    Except GatewayError Database :=
  db.updateJob (Fenced claim fun job => job.status ∈ [.proving, .proofRequested])
    (fun job => { job with proofBytes := some proof, publicValues := some publicValues })
    "proof job was cancelled"

/-- The metrics update of `process_job`. -/
def storeMetrics (db : Database) (claim : ClaimedJob) (cycles : Option ℕ) :
    Except GatewayError Database :=
  db.updateJob (Fenced claim fun job => job.status ∈ [.proving, .proofRequested])
    (fun job => { job with cycleCount := cycles }) "proof job was cancelled before submission"

/-- The first statement of `send`. -/
def storeSubmitting (db : Database) (claim : ClaimedJob) (publicValues proof : Bytes) :
    Except GatewayError Database :=
  db.updateJob (Fenced claim fun job =>
      job.status ∈ [.validating, .proving, .proofRequested, .submitting])
    (fun job => { job with
      publicValues := some publicValues
      proofBytes := some proof
      transactionHash :=
        (job.preparedTransaction.map PreparedSubmission.transactionHash).or job.transactionHash
      status := .submitting })
    "proof job was cancelled before preparing submission"

/-- The `prepared_transaction` update of `send`. -/
def storePrepared (db : Database) (claim : ClaimedJob) (prepared : PreparedSubmission) :
    Except GatewayError Database :=
  db.updateJob (Fenced claim fun job =>
      job.status = .submitting ∧ job.preparedTransaction = none)
    (fun job => { job with
      preparedTransaction := some prepared
      transactionHash := some prepared.transactionHash })
    "proof job was cancelled before persisting submission"

/-- The last statement of `send`. -/
def storeSubmitted (db : Database) (claim : ClaimedJob) : Except GatewayError Database :=
  db.updateJobs (Fenced claim fun job => job.status = .submitting)
    (fun job => { job with
      status := .submitted
      error := none
      errorClass := none
      nextAttemptAt := none })

/-- The row `record_failure` leaves, for a failure that it records. -/
def failedRow (now : Timestamp) (failure : FailureClass) (message : String) (job : Job) : Job :=
  if job.UnresolvedIntent then
    { job with
      status := .queued
      error := some ("SP1 request outcome is unknown; reconcile the persisted intent before " ++
        "retrying: " ++ message)
      errorClass := some "proof_request_ambiguous"
      nextAttemptAt := none
      completedAt := none }
  else if failure.retryable ∨ job.Signed then
    { job with
      status := if job.approval.isSome then .approved else .queued
      error := some message
      errorClass := some failure.asStr
      nextAttemptAt := some (now +
        retryDelay job.retryCount failure (job.id.toNat % 2 ^ 64) * second)
      retryCount := min (job.retryCount + 1) (2 ^ 31 - 1)
      completedAt := none }
  else
    { job with
      status := .failed
      error := some message
      errorClass := some failure.asStr
      completedAt := some now
      nextAttemptAt := none }

/-- The guard of `record_failure`: the attempt is current and the job has not ended. -/
def RecordsFailure (claim : ClaimedJob) (job : Job) : Prop :=
  Fenced claim (fun job => job.status ∉ [.confirmed, .reorged, .rejected, .ethereumReverted,
    .failed, .proofFailed, .executed]) job

instance (claim : ClaimedJob) (job : Job) : Decidable (RecordsFailure claim job) :=
  inferInstanceAs (Decidable (Fenced _ _ _))

/-- The failure ends the job. -/
def FailsJob (failure : FailureClass) (job : Job) : Prop :=
  ¬ job.UnresolvedIntent ∧ ¬ (failure.retryable ∨ job.Signed)

instance (failure : FailureClass) (job : Job) : Decidable (FailsJob failure job) :=
  inferInstanceAs (Decidable (_ ∧ _))

/-- `record_failure`. -/
def recordFailure (db : Database) (now : Timestamp) (claim : ClaimedJob) (failure : FailureClass)
    (message : String) : Except GatewayError Database := do
  let _ ← requireSome (db.jobs.find? fun job => job.id = claim.id)
    "no rows returned by a query that expected to return at least one row"
  let ends := ∃ job ∈ db.jobs, RecordsFailure claim job ∧ FailsJob failure job
  let db ← db.updateJobs (RecordsFailure claim) (failedRow now failure message)
  if ends then
    pure (db.deletePending fun command => command.jobId = claim.id)
  else
    pure db

/-- How far `process_job` has run, with the local values it still needs. -/
inductive WorkerStage
  | claimed
  | hydrated (input : JobInput)
  | digested
  | executing
  | requestingApproval
  | preflighted (publicValues : Bytes) (cycles : Option ℕ)
  | proving (publicValues : Bytes) (cycles : Option ℕ)
  | sealed (intent : Uuid) (publicValues : Bytes) (cycles : Option ℕ)
  | requested (intent : Uuid) (publicValues : Bytes) (cycles : Option ℕ)
  | waiting (publicValues : Bytes) (cycles : Option ℕ)
  | proved (publicValues proof : Bytes) (cycles : Option ℕ)
  | sending (publicValues proof : Bytes)
  | preparing
  | broadcasting

/-- A worker that holds a claim. -/
structure Worker where
  /-- The claim. -/
  job : ClaimedJob
  /-- How far it got. -/
  stage : WorkerStage

/-- The next call of a worker, with what the prover network or Ethereum answered it. -/
inductive WorkerStep
  | resume
  | hydrate (context : SettlementContextV1)
  | storePreflightDigest
  | storePreflight (publicValues : Bytes) (cycles : Option ℕ)
  | storeExecuted
  | storeAwaitingApproval
  | submitLocalMock
  | setProving
  | beginProofRequest (intent : Uuid)
  | requestProof
  | finishProofRequest (requestId : String)
  | storeProof (proof : Bytes)
  | storeMetrics (cycles : Option ℕ)
  | send
  | storePrepared (prepared : PreparedSubmission)
  | storeSubmitted
  | recordFailure (failure : FailureClass) (message : String)

/-- The claim takes the path of a new preflight. -/
def ClaimedJob.NeedsPreflight (claim : ClaimedJob) : Prop :=
  claim.proofBytes = none ∧ claim.proofRequestId = none ∧ claim.claimedStatus ≠ .approved

instance (claim : ClaimedJob) : Decidable claim.NeedsPreflight :=
  inferInstanceAs (Decidable (_ ∧ _))

/-- Where `process_job` continues a claim that needs no new preflight. -/
def resumedStage (claim : ClaimedJob) : Except GatewayError WorkerStage :=
  match claim.proofBytes with
  | some proof => do
    let publicValues ← requireSome claim.publicValues "persisted proof has no public values"
    pure (.sending publicValues proof)
  | none =>
    if claim.claimedStatus = .approved ∧ claim.proofRequestId = none then do
      let publicValues ← requireSome claim.publicValues "approved proof job has no public values"
      let _ ← requireSome claim.approval "approved proof job has no max PGU"
      pure (.preflighted publicValues claim.cycleCount)
    else do
      require claim.proofRequestId.isSome (.other "requested proof has no persisted preflight")
      let publicValues ← requireSome claim.publicValues
        "requested proof has no persisted preflight"
      pure (.preflighted publicValues claim.cycleCount)

/-- The stage after the preflight of a new claim is stored. -/
def preflightedStage (state : AppState) (publicValues : Bytes) (cycles : Option ℕ) : WorkerStage :=
  if state.executeOnly then .executing
  else if state.requireProofApproval then .requestingApproval
  else .preflighted publicValues cycles

/-- One call of `process_job`: the database after it and the worker, unless it is done. -/
def processJob (state : AppState) (db : Database) (now : Timestamp) (worker : Worker) :
    WorkerStep → Except GatewayError (Database × Option Worker)
  | .recordFailure failure message => do
    let db ← recordFailure db now worker.job failure message
    pure (db, none)
  | step =>
    let claim := worker.job
    match worker.stage, step with
    | .claimed, .resume => do
      let stage ← resumedStage claim
      pure (db, some ⟨claim, stage⟩)
    | .claimed, .hydrate context => do
      require (claim.NeedsPreflight ∧ claim.kind = .settlement) (.other "not a queued settlement")
      let input ← hydrateQueuedSettlement context claim.input
      let db ← storeInput db claim input
      pure (db, some ⟨claim, .hydrated input⟩)
    | .claimed, .storePreflightDigest => do
      require (claim.NeedsPreflight ∧ claim.kind = .bridge) (.other "not a queued bridge job")
      let db ← storePreflightDigest db claim (state.proofInputDigest claim.input)
      pure (db, some ⟨claim, .digested⟩)
    | .hydrated input, .storePreflightDigest => do
      let db ← storePreflightDigest db claim (state.proofInputDigest input)
      pure (db, some ⟨{ claim with input := input }, .digested⟩)
    | .digested, .storePreflight publicValues cycles => do
      let db ← storePreflight db claim publicValues cycles
      pure (db, some ⟨claim, preflightedStage state publicValues cycles⟩)
    | .executing, .storeExecuted => do
      let db ← storeExecuted db now claim
      pure (db, none)
    | .requestingApproval, .storeAwaitingApproval => do
      let db ← storeAwaitingApproval db claim
      pure (db, none)
    | .preflighted publicValues cycles, .submitLocalMock => do
      require state.localMockSubmit (.other "local mock submission is disabled")
      let db ← storeMockCycles db claim cycles
      pure (db, some ⟨claim, .sending publicValues []⟩)
    | .preflighted publicValues cycles, .setProving => do
      require (¬ state.localMockSubmit) (.other "local mock submission is enabled")
      let db ← setStatus db claim .proving
      pure (db, some ⟨claim, match claim.proofRequestId with
        | some _ => .waiting publicValues cycles
        | none => .proving publicValues cycles⟩)
    | .proving publicValues cycles, .beginProofRequest intent => do
      let db ← beginProofRequest db claim intent
      pure (db, some ⟨claim, .sealed intent publicValues cycles⟩)
    | .sealed intent publicValues cycles, .requestProof =>
      pure (db, some ⟨claim, .requested intent publicValues cycles⟩)
    | .requested intent publicValues cycles, .finishProofRequest requestId => do
      let db ← finishProofRequest db claim.id intent requestId
      pure (db, some ⟨claim, .waiting publicValues cycles⟩)
    | .waiting publicValues cycles, .storeProof proof => do
      let db ← storeProof db claim publicValues proof
      pure (db, some ⟨claim, .proved publicValues proof cycles⟩)
    | .proved publicValues proof cycles, .storeMetrics measured => do
      let db ← storeMetrics db claim (measured.or cycles)
      pure (db, some ⟨claim, .sending publicValues proof⟩)
    | .sending publicValues proof, .send => do
      let db ← storeSubmitting db claim publicValues proof
      let job ← requireSome (db.jobs.find? fun job => job.id = claim.id)
        "proof job was cancelled before preparing submission"
      pure (db, some ⟨claim, if job.preparedTransaction.isSome then .broadcasting else .preparing⟩)
    | .preparing, .storePrepared prepared => do
      let db ← storePrepared db claim prepared
      pure (db, some ⟨claim, .broadcasting⟩)
    | .broadcasting, .storeSubmitted => do
      let db ← storeSubmitted db claim
      pure (db, none)
    | _, _ => throw (.other "out of order")

variable {state : AppState} {db after : Database} {now : Timestamp} {id reservationId : Uuid}

/-- `approve_proof` approves the row that it names. -/
theorem approveProof_eq_ok {request : ApproveProofRequest}
    (h : approveProof state db now id request = .ok after) :
    ∃ approval, JobsConstrained after.jobs ∧
      after.jobs = updateWhere (Approvable id request.inputDigest) (approvedRow approval) db.jobs ∧
      after.writer = db.writer ∧ after.recoveryReady = db.recoveryReady := by
  simp only [approveProof, bind_eq_ok, require_eq_ok, exists_const] at h
  obtain ⟨-, h⟩ := h
  by_cases positive : 0 < request.maxPgu ∧ 0 < request.maxPricePerPgu
  · rw [dif_pos positive] at h
    simp only [bind_eq_ok, require_eq_ok, exists_const, Database.updateJob_eq_ok] at h
    obtain ⟨-, -, -, -, -, -, -, -, -, -, -, hconstrained, rfl⟩ := h
    exact ⟨_, hconstrained, rfl, rfl, rfl⟩
  · rw [dif_neg positive] at h
    exact absurd h (by simp)

/-- `cancel_proof` rejects the row that it names. -/
theorem cancelProof_eq_ok (h : cancelProof db now id = .ok after) :
    JobsConstrained after.jobs ∧
      after.jobs = updateWhere (Cancellable id) (cancelledRow now) db.jobs ∧
      after.writer = db.writer ∧ after.recoveryReady = db.recoveryReady := by
  simp only [cancelProof, bind_eq_ok, Database.updateJob_eq_ok, pure_eq_ok] at h
  obtain ⟨_, ⟨-, hconstrained, rfl⟩, rfl⟩ := h
  exact ⟨hconstrained, rfl, rfl, rfl⟩

/-- An insertion finds the row of its key or appends the new row. -/
theorem insertJob_eq_ok {job : Job} {message : String} {actualId : Uuid}
    (h : insertJob db job message = .ok (actualId, after)) :
    ((∃ existing ∈ db.jobs, existing.id = actualId) ∧ db = after) ∨
      (job.id = actualId ∧ JobsConstrained (db.jobs ++ [job]) ∧
        { db with jobs := db.jobs ++ [job] } = after) := by
  unfold insertJob at h
  cases hkey : job.idempotencyKey.bind fun key =>
      db.jobs.find? fun old => old.idempotencyKey = some key with
  | some existing =>
    simp only [hkey, bind_eq_ok, require_eq_ok, exists_const, pure_eq_ok, Prod.mk.injEq] at h
    obtain ⟨-, rfl, rfl⟩ := h
    obtain ⟨key, -, hfind⟩ := Option.bind_eq_some_iff.mp hkey
    exact Or.inl ⟨⟨existing, List.mem_of_find?_eq_some hfind, rfl⟩, rfl⟩
  | none =>
    simp only [hkey, bind_eq_ok, Database.storeJobs_eq_ok, pure_eq_ok, Prod.mk.injEq] at h
    obtain ⟨_, ⟨hconstrained, rfl⟩, rfl, rfl⟩ := h
    exact Or.inr ⟨rfl, hconstrained, rfl⟩

/-- The writer row that a new job takes: a settlement takes the lease whose token it presents,
a bridge job takes a free row under the next token. -/
inductive Attached (db : Database) (now : Timestamp) (job : Job) (reservationId : Uuid) :
    Owner → Prop
  | settlement (presented : ReservationToken) (holder : Holder) (hkind : job.kind = .settlement)
      (hpresented : job.input.reservation = some presented)
      (hmatches : Matches (lapsed db now) presented)
      (hholder : (lapsed db now).holder = some holder) (hjob : holder.jobId = none)
      (hlive : ∃ expiry ∈ holder.expiresAt, now < expiry) :
      Attached db now job reservationId
        { db.writer with holder := some (OuterWriter.Holder.attach holder job.id) }
  | bridge (holder : Holder) (hkind : job.kind = .bridge) (hfree : (lapsed db now).holder = none)
      (hreservation : holder.reservationId = reservationId) (hjob : holder.jobId = some job.id) :
      Attached db now job reservationId ⟨db.writer.fencingToken + 1, some holder⟩

/-- What an admission does: it replays an existing job and changes no job, or it appends a new
job that takes the writer row while the outcome of every other job is known. -/
structure Admission (db after : Database) (now : Timestamp) (id reservationId : Uuid)
    (kind : ProofKind) (input : JobInput) : Prop where
  /-- The gateway is ready. -/
  ready : db.recoveryReady = true
  /-- The gateway stays ready. -/
  stillReady : after.recoveryReady = true
  /-- It replays a job or appends one. -/
  outcome : (after.jobs = db.jobs ∧ after.writer = lapsed db now) ∨
    ∃ idempotencyKey digest, JobsConstrained after.jobs ∧
      after.jobs = db.jobs ++ [Job.queued id kind input idempotencyKey digest now] ∧
      (∀ job ∈ db.jobs, job.OutcomeKnown) ∧
      Attached db now (Job.queued id kind input idempotencyKey digest now) reservationId after.writer

/-- Attaching a new job after its insertion under the lock. -/
theorem attached_of_attachSettlement (job : Job) (hfresh : ∀ old ∈ db.jobs, old.id ≠ job.id)
    (hkind : job.kind = .settlement)
    (h : attachSettlement { db with writer := lapsed db now, jobs := db.jobs ++ [job] } now job.id
      job.input.reservation job.input = .ok after) :
    after.recoveryReady = db.recoveryReady ∧ after.jobs = db.jobs ++ [job] ∧
      (∀ old ∈ db.jobs, old.OutcomeKnown) ∧ Attached db now job reservationId after.writer := by
  obtain ⟨presented, holder, hpresented, hmatches, hholder, hjob, hjobs, hlive, rfl⟩ :=
    attachSettlement_eq_ok h
  refine ⟨rfl, rfl, ?_, Attached.settlement presented holder hkind hpresented hmatches hholder hjob
    hlive⟩
  intro old hold
  exact hjobs old (List.mem_append_left _ hold) (hfresh old hold)

/-- Attaching a new bridge job after its insertion under the lock. -/
theorem attached_of_attachBridge (job : Job) (hfresh : ∀ old ∈ db.jobs, old.id ≠ job.id)
    (hkind : job.kind = .bridge)
    (h : attachBridge { db with writer := lapsed db now, jobs := db.jobs ++ [job] } job.id
      reservationId job.input = .ok after) :
    after.recoveryReady = db.recoveryReady ∧ after.jobs = db.jobs ++ [job] ∧
      (∀ old ∈ db.jobs, old.OutcomeKnown) ∧ Attached db now job reservationId after.writer := by
  obtain ⟨hfree, hjobs, holder, hreservation, hjob, rfl⟩ := attachBridge_eq_ok h
  refine ⟨rfl, rfl, ?_, Attached.bridge holder hkind hfree hreservation hjob⟩
  intro old hold
  exact hjobs old (List.mem_append_left _ hold) (hfresh old hold)

/-- `create_job` is an admission. -/
theorem createJob_admission {header : Option String} {kind : ProofKind} {input : JobInput}
    {actualId : Uuid} (hfresh : ∀ job ∈ db.jobs, job.id ≠ id)
    (h : createJob state db now id reservationId header kind input = .ok (after, actualId)) :
    Admission db after now id reservationId kind input := by
  simp only [createJob, bind_eq_ok, lock_eq_ok, Prod.exists] at h
  obtain ⟨_, ⟨hready, rfl⟩, actual, inserted, hinsert, h⟩ := h
  rcases insertJob_eq_ok hinsert with ⟨⟨existing, hmem, hid⟩, rfl⟩ | ⟨rfl, hconstrained, rfl⟩
  · rw [if_neg (fun heq => hfresh existing hmem (hid.trans heq)), pure_eq_ok, Prod.mk.injEq] at h
    obtain ⟨rfl, rfl⟩ := h
    exact ⟨hready, hready, Or.inl ⟨rfl, rfl⟩⟩
  · simp only [Job.queued_id, if_true, bind_eq_ok, pure_eq_ok, Prod.mk.injEq] at h
    obtain ⟨_, hattach, rfl, -⟩ := h
    cases kind with
    | settlement =>
      obtain ⟨hr, hjobs, hknown, hwriter⟩ :=
        attached_of_attachSettlement (Job.queued id .settlement input _ _ now) hfresh rfl hattach
      exact ⟨hready, hr.trans hready, Or.inr ⟨_, _, hjobs ▸ hconstrained, hjobs, hknown, hwriter⟩⟩
    | bridge =>
      obtain ⟨hr, hjobs, hknown, hwriter⟩ :=
        attached_of_attachBridge (Job.queued id .bridge input _ _ now) hfresh rfl hattach
      exact ⟨hready, hr.trans hready, Or.inr ⟨_, _, hjobs ▸ hconstrained, hjobs, hknown, hwriter⟩⟩

/-- Tables other than the jobs, the writer row and the readiness flag do not matter to an
admission. -/
theorem Admission.of_eq {other : Database} {kind : ProofKind} {input : JobInput}
    (h : Admission db after now id reservationId kind input)
    (hready : other.recoveryReady = after.recoveryReady) (hjobs : other.jobs = after.jobs)
    (hwriter : other.writer = after.writer) :
    Admission db other now id reservationId kind input where
  ready := h.ready
  stillReady := hready.trans h.stillReady
  outcome := by
    rw [hjobs, hwriter]
    exact h.outcome

/-- `send_zkapp` is an admission. -/
theorem sendZkapp_admission {settlement : GatewaySettlement} {actualId : Uuid}
    (hfresh : ∀ job ∈ db.jobs, job.id ≠ id)
    (h : sendZkapp state db now id settlement = .ok (after, actualId)) :
    Admission db after now id id .settlement settlement.input := by
  simp only [sendZkapp, bind_eq_ok, require_eq_ok, exists_const, lock_eq_ok, Prod.exists] at h
  obtain ⟨-, -, -, _, ⟨hready, rfl⟩, actual, inserted, hinsert, attached, hattach, h⟩ := h
  have hpending : after.recoveryReady = attached.recoveryReady ∧ after.jobs = attached.jobs ∧
      after.writer = attached.writer := by
    split at h
    · rw [pure_eq_ok, Prod.mk.injEq] at h
      rw [← h.1]
      simp
    · rw [pure_eq_ok, Prod.mk.injEq] at h
      rw [← h.1]
      simp
  obtain ⟨hr, hj, hw⟩ := hpending
  rcases insertJob_eq_ok hinsert with ⟨⟨existing, hmem, hid⟩, rfl⟩ | ⟨rfl, hconstrained, rfl⟩
  · rw [attachSubmission, if_neg (fun heq => hfresh existing hmem (hid.trans heq)), pure_eq_ok]
      at hattach
    subst hattach
    exact ⟨hready, hr.trans hready, Or.inl ⟨hj, hw⟩⟩
  · simp only [attachSubmission, Job.queued_id, if_true, bind_eq_ok, pure_eq_ok] at hattach
    obtain ⟨_, hattach, -, -, rfl⟩ := hattach
    obtain ⟨hr', hjobs, hknown, hwriter⟩ :=
      attached_of_attachSettlement 
        (Job.queued id .settlement settlement.input _ _ now) hfresh rfl hattach
    exact ⟨hready, hr.trans (hr'.trans hready), Or.inr ⟨_, _, by rw [hj, hjobs]; exact hconstrained,
      hj.trans hjobs, hknown, hw ▸ hwriter⟩⟩

/-- `queue_canonical_deposit_batch` is an admission. -/
theorem queueCanonicalDepositBatch_admission {idempotencyKey : Option String}
    {allowTerminalRetry : Bool} {input : BridgeTransitionInput} {actualId : Uuid}
    (hfresh : ∀ job ∈ db.jobs, job.id ≠ id)
    (h : queueCanonicalDepositBatch state db now id reservationId idempotencyKey allowTerminalRetry
      input = .ok (after, actualId)) :
    Admission db after now id reservationId .bridge (bridgeInput input) := by
  simp only [queueCanonicalDepositBatch, bind_eq_ok, require_eq_ok, exists_const, lock_eq_ok,
    Prod.exists, pure_eq_ok, Prod.mk.injEq] at h
  obtain ⟨-, _, ⟨hready, rfl⟩, -, actual, inserted, hinsert, attached, hattach, -, rfl, -⟩ := h
  rcases insertJob_eq_ok hinsert with ⟨⟨existing, hmem, hid⟩, rfl⟩ | ⟨rfl, hconstrained, rfl⟩
  · rw [attachBatch, if_neg (fun heq => hfresh existing hmem (hid.trans heq)), pure_eq_ok]
      at hattach
    subst hattach
    exact ⟨hready, hready, Or.inl ⟨rfl, rfl⟩⟩
  · simp only [attachBatch, Job.queued_id, if_true] at hattach
    obtain ⟨hr, hjobs, hknown, hwriter⟩ :=
      attached_of_attachBridge (Job.queued id .bridge (bridgeInput input) _ _ now) hfresh rfl
        hattach
    exact ⟨hready, hr.trans hready, Or.inr ⟨_, _, by rw [hjobs]; exact hconstrained, hjobs, hknown,
      hwriter⟩⟩

end EthereumSettlement.ProofJobs
