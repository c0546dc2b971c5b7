import EthereumSettlement.ObservedOutcomes

/-!
# Repeated requests

A request that creates a job carries an idempotency key and the digest of its payload.
While a row has the key, another request under it finds that row, whatever the job has
gone through since, and is refused if its payload has another digest. A repetition still
releases a finished writer row, restores a missing pending command and assigns deposits.
-/

namespace EthereumSettlement.IdempotentReplay

open CheckedCalls KeyedTables TransitionRuns
open GatewayTables OuterWriter ProofJobs GatewayIndexer IndexerMoves GatewayRuns GatewayChanges
open ObservedOutcomes

/-- A request that creates a job, with its idempotency key where the caller names one. -/
inductive JobRequest
  | createSettlement (header : Option String) (request : SettlementRequest)
  | createBridge (header : Option String) (input : BridgeGuest.BridgeTransitionInput)
  | sendZkapp (settlement : GatewaySettlement)
  | queueDepositBatch (header : Option String) (allowTerminalRetry : Bool)
      (input : BridgeGuest.BridgeTransitionInput)

/-- The request as a transaction of the API. -/
def JobRequest.request (now : Timestamp) (id reservationId : Uuid) : JobRequest → Request
  | .createSettlement header request => .createSettlement now id header request
  | .createBridge header input => .createBridge now id reservationId header input
  | .sendZkapp settlement => .sendZkapp now id settlement
  | .queueDepositBatch header allowTerminalRetry input =>
    .queueDepositBatch now id reservationId header allowTerminalRetry input

/-- The database after the request, with the job that it answers. -/
def JobRequest.answer (state : AppState) (db : Database) (now : Timestamp) (id reservationId : Uuid) :
    JobRequest → Except GatewayError (Database × Uuid)
  | .createSettlement header request => ProofJobs.createSettlement state db now id header request
  | .createBridge header input => ProofJobs.createBridge state db now id reservationId header input
  | .sendZkapp settlement => ProofJobs.sendZkapp state db now id settlement
  | .queueDepositBatch header allowTerminalRetry input =>
    queueCanonicalDepositBatch state db now id reservationId header allowTerminalRetry input

/-- The payload that a request stores. -/
def JobRequest.payload (state : AppState) : JobRequest → JobInput
  | .createSettlement _ request => request.input state
  | .createBridge _ input => bridgeInput input
  | .sendZkapp settlement => settlement.input
  | .queueDepositBatch _ _ input => bridgeInput input

/-- The idempotency key of a request. -/
def JobRequest.key (state : AppState) : JobRequest → Option String
  | .createSettlement header request => header.or (defaultKey .settlement (request.input state))
  | .createBridge header input => header.or (defaultKey .bridge (bridgeInput input))
  | .sendZkapp settlement =>
    some (settlementIdempotencyKey settlement.minaTransactionHash settlement.reservation)
  | .queueDepositBatch header _ _ => header

/-- The request is for a settlement. A bridge transition passes a check of the writer before, and
a batch a check of its deposits. -/
def JobRequest.Settles : JobRequest → Prop
  | .createSettlement _ _ => True
  | .sendZkapp _ => True
  | _ => False

/-- The first checks of a request, which read no table. -/
def JobRequest.WellFormed : JobRequest → Prop
  | .createSettlement _ request => request.schemaVersion = 1 ∧
      isBytes32Hex request.minaTransactionHash ∧ request.proof.binding.isSome
  | .sendZkapp settlement => settlement.schemaVersion = 1 ∧
      isBytes32Hex settlement.minaTransactionHash ∧ settlement.proof.binding.isSome
  | _ => True

/-- The pending command after a submission of the job is repeated. -/
def restorePending (db : Database) (jobId : Uuid) (settlement : GatewaySettlement) : Database :=
  if ∃ job ∈ db.jobs, job.id = jobId ∧ KeepsPending job then
    db.insertPending ⟨jobId, settlement.feePayerPublicKey, settlement.nonce,
      some settlement.commandBase64⟩
  else db

/-- The deposits after a batch is assigned to the job. -/
def assignBatch (db : Database) (jobId : Uuid) (input : BridgeGuest.BridgeTransitionInput) : Database :=
  let first := input.ethereum.depositNonce.toNat + 1
  let last := input.ethereum.depositNonce.toNat + input.deposits.length
  { db with
    deposits := updateWhere (InBatch first last)
      (fun row => { row with bridgeJobId := some jobId }) db.deposits }

/-- The database after a request that finds its job. -/
def JobRequest.replayed (db : Database) (now : Timestamp) (jobId : Uuid) : JobRequest → Database
  | .createSettlement _ _ => { db with writer := lapsed db now }
  | .createBridge _ _ => { db with writer := lapsed db now }
  | .sendZkapp settlement => restorePending { db with writer := lapsed db now } jobId settlement
  | .queueDepositBatch _ _ input => assignBatch { db with writer := lapsed db now } jobId input

variable {state : AppState} {db after : Database} {now : Timestamp} {id reservationId actualId : Uuid}

/-- The transaction of a request is the request. -/
theorem serve_request (r : JobRequest) :
    serve state db (r.request now id reservationId) =
      Prod.fst <$> r.answer state db now id reservationId := by
  cases r <;> rfl

/-- The row of a created job: its key and its digest are those of the request. -/
structure Created (id : Uuid) (key : String) (digest : PastaPoseidon.Bytes32) (job : Job) : Prop where
  /-- It has the identifier. -/
  named : job.id = id
  /-- It has the key. -/
  keyed : job.idempotencyKey = some key
  /-- It has the digest. -/
  digested : job.inputDigest = some digest
  /-- It was not recovered. -/
  requested : job.input.recoveredFromEthereum = false

section Replays

variable {existing : Job} {key : String}

/-- An insertion under a key in use compares the digests. -/
theorem insertJob_of_key (db : Database) (job : Job) (message : String) (actualId : Uuid)
    (after : Database) (hconstrained : JobsConstrained db.jobs) (hexisting : existing ∈ db.jobs)
    (hkey : existing.idempotencyKey = some key) (hjob : job.idempotencyKey = some key) :
    insertJob db job message = .ok (actualId, after) ↔
      existing.inputDigest = job.inputDigest ∧ existing.id = actualId ∧ db = after := by
  have hfind : (job.idempotencyKey.bind fun key =>
      db.jobs.find? fun old => old.idempotencyKey = some key) = some existing := by
    rw [hjob, Option.bind_some]
    exact find?_of_optional hconstrained.idempotencyKeys hexisting hkey
  rw [insertJob, hfind]
  simp only [require_bind_eq_ok, pure_eq_ok, Prod.mk.injEq]

/-- A repeated `create_job` releases the writer and answers the job of the key. -/
theorem createJob_of_key (hconstrained : JobsConstrained db.jobs) (hexisting : existing ∈ db.jobs)
    (hfresh : existing.id ≠ id) (hkey : existing.idempotencyKey = some key) {header : Option String}
    {kind : ProofKind} {input : JobInput} (hheader : header.or (defaultKey kind input) = some key) :
    createJob state db now id reservationId header kind input = .ok (after, actualId) ↔
      db.recoveryReady = true ∧ existing.inputDigest = some (state.proofInputDigest input) ∧
        existing.id = actualId ∧ { db with writer := lapsed db now } = after := by
  have hinsert := fun message actual inserted =>
    insertJob_of_key { db with writer := lapsed db now } (Job.queued id kind input
      (header.or (defaultKey kind input)) (state.proofInputDigest input) now) message actual inserted
      hconstrained hexisting hkey hheader
  simp only [createJob, bind_eq_ok, lock_eq_ok, Prod.exists]
  constructor
  · rintro ⟨_, ⟨hready, rfl⟩, actual, inserted, hinserted, h⟩
    obtain ⟨hdigest, rfl, rfl⟩ := (hinsert _ _ _).mp hinserted
    rw [if_neg hfresh, pure_eq_ok, Prod.mk.injEq] at h
    exact ⟨hready, hdigest, h.2, h.1⟩
  · rintro ⟨hready, hdigest, rfl, rfl⟩
    refine ⟨_, ⟨hready, rfl⟩, existing.id, _, (hinsert _ _ _).mpr ⟨hdigest, rfl, rfl⟩, ?_⟩
    rw [if_neg hfresh]
    rfl

/-- A repeated `send_zkapp` also restores the pending command of a live job. -/
theorem sendZkapp_of_key (hconstrained : JobsConstrained db.jobs) (hexisting : existing ∈ db.jobs)
    (hfresh : existing.id ≠ id) (hkey : existing.idempotencyKey = some key)
    {settlement : GatewaySettlement}
    (hsettlement : settlementIdempotencyKey settlement.minaTransactionHash settlement.reservation =
      key) :
    sendZkapp state db now id settlement = .ok (after, actualId) ↔
      (JobRequest.sendZkapp settlement).WellFormed ∧ db.recoveryReady = true ∧
        existing.inputDigest = some (state.proofInputDigest settlement.input) ∧
        existing.id = actualId ∧
        restorePending { db with writer := lapsed db now } existing.id settlement = after := by
  have hinsert := fun message actual inserted =>
    insertJob_of_key { db with writer := lapsed db now } (Job.queued id .settlement settlement.input
      (some (settlementIdempotencyKey settlement.minaTransactionHash settlement.reservation))
      (state.proofInputDigest settlement.input) now) message actual inserted hconstrained hexisting
      hkey (congrArg some hsettlement)
  have hpending : ∀ db : Database,
      (if ∃ job ∈ db.jobs, job.id = existing.id ∧ KeepsPending job then
        (pure (db.insertPending ⟨existing.id, settlement.feePayerPublicKey, settlement.nonce,
          some settlement.commandBase64⟩, existing.id) : Except GatewayError (Database × Uuid))
      else pure (db, existing.id)) = pure (restorePending db existing.id settlement, existing.id) := by
    intro db
    unfold restorePending
    split <;> rfl
  simp only [sendZkapp, bind_eq_ok, require_eq_ok, exists_const, lock_eq_ok, Prod.exists,
    JobRequest.WellFormed]
  constructor
  · rintro ⟨hschema, hhash, hbinding, _, ⟨hready, rfl⟩, actual, inserted, hinserted, attached,
      hattach, h⟩
    obtain ⟨hdigest, rfl, rfl⟩ := (hinsert _ _ _).mp hinserted
    rw [attachSubmission, if_neg hfresh, pure_eq_ok] at hattach
    rw [← hattach, hpending, pure_eq_ok, Prod.mk.injEq] at h
    exact ⟨⟨hschema, hhash, hbinding⟩, hready, hdigest, h.2, h.1⟩
  · rintro ⟨⟨hschema, hhash, hbinding⟩, hready, hdigest, rfl, rfl⟩
    refine ⟨hschema, hhash, hbinding, _, ⟨hready, rfl⟩, existing.id, _,
      (hinsert _ _ _).mpr ⟨hdigest, rfl, rfl⟩, { db with writer := lapsed db now }, ?_, ?_⟩
    · rw [attachSubmission, if_neg hfresh]
      rfl
    · rw [hpending]
      rfl

/-- A repeated batch that is admitted assigns its deposits to the job of the key. -/
theorem queueCanonicalDepositBatch_of_key (hconstrained : JobsConstrained db.jobs)
    (hexisting : existing ∈ db.jobs) (hfresh : existing.id ≠ id)
    (hkey : existing.idempotencyKey = some key) {allowTerminalRetry : Bool}
    {input : BridgeGuest.BridgeTransitionInput}
    (h : queueCanonicalDepositBatch state db now id reservationId (some key) allowTerminalRetry input =
      .ok (after, actualId)) :
    existing.inputDigest = some (state.proofInputDigest (bridgeInput input)) ∧
      existing.id = actualId ∧
      assignBatch { db with writer := lapsed db now } existing.id input = after := by
  have hinsert := fun message actual inserted =>
    insertJob_of_key { db with writer := lapsed db now } (Job.queued id .bridge (bridgeInput input)
      (some key) (state.proofInputDigest (bridgeInput input)) now) message actual inserted
      hconstrained hexisting hkey rfl
  simp only [queueCanonicalDepositBatch, bind_eq_ok, require_eq_ok, exists_const, lock_eq_ok,
    Prod.exists, pure_eq_ok, Prod.mk.injEq] at h
  obtain ⟨-, _, ⟨-, rfl⟩, -, actual, inserted, hinserted, attached, hattach, -, rfl, rfl⟩ := h
  obtain ⟨hdigest, rfl, rfl⟩ := (hinsert _ _ _).mp hinserted
  rw [attachBatch, if_neg hfresh, pure_eq_ok] at hattach
  rw [← hattach]
  exact ⟨hdigest, rfl, rfl⟩

/-- A request under a key in use answers the job of the key. -/
theorem answer_of_key (hconstrained : JobsConstrained db.jobs) (hexisting : existing ∈ db.jobs)
    (hfresh : existing.id ≠ id) (hkey : existing.idempotencyKey = some key) {r : JobRequest}
    (hr : r.key state = some key) (h : r.answer state db now id reservationId = .ok (after, actualId)) :
    existing.inputDigest = some (state.proofInputDigest (r.payload state)) ∧ existing.id = actualId ∧
      r.replayed db now existing.id = after := by
  cases r with
  | createSettlement header request =>
    simp only [JobRequest.answer, createSettlement, bind_eq_ok, require_eq_ok, exists_const] at h
    have hcreate := (createJob_of_key hconstrained hexisting hfresh hkey hr).mp h.2.2.2
    exact hcreate.2
  | createBridge header input =>
    have hcreate := (createJob_of_key hconstrained hexisting hfresh hkey hr).mp h
    exact hcreate.2
  | sendZkapp settlement =>
    have hsend := (sendZkapp_of_key hconstrained hexisting hfresh hkey (Option.some.inj hr)).mp h
    exact hsend.2.2
  | queueDepositBatch header allowTerminalRetry input =>
    have hheader : header = some key := hr
    rw [hheader] at h
    exact queueCanonicalDepositBatch_of_key hconstrained hexisting hfresh hkey h

/-- A well-formed settlement is answered again whenever recovery is ready. -/
theorem succeeds_of_key (hconstrained : JobsConstrained db.jobs) (hexisting : existing ∈ db.jobs)
    (hfresh : existing.id ≠ id) (hkey : existing.idempotencyKey = some key) {r : JobRequest}
    (hr : r.key state = some key) (hsettles : r.Settles) (hformed : r.WellFormed)
    (hdigest : existing.inputDigest = some (state.proofInputDigest (r.payload state))) :
    Succeeds (r.answer state db now id reservationId) ↔ db.recoveryReady = true := by
  cases r with
  | createSettlement header request =>
    have hcreate : ∀ result, createSettlement state db now id header request = .ok result ↔
        createJob state db now id id header .settlement (request.input state) = .ok result := by
      intro result
      simp only [createSettlement, bind_eq_ok, require_eq_ok, exists_const]
      exact ⟨fun h => h.2.2.2, fun h => ⟨hformed.1, hformed.2.1, hformed.2.2, h⟩⟩
    constructor
    · rintro ⟨⟨after, actualId⟩, h⟩
      exact ((createJob_of_key hconstrained hexisting hfresh hkey hr).mp ((hcreate _).mp h)).1
    · intro hready
      exact ⟨_, (hcreate _).mpr ((createJob_of_key hconstrained hexisting hfresh hkey hr).mpr
        ⟨hready, hdigest, rfl, rfl⟩)⟩
  | createBridge header input => exact hsettles.elim
  | sendZkapp settlement =>
    constructor
    · rintro ⟨⟨after, actualId⟩, h⟩
      exact ((sendZkapp_of_key hconstrained hexisting hfresh hkey (Option.some.inj hr)).mp h).2.1
    · intro hready
      exact ⟨_, (sendZkapp_of_key hconstrained hexisting hfresh hkey (Option.some.inj hr)).mpr
        ⟨hformed, hready, hdigest, rfl, rfl⟩⟩
  | queueDepositBatch header allowTerminalRetry input => exact hsettles.elim

end Replays

section Creation

variable {key : String}

/-- An answered request is well formed. -/
theorem wellFormed_of_answer {r : JobRequest}
    (h : r.answer state db now id reservationId = .ok (after, actualId)) : r.WellFormed := by
  cases r with
  | createSettlement header request =>
    simp only [JobRequest.answer, createSettlement, bind_eq_ok, require_eq_ok, exists_const] at h
    exact ⟨h.1, h.2.1, h.2.2.1⟩
  | createBridge header input => trivial
  | sendZkapp settlement =>
    simp only [JobRequest.answer, sendZkapp, bind_eq_ok, require_eq_ok, exists_const] at h
    exact ⟨h.1, h.2.1, h.2.2.1⟩
  | queueDepositBatch header allowTerminalRetry input => trivial

/-- Attaching a settlement keeps the job table. -/
theorem attachSettlement_jobs {token : Option ReservationToken} {input : JobInput}
    (h : attachSettlement db now id token input = .ok after) : after.jobs = db.jobs := by
  have hattached := attachSettlement_eq_ok h
  rcases hattached with ⟨presented, holder, -, -, -, -, -, -, hafter⟩
  rw [← hafter]

/-- Attaching a bridge job keeps the job table. -/
theorem attachBridge_jobs {input : JobInput} (h : attachBridge db id reservationId input = .ok after) :
    after.jobs = db.jobs := by
  have hattached := attachBridge_eq_ok h
  rcases hattached with ⟨-, -, holder, -, -, hafter⟩
  rw [← hafter]

/-- Attaching a job keeps the job table. -/
theorem attachJob_jobs {kind : ProofKind} {input : JobInput}
    (h : attachJob db now id reservationId kind input = .ok after) : after.jobs = db.jobs := by
  cases kind with
  | settlement => exact attachSettlement_jobs h
  | bridge => exact attachBridge_jobs h

/-- A row under a new identifier is inserted as it is. -/
theorem mem_of_insertJob {job : Job} {message : String} (hfresh : ∀ old ∈ db.jobs, old.id ≠ job.id)
    (h : insertJob db job message = .ok (actualId, after)) (hid : actualId = job.id) :
    job ∈ after.jobs := by
  rcases insertJob_eq_ok h with ⟨hexisting, -⟩ | ⟨-, -, hafter⟩
  · rcases hexisting with ⟨existing, hmem, hsame⟩
    exact absurd (hsame.trans hid) (hfresh existing hmem)
  · rw [← hafter]
    exact List.mem_append_right _ List.mem_cons_self

/-- `create_job` inserts its row. -/
theorem mem_of_createJob (hfresh : ∀ old ∈ db.jobs, old.id ≠ id) {header : Option String}
    {kind : ProofKind} {input : JobInput}
    (h : createJob state db now id reservationId header kind input = .ok (after, id)) :
    Job.queued id kind input (header.or (defaultKey kind input)) (state.proofInputDigest input) now ∈
      after.jobs := by
  simp only [createJob, bind_eq_ok, lock_eq_ok, Prod.exists] at h
  obtain ⟨_, ⟨-, rfl⟩, actual, inserted, hinsert, h⟩ := h
  have hactual : actual = id := by
    split at h
    · assumption
    · rw [pure_eq_ok, Prod.mk.injEq] at h
      exact h.2
  have hmem := mem_of_insertJob hfresh hinsert hactual
  rw [if_pos hactual] at h
  simp only [bind_eq_ok, pure_eq_ok, Prod.mk.injEq] at h
  obtain ⟨attached, hattach, hafter, -⟩ := h
  rw [← hafter, attachJob_jobs hattach]
  exact hmem

/-- `send_zkapp` inserts its row. -/
theorem mem_of_sendZkapp (hfresh : ∀ old ∈ db.jobs, old.id ≠ id) {settlement : GatewaySettlement}
    (h : sendZkapp state db now id settlement = .ok (after, id)) :
    Job.queued id .settlement settlement.input
        (some (settlementIdempotencyKey settlement.minaTransactionHash settlement.reservation))
        (state.proofInputDigest settlement.input) now ∈ after.jobs := by
  simp only [sendZkapp, bind_eq_ok, require_eq_ok, exists_const, lock_eq_ok, Prod.exists] at h
  obtain ⟨-, -, -, _, ⟨-, rfl⟩, actual, inserted, hinsert, attached, hattach, h⟩ := h
  have hanswer : actual = id ∧ after.jobs = attached.jobs := by
    split at h
    · rw [pure_eq_ok, Prod.mk.injEq] at h
      exact ⟨h.2, by rw [← h.1, Database.insertPending_jobs]⟩
    · rw [pure_eq_ok, Prod.mk.injEq] at h
      exact ⟨h.2, by rw [h.1]⟩
  have hmem := mem_of_insertJob hfresh hinsert hanswer.1
  rw [attachSubmission, if_pos hanswer.1] at hattach
  simp only [bind_eq_ok, pure_eq_ok] at hattach
  obtain ⟨checked, hattach, -, -, hchecked⟩ := hattach
  rw [hanswer.2, ← hchecked, attachSettlement_jobs hattach]
  exact hmem

/-- `queue_canonical_deposit_batch` inserts its row. -/
theorem mem_of_queueCanonicalDepositBatch (hfresh : ∀ old ∈ db.jobs, old.id ≠ id)
    {header : Option String} {allowTerminalRetry : Bool} {input : BridgeGuest.BridgeTransitionInput}
    (h : queueCanonicalDepositBatch state db now id reservationId header allowTerminalRetry input =
      .ok (after, id)) :
    Job.queued id .bridge (bridgeInput input) header (state.proofInputDigest (bridgeInput input)) now ∈
      after.jobs := by
  simp only [queueCanonicalDepositBatch, bind_eq_ok, require_eq_ok, exists_const, lock_eq_ok,
    Prod.exists, pure_eq_ok, Prod.mk.injEq] at h
  obtain ⟨-, _, ⟨-, rfl⟩, -, actual, inserted, hinsert, attached, hattach, -, hafter, hactual⟩ := h
  have hmem := mem_of_insertJob hfresh hinsert hactual
  rw [attachBatch, if_pos hactual] at hattach
  have hjobs : attached.jobs = inserted.jobs := attachBridge_jobs hattach
  rw [← hafter, hjobs]
  exact hmem

/-- The first request leaves a row with its key and its digest. -/
theorem created_of_answer (hfresh : ∀ old ∈ db.jobs, old.id ≠ id) {r : JobRequest}
    (hr : r.key state = some key) (h : r.answer state db now id reservationId = .ok (after, id)) :
    ∃ job ∈ after.jobs, Created id key (state.proofInputDigest (r.payload state)) job := by
  cases r with
  | createSettlement header request =>
    simp only [JobRequest.answer, createSettlement, bind_eq_ok, require_eq_ok, exists_const] at h
    exact ⟨_, mem_of_createJob hfresh h.2.2.2, rfl, hr, rfl, rfl⟩
  | createBridge header input => exact ⟨_, mem_of_createJob hfresh h, rfl, hr, rfl, rfl⟩
  | sendZkapp settlement => exact ⟨_, mem_of_sendZkapp hfresh h, rfl, hr, rfl, rfl⟩
  | queueDepositBatch header allowTerminalRetry input =>
    exact ⟨_, mem_of_queueCanonicalDepositBatch hfresh h, rfl, hr, rfl, rfl⟩

end Creation

section Runs

variable {s next : GatewayState} {action : Action} {history : List (GatewayState × Action)}
variable {key : String} {digest : PastaPoseidon.Bytes32} {old row : Job}

/-- A change of a row keeps its key and its digest. -/
theorem key_of_change (h : JobChange s action old row) :
    row.idempotencyKey = old.idempotencyKey ∧ row.inputDigest = old.inputDigest := by
  cases h with
  | kept => exact ⟨rfl, rfl⟩
  | approved => exact ⟨rfl, rfl⟩
  | cancelled => exact ⟨rfl, rfl⟩
  | interrupted => exact ⟨rfl, rfl⟩
  | claimed => exact ⟨rfl, rfl⟩
  | worked hworker hchange =>
    cases hchange with
    | failed hguard =>
      unfold failedRow
      split
      · exact ⟨rfl, rfl⟩
      · split
        · exact ⟨rfl, rfl⟩
        · exact ⟨rfl, rfl⟩
    | _ => exact ⟨rfl, rfl⟩
  | ticked hchange =>
    cases hchange with
    | _ => exact ⟨rfl, rfl⟩

/-- A step keeps the row of a created job under its key and its digest. -/
theorem created_step (ht : Tracked state history s) (h : step state s action = .ok next)
    (hjob : ∃ job ∈ s.db.jobs, Created id key digest job) :
    ∃ job ∈ next.db.jobs, Created id key digest job := by
  rcases hjob with ⟨job, hmem, hcreated⟩
  have hfate := (step_changes ht.keyed h).rows.fate job hmem
  rcases hfate with ⟨later, hlater, hchange⟩ | hdeleted
  · have hkept := key_of_change hchange
    have hrequested : later.input.recoveredFromEthereum = false := by
      by_contra hrecovered
      have hbefore := recovered_of_change ht hchange (Bool.eq_true_of_not_eq_false hrecovered)
      rw [hcreated.requested] at hbefore
      exact absurd hbefore (by simp)
    exact ⟨later, hlater, hchange.id_eq.trans hcreated.named, hkept.1.trans hcreated.keyed,
      hkept.2.trans hcreated.digested, hrequested⟩
  · cases hdeleted with
    | ticked hdeleted =>
      cases hdeleted with
      | orphaned hstage horphaned hretained =>
        have hrecovered := horphaned.1
        rw [hcreated.requested] at hrecovered
        exact absurd hrecovered (by simp)

/-- A created job keeps its row, its key and its digest in every later state. -/
theorem created_run (ht : Tracked state history s) (hjob : ∃ job ∈ s.db.jobs, Created id key digest job)
    (actions : List Action) :
    Keyed (run (step state) s actions) ∧
      ∃ job ∈ (run (step state) s actions).db.jobs, Created id key digest job := by
  have hrun := history_invariant
    (J := fun history s => Tracked state history s ∧ ∃ job ∈ s.db.jobs, Created id key digest job)
    (Q := fun _ => True)
    (fun _ _ _ _ h _ hstep => ⟨tracked_step h.1 hstep, created_step h.1 hstep h.2⟩)
    actions history ⟨ht, hjob⟩ (fun _ _ => trivial)
  exact ⟨hrun.1.keyed, hrun.2⟩

/-- The state after the first request holds the row of the job that it created. -/
theorem created_of_step (hkeyed : Keyed s) {r : JobRequest} (hr : r.key state = some key)
    (hfirst : r.answer state s.db now id reservationId = .ok (after, id))
    (h : step state s (.serve (r.request now id reservationId)) = .ok next) :
    ∃ job ∈ next.db.jobs, Created id key (state.proofInputDigest (r.payload state)) job := by
  obtain ⟨⟨-, hnew⟩, performed, hperform, rfl⟩ := step_eq_ok.mp h
  have hgenerated : id ∈ (Action.serve (r.request now id reservationId)).generated := by
    cases r <;> exact List.mem_cons_self
  have hfresh : ∀ old ∈ s.db.jobs, old.id ≠ id :=
    fun old hold hsame => hnew id hgenerated (hsame ▸ hkeyed.minted old hold)
  have hserve : serve state s.db (r.request now id reservationId) = .ok after := by
    rw [serve_request, hfirst]
    rfl
  rw [perform, hserve] at hperform
  have hdb : performed.db = after := by
    rw [← Except.ok.inj hperform]
  show ∃ job ∈ performed.db.jobs, _
  rw [hdb]
  exact created_of_answer hfresh hr hfirst

end Runs

/-- Every later request under the key of a created job answers that job, changes nothing but what
a repetition may change, and is refused under another digest; a repeated settlement is answered
whenever recovery is ready. -/
theorem repeated_request (state : AppState) (before after : List Action) {first : JobRequest}
    {now later : Timestamp} {id reservationId newId newReservationId : Uuid} {key : String}
    {admitted : Database} {next : GatewayState} (hkey : first.key state = some key)
    (hfirst : first.answer state (run (step state) start before).db now id reservationId =
      .ok (admitted, id))
    (hstep : step state (run (step state) start before)
      (.serve (first.request now id reservationId)) = .ok next)
    (hnew : newId ∉ (run (step state) next after).minted) (again : JobRequest)
    (hagain : again.key state = some key) :
    (∀ db actualId, again.answer state (run (step state) next after).db later newId newReservationId =
        .ok (db, actualId) →
      actualId = id ∧ again.replayed (run (step state) next after).db later id = db) ∧
    (state.proofInputDigest (again.payload state) ≠ state.proofInputDigest (first.payload state) →
      ¬ Succeeds (again.answer state (run (step state) next after).db later newId newReservationId)) ∧
    (again = first → again.Settles →
      (Succeeds (again.answer state (run (step state) next after).db later newId newReservationId) ↔
        (run (step state) next after).db.recoveryReady = true)) := by
  have ht := tracked_step (tracked_run state before) hstep
  have hcreated := created_of_step (keyed_run state before) hkey hfirst hstep
  have hlater := created_run ht hcreated after
  rcases hlater with ⟨hkeyed, existing, hexisting, hrow⟩
  have hfresh : existing.id ≠ newId := fun hsame => hnew (hsame ▸ hkeyed.minted existing hexisting)
  have hanswer := fun db actualId
    (h : again.answer state (run (step state) next after).db later newId newReservationId =
      .ok (db, actualId)) =>
    answer_of_key hkeyed.constrained hexisting hfresh hrow.keyed hagain h
  refine ⟨?_, ?_, ?_⟩
  · intro db actualId h
    have hfound := hanswer db actualId h
    rw [hrow.named] at hfound
    exact ⟨hfound.2.1.symm, hfound.2.2⟩
  · intro hdigest hsucceeds
    rcases hsucceeds with ⟨⟨db, actualId⟩, h⟩
    have hfound := (hanswer db actualId h).1
    rw [hrow.digested, Option.some.injEq] at hfound
    exact hdigest hfound.symm
  · intro hsame hsettles
    apply succeeds_of_key hkeyed.constrained hexisting hfresh hrow.keyed hagain hsettles
    · rw [hsame]
      exact wellFormed_of_answer hfirst
    · rw [hsame]
      exact hrow.digested

/-- A reservation of the reference gateway, for a settlement of its outer account. -/
def reserved : List Action := startup ++ [acquireAt 0 1 "first"]

/-- A settlement of the reference gateway. -/
def firstSettlement : JobRequest := .createSettlement none (settlementUnder ⟨1, "1"⟩)

/-- A worker claims the settlement and fails before anything is signed. -/
def failure : List Action := [.claim second 0 [], .work second 0 (.recordFailure .rejected "refused")]

/-- The failed settlement is answered again. -/
theorem repeated_request_failed :
    ∃ next, step replica (run (step replica) start reserved)
        (.serve (firstSettlement.request second 3 3)) = .ok next ∧
      Succeeds (firstSettlement.answer replica (run (step replica) next failure).db second 9 9) := by
  have hrun : ((firstSettlement.answer replica (run (step replica) start reserved).db second 3 3).toOption.map
        Prod.snd) = some 3 ∧
      ∃ next ∈ (step replica (run (step replica) start reserved)
          (.serve (firstSettlement.request second 3 3))).toOption,
        9 ∉ (run (step replica) next failure).minted ∧
          (run (step replica) next failure).db.recoveryReady = true := by
    decide
  obtain ⟨hfirst, next, hnext, hnew, hready⟩ := hrun
  obtain ⟨⟨admitted, actualId⟩, hresult, hid⟩ := Option.map_eq_some_iff.mp hfirst
  have hactual : actualId = 3 := hid
  rw [hactual] at hresult
  have hstep := mem_toOption.mp hnext
  exact ⟨next, hstep, ((repeated_request replica reserved failure rfl (mem_toOption.mp hresult) hstep hnew
    firstSettlement rfl).2.2 rfl trivial).mpr hready⟩

/-- Repeating a failed settlement clears the writer row, and after a restart the repetition is
refused. -/
theorem replay_releases_writer :
    let admission := Action.serve (firstSettlement.request second 3 3)
    let failed := run (step replica) start (reserved ++ [admission] ++ failure)
    let restarted := exec (step replica) failed (.serve (.initializeGatewayConfig none []))
    failed.db.writer.jobId = some 3 ∧
      (∃ after ∈ (firstSettlement.answer replica failed.db second 9 9).toOption,
        after.2 = 3 ∧ after.1.writer.jobId = none) ∧
      ¬ Succeeds (firstSettlement.answer replica restarted.db second 9 9) := by
  decide +kernel

end EthereumSettlement.IdempotentReplay
