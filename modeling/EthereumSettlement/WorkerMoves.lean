import EthereumSettlement.ProofJobs

/-!
# What one call of a worker does

A worker runs one call after the other. Each call is possible at one stage, runs at
most one statement on the job table and leads to one next stage. The statement
rewrites the row of the claim under its own guard and no other row; the outer-writer
row and the readiness flag are never written by a worker.
-/

namespace EthereumSettlement.WorkerMoves

open CheckedCalls KeyedTables GatewayTables ProofJobs

/-- One successful call of `process_job`: its stage, its statement and the worker after it. -/
inductive WorkerMove (state : AppState) (db : Database) (now : Timestamp) (worker : Worker) :
    WorkerStep → Database → Option Worker → Prop
  | resumed {stage : WorkerStage} (hstage : worker.stage = .claimed)
      (hresume : resumedStage worker.job = .ok stage) :
      WorkerMove state db now worker .resume db (some ⟨worker.job, stage⟩)
  | hydrated {context : SettlementReceipt.SettlementContextV1} {input : JobInput}
      {after : Database} (hstage : worker.stage = .claimed) (hfresh : worker.job.NeedsPreflight)
      (hinput : hydrateQueuedSettlement context worker.job.input = .ok input)
      (hstore : storeInput db worker.job input = .ok after) :
      WorkerMove state db now worker (.hydrate context) after
        (some ⟨worker.job, .hydrated input⟩)
  | digestedBridge {after : Database} (hstage : worker.stage = .claimed)
      (hfresh : worker.job.NeedsPreflight)
      (hstore : storePreflightDigest db worker.job (state.proofInputDigest worker.job.input) =
        .ok after) :
      WorkerMove state db now worker .storePreflightDigest after (some ⟨worker.job, .digested⟩)
  | digestedSettlement {input : JobInput} {after : Database}
      (hstage : worker.stage = .hydrated input)
      (hstore : storePreflightDigest db worker.job (state.proofInputDigest input) = .ok after) :
      WorkerMove state db now worker .storePreflightDigest after
        (some ⟨{ worker.job with input := input }, .digested⟩)
  | preflighted {publicValues : ByteWords.Bytes} {cycles : Option ℕ} {after : Database}
      (hstage : worker.stage = .digested)
      (hstore : storePreflight db worker.job publicValues cycles = .ok after) :
      WorkerMove state db now worker (.storePreflight publicValues cycles) after
        (some ⟨worker.job, preflightedStage state publicValues cycles⟩)
  | executed {after : Database} (hstage : worker.stage = .executing)
      (hstore : storeExecuted db now worker.job = .ok after) :
      WorkerMove state db now worker .storeExecuted after none
  | awaitingApproval {after : Database} (hstage : worker.stage = .requestingApproval)
      (hstore : storeAwaitingApproval db worker.job = .ok after) :
      WorkerMove state db now worker .storeAwaitingApproval after none
  | mocked {publicValues : ByteWords.Bytes} {cycles : Option ℕ} {after : Database}
      (hstage : worker.stage = .preflighted publicValues cycles)
      (hstore : storeMockCycles db worker.job cycles = .ok after) :
      WorkerMove state db now worker .submitLocalMock after
        (some ⟨worker.job, .sending publicValues []⟩)
  | proving {publicValues : ByteWords.Bytes} {cycles : Option ℕ} {after : Database}
      (hstage : worker.stage = .preflighted publicValues cycles)
      (hstore : setStatus db worker.job .proving = .ok after) :
      WorkerMove state db now worker .setProving after
        (some ⟨worker.job, match worker.job.proofRequestId with
          | some _ => .waiting publicValues cycles
          | none => .proving publicValues cycles⟩)
  | sealed {intent : Uuid} {publicValues : ByteWords.Bytes} {cycles : Option ℕ} {after : Database}
      (hstage : worker.stage = .proving publicValues cycles)
      (hstore : beginProofRequest db worker.job intent = .ok after) :
      WorkerMove state db now worker (.beginProofRequest intent) after
        (some ⟨worker.job, .sealed intent publicValues cycles⟩)
  | requested {intent : Uuid} {publicValues : ByteWords.Bytes} {cycles : Option ℕ}
      (hstage : worker.stage = .sealed intent publicValues cycles) :
      WorkerMove state db now worker .requestProof db
        (some ⟨worker.job, .requested intent publicValues cycles⟩)
  | resolved {intent : Uuid} {publicValues : ByteWords.Bytes} {cycles : Option ℕ}
      {requestId : String} {after : Database}
      (hstage : worker.stage = .requested intent publicValues cycles)
      (hstore : finishProofRequest db worker.job.id intent requestId = .ok after) :
      WorkerMove state db now worker (.finishProofRequest requestId) after
        (some ⟨worker.job, .waiting publicValues cycles⟩)
  | proved {publicValues proof : ByteWords.Bytes} {cycles : Option ℕ} {after : Database}
      (hstage : worker.stage = .waiting publicValues cycles)
      (hstore : storeProof db worker.job publicValues proof = .ok after) :
      WorkerMove state db now worker (.storeProof proof) after
        (some ⟨worker.job, .proved publicValues proof cycles⟩)
  | measured {publicValues proof : ByteWords.Bytes} {cycles measured : Option ℕ}
      {after : Database} (hstage : worker.stage = .proved publicValues proof cycles)
      (hstore : storeMetrics db worker.job (measured.or cycles) = .ok after) :
      WorkerMove state db now worker (.storeMetrics measured) after
        (some ⟨worker.job, .sending publicValues proof⟩)
  | submitting {publicValues proof : ByteWords.Bytes} {job : Job} {after : Database}
      (hstage : worker.stage = .sending publicValues proof)
      (hstore : storeSubmitting db worker.job publicValues proof = .ok after)
      (hfind : (after.jobs.find? fun job => job.id = worker.job.id) = some job) :
      WorkerMove state db now worker .send after
        (some ⟨worker.job, if job.preparedTransaction.isSome then .broadcasting else .preparing⟩)
  | prepared {prepared : PreparedSubmission} {after : Database} (hstage : worker.stage = .preparing)
      (hstore : storePrepared db worker.job prepared = .ok after) :
      WorkerMove state db now worker (.storePrepared prepared) after
        (some ⟨worker.job, .broadcasting⟩)
  | submitted {after : Database} (hstage : worker.stage = .broadcasting)
      (hstore : storeSubmitted db worker.job = .ok after) :
      WorkerMove state db now worker .storeSubmitted after none
  | failed {failure : FailureClass} {message : String} {after : Database}
      (hstore : recordFailure db now worker.job failure message = .ok after) :
      WorkerMove state db now worker (.recordFailure failure message) after none

variable {state : AppState} {db after : Database} {now : Timestamp} {worker : Worker}
variable {step : WorkerStep} {next : Option Worker}

/-- Every successful call of `process_job` is one of the moves. -/
theorem processJob_eq_ok (h : processJob state db now worker step = .ok (after, next)) :
    WorkerMove state db now worker step after next := by
  obtain ⟨claim, stage⟩ := worker
  unfold processJob at h
  split at h
  · simp only [bind_eq_ok, pure_eq_ok, Prod.mk.injEq] at h
    obtain ⟨_, hstore, rfl, rfl⟩ := h
    exact WorkerMove.failed hstore
  · split at h
    all_goals
      simp only [bind_eq_ok, require_eq_ok, exists_const, requireSome_eq_ok, pure_eq_ok,
        throw_eq_ok, Prod.mk.injEq] at h
    · obtain ⟨_, hresume, rfl, rfl⟩ := h
      exact WorkerMove.resumed ‹_› hresume
    · obtain ⟨⟨hfresh, -⟩, _, hinput, _, hstore, rfl, rfl⟩ := h
      exact WorkerMove.hydrated ‹_› hfresh hinput hstore
    · obtain ⟨⟨hfresh, -⟩, _, hstore, rfl, rfl⟩ := h
      exact WorkerMove.digestedBridge ‹_› hfresh hstore
    · obtain ⟨_, hstore, rfl, rfl⟩ := h
      exact WorkerMove.digestedSettlement ‹_› hstore
    · obtain ⟨_, hstore, rfl, rfl⟩ := h
      exact WorkerMove.preflighted ‹_› hstore
    · obtain ⟨_, hstore, rfl, rfl⟩ := h
      exact WorkerMove.executed ‹_› hstore
    · obtain ⟨_, hstore, rfl, rfl⟩ := h
      exact WorkerMove.awaitingApproval ‹_› hstore
    · obtain ⟨-, _, hstore, rfl, rfl⟩ := h
      exact WorkerMove.mocked ‹_› hstore
    · obtain ⟨-, _, hstore, rfl, rfl⟩ := h
      exact WorkerMove.proving ‹_› hstore
    · obtain ⟨_, hstore, rfl, rfl⟩ := h
      exact WorkerMove.sealed ‹_› hstore
    · obtain ⟨rfl, rfl⟩ := h
      exact WorkerMove.requested ‹_›
    · obtain ⟨_, hstore, rfl, rfl⟩ := h
      exact WorkerMove.resolved ‹_› hstore
    · obtain ⟨_, hstore, rfl, rfl⟩ := h
      exact WorkerMove.proved ‹_› hstore
    · obtain ⟨_, hstore, rfl, rfl⟩ := h
      exact WorkerMove.measured ‹_› hstore
    · obtain ⟨_, hstore, _, hfind, rfl, rfl⟩ := h
      exact WorkerMove.submitting ‹_› hstore hfind
    · obtain ⟨_, hstore, rfl, rfl⟩ := h
      exact WorkerMove.prepared ‹_› hstore
    · obtain ⟨_, hstore, rfl, rfl⟩ := h
      exact WorkerMove.submitted ‹_› hstore

/-- A claim is resumed at its submission or at its persisted preflight. -/
theorem resumedStage_eq_ok {claim : ClaimedJob} {stage : WorkerStage}
    (h : resumedStage claim = .ok stage) :
    (∃ publicValues proof, stage = .sending publicValues proof) ∨
      ∃ publicValues, stage = .preflighted publicValues claim.cycleCount := by
  unfold resumedStage at h
  split at h
  · simp only [bind_eq_ok, requireSome_eq_ok, pure_eq_ok] at h
    obtain ⟨publicValues, -, hstage⟩ := h
    exact Or.inl ⟨publicValues, _, hstage.symm⟩
  · split at h
    · simp only [bind_eq_ok, requireSome_eq_ok, pure_eq_ok] at h
      obtain ⟨publicValues, -, -, -, hstage⟩ := h
      exact Or.inr ⟨publicValues, hstage.symm⟩
    · simp only [bind_eq_ok, require_eq_ok, exists_const, requireSome_eq_ok, pure_eq_ok] at h
      obtain ⟨-, publicValues, -, hstage⟩ := h
      exact Or.inr ⟨publicValues, hstage.symm⟩

/-- A worker keeps the job and the attempt of its claim. -/
theorem WorkerMove.claim_eq (h : WorkerMove state db now worker step after next) {later : Worker}
    (hlater : next = some later) :
    later.job.id = worker.job.id ∧ later.job.attempts = worker.job.attempts := by
  cases h <;> cases hlater <;> exact ⟨rfl, rfl⟩

/-- The statements of a worker, each at its stage and with its guard. -/
inductive WorkerChange (now : Timestamp) (worker : Worker) : WorkerStep → Job → Job → Prop
  | kept (step : WorkerStep) (job : Job) : WorkerChange now worker step job job
  | hydrated {context : SettlementReceipt.SettlementContextV1} {input : JobInput} {job : Job}
      (hstage : worker.stage = .claimed) (hfresh : worker.job.NeedsPreflight)
      (hinput : hydrateQueuedSettlement context worker.job.input = .ok input)
      (hguard : Fenced worker.job Validating job) :
      WorkerChange now worker (.hydrate context) job { job with input := input }
  | digested {digest : PastaPoseidon.Bytes32} {job : Job}
      (hguard : Fenced worker.job Validating job) :
      WorkerChange now worker .storePreflightDigest job
        { job with preflightInputDigest := some digest }
  | preflighted {publicValues : ByteWords.Bytes} {cycles : Option ℕ} {job : Job}
      (hguard : Fenced worker.job Validating job) :
      WorkerChange now worker (.storePreflight publicValues cycles) job
        { job with publicValues := some publicValues, cycleCount := cycles }
  | executed {job : Job} (hstage : worker.stage = .executing)
      (hguard : Fenced worker.job Validating job) :
      WorkerChange now worker .storeExecuted job
        { job with status := .executed, completedAt := some now }
  | awaitingApproval {job : Job} (hguard : Fenced worker.job Validating job) :
      WorkerChange now worker .storeAwaitingApproval job
        { job with status := .awaitingApproval, completedAt := none }
  | mocked {cycles : Option ℕ} {job : Job}
      (hguard : Fenced worker.job (fun job => job.status ∈ [.validating, .proving]) job) :
      WorkerChange now worker .submitLocalMock job { job with cycleCount := cycles }
  | proving {job : Job}
      (hguard : Fenced worker.job (fun job => job.status ∉ [.reorged, .rejected, .confirmed,
        .ethereumReverted, .failed, .executed]) job) :
      WorkerChange now worker .setProving job { job with status := .proving }
  | sealed {intent : Uuid} {job : Job}
      (hguard : Fenced worker.job (fun job => job.status = .proving ∧
        job.proofRequestIntent = none ∧ job.proofRequestId = none) job) :
      WorkerChange now worker (.beginProofRequest intent) job
        { job with proofRequestIntent := some intent }
  | resolved {requestId : String} {intent : Uuid} {publicValues : ByteWords.Bytes}
      {cycles : Option ℕ} {job : Job}
      (hstage : worker.stage = .requested intent publicValues cycles)
      (hid : job.id = worker.job.id) (hintent : job.proofRequestIntent = some intent)
      (hrequest : job.proofRequestId = none ∨ job.proofRequestId = some requestId)
      (hstatus : job.status ∈ [.queued, .approved, .proving, .proofRequested]) :
      WorkerChange now worker (.finishProofRequest requestId) job
        { job with
          proofRequestId := some requestId
          status := if job.status = .proving then .proofRequested else job.status
          error := none
          errorClass := none
          nextAttemptAt := none }
  | proved {proof publicValues : ByteWords.Bytes} {job : Job}
      (hguard : Fenced worker.job (fun job => job.status ∈ [.proving, .proofRequested]) job) :
      WorkerChange now worker (.storeProof proof) job
        { job with proofBytes := some proof, publicValues := some publicValues }
  | measured {measured cycles : Option ℕ} {job : Job}
      (hguard : Fenced worker.job (fun job => job.status ∈ [.proving, .proofRequested]) job) :
      WorkerChange now worker (.storeMetrics measured) job { job with cycleCount := cycles }
  | submitting {publicValues proof : ByteWords.Bytes} {job : Job}
      (hguard : Fenced worker.job (fun job =>
        job.status ∈ [.validating, .proving, .proofRequested, .submitting]) job) :
      WorkerChange now worker .send job
        { job with
          publicValues := some publicValues
          proofBytes := some proof
          transactionHash :=
            (job.preparedTransaction.map PreparedSubmission.transactionHash).or job.transactionHash
          status := .submitting }
  | prepared {prepared : PreparedSubmission} {job : Job}
      (hguard : Fenced worker.job (fun job =>
        job.status = .submitting ∧ job.preparedTransaction = none) job)
      (hstage : worker.stage = .preparing) :
      WorkerChange now worker (.storePrepared prepared) job
        { job with
          preparedTransaction := some prepared
          transactionHash := some prepared.transactionHash }
  | submitted {job : Job} (hguard : Fenced worker.job (fun job => job.status = .submitting) job) :
      WorkerChange now worker .storeSubmitted job
        { job with
          status := .submitted
          error := none
          errorClass := none
          nextAttemptAt := none }
  | failed {failure : FailureClass} {message : String} {job : Job}
      (hguard : RecordsFailure worker.job job) :
      WorkerChange now worker (.recordFailure failure message) job
        (failedRow now failure message job)

/-- What a call of a worker leaves as it was, next to the job table. -/
structure WorkerFrame (db after : Database) : Prop where
  /-- The writer row is unchanged. -/
  writer : after.writer = db.writer
  /-- Readiness is unchanged. -/
  ready : after.recoveryReady = db.recoveryReady
  /-- The constraints of the table are kept. -/
  constrained : JobsConstrained db.jobs → JobsConstrained after.jobs

/-- An unchanged database meets the frame. -/
theorem WorkerFrame.refl (db : Database) : WorkerFrame db db := ⟨rfl, rfl, id⟩

/-- Frames compose. -/
theorem WorkerFrame.trans {later : Database} (first : WorkerFrame db after)
    (second : WorkerFrame after later) : WorkerFrame db later where
  writer := second.writer.trans first.writer
  ready := second.ready.trans first.ready
  constrained := fun h => second.constrained (first.constrained h)

/-- The job table after a call of a worker. -/
abbrev WorkerEvolves (now : Timestamp) (worker : Worker) (step : WorkerStep)
    (before after : List Job) : Prop :=
  Evolves (WorkerChange now worker step) (fun _ => False) (fun _ => False) before after

/-- A statement that must rewrite one row. -/
theorem workerEvolves_of_updateJob {p : Job → Prop} [DecidablePred p] {f : Job → Job}
    {message : String} (hchange : ∀ job, p job → WorkerChange now worker step job (f job))
    (h : db.updateJob p f message = .ok after) :
    WorkerEvolves now worker step db.jobs after.jobs ∧ WorkerFrame db after := by
  obtain ⟨-, hconstrained, rfl⟩ := Database.updateJob_eq_ok.mp h
  exact ⟨Evolves.update (WorkerChange.kept step) (fun job _ => hchange job),
    rfl, rfl, fun _ => hconstrained⟩

/-- A statement that may rewrite no row. -/
theorem workerEvolves_of_updateJobs {p : Job → Prop} [DecidablePred p] {f : Job → Job}
    (hchange : ∀ job, p job → WorkerChange now worker step job (f job))
    (h : db.updateJobs p f = .ok after) :
    WorkerEvolves now worker step db.jobs after.jobs ∧ WorkerFrame db after := by
  obtain ⟨hconstrained, rfl⟩ := Database.updateJobs_eq_ok.mp h
  exact ⟨Evolves.update (WorkerChange.kept step) (fun job _ => hchange job),
    rfl, rfl, fun _ => hconstrained⟩

/-- `record_failure` rewrites the row of the current attempt. -/
theorem recordFailure_evolves {failure : FailureClass} {message : String}
    (h : recordFailure db now worker.job failure message = .ok after) :
    WorkerEvolves now worker (.recordFailure failure message) db.jobs after.jobs ∧
      WorkerFrame db after := by
  simp only [recordFailure, bind_eq_ok, requireSome_eq_ok] at h
  obtain ⟨-, -, stored, hstore, h⟩ := h
  have hchange : ∀ job, RecordsFailure worker.job job → WorkerChange now worker
      (.recordFailure failure message) job (failedRow now failure message job) :=
    fun _ => WorkerChange.failed
  have hevolves := workerEvolves_of_updateJobs hchange hstore
  have hafter : stored.jobs = after.jobs ∧ WorkerFrame stored after := by
    split at h
    · rw [pure_eq_ok] at h
      rw [← h]
      exact ⟨rfl, rfl, rfl, id⟩
    · rw [pure_eq_ok] at h
      rw [← h]
      exact ⟨rfl, WorkerFrame.refl stored⟩
  rw [← hafter.1]
  exact ⟨hevolves.1, hevolves.2.trans hafter.2⟩

/-- What a call of a worker does to the database. -/
theorem WorkerMove.evolves (h : WorkerMove state db now worker step after next) :
    WorkerEvolves now worker step db.jobs after.jobs ∧ WorkerFrame db after := by
  cases h with
  | resumed hstage hresume => exact ⟨Evolves.refl (WorkerChange.kept _), WorkerFrame.refl db⟩
  | hydrated hstage hfresh hinput hstore =>
    exact workerEvolves_of_updateJob (fun _ => WorkerChange.hydrated hstage hfresh hinput) hstore
  | digestedBridge hstage hfresh hstore =>
    exact workerEvolves_of_updateJob (fun _ => WorkerChange.digested) hstore
  | digestedSettlement hstage hstore =>
    exact workerEvolves_of_updateJob (fun _ => WorkerChange.digested) hstore
  | preflighted hstage hstore =>
    exact workerEvolves_of_updateJob (fun _ => WorkerChange.preflighted) hstore
  | executed hstage hstore =>
    exact workerEvolves_of_updateJob (fun _ => WorkerChange.executed hstage) hstore
  | awaitingApproval hstage hstore =>
    exact workerEvolves_of_updateJob (fun _ => WorkerChange.awaitingApproval) hstore
  | mocked hstage hstore =>
    exact workerEvolves_of_updateJob (fun _ => WorkerChange.mocked) hstore
  | proving hstage hstore =>
    exact workerEvolves_of_updateJob (fun _ => WorkerChange.proving) hstore
  | sealed hstage hstore =>
    exact workerEvolves_of_updateJob (fun _ => WorkerChange.sealed) hstore
  | requested hstage => exact ⟨Evolves.refl (WorkerChange.kept _), WorkerFrame.refl db⟩
  | resolved hstage hstore =>
    exact workerEvolves_of_updateJob
      (fun _ hguard => WorkerChange.resolved hstage hguard.1 hguard.2.1 hguard.2.2.1 hguard.2.2.2)
      hstore
  | proved hstage hstore =>
    exact workerEvolves_of_updateJob (fun _ => WorkerChange.proved) hstore
  | measured hstage hstore =>
    exact workerEvolves_of_updateJob (fun _ => WorkerChange.measured) hstore
  | submitting hstage hstore hfind =>
    exact workerEvolves_of_updateJob (fun _ => WorkerChange.submitting) hstore
  | prepared hstage hstore =>
    exact workerEvolves_of_updateJob (fun _ hguard => WorkerChange.prepared hguard hstage) hstore
  | submitted hstage hstore =>
    exact workerEvolves_of_updateJobs (fun _ => WorkerChange.submitted) hstore
  | failed hstore => exact recordFailure_evolves hstore

end EthereumSettlement.WorkerMoves
