import EthereumSettlement.GatewayRuns
import EthereumSettlement.IndexerMoves
import EthereumSettlement.WorkerMoves

/-!
# What one action does to the job table

Every action of the gateway changes the job table in one of a few ways: it keeps a
row, rewrites it by one named statement whose guard it met, appends a new row or
deletes a recovered one. The cases below say so once; every invariant of the job
table is read off them.
-/

namespace EthereumSettlement.GatewayChanges

open CheckedCalls KeyedTables TransitionRuns
open GatewayTables OuterWriter ProofJobs WorkerMoves GatewayIndexer IndexerMoves GatewayRuns

/-- What one action does to a row that it keeps. -/
inductive JobChange (s : GatewayState) : Action → Job → Job → Prop
  | kept (action : Action) (job : Job) : JobChange s action job job
  | approved {now : Timestamp} {id : Uuid} {request : ApproveProofRequest} {approval : Approval}
      {job : Job} (hguard : Approvable id request.inputDigest job) :
      JobChange s (.serve (.approveProof now id request)) job (approvedRow approval job)
  | cancelled {now : Timestamp} {id : Uuid} {job : Job} (hguard : Cancellable id job) :
      JobChange s (.serve (.cancelProof now id)) job (cancelledRow now job)
  | interrupted {job : Job}
      (hstatus : job.status ∈ [.validating, .proofRequested, .proving, .submitting]) :
      JobChange s (.serve .recoverInterrupted) job (interruptedRow job)
  | claimed {now : Timestamp} {worker : ℕ} {locked : List Uuid} {job : Job}
      (hclaimable : Claimable { s.db with writer := lapsed s.db now } now job) :
      JobChange s (.claim now worker locked) job (claimedRow job)
  | worked {now : Timestamp} {worker : ℕ} {step : WorkerStep} {current : Worker} {job after : Job}
      (hworker : s.workers worker = some current)
      (hchange : WorkerChange now current step job after) :
      JobChange s (.work now worker step) job after
  | ticked {now : Timestamp} {indexer : ℕ} {step : IndexerStep} {job after : Job}
      (hchange : TickChange s.db now (s.indexers indexer) step job after) :
      JobChange s (.tick now indexer step) job after

/-- The clock of a request. -/
def requestTime : Request → Option Timestamp
  | .acquire now _ _ _ _ | .renew now _ _ | .release now _ | .createSettlement now _ _ _
  | .createBridge now _ _ _ _ | .sendZkapp now _ _ | .queueDepositBatch now _ _ _ _ _
  | .approveProof now _ _ | .cancelProof now _ => some now
  | .initializeGatewayConfig _ _ | .recoverInterrupted => none

/-- The rows that an action appends. -/
inductive Inserted (s : GatewayState) : Action → Job → Prop
  | admitted {request : Request} {id reservationId : Uuid} {kind : ProofKind} {input : JobInput}
      {idempotencyKey : Option String} {digest : PastaPoseidon.Bytes32} {now : Timestamp}
      {writer : Owner} (hid : (Action.serve request).generated.head? = some id)
      (hnow : requestTime request = some now) (hrecovered : input.recoveredFromEthereum = false)
      (hknown : ∀ job ∈ s.db.jobs, job.OutcomeKnown)
      (hattached : Attached s.db now (Job.queued id kind input idempotencyKey digest now)
        reservationId writer) :
      Inserted s (.serve request) (Job.queued id kind input idempotencyKey digest now)
  | ticked {now : Timestamp} {indexer : ℕ} {step : IndexerStep} {job : Job}
      (hinserted : TickInserted now (s.indexers indexer) step job) :
      Inserted s (.tick now indexer step) job

/-- The rows that an action deletes. -/
inductive Deleted (s : GatewayState) : Action → Job → Prop
  | ticked {now : Timestamp} {indexer : ℕ} {step : IndexerStep} {job : Job}
      (hdeleted : TickDeleted s.db (s.indexers indexer) step job) :
      Deleted s (.tick now indexer step) job

/-- What an action does to the job table, the writer row and the readiness flag. -/
structure Changes (s : GatewayState) (action : Action) (after : Database) : Prop where
  /-- Every row changes as the action may change it. -/
  rows : Evolves (JobChange s action) (Inserted s action) (Deleted s action) s.db.jobs after.jobs
  /-- The constraints of the table are kept. -/
  constrained : JobsConstrained s.db.jobs → JobsConstrained after.jobs
  /-- The writer row changes as the action may change it. -/
  writer : WriterChange s.db action.generated after.writer
  /-- Only the indexer reports readiness. -/
  ready : after.recoveryReady = true → s.db.recoveryReady = true ∨
    ∃ now indexer tick, action = .tick now indexer .reportReady ∧
      s.indexers indexer = .reconciling tick []

section Requests

variable {state : AppState} {s : GatewayState} {after : Database} {now : Timestamp} {id : Uuid}

/-- A transaction that leaves the job table as it was. -/
theorem changes_of_writer {action : Action} (hjobs : after.jobs = s.db.jobs)
    (hwriter : WriterChange s.db action.generated after.writer)
    (hready : after.recoveryReady = true → s.db.recoveryReady = true) : Changes s action after where
  rows := hjobs ▸ Evolves.refl (JobChange.kept action)
  constrained := fun h => hjobs ▸ h
  writer := hwriter
  ready := fun h => Or.inl (hready h)

/-- A conditional update of the job table alone. -/
theorem changes_of_update {action : Action} {p : Job → Prop} [DecidablePred p] {f : Job → Job}
    (hchange : ∀ job, p job → JobChange s action job (f job))
    (hjobs : after.jobs = updateWhere p f s.db.jobs) (hconstrained : JobsConstrained after.jobs)
    (hwriter : after.writer = s.db.writer) (hready : after.recoveryReady = s.db.recoveryReady) :
    Changes s action after where
  rows := hjobs ▸ Evolves.update (JobChange.kept action) (fun job _ => hchange job)
  constrained := fun _ => hconstrained
  writer := hwriter ▸ WriterChange.kept
  ready := fun h => Or.inl (hready ▸ h)

/-- The writer row of a new job. -/
theorem writerChange_of_attached {generated : List Uuid} {job : Job} {reservationId : Uuid}
    {writer : Owner} (hreservation : job.kind = .bridge → reservationId ∈ generated)
    (h : Attached s.db now job reservationId writer) : WriterChange s.db generated writer := by
  cases h with
  | settlement presented holder hkind hpresented hmatches hholder hjob hlive =>
    exact WriterChange.attached holder job.id (lapsed_holder.mp hholder).1 hjob
  | bridge holder hkind hfree hholder hjob =>
    exact WriterChange.granted now holder hfree (hholder ▸ hreservation hkind)

/-- An admission appends one new job or none. -/
theorem changes_of_admission {request : Request} {reservationId : Uuid} {kind : ProofKind}
    {input : JobInput} (hid : (Action.serve request).generated.head? = some id)
    (hnow : requestTime request = some now)
    (hreservation : kind = .bridge → reservationId ∈ (Action.serve request).generated)
    (hrecovered : input.recoveredFromEthereum = false)
    (h : Admission s.db after now id reservationId kind input) :
    Changes s (.serve request) after := by
  rcases h.outcome with ⟨hjobs, hwriter⟩ | ⟨key, digest, hconstrained, hjobs, hknown, hattached⟩
  · exact changes_of_writer hjobs (hwriter ▸ WriterChange.lapsed now) (fun _ => h.ready)
  · refine ⟨?_, fun _ => hconstrained, ?_, fun _ => Or.inl h.ready⟩
    · rw [hjobs]
      exact Evolves.append (JobChange.kept _)
        (Inserted.admitted hid hnow hrecovered hknown hattached)
    · exact writerChange_of_attached hreservation hattached

/-- What a transaction of the API does. -/
theorem changes_of_serve {request : Request}
    (hfresh : ∀ id ∈ (Action.serve request).generated, ∀ job ∈ s.db.jobs, job.id ≠ id)
    (h : serve state s.db request = .ok after) : Changes s (.serve request) after := by
  cases request with
  | initializeGatewayConfig outerPublicKey accounts =>
    rw [serve, pure_eq_ok] at h
    rw [← h]
    exact changes_of_writer rfl WriterChange.kept (fun h => absurd h (by simp [initializeGatewayConfig]))
  | acquire now reservationId request block checkpoint =>
    simp only [serve, map_eq_ok, acquire, bind_eq_ok, Prod.exists, exists_and_right] at h
    obtain ⟨db, ⟨result, -, h⟩, rfl⟩ := h
    obtain ⟨hready, writer, rfl, -, hwriter⟩ := acquireWithCheckpoint_eq_ok h
    refine changes_of_writer rfl ?_ (fun _ => hready)
    rcases hwriter with ⟨holder, expiry, hholder, hjob, -, rfl⟩ | ⟨hfree, -, holder, rfl, rfl⟩
    · exact WriterChange.extended holder expiry (lapsed_holder.mp hholder).1 hjob
    · exact WriterChange.granted now holder hfree List.mem_cons_self
  | renew now token ttlSeconds =>
    simp only [serve, map_eq_ok, renew, bind_eq_ok, Prod.exists, exists_and_right] at h
    obtain ⟨db, ⟨result, seconds, -, h⟩, rfl⟩ := h
    obtain ⟨-, holder, hholder, ⟨hjob, -, expiry, rfl⟩ | ⟨-, rfl⟩⟩ := renewToken_eq_ok h
    · exact changes_of_writer rfl (WriterChange.extended holder expiry hholder hjob) id
    · exact changes_of_writer rfl WriterChange.kept id
  | release now token =>
    obtain ⟨-, ⟨-, rfl⟩ | ⟨holder, hholder, -, hjob, rfl⟩⟩ := release_eq_ok h
    · exact changes_of_writer rfl (WriterChange.lapsed now) id
    · exact changes_of_writer rfl
        (WriterChange.released holder (lapsed_holder.mp hholder).1 hjob) id
  | createSettlement now id header request =>
    simp only [serve, map_eq_ok, createSettlement, bind_eq_ok, require_eq_ok, exists_const,
      Prod.exists, exists_and_right] at h
    obtain ⟨db, ⟨actualId, -, -, -, h⟩, rfl⟩ := h
    exact changes_of_admission rfl rfl (fun hkind => absurd hkind (by simp)) rfl
      (createJob_admission (hfresh id List.mem_cons_self) h)
  | createBridge now id reservationId header input =>
    simp only [serve, map_eq_ok, createBridge, Prod.exists, exists_and_right] at h
    obtain ⟨db, ⟨actualId, h⟩, rfl⟩ := h
    exact changes_of_admission rfl rfl
      (fun _ => List.mem_cons_of_mem _ List.mem_cons_self) rfl
      (createJob_admission (hfresh id List.mem_cons_self) h)
  | sendZkapp now id settlement =>
    simp only [serve, map_eq_ok, Prod.exists, exists_and_right] at h
    obtain ⟨db, ⟨actualId, h⟩, rfl⟩ := h
    exact changes_of_admission rfl rfl (fun hkind => absurd hkind (by simp)) rfl
      (sendZkapp_admission (hfresh id List.mem_cons_self) h)
  | queueDepositBatch now id reservationId idempotencyKey allowTerminalRetry input =>
    simp only [serve, map_eq_ok, Prod.exists, exists_and_right] at h
    obtain ⟨db, ⟨actualId, h⟩, rfl⟩ := h
    exact changes_of_admission rfl rfl
      (fun _ => List.mem_cons_of_mem _ List.mem_cons_self) rfl
      (queueCanonicalDepositBatch_admission (hfresh id List.mem_cons_self) h)
  | approveProof now id request =>
    obtain ⟨approval, hconstrained, hjobs, hwriter, hready⟩ := approveProof_eq_ok h
    exact changes_of_update (fun job hguard => JobChange.approved hguard) hjobs hconstrained hwriter
      hready
  | cancelProof now id =>
    obtain ⟨hconstrained, hjobs, hwriter, hready⟩ := cancelProof_eq_ok h
    exact changes_of_update (fun job hguard => JobChange.cancelled hguard) hjobs hconstrained hwriter
      hready
  | recoverInterrupted =>
    simp only [serve, recoverInterrupted, Database.updateJobs_eq_ok] at h
    obtain ⟨hconstrained, rfl⟩ := h
    exact changes_of_update (fun job hguard => JobChange.interrupted hguard) rfl hconstrained rfl rfl

end Requests

section Steps

variable {state : AppState} {s next : GatewayState} {db after : Database} {now : Timestamp}
variable {action : Action}

/-- A successful `claim_job` claims one claimable row or none. -/
theorem claimJob_eq_ok {locked : List Uuid} {claim : Option ClaimedJob}
    (h : claimJob db now locked = .ok (after, claim)) :
    (claim = none ∧ (db = after ∨
        (db.recoveryReady = true ∧ { db with writer := lapsed db now } = after))) ∨
      ∃ job ∈ db.jobs, db.recoveryReady = true ∧
        Claimable { db with writer := lapsed db now } now job ∧ claim = some (ClaimedJob.of job) ∧
        JobsConstrained (updateWhere (fun row => row.id = job.id) claimedRow db.jobs) ∧
        { db with
          writer := lapsed db now
          jobs := updateWhere (fun row => row.id = job.id) claimedRow db.jobs } = after := by
  unfold claimJob at h
  by_cases hready : db.recoveryReady = true
  · rw [if_pos hready] at h
    simp only [bind_eq_ok, lock_eq_ok] at h
    obtain ⟨_, ⟨-, rfl⟩, h⟩ := h
    split at h
    · rename_i job hfind
      simp only [bind_eq_ok, Database.updateJobs_eq_ok, pure_eq_ok, Prod.mk.injEq] at h
      obtain ⟨_, ⟨hconstrained, rfl⟩, rfl, rfl⟩ := h
      obtain ⟨hmem, hcandidate⟩ := List.mem_filter.mp (List.mem_of_find?_eq_some hfind)
      have hclaimable := (of_decide_eq_true hcandidate).1
      exact Or.inr ⟨job, hmem, hready, hclaimable, rfl, hconstrained, rfl⟩
    · rw [pure_eq_ok, Prod.mk.injEq] at h
      obtain ⟨rfl, rfl⟩ := h
      exact Or.inl ⟨rfl, Or.inr ⟨hready, rfl⟩⟩
  · rw [if_neg hready, pure_eq_ok, Prod.mk.injEq] at h
    obtain ⟨rfl, rfl⟩ := h
    exact Or.inl ⟨rfl, Or.inl rfl⟩

/-- What a claim does. -/
theorem changes_of_claim {worker : ℕ} {locked : List Uuid} {claim : Option ClaimedJob}
    (hn : (s.db.jobs.map Job.id).Nodup) (h : claimJob s.db now locked = .ok (after, claim)) :
    Changes s (.claim now worker locked) after := by
  rcases claimJob_eq_ok h with ⟨-, rfl | ⟨-, rfl⟩⟩ | ⟨job, hmem, hready, hclaimable, -, hconstrained, rfl⟩
  · exact changes_of_writer rfl WriterChange.kept id
  · exact changes_of_writer rfl (WriterChange.lapsed now) id
  · refine ⟨?_, fun _ => hconstrained, WriterChange.lapsed now, Or.inl⟩
    refine Evolves.update (JobChange.kept _) (fun row hrow hid => ?_)
    rw [row_eq_of_key hn hrow hmem hid]
    exact JobChange.claimed hclaimable

/-- What a call of a worker does. -/
theorem changes_of_work {worker : ℕ} {step : WorkerStep} {current : Worker} {later : Option Worker}
    (hworker : s.workers worker = some current)
    (h : WorkerMove state s.db now current step after later) :
    Changes s (.work now worker step) after := by
  obtain ⟨hrows, hframe⟩ := h.evolves
  refine ⟨hrows.mono (fun _ _ hchange => JobChange.worked hworker hchange) (fun _ => False.elim)
    (fun _ => False.elim), hframe.constrained, hframe.writer ▸ WriterChange.kept,
    fun hready => Or.inl (hframe.ready ▸ hready)⟩

/-- What a call of a tick does. -/
theorem changes_of_tick {indexer : ℕ} {step : IndexerStep} {stage : IndexerStage}
    (h : TickMove state s.db now (s.indexers indexer) step after stage) :
    Changes s (.tick now indexer step) after := by
  obtain ⟨hrows, hframe⟩ := h.evolves
  refine ⟨hrows.mono (fun _ _ => JobChange.ticked) (fun _ => Inserted.ticked)
    (fun _ => Deleted.ticked), hframe.constrained, hframe.writer ▸ WriterChange.kept, ?_⟩
  intro hready
  rcases hframe.ready hready with hready | ⟨rfl, tick, hstage⟩
  · exact Or.inl hready
  · exact Or.inr ⟨now, indexer, tick, rfl, hstage⟩

/-- What one action does to the state, before its generated identifiers are recorded. -/
inductive StepMove (state : AppState) (s : GatewayState) : Action → GatewayState → Prop
  | served {request : Request} {db : Database} (hserve : serve state s.db request = .ok db) :
      StepMove state s (.serve request) { s with db := db }
  | claimed {now : Timestamp} {worker : ℕ} {locked : List Uuid} {db : Database}
      {claim : Option ClaimedJob} (hclaim : claimJob s.db now locked = .ok (db, claim)) :
      StepMove state s (.claim now worker locked) { s with
        db := db
        workers := Function.update s.workers worker (claim.map fun claim => ⟨claim, .claimed⟩) }
  | worked {now : Timestamp} {worker : ℕ} {call : WorkerStep} {current : Worker} {db : Database}
      {later : Option Worker} (hworker : s.workers worker = some current)
      (hmove : WorkerMove state s.db now current call db later) :
      StepMove state s (.work now worker call) { s with
        db := db
        workers := Function.update s.workers worker later
        requests := s.requests ++ sentRequest current call }
  | crashed (worker : ℕ) : StepMove state s (.crash worker)
      { s with workers := Function.update s.workers worker none }
  | ticked {now : Timestamp} {indexer : ℕ} {call : IndexerStep} {db : Database}
      {later : IndexerStage} (hmove : TickMove state s.db now (s.indexers indexer) call db later) :
      StepMove state s (.tick now indexer call) { s with
        db := db
        indexers := Function.update s.indexers indexer later }

/-- Every successful step is one of the moves, with its generated identifiers recorded. -/
theorem step_move (h : step state s action = .ok next) : ∃ performed,
    StepMove state s action performed ∧
      { performed with minted := action.generated ++ performed.minted } = next := by
  obtain ⟨-, performed, hperform, hnext⟩ := step_eq_ok.mp h
  refine ⟨performed, ?_, hnext⟩
  cases action with
  | serve request =>
    simp only [perform, bind_eq_ok, pure_eq_ok] at hperform
    obtain ⟨db, hserve, rfl⟩ := hperform
    exact StepMove.served hserve
  | claim now worker locked =>
    simp only [perform, bind_eq_ok, require_eq_ok, exists_const, pure_eq_ok, Prod.exists] at hperform
    obtain ⟨-, db, claim, hclaim, rfl⟩ := hperform
    exact StepMove.claimed hclaim
  | work now worker call =>
    simp only [perform, bind_eq_ok, requireSome_eq_ok, pure_eq_ok, Prod.exists] at hperform
    obtain ⟨current, hworker, db, later, hprocess, rfl⟩ := hperform
    exact StepMove.worked hworker (processJob_eq_ok hprocess)
  | crash worker =>
    rw [perform, pure_eq_ok] at hperform
    rw [← hperform]
    exact StepMove.crashed worker
  | tick now indexer call =>
    simp only [perform, bind_eq_ok, pure_eq_ok, Prod.exists] at hperform
    obtain ⟨db, later, htick, rfl⟩ := hperform
    exact StepMove.ticked (tickStep_eq_ok htick)

/-- A step of an indexer is a move of its tick. -/
theorem tickMove_of_step {now : Timestamp} {indexer : ℕ} {call : IndexerStep}
    (h : step state s (.tick now indexer call) = .ok next) :
    ∃ later, TickMove state s.db now (s.indexers indexer) call next.db later := by
  obtain ⟨performed, hmove, rfl⟩ := step_move h
  cases hmove with
  | ticked hmove => exact ⟨_, hmove⟩

/-- Job identifiers are distinct and generated. -/
structure Keyed (s : GatewayState) : Prop where
  /-- The constraints of the table hold. -/
  constrained : JobsConstrained s.db.jobs
  /-- Every identifier was generated. -/
  minted : ∀ job ∈ s.db.jobs, job.id ∈ s.minted

/-- What one step of the system does to the database. -/
theorem step_changes (hkeyed : Keyed s) (h : step state s action = .ok next) :
    Changes s action next.db := by
  obtain ⟨⟨-, hnew⟩, -⟩ := step_eq_ok.mp h
  have hfresh : ∀ id ∈ action.generated, ∀ job ∈ s.db.jobs, job.id ≠ id := by
    intro id hid job hjob heq
    exact hnew id hid (heq ▸ hkeyed.minted job hjob)
  obtain ⟨performed, hmove, rfl⟩ := step_move h
  cases hmove with
  | served hserve => exact changes_of_serve hfresh hserve
  | claimed hclaim => exact changes_of_claim hkeyed.constrained.primaryKey hclaim
  | worked hworker hmove => exact changes_of_work hworker hmove
  | crashed worker => exact changes_of_writer rfl WriterChange.kept id
  | ticked hmove => exact changes_of_tick hmove

/-- The identifiers generated so far after a step. -/
theorem step_minted (h : step state s action = .ok next) :
    next.minted = action.generated ++ s.minted := by
  obtain ⟨performed, hmove, rfl⟩ := step_move h
  have hminted : performed.minted = s.minted := by
    cases hmove <;> rfl
  rw [hminted]

/-- A changed row keeps its identifier. -/
theorem JobChange.id_eq {old row : Job} (h : JobChange s action old row) : row.id = old.id := by
  cases h with
  | kept => rfl
  | approved => rfl
  | cancelled => rfl
  | interrupted => rfl
  | claimed => rfl
  | worked hworker hchange =>
    cases hchange with
    | failed hguard =>
      unfold failedRow
      split
      · rfl
      · split <;> rfl
    | _ => rfl
  | ticked hchange => cases hchange <;> rfl

/-- An appended row has a new identifier. -/
theorem Inserted.id_mem {row : Job} (h : Inserted s action row) : row.id ∈ action.generated := by
  cases h with
  | admitted hid => exact List.mem_of_mem_head? hid
  | ticked hinserted =>
    cases hinserted with
    | recovered hstage => exact List.mem_cons_self

/-- A step keeps job identifiers distinct and generated. -/
theorem keyed_step (hkeyed : Keyed s) (h : step state s action = .ok next) : Keyed next := by
  have hchanges := step_changes hkeyed h
  refine ⟨hchanges.constrained hkeyed.constrained, fun row hrow => ?_⟩
  rw [step_minted h]
  rcases hchanges.rows.origin row hrow with ⟨old, hold, hchange⟩ | hinserted
  · rw [hchange.id_eq]
    exact List.mem_append_right _ (hkeyed.minted old hold)
  · exact List.mem_append_left _ hinserted.id_mem

/-- The job identifiers of every reached state are distinct and generated. -/
theorem keyed_run (state : AppState) (actions : List Action) :
    Keyed (run (step state) start actions) := by
  refine run_invariant (fun s action next => keyed_step) ?_ actions
  refine ⟨by decide, fun job hjob => ?_⟩
  simp [start, emptyDatabase] at hjob

/-- A generated identifier stays generated. -/
theorem minted_mono (h : step state s action = .ok next) {id : Uuid} (hid : id ∈ s.minted) :
    id ∈ next.minted := by
  rw [step_minted h]
  exact List.mem_append_right _ hid

/-- A row after a step whose identifier was in use is the changed row of that identifier. -/
theorem origin_of_minted (hkeyed : Keyed s) (h : step state s action = .ok next) {row : Job}
    (hrow : row ∈ next.db.jobs) (hid : row.id ∈ s.minted) :
    ∃ old ∈ s.db.jobs, old.id = row.id ∧ JobChange s action old row := by
  obtain ⟨⟨-, hnew⟩, -⟩ := step_eq_ok.mp h
  rcases (step_changes hkeyed h).rows.origin row hrow with ⟨old, hold, hchange⟩ | hinserted
  · exact ⟨old, hold, hchange.id_eq.symm, hchange⟩
  · exact absurd hid (hnew row.id hinserted.id_mem)

/-- The rows of one identifier before and after a step are related by a change. -/
theorem change_of_id (hkeyed : Keyed s) (h : step state s action = .ok next) {old row : Job}
    (hold : old ∈ s.db.jobs) (hrow : row ∈ next.db.jobs) (hid : row.id = old.id) :
    JobChange s action old row := by
  obtain ⟨origin, horigin, heq, hchange⟩ :=
    origin_of_minted hkeyed h hrow (hid ▸ hkeyed.minted old hold)
  rwa [row_eq_of_key hkeyed.constrained.primaryKey horigin hold (heq.trans hid)] at hchange

/-- Where a running worker comes from. -/
inductive WorkerOrigin (state : AppState) (s : GatewayState) (action : Action)
    (next : GatewayState) (worker : ℕ) (later : Worker) : Prop
  | kept (hkept : s.workers worker = some later) (hidle : ∀ now step, action ≠ .work now worker step)
  | claimed {now : Timestamp} {locked : List Uuid} {job : Job}
      (haction : action = .claim now worker locked) (hjob : job ∈ s.db.jobs)
      (hclaimable : Claimable { s.db with writer := lapsed s.db now } now job)
      (hrow : claimedRow job ∈ next.db.jobs) (hlater : later = ⟨ClaimedJob.of job, .claimed⟩)
  | moved {now : Timestamp} {step : WorkerStep} {current : Worker}
      (haction : action = .work now worker step) (hcurrent : s.workers worker = some current)
      (hmove : WorkerMove state s.db now current step next.db (some later))

/-- A running worker was running, has claimed a row or has made a move. -/
theorem worker_origin (h : step state s action = .ok next) {worker : ℕ} {later : Worker}
    (hlater : next.workers worker = some later) : WorkerOrigin state s action next worker later := by
  obtain ⟨performed, hmove, rfl⟩ := step_move h
  cases hmove with
  | served hserve => exact WorkerOrigin.kept hlater (fun _ _ => by simp)
  | @claimed now claimant locked db claim hclaim =>
    by_cases hworker : worker = claimant
    · subst hworker
      simp only [Function.update_self] at hlater
      rcases claimJob_eq_ok hclaim with ⟨rfl, -⟩ | ⟨job, hjob, -, hclaimable, rfl, -, rfl⟩
      · simp at hlater
      · refine WorkerOrigin.claimed rfl hjob hclaimable ?_ (Option.some.inj hlater).symm
        exact mem_updateWhere.mpr ⟨job, hjob, if_pos rfl⟩
    · simp only [Function.update_of_ne hworker] at hlater
      exact WorkerOrigin.kept hlater (fun _ _ => by simp)
  | @worked now mover call current db moved hcurrent hmove =>
    by_cases hworker : worker = mover
    · subst hworker
      simp only [Function.update_self] at hlater
      exact WorkerOrigin.moved rfl hcurrent (hlater ▸ hmove)
    · simp only [Function.update_of_ne hworker] at hlater
      refine WorkerOrigin.kept hlater (fun now' step' heq => ?_)
      injection heq with _ hmover _
      exact hworker hmover.symm
  | crashed crashed =>
    by_cases hworker : worker = crashed
    · subst hworker
      simp at hlater
    · simp only [Function.update_of_ne hworker] at hlater
      exact WorkerOrigin.kept hlater (fun _ _ => by simp)
  | ticked hmove => exact WorkerOrigin.kept hlater (fun _ _ => by simp)

/-- The stage of an indexer is unchanged or the result of a move. -/
theorem indexer_origin (h : step state s action = .ok next) (indexer : ℕ) :
    next.indexers indexer = s.indexers indexer ∨ ∃ now step, action = .tick now indexer step ∧
      TickMove state s.db now (s.indexers indexer) step next.db (next.indexers indexer) := by
  obtain ⟨performed, hmove, rfl⟩ := step_move h
  cases hmove with
  | served hserve => exact Or.inl rfl
  | claimed hclaim => exact Or.inl rfl
  | worked hworker hmove => exact Or.inl rfl
  | crashed worker => exact Or.inl rfl
  | @ticked now ticking call db later hmove =>
    by_cases hindexer : indexer = ticking
    · subst hindexer
      refine Or.inr ⟨now, call, rfl, ?_⟩
      simp only [Function.update_self]
      exact hmove
    · exact Or.inl (Function.update_of_ne hindexer _ _)

/-- A proof is requested by a worker with a sealed intent, and by no other action. -/
theorem step_requests (h : step state s action = .ok next) : next.requests = s.requests ∨
    ∃ now worker current intent publicValues cycles, action = .work now worker .requestProof ∧
      s.workers worker = some current ∧ current.stage = .sealed intent publicValues cycles ∧
      next.workers worker = some ⟨current.job, .requested intent publicValues cycles⟩ ∧
      next.db = s.db ∧ next.requests = s.requests ++ [(current.job.id, intent)] := by
  obtain ⟨performed, hmove, rfl⟩ := step_move h
  cases hmove with
  | served hserve => exact Or.inl rfl
  | claimed hclaim => exact Or.inl rfl
  | @worked now worker call current db later hcurrent hmove =>
    cases hmove with
    | requested hstage =>
      refine Or.inr ⟨now, worker, current, _, _, _, rfl, hcurrent, hstage, ?_, rfl, ?_⟩
      · simp only [Function.update_self]
      · simp only [sentRequest, hstage]
    | _ => exact Or.inl (List.append_nil _)
  | crashed worker => exact Or.inl rfl
  | ticked hmove => exact Or.inl rfl

end Steps

end EthereumSettlement.GatewayChanges
