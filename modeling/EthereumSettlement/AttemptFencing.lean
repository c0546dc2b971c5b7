import EthereumSettlement.GatewayChanges

/-!
# Attempt fencing

The attempts counter of a job never decreases, and every statement that a worker runs
on the job table, but for the response to a proof request, names the attempt of its
claim. Once the counter has passed that attempt no statement of the worker finds its
row.
-/

namespace EthereumSettlement.AttemptFencing

open CheckedCalls KeyedTables TransitionRuns
open GatewayTables ProofJobs WorkerMoves GatewayIndexer IndexerMoves GatewayRuns GatewayChanges

variable {state : AppState} {s next : GatewayState} {action : Action}

/-- No change of a row lowers its attempts counter. -/
theorem attempts_le_of_change {old row : Job} (h : JobChange s action old row) :
    old.attempts ≤ row.attempts := by
  cases h with
  | kept => exact Nat.le_refl _
  | approved => exact Nat.le_refl _
  | cancelled => exact Nat.le_refl _
  | interrupted => exact Nat.le_succ _
  | claimed => exact Nat.le_succ _
  | worked hworker hchange =>
    cases hchange with
    | failed hguard =>
      unfold failedRow
      split
      · exact Nat.le_refl _
      · split <;> exact Nat.le_refl _
    | _ => exact Nat.le_refl _
  | ticked hchange => cases hchange <;> exact Nat.le_refl _

/-- Every row of the job has made at least so many attempts. -/
def Attempted (id : Uuid) (attempts : ℕ) (s : GatewayState) : Prop :=
  Keyed s ∧ id ∈ s.minted ∧ ∀ row ∈ s.db.jobs, row.id = id → attempts ≤ row.attempts

/-- A step keeps the attempts that were made. -/
theorem attempted_step {id : Uuid} {attempts : ℕ} (h : Attempted id attempts s)
    (hstep : step state s action = .ok next) : Attempted id attempts next := by
  obtain ⟨hkeyed, hid, hattempts⟩ := h
  refine ⟨keyed_step hkeyed hstep, minted_mono hstep hid, fun row hrow hrowId => ?_⟩
  obtain ⟨old, hold, holdId, hchange⟩ := origin_of_minted hkeyed hstep hrow (hrowId ▸ hid)
  have hbefore := hattempts old hold (holdId.trans hrowId)
  exact hbefore.trans (attempts_le_of_change hchange)

/-- A run keeps the attempts that were made. -/
theorem attempted_run (state : AppState) {id : Uuid} {attempts : ℕ} (h : Attempted id attempts s)
    (actions : List Action) : Attempted id attempts (run (step state) s actions) :=
  run_invariant (fun _ _ _ => attempted_step) h actions

section Stale

variable {db after : Database} {claim : ClaimedJob} {guard : Job → Prop} [DecidablePred guard]
variable {f : Job → Job}

/-- Every row of the claimed job has passed the attempt of the claim. -/
def Stale (db : Database) (claim : ClaimedJob) : Prop :=
  ∀ row ∈ db.jobs, row.id = claim.id → claim.attempts < row.attempts

omit [DecidablePred guard] in
/-- No row meets the guard of a stale claim. -/
theorem not_fenced_of_stale (hstale : Stale db claim) : ∀ row ∈ db.jobs, ¬ Fenced claim guard row := by
  intro row hrow hfenced
  obtain ⟨hid, hattempts, -⟩ := hfenced
  have hlt := hstale row hrow hid
  omega

/-- A statement of a stale claim that must rewrite its row fails. -/
theorem updateJob_of_stale (hstale : Stale db claim) {message : String} :
    db.updateJob (Fenced claim guard) f message ≠ .ok after := by
  intro h
  obtain ⟨haffected, -⟩ := Database.updateJob_eq_ok.mp h
  obtain ⟨row, hrow, hfenced⟩ := exists_of_affected haffected
  exact not_fenced_of_stale hstale row hrow hfenced

/-- Any other statement of a stale claim rewrites nothing. -/
theorem updateJobs_of_stale (hstale : Stale db claim)
    (h : db.updateJobs (Fenced claim guard) f = .ok after) : after.jobs = db.jobs := by
  obtain ⟨-, rfl⟩ := Database.updateJobs_eq_ok.mp h
  exact updateWhere_of_forall_not (not_fenced_of_stale hstale)

/-- The failure of a stale worker is recorded nowhere. -/
theorem recordFailure_of_stale {now : Timestamp} {failure : FailureClass} {message : String}
    (hstale : Stale db claim) (h : recordFailure db now claim failure message = .ok after) :
    after.jobs = db.jobs := by
  simp only [recordFailure, bind_eq_ok, requireSome_eq_ok] at h
  obtain ⟨-, -, stored, hstore, h⟩ := h
  have hstored : stored.jobs = db.jobs := updateJobs_of_stale hstale hstore
  split at h
  · rw [pure_eq_ok] at h
    rw [← h, Database.deletePending_jobs, hstored]
  · rw [pure_eq_ok] at h
    rw [← h, hstored]

/-- No call of a stale worker changes the job table, but for the response to a proof request. -/
theorem jobs_eq_of_stale {now : Timestamp} {worker : Worker} {step : WorkerStep}
    {later : Option Worker} (hstale : Stale db worker.job)
    (hresponse : ∀ requestId, step ≠ .finishProofRequest requestId)
    (h : WorkerMove state db now worker step after later) : after.jobs = db.jobs := by
  cases h with
  | resumed => rfl
  | hydrated hstage hfresh hinput hstore => exact absurd hstore (updateJob_of_stale hstale)
  | digestedBridge hstage hfresh hstore => exact absurd hstore (updateJob_of_stale hstale)
  | digestedSettlement hstage hstore => exact absurd hstore (updateJob_of_stale hstale)
  | preflighted hstage hstore => exact absurd hstore (updateJob_of_stale hstale)
  | executed hstage hstore => exact absurd hstore (updateJob_of_stale hstale)
  | awaitingApproval hstage hstore => exact absurd hstore (updateJob_of_stale hstale)
  | mocked hstage hstore => exact absurd hstore (updateJob_of_stale hstale)
  | proving hstage hstore => exact absurd hstore (updateJob_of_stale hstale)
  | sealed hstage hstore => exact absurd hstore (updateJob_of_stale hstale)
  | requested hstage => rfl
  | resolved hstage hstore => exact absurd rfl (hresponse _)
  | proved hstage hstore => exact absurd hstore (updateJob_of_stale hstale)
  | measured hstage hstore => exact absurd hstore (updateJob_of_stale hstale)
  | submitting hstage hstore hfind => exact absurd hstore (updateJob_of_stale hstale)
  | prepared hstage hstore => exact absurd hstore (updateJob_of_stale hstale)
  | submitted hstage hstore => exact updateJobs_of_stale hstale hstore
  | failed hstore => exact recordFailure_of_stale hstale hstore

end Stale

/-- In any run, once the attempts counter of a job has passed the attempt of a worker's claim, no
later call of that worker changes the job table, but for its response to a proof request. -/
theorem stale_worker_writes_nothing (state : AppState) (earlier later : List Action) {job : Job}
    (hjob : job ∈ (run (step state) start earlier).db.jobs) {worker : ℕ} {current : Worker}
    (hworker : (run (step state) (run (step state) start earlier) later).workers worker =
      some current)
    (hid : current.job.id = job.id) (hraised : current.job.attempts < job.attempts)
    {now : Timestamp} {call : WorkerStep} (hcall : ∀ requestId, call ≠ .finishProofRequest requestId)
    {next : GatewayState}
    (hnext : step state (run (step state) (run (step state) start earlier) later)
      (.work now worker call) = .ok next) :
    next.db.jobs = (run (step state) (run (step state) start earlier) later).db.jobs := by
  have hkeyed := keyed_run state earlier
  have hattempted : Attempted job.id job.attempts (run (step state) start earlier) := by
    refine ⟨hkeyed, hkeyed.minted job hjob, fun row hrow hrowId => ?_⟩
    rw [row_eq_of_key hkeyed.constrained.primaryKey hrow hjob hrowId]
  obtain ⟨-, -, hattempts⟩ := attempted_run state hattempted later
  obtain ⟨performed, hmove, rfl⟩ := step_move hnext
  cases hmove with
  | @worked _ _ _ running _ _ hrunning hmove =>
    have hsame : running = current := Option.some.inj (hrunning.symm.trans hworker)
    subst hsame
    refine jobs_eq_of_stale (fun row hrow hrowId => ?_) hcall hmove
    have hle := hattempts row hrow (hrowId.trans hid)
    omega

/-- A claimed settlement of the reference gateway whose worker is presumed dead. -/
def interruptedClaim : List Action :=
  startup ++ [acquireAt 0 1 "first",
    .serve (.createSettlement second 3 none (settlementUnder ⟨1, "1"⟩)), .claim second 0 [],
    .serve .recoverInterrupted]

/-- After a restart the worker of the first attempt records its failure nowhere. -/
theorem stale_worker_writes_nothing_restart :
    ∃ next, step replica (run (step replica) (run (step replica) start interruptedClaim) [])
        (.work second 0 (.recordFailure .unknown "late")) = .ok next ∧
      next.db.jobs =
        (run (step replica) (run (step replica) start interruptedClaim) []).db.jobs := by
  have hrun : (∃ job ∈ (run (step replica) start interruptedClaim).db.jobs,
        job.id = 3 ∧ job.attempts = 2) ∧
      ((run (step replica) (run (step replica) start interruptedClaim) []).workers 0).map
        (fun worker => (worker.job.id, worker.job.attempts)) = some (3, 1) ∧
      (step replica (run (step replica) (run (step replica) start interruptedClaim) [])
        (.work second 0 (.recordFailure .unknown "late"))).toOption.isSome := by
    decide
  obtain ⟨⟨job, hjob, hid, hattempts⟩, hworker, hstep⟩ := hrun
  obtain ⟨current, hcurrent, hclaim⟩ := Option.map_eq_some_iff.mp hworker
  obtain ⟨hclaimId, hclaimAttempts⟩ := Prod.mk.inj hclaim
  cases hnext : step replica (run (step replica) (run (step replica) start interruptedClaim) [])
      (.work second 0 (.recordFailure .unknown "late")) with
  | error e => simp [hnext, Except.toOption] at hstep
  | ok next =>
    exact ⟨next, rfl, stale_worker_writes_nothing replica interruptedClaim [] hjob hcurrent
      (hclaimId.trans hid.symm) (by omega) (fun requestId => by simp) hnext⟩

end EthereumSettlement.AttemptFencing
