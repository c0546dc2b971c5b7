import EthereumSettlement.GatewayChanges

/-!
# Exclusion of the outer writer

A new job is admitted only while the outcome of every other job is known, and under
the token of a live reservation where there is one. Workers and recovery only move
open jobs, so one open job stays the only one. Two statements of a tick may reopen a
job that has ended: the last update of a reconciliation, which writes what the tick
has read although another tick has ended the job since, and the requeue of a rollback
that removes the block of a confirmed job. In every run without such a late statement
at most one job is open.
-/

namespace EthereumSettlement.OuterWriterExclusion

open CheckedCalls KeyedTables TransitionRuns
open GatewayTables OuterWriter ProofJobs WorkerMoves GatewayIndexer IndexerMoves GatewayRuns
open GatewayChanges

/-- The states that end a job. -/
def terminalStatuses : List ProofStatus :=
  [.confirmed, .executed, .failed, .proofFailed, .ethereumReverted, .reorged, .rejected]

/-- The job has ended. -/
def Terminal (job : Job) : Prop := job.status ∈ terminalStatuses

instance (job : Job) : Decidable (Terminal job) := inferInstanceAs (Decidable (_ ∈ _))

/-- A job whose outcome is known has ended. -/
theorem terminal_of_outcomeKnown {job : Job} (h : job.OutcomeKnown) : Terminal job := by
  rcases h with hsettled | ⟨-, -, hended⟩
  · have hall : ∀ status ∈ [ProofStatus.confirmed, .ethereumReverted],
        status ∈ terminalStatuses := by decide
    exact hall job.status hsettled
  · have hall : ∀ status ∈ [ProofStatus.executed, .failed, .proofFailed, .rejected, .reorged],
        status ∈ terminalStatuses := by decide
    exact hall job.status hended

/-- The tick at this stage does not write `submitted` over a job that has ended. -/
def RecordsOpen (db : Database) : IndexerStage → Prop
  | .recording _ row _ _ false => ∀ job ∈ db.jobs, job.id = row.id → ¬ Terminal job
  | _ => True

instance (db : Database) (stage : IndexerStage) : Decidable (RecordsOpen db stage) := by
  unfold RecordsOpen
  split <;> infer_instance

/-- The tick at this stage does not put a confirmed job of the gateway back into the queue. -/
def RequeuesOpen (db : Database) : IndexerStage → Prop
  | .rollingBack _ ancestor => ∀ job ∈ db.jobs, job.status = .confirmed →
      job.input.recoveredFromEthereum = false →
        ¬ Requeued ancestor ((retrySettlement ancestor db.jobs).map Job.id) job
  | _ => True

instance (db : Database) (stage : IndexerStage) : Decidable (RequeuesOpen db stage) := by
  unfold RequeuesOpen
  split <;> infer_instance

/-- The action is no late statement of a tick. -/
def Timely (entry : GatewayState × Action) : Prop :=
  match entry.2 with
  | .tick _ indexer .storeSettled => RecordsOpen entry.1.db (entry.1.indexers indexer)
  | .tick _ indexer .rollback => RequeuesOpen entry.1.db (entry.1.indexers indexer)
  | _ => True

instance (entry : GatewayState × Action) : Decidable (Timely entry) := by
  unfold Timely
  split <;> infer_instance

/-- At most one job is open, and no job has the status that nothing writes. -/
structure Exclusive (s : GatewayState) : Prop where
  /-- Identifiers are distinct and generated. -/
  keyed : Keyed s
  /-- No two jobs are open. -/
  oneOpen : ∀ first ∈ s.db.jobs, ∀ second ∈ s.db.jobs, ¬ Terminal first → ¬ Terminal second →
    first.id = second.id
  /-- No job has the status that nothing writes. -/
  noProofFailed : ∀ job ∈ s.db.jobs, job.status ≠ .proofFailed

section Steps

variable {state : AppState} {s next : GatewayState} {action : Action} {old row : Job}

/-- A job in one of some open states has not ended. -/
theorem open_of_mem {job : Job} (statuses : List ProofStatus)
    (hopen : ∀ status ∈ statuses, status ∉ terminalStatuses) (h : job.status ∈ statuses) :
    ¬ Terminal job :=
  hopen job.status h

/-- No change leads to the status that nothing writes. -/
theorem proofFailed_of_change (h : JobChange s action old row)
    (hstatus : row.status = .proofFailed) : old.status = .proofFailed := by
  cases h with
  | kept => exact hstatus
  | approved => simp [approvedRow] at hstatus
  | cancelled => simp [cancelledRow] at hstatus
  | interrupted =>
    simp only [interruptedRow] at hstatus
    split at hstatus
    · simp at hstatus
    · split at hstatus
      · simp at hstatus
      · split at hstatus <;> simp at hstatus
  | claimed =>
    simp only [claimedRow] at hstatus
    split at hstatus <;> simp at hstatus
  | worked hworker hchange =>
    cases hchange with
    | executed => simp at hstatus
    | awaitingApproval => simp at hstatus
    | proving => simp at hstatus
    | resolved =>
      dsimp only at hstatus
      split at hstatus
      · simp at hstatus
      · exact hstatus
    | submitting => simp at hstatus
    | submitted => simp at hstatus
    | failed hguard =>
      unfold failedRow at hstatus
      split at hstatus
      · simp at hstatus
      · split at hstatus
        · dsimp only at hstatus
          split at hstatus <;> simp at hstatus
        · simp at hstatus
    | _ => exact hstatus
  | ticked hchange =>
    cases hchange with
    | kept => exact hstatus
    | orphaned => simp [orphanedRow] at hstatus
    | superseded => simp [supersededRow] at hstatus
    | requeued =>
      simp only [requeuedRow] at hstatus
      split at hstatus <;> simp at hstatus
    | confirmed => simp [confirmedRow] at hstatus
    | reverted => simp [revertedRow] at hstatus
    | settled =>
      simp only [settledRow] at hstatus
      split at hstatus <;> simp at hstatus

/-- A statement of a worker rewrites an open job or none. -/
theorem open_of_worked {now : Timestamp} {worker : Worker} {call : WorkerStep}
    (hfailed : old.status ≠ .proofFailed) (h : WorkerChange now worker call old row)
    (hrow : ¬ Terminal row) : ¬ Terminal old := by
  have hvalidating : ∀ {claim : ClaimedJob}, Fenced claim Validating old → ¬ Terminal old :=
    fun hguard => open_of_mem [.validating] (by decide) (by rw [hguard.2.2.1]; decide)
  have hexcluded : ∀ status, status ∉ [ProofStatus.reorged, .rejected, .confirmed,
      .ethereumReverted, .failed, .executed] → status ≠ .proofFailed →
        status ∉ terminalStatuses := by
    intro status
    cases status <;> decide
  cases h with
  | kept => exact hrow
  | hydrated hstage hfresh hinput hguard => exact hvalidating hguard
  | digested hguard => exact hvalidating hguard
  | preflighted hguard => exact hvalidating hguard
  | executed hstage hguard => exact hvalidating hguard
  | awaitingApproval hguard => exact hvalidating hguard
  | mocked hguard => exact open_of_mem [.validating, .proving] (by decide) hguard.2.2
  | proving hguard => exact hexcluded old.status hguard.2.2 hfailed
  | sealed hguard => exact open_of_mem [.proving] (by decide) (by rw [hguard.2.2.1]; decide)
  | resolved hstage hid hintent hrequest hstatus =>
    exact open_of_mem [.queued, .approved, .proving, .proofRequested] (by decide) hstatus
  | proved hguard => exact open_of_mem [.proving, .proofRequested] (by decide) hguard.2.2
  | measured hguard => exact open_of_mem [.proving, .proofRequested] (by decide) hguard.2.2
  | submitting hguard =>
    exact open_of_mem [.validating, .proving, .proofRequested, .submitting] (by decide) hguard.2.2
  | prepared hguard => exact open_of_mem [.submitting] (by decide) (by rw [hguard.2.2.1]; decide)
  | submitted hguard => exact open_of_mem [.submitting] (by decide) (by rw [hguard.2.2]; decide)
  | failed hguard =>
    have hended : old.status ∉ [ProofStatus.confirmed, .reorged, .rejected, .ethereumReverted,
      .failed, .proofFailed, .executed] := hguard.2.2
    have hall : ∀ status, status ∉ [ProofStatus.confirmed, .reorged, .rejected, .ethereumReverted,
        .failed, .proofFailed, .executed] → status ∉ terminalStatuses := by
      intro status
      cases status <;> decide
    exact hall old.status hended

/-- A timely statement of a tick leaves a job open only if it was open. -/
theorem open_of_ticked {now : Timestamp} {indexer : ℕ} {call : IndexerStep}
    (htimely : Timely (s, .tick now indexer call)) (hold : old ∈ s.db.jobs)
    (h : TickChange s.db now (s.indexers indexer) call old row) (hrow : ¬ Terminal row) :
    ¬ Terminal old := by
  cases h with
  | kept => exact hrow
  | orphaned => exact absurd (by simp [Terminal, orphanedRow, terminalStatuses]) hrow
  | superseded => exact absurd (by simp [Terminal, supersededRow, terminalStatuses]) hrow
  | requeued hstage horphaned hrequeued =>
    have hstatus := hrequeued.2.1
    simp only [List.mem_cons, List.not_mem_nil, or_false] at hstatus
    rcases hstatus with hsubmitted | hconfirmed
    · exact open_of_mem [.submitted] (by decide) (by rw [hsubmitted]; decide)
    · have hrequeues : RequeuesOpen s.db (s.indexers indexer) := htimely
      rw [hstage] at hrequeues
      have hunrecovered : old.input.recoveredFromEthereum = false := by
        rw [← Bool.not_eq_true]
        exact fun hrecovered => horphaned ⟨hrecovered, hrequeued.1⟩
      exact absurd hrequeued (hrequeues old hold hconfirmed hunrecovered)
  | confirmed => exact absurd (by simp [Terminal, confirmedRow, terminalStatuses]) hrow
  | reverted => exact absurd (by simp [Terminal, revertedRow, terminalStatuses]) hrow
  | @settled tick reconciled rest receipt confirmed _ hstage hid =>
    cases confirmed with
    | true => exact absurd (by simp [Terminal, settledRow, terminalStatuses]) hrow
    | false =>
      have hrecords : RecordsOpen s.db (s.indexers indexer) := htimely
      rw [hstage] at hrecords
      exact hrecords old hold hid

/-- A timely action leaves a job open only if it was open. -/
theorem open_of_change (htimely : Timely (s, action)) (hfailed : old.status ≠ .proofFailed)
    (hold : old ∈ s.db.jobs) (h : JobChange s action old row) (hrow : ¬ Terminal row) :
    ¬ Terminal old := by
  cases h with
  | kept => exact hrow
  | approved hguard => exact open_of_mem [.awaitingApproval] (by decide) (by rw [hguard.2.1]; decide)
  | cancelled => exact absurd (by simp [Terminal, cancelledRow, terminalStatuses]) hrow
  | interrupted hstatus =>
    exact open_of_mem [.validating, .proofRequested, .proving, .submitting] (by decide) hstatus
  | claimed hclaimable => exact open_of_mem [.queued, .approved] (by decide) hclaimable.1
  | worked hworker hchange => exact open_of_worked hfailed hchange hrow
  | ticked hchange => exact open_of_ticked htimely hold hchange hrow

/-- An appended row has ended, or every other job has. -/
theorem inserted_exclusive (h : Inserted s action row) :
    row.status ≠ .proofFailed ∧ (Terminal row ∨ ∀ job ∈ s.db.jobs, Terminal job) := by
  cases h with
  | admitted hid hnow hrecovered hknown =>
    exact ⟨by simp [Job.queued], Or.inr fun job hjob => terminal_of_outcomeKnown (hknown job hjob)⟩
  | ticked hinserted =>
    cases hinserted with
    | recovered => exact ⟨by simp [recoveredJob], Or.inl (by simp [Terminal, recoveredJob, terminalStatuses])⟩

/-- Two open rows that one action appends are one row. -/
theorem inserted_unique {other : Job} (h1 : Inserted s action row) (h2 : Inserted s action other)
    (hrow : ¬ Terminal row) (hother : ¬ Terminal other) : row.id = other.id := by
  have hrecovered : ∀ {job : Job} {now indexer step}, Inserted s (.tick now indexer step) job →
      Terminal job := by
    intro job now indexer step hinserted
    cases hinserted with
    | ticked hinserted =>
      cases hinserted with
      | recovered => simp [Terminal, recoveredJob, terminalStatuses]
  cases h1 with
  | admitted hid =>
    cases h2 with
    | admitted hid' => exact Option.some.inj (hid.symm.trans hid')
  | ticked hinserted => exact absurd (hrecovered (Inserted.ticked hinserted)) hrow

/-- An open row after a timely action is the row of an open job, or is new while every other job
has ended. -/
theorem open_origin (hexclusive : Exclusive s) (htimely : Timely (s, action))
    (h : step state s action = .ok next) (hrow : row ∈ next.db.jobs) (hopen : ¬ Terminal row) :
    (∃ old ∈ s.db.jobs, ¬ Terminal old ∧ row.id = old.id) ∨
      (Inserted s action row ∧ ∀ job ∈ s.db.jobs, Terminal job) := by
  rcases (step_changes hexclusive.keyed h).rows.origin row hrow with
    ⟨old, hold, hchange⟩ | hinserted
  · have hfailed := hexclusive.noProofFailed old hold
    exact Or.inl ⟨old, hold, open_of_change htimely hfailed hold hchange hopen, hchange.id_eq⟩
  · rcases (inserted_exclusive hinserted).2 with hended | hended
    · exact absurd hended hopen
    · exact Or.inr ⟨hinserted, hended⟩

/-- A timely action keeps the open job the only one. -/
theorem exclusive_step (hexclusive : Exclusive s) (htimely : Timely (s, action))
    (h : step state s action = .ok next) : Exclusive next where
  keyed := keyed_step hexclusive.keyed h
  oneOpen := by
    intro first hfirst second hsecond hopen hopen'
    rcases open_origin hexclusive htimely h hfirst hopen with
      ⟨old, hold, holdOpen, hid⟩ | ⟨hinserted, hended⟩
    · rcases open_origin hexclusive htimely h hsecond hopen' with
        ⟨old', hold', holdOpen', hid'⟩ | ⟨-, hended⟩
      · have hsame := hexclusive.oneOpen old hold old' hold' holdOpen holdOpen'
        rw [hid, hid', hsame]
      · exact absurd (hended old hold) holdOpen
    · rcases open_origin hexclusive htimely h hsecond hopen' with
        ⟨old', hold', holdOpen', -⟩ | ⟨hinserted', -⟩
      · exact absurd (hended old' hold') holdOpen'
      · exact inserted_unique hinserted hinserted' hopen hopen'
  noProofFailed := by
    intro row hrow hstatus
    rcases (step_changes hexclusive.keyed h).rows.origin row hrow with
      ⟨old, hold, hchange⟩ | hinserted
    · exact hexclusive.noProofFailed old hold (proofFailed_of_change hchange hstatus)
    · exact (inserted_exclusive hinserted).1 hstatus

/-- At most one job is open at the end of a timely run. -/
theorem exclusive_run {actions : List Action}
    (htimely : ∀ entry ∈ accepted (step state) start actions, Timely entry) :
    Exclusive (run (step state) start actions) := by
  refine run_invariant_of (Q := Timely)
    (fun s action next hexclusive htimely h => exclusive_step hexclusive htimely h) ?_ htimely
  refine ⟨keyed_run state [], ?_, ?_⟩
  · intro first hfirst
    simp [start, emptyDatabase] at hfirst
  · intro job hjob
    simp [start, emptyDatabase] at hjob

/-- The job was admitted under the reservations of its time: it comes from a request with a
clock, and a holder that was live then is the one whose token it presents. -/
def AdmittedWithToken (s : GatewayState) (action : Action) (job : Job) : Prop :=
  ∃ request now, action = .serve request ∧ requestTime request = some now ∧
    ∀ holder, s.db.writer.holder = some holder → ¬ Released s.db.jobs now holder →
      ∃ token, job.input.reservation = some token ∧ Matches s.db.writer token

/-- A new job is recovered from Ethereum or passes the reservations of its time. -/
theorem admittedWithToken_of_step (hkeyed : Keyed s) (h : step state s action = .ok next)
    (hrow : row ∈ next.db.jobs) (hnew : ∀ job ∈ s.db.jobs, job.id ≠ row.id) :
    (∃ now indexer, action = .tick now indexer (.insertRecovered row.id)) ∨
      AdmittedWithToken s action row := by
  rcases (step_changes hkeyed h).rows.origin row hrow with ⟨old, hold, hchange⟩ | hinserted
  · exact absurd hchange.id_eq.symm (hnew old hold)
  · cases hinserted with
    | @admitted request _ _ _ _ _ _ now _ _ hnow _ _ hattached =>
      refine Or.inr ⟨request, now, rfl, hnow, fun holder hholder hlive => ?_⟩
      have hlapsed : (lapsed s.db now).holder = some holder := lapsed_holder.mpr ⟨hholder, hlive⟩
      cases hattached with
      | settlement presented _ _ hpresented hmatches =>
        exact ⟨presented, hpresented, matches_of_lapsed hmatches⟩
      | bridge _ _ hfree =>
        rw [hfree] at hlapsed
        simp at hlapsed
    | ticked hinserted =>
      cases hinserted with
      | recovered => exact Or.inl ⟨_, _, rfl⟩

end Steps

/-- In every run without a late statement of a tick, at most one job is open in the reached state,
and a job that is then admitted, if it is not recovered from Ethereum, presents the token of the
live reservation where there is one. -/
theorem one_open_job (state : AppState) (actions : List Action)
    (htimely : ∀ entry ∈ accepted (step state) start actions, Timely entry) :
    (∀ first ∈ (run (step state) start actions).db.jobs,
        ∀ second ∈ (run (step state) start actions).db.jobs,
          ¬ Terminal first → ¬ Terminal second → first = second) ∧
      ∀ action next, step state (run (step state) start actions) action = .ok next →
        ∀ job ∈ next.db.jobs, (∀ old ∈ (run (step state) start actions).db.jobs, old.id ≠ job.id) →
          (∃ now indexer, action = .tick now indexer (.insertRecovered job.id)) ∨
            AdmittedWithToken (run (step state) start actions) action job := by
  have hexclusive := exclusive_run htimely
  refine ⟨fun first hfirst second hsecond hopen hopen' => ?_, ?_⟩
  · have hid := hexclusive.oneOpen first hfirst second hsecond hopen hopen'
    exact row_eq_of_key hexclusive.keyed.constrained.primaryKey hfirst hsecond hid
  · intro action next h job hjob hnew
    exact admittedWithToken_of_step hexclusive.keyed h hjob hnew

/-- The block that reverts the first settlement. -/
def revertingBlock : BlockRef := ⟨101, 0xb101, firstBlock.hash⟩

/-- A settlement is submitted, and one tick reads its receipt before the block is finalized. -/
def recordedReceipt : List Action :=
  startup ++ [acquireAt 0 1 "first",
    .serve (.createSettlement second 3 none (settlementUnder ⟨1, "1"⟩))] ++
  requestProof 0 5 ++ submitProof 0 0xabc ++
  [.tick second 0 (.begin 101 (some firstBlock)), .tick second 0 (.indexBlock revertingBlock [])] ++
  quietCalls 0 revertingBlock.hash ++
  [.tick second 0 (.readReceipt (some ⟨101, revertingBlock.hash, false, 0⟩))]

/-- Another tick sees the block finalized and ends the settlement, and a second one is admitted. -/
def revertedMeanwhile : List Action :=
  recordedReceipt ++
  [.tick second 1 (.begin 101 (some revertingBlock))] ++ quietCalls 1 revertingBlock.hash ++
  [.tick second 1 (.readReceipt (some ⟨101, revertingBlock.hash, false, 0⟩)),
    .tick second 1 .storeReverted, .tick second 1 .reportReady,
    .serve (.acquire second 6 ⟨"second", some 30⟩ firstBlock settlementState),
    .serve (.createSettlement second 7 none (settlementUnder ⟨6, "2"⟩))]

/-- A settlement is confirmed and a bridge transition is queued before the block of the
settlement is replaced. -/
def requeuedBeside : List Action :=
  confirmedSettlement ++
  [.serve (.createBridge second 7 8 none
      ⟨⟨1, replica.bridgeAddress, 0, 0⟩, ⟨7, 0⟩, [⟨0, 0, 0, 0, 0, 0, none, 0, 0⟩]⟩),
    .tick second 0 (.begin 101 none), .tick second 0 (.commonAncestor 100),
    .tick second 0 .rollback, .tick second 0 (.indexBlock (secondBlock 0xc101) [])] ++
  quietCalls 0 0xc101 ++ [.tick second 0 .reportReady]

/-- Two jobs are open, of the given statuses, while recovery is ready. -/
def TwoOpen (s : GatewayState) (first second : ProofStatus) : Prop :=
  s.db.recoveryReady = true ∧ ∃ job ∈ s.db.jobs, ∃ other ∈ s.db.jobs, job.status = first ∧
    other.status = second ∧ ¬ Terminal job ∧ ¬ Terminal other ∧ job.id ≠ other.id

instance (s : GatewayState) (first second : ProofStatus) : Decidable (TwoOpen s first second) :=
  inferInstanceAs (Decidable (_ ∧ ∃ job ∈ s.db.jobs, ∃ other ∈ s.db.jobs, _))

/-- Two jobs are open after the first tick writes what it has read, and after a rollback puts the
settlement back into the queue beside the bridge transition. -/
theorem late_statements_reopen_jobs :
    (replica.ethereumFinalityMode = .finalized ∧
      TwoOpen (run (step replica) start (revertedMeanwhile ++ [.tick second 0 .storeSettled]))
        .submitted .queued) ∧
    confirming.ethereumFinalityMode = .confirmations ∧
      TwoOpen (run (step confirming) start requeuedBeside) .queued .queued := by
  decide +kernel

/-- Before that update the second settlement is the only open job. -/
theorem one_open_job_reverted :
    (∃ first ∈ (run (step replica) start revertedMeanwhile).db.jobs, ¬ Terminal first) ∧
      ∀ first ∈ (run (step replica) start revertedMeanwhile).db.jobs,
        ∀ second ∈ (run (step replica) start revertedMeanwhile).db.jobs,
          ¬ Terminal first → ¬ Terminal second → first = second :=
  ⟨by decide +kernel, (one_open_job replica revertedMeanwhile (by decide +kernel)).1⟩

end EthereumSettlement.OuterWriterExclusion
