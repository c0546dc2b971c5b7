import EthereumSettlement.GatewayIndexer

/-!
# What one call of a tick does

A tick runs one call after the other. Each call is possible at one stage and leads
to one next stage; few of them write the job table, and each of those rewrites the
rows it names, appends the row of an unknown submitter or deletes orphaned rows. A
tick never writes the outer-writer row, and only its last call sets the readiness
flag.
-/

namespace EthereumSettlement.IndexerMoves

open CheckedCalls KeyedTables GatewayTables OuterWriter ConfirmedReceipts GatewayIndexer

/-- The input that a replayed event applies: the one of its job, or the recovered one where a
settlement has no submission. -/
def replayedInput (state : AppState) (db : Database) (event : AcceptedEvent) (job : Job)
    (publicValues : ByteWords.Bytes) : Except GatewayError JobInput :=
  if event.kind = .settlement ∧ job.input.submission = none then
    recoveredSettlementInput state db publicValues
  else pure job.input

/-- One successful call of a tick: its stage, its transaction and the stage after it. -/
inductive TickMove (state : AppState) (db : Database) (now : Timestamp) :
    IndexerStage → IndexerStep → Database → IndexerStage → Prop
  | abandoned (stage : IndexerStage) : TickMove state db now stage .abandon db .idle
  | begun (head : ℕ) (finalized : Option BlockRef) :
      TickMove state db now .idle (.begin head finalized) db (.indexing ⟨head, finalized⟩)
  | commonAncestor (tick : Tick) {ancestor : ℕ} (hallowed : rollbackAllowed state db ancestor) :
      TickMove state db now (.indexing tick) (.commonAncestor ancestor) db
        (.rollingBack tick ancestor)
  | rolledBack (tick : Tick) (ancestor : ℕ) {after : Database}
      (hrollback : rollbackAfter db now ancestor = .ok after) :
      TickMove state db now (.rollingBack tick ancestor) .rollback after (.indexing tick)
  | indexed (tick : Tick) {block : BlockRef} {logs : List BridgeDepositLog} {after : Database}
      (hindex : indexBridgeDeposits db block logs = .ok after) :
      TickMove state db now (.indexing tick) (.indexBlock block logs) after (.indexing tick)
  | finalityChecked (tick : Tick) {headHash : PastaPoseidon.Bytes32} {through : Option ℕ}
      (hthrough : finalizedThrough state db tick.head headHash tick.finalized = .ok through) :
      TickMove state db now (.indexing tick) (.checkFinality headHash) db (.finalizing tick through)
  | finalityStored (tick : Tick) (through : Option ℕ) :
      TickMove state db now (.finalizing tick through) .storeFinality (storeFinality db through)
        (.exploring tick)
  | eventStored (tick : Tick) (event : AcceptedEvent) :
      TickMove state db now (.exploring tick) (.storeEvent event) (upsertEvent db event)
        (.exploring tick)
  | cursorStored (tick : Tick) (through : ℕ) :
      TickMove state db now (.exploring tick) (.storeCursor through)
        { db with lastExplorerBlock := some through } (.exploring tick)
  | eventsRead (tick : Tick) :
      TickMove state db now (.exploring tick) .readEvents db (.recovering tick (acceptedEvents db))
  | eventPassed (tick : Tick) (event : AcceptedEvent) (rest : List AcceptedEvent)
      {publicValues : ByteWords.Bytes} (happlied : AlreadyApplied db event) :
      TickMove state db now (.recovering tick (event :: rest)) (.readEvent publicValues) db
        (.recovering tick rest)
  | eventRead (tick : Tick) (event : AcceptedEvent) (rest : List AcceptedEvent)
      (publicValues : ByteWords.Bytes) (happlied : ¬ AlreadyApplied db event) :
      TickMove state db now (.recovering tick (event :: rest)) (.readEvent publicValues) db
        (.replaying tick event rest publicValues)
  | submissionFound (tick : Tick) (event : AcceptedEvent) (rest : List AcceptedEvent)
      (publicValues : ByteWords.Bytes) {job : Job} {input : JobInput}
      (hfind : findSubmission db event.transactionHash = some job)
      (hinput : replayedInput state db event job publicValues = .ok input) :
      TickMove state db now (.replaying tick event rest publicValues) .findSubmission db
        (.applying tick event rest publicValues job.id input)
  | submissionUnknown (tick : Tick) (event : AcceptedEvent) (rest : List AcceptedEvent)
      (publicValues : ByteWords.Bytes) {input : JobInput}
      (hfind : findSubmission db event.transactionHash = none)
      (hinput : recoveredInput state db event.kind publicValues = .ok input) :
      TickMove state db now (.replaying tick event rest publicValues) .findSubmission db
        (.inserting tick event rest publicValues input)
  | recoveredInserted (tick : Tick) (event : AcceptedEvent) (rest : List AcceptedEvent)
      (publicValues : ByteWords.Bytes) (input : JobInput) {id : Uuid} {after : Database}
      (hstore : db.storeJobs (db.jobs ++ [recoveredJob now id event input publicValues]) =
        .ok after) :
      TickMove state db now (.inserting tick event rest publicValues input) (.insertRecovered id)
        after (.applying tick event rest publicValues id input)
  | eventApplied (tick : Tick) (event : AcceptedEvent) (rest : List AcceptedEvent)
      (publicValues : ByteWords.Bytes) (jobId : Uuid) (input : JobInput) {after : Database}
      (happly : applyConfirmed state db now event.kind jobId input publicValues
        ⟨event.blockNumber, event.blockHash, event.transactionHash⟩ = .ok after) :
      TickMove state db now (.applying tick event rest publicValues jobId input) .applyEvent after
        (.confirming tick event rest publicValues jobId)
  | eventConfirmed (tick : Tick) (event : AcceptedEvent) (rest : List AcceptedEvent)
      (publicValues : ByteWords.Bytes) (jobId : Uuid) {after : Database}
      (hstore : db.updateJobs (fun job => job.id = jobId) (confirmedRow now event publicValues) =
        .ok after) :
      TickMove state db now (.confirming tick event rest publicValues jobId) .confirmEvent after
        (.recovering tick rest)
  | jobsRead (tick : Tick) :
      TickMove state db now (.recovering tick []) .readJobs db
        (.reconciling tick (reconcileRows state db tick.finalized))
  | receiptRead (tick : Tick) (row : ReconcileRow) (rest : List ReconcileRow)
      (receipt : Option Receipt) :
      TickMove state db now (.reconciling tick (row :: rest)) (.readReceipt receipt) db
        (reconciledStage tick row rest (reconcile state db tick.head tick.finalized row receipt))
  | reverted (tick : Tick) (row : ReconcileRow) (rest : List ReconcileRow) (receipt : Receipt)
      {after : Database}
      (hstore : db.updateJobs (fun job => job.id = row.id) (revertedRow now tick.head receipt) =
        .ok after) :
      TickMove state db now (.reverting tick row rest receipt) .storeReverted
        (after.deletePending fun command => command.jobId = row.id) (.reconciling tick rest)
  | receiptApplied (tick : Tick) (row : ReconcileRow) (rest : List ReconcileRow) (receipt : Receipt)
      {publicValues : ByteWords.Bytes} {after : Database}
      (hvalues : row.publicValues = some publicValues)
      (happly : applyConfirmed state db now row.kind row.id row.input publicValues
        ⟨receipt.blockNumber, receipt.blockHash, row.transactionHash⟩ = .ok after) :
      TickMove state db now (.settling tick row rest receipt) .applyReceipt after
        (.recording tick row rest receipt true)
  | settled (tick : Tick) (row : ReconcileRow) (rest : List ReconcileRow) (receipt : Receipt)
      (confirmed : Bool) {after : Database}
      (hstore : db.updateJobs (fun job => job.id = row.id)
        (settledRow now tick.head receipt confirmed) = .ok after) :
      TickMove state db now (.recording tick row rest receipt confirmed) .storeSettled after
        (.reconciling tick rest)
  | ready (tick : Tick) :
      TickMove state db now (.reconciling tick []) .reportReady { db with recoveryReady := true }
        .idle

section Moves

variable {state : AppState} {db after : Database} {now : Timestamp} {stage next : IndexerStage}
variable {step : IndexerStep}

/-- Every successful call of a tick is one of the moves. -/
theorem tickStep_eq_ok (h : tickStep state db now stage step = .ok (after, next)) :
    TickMove state db now stage step after next := by
  unfold tickStep at h
  split at h
  case h_11 tick event rest publicValues =>
    split at h
    · rw [pure_eq_ok, Prod.mk.injEq] at h
      obtain ⟨rfl, rfl⟩ := h
      exact TickMove.eventPassed tick event rest ‹_›
    · rw [pure_eq_ok, Prod.mk.injEq] at h
      obtain ⟨rfl, rfl⟩ := h
      exact TickMove.eventRead tick event rest publicValues ‹_›
  case h_12 tick event rest publicValues =>
    split at h
    · rename_i job hfind
      split at h
      · rename_i hsettlement
        simp only [bind_eq_ok, pure_eq_ok, Prod.mk.injEq] at h
        obtain ⟨input, hinput, rfl, rfl⟩ := h
        exact TickMove.submissionFound tick event rest publicValues hfind
          (by rw [replayedInput, if_pos hsettlement, hinput])
      · rename_i hsettlement
        rw [pure_eq_ok, Prod.mk.injEq] at h
        obtain ⟨rfl, rfl⟩ := h
        exact TickMove.submissionFound tick event rest publicValues hfind
          (by rw [replayedInput, if_neg hsettlement]; rfl)
    · rename_i hfind
      simp only [bind_eq_ok, pure_eq_ok, Prod.mk.injEq] at h
      obtain ⟨input, hinput, rfl, rfl⟩ := h
      exact TickMove.submissionUnknown tick event rest publicValues hfind hinput
  all_goals
    simp only [bind_eq_ok, require_eq_ok, exists_const, requireSome_eq_ok, pure_eq_ok,
      throw_eq_ok, Prod.mk.injEq] at h
  case h_1 => obtain ⟨rfl, rfl⟩ := h; exact TickMove.abandoned stage
  case h_2 => obtain ⟨-, rfl, rfl⟩ := h; exact TickMove.begun _ _
  case h_3 tick _ => obtain ⟨hallowed, rfl, rfl⟩ := h; exact TickMove.commonAncestor tick hallowed
  case h_4 tick ancestor =>
    obtain ⟨_, hrollback, rfl, rfl⟩ := h
    exact TickMove.rolledBack tick ancestor hrollback
  case h_5 tick _ _ =>
    obtain ⟨_, hindex, rfl, rfl⟩ := h
    exact TickMove.indexed tick hindex
  case h_6 tick _ =>
    obtain ⟨_, hthrough, rfl, rfl⟩ := h
    exact TickMove.finalityChecked tick hthrough
  case h_7 tick through =>
    obtain ⟨rfl, rfl⟩ := h
    exact TickMove.finalityStored tick through
  case h_8 tick event =>
    obtain ⟨rfl, rfl⟩ := h
    exact TickMove.eventStored tick event
  case h_9 tick through =>
    obtain ⟨rfl, rfl⟩ := h
    exact TickMove.cursorStored tick through
  case h_10 tick =>
    obtain ⟨rfl, rfl⟩ := h
    exact TickMove.eventsRead tick
  case h_13 tick event rest publicValues input id =>
    obtain ⟨_, hstore, rfl, rfl⟩ := h
    exact TickMove.recoveredInserted tick event rest publicValues input hstore
  case h_14 tick event rest publicValues jobId input =>
    obtain ⟨_, happly, rfl, rfl⟩ := h
    exact TickMove.eventApplied tick event rest publicValues jobId input happly
  case h_15 tick event rest publicValues jobId =>
    obtain ⟨_, hstore, rfl, rfl⟩ := h
    exact TickMove.eventConfirmed tick event rest publicValues jobId hstore
  case h_16 tick =>
    obtain ⟨rfl, rfl⟩ := h
    exact TickMove.jobsRead tick
  case h_17 tick row rest receipt =>
    obtain ⟨rfl, rfl⟩ := h
    exact TickMove.receiptRead tick row rest receipt
  case h_18 tick row rest receipt =>
    obtain ⟨_, hstore, rfl, rfl⟩ := h
    exact TickMove.reverted tick row rest receipt hstore
  case h_19 tick row rest receipt =>
    obtain ⟨_, hvalues, _, happly, rfl, rfl⟩ := h
    exact TickMove.receiptApplied tick row rest receipt hvalues happly
  case h_20 tick row rest receipt confirmed =>
    obtain ⟨_, hstore, rfl, rfl⟩ := h
    exact TickMove.settled tick row rest receipt confirmed hstore
  case h_21 tick =>
    obtain ⟨rfl, rfl⟩ := h
    exact TickMove.ready tick

end Moves

/-- The statements of a tick that write jobs, each at its stage. -/
inductive TickChange (db : Database) (now : Timestamp) (stage : IndexerStage) :
    IndexerStep → Job → Job → Prop
  | kept (step : IndexerStep) (job : Job) : TickChange db now stage step job job
  | orphaned {tick : Tick} {ancestor : ℕ} {job : Job} (hstage : stage = .rollingBack tick ancestor)
      (horphaned : OrphanedRecovery ancestor job) (hretained : Retained db job) :
      TickChange db now stage .rollback job (orphanedRow now job)
  | superseded {tick : Tick} {ancestor : ℕ} {retry job : Job}
      (hstage : stage = .rollingBack tick ancestor)
      (hretry : retrySettlement ancestor db.jobs = some retry)
      (horphaned : ¬ OrphanedRecovery ancestor job) (hsuperseded : Superseded retry.id job) :
      TickChange db now stage .rollback job (supersededRow now job)
  | requeued {tick : Tick} {ancestor : ℕ} {job : Job} (hstage : stage = .rollingBack tick ancestor)
      (horphaned : ¬ OrphanedRecovery ancestor job)
      (hrequeued : Requeued ancestor ((retrySettlement ancestor db.jobs).map Job.id) job) :
      TickChange db now stage .rollback job (requeuedRow job)
  | confirmed {tick : Tick} {event : AcceptedEvent} {rest : List AcceptedEvent}
      {publicValues : ByteWords.Bytes} {job : Job}
      (hstage : stage = .confirming tick event rest publicValues job.id) :
      TickChange db now stage .confirmEvent job (confirmedRow now event publicValues job)
  | reverted {tick : Tick} {row : ReconcileRow} {rest : List ReconcileRow} {receipt : Receipt}
      {job : Job} (hstage : stage = .reverting tick row rest receipt) (hid : job.id = row.id) :
      TickChange db now stage .storeReverted job (revertedRow now tick.head receipt job)
  | settled {tick : Tick} {row : ReconcileRow} {rest : List ReconcileRow} {receipt : Receipt}
      {confirmed : Bool} {job : Job} (hstage : stage = .recording tick row rest receipt confirmed)
      (hid : job.id = row.id) :
      TickChange db now stage .storeSettled job (settledRow now tick.head receipt confirmed job)

/-- What a tick leaves as it was, next to the job table. -/
structure TickFrame (db after : Database) (stage : IndexerStage) (step : IndexerStep) : Prop where
  /-- The writer row is unchanged. -/
  writer : after.writer = db.writer
  /-- Readiness comes from the end of a tick only. -/
  ready : after.recoveryReady = true → db.recoveryReady = true ∨
    (step = .reportReady ∧ ∃ tick, stage = .reconciling tick [])
  /-- The constraints of the table are kept. -/
  constrained : JobsConstrained db.jobs → JobsConstrained after.jobs

section Ticks

variable {state : AppState} {db after : Database} {now : Timestamp} {stage next : IndexerStage}

/-- The settlements that a rollback invalidates, if it retries one. -/
def Invalidated (retryId : Option Uuid) (job : Job) : Prop := ∃ id ∈ retryId, Superseded id job

instance (retryId : Option Uuid) (job : Job) : Decidable (Invalidated retryId job) :=
  inferInstanceAs (Decidable (∃ id ∈ retryId, Superseded id job))

/-- What the four job statements of a rollback make of one row, unless the deletion names it. -/
theorem tickChange_of_rollback {tick : Tick} {ancestor : ℕ} {job kept : Job}
    (hstage : stage = .rollingBack tick ancestor)
    (hkept : (if OrphanedRecovery ancestor job ∧ Retained db job then orphanedRow now job else job) =
      kept)
    (hremains : ¬ (OrphanedRecovery ancestor kept ∧ ¬ Retained db kept)) {invalidated row : Job}
    (hinvalidated : (if Invalidated ((retrySettlement ancestor db.jobs).map Job.id) kept
      then supersededRow now kept else kept) = invalidated)
    (hrow : (if Requeued ancestor ((retrySettlement ancestor db.jobs).map Job.id) invalidated
      then requeuedRow invalidated else invalidated) = row) :
    TickChange db now stage .rollback job row := by
  by_cases horphaned : OrphanedRecovery ancestor job ∧ Retained db job
  · rw [if_pos horphaned] at hkept
    have hnotInvalidated :
        ¬ Invalidated ((retrySettlement ancestor db.jobs).map Job.id) kept := by
      rintro ⟨id, -, hsuperseded⟩
      rw [← hkept] at hsuperseded
      exact absurd hsuperseded.2.2 (by simp [orphanedRow])
    rw [if_neg hnotInvalidated] at hinvalidated
    have hnotRequeued :
        ¬ Requeued ancestor ((retrySettlement ancestor db.jobs).map Job.id) invalidated := by
      intro hrequeued
      rw [← hinvalidated, ← hkept] at hrequeued
      exact absurd hrequeued.2.1 (by simp [orphanedRow])
    rw [if_neg hnotRequeued] at hrow
    rw [← hrow, ← hinvalidated, ← hkept]
    exact TickChange.orphaned hstage horphaned.1 horphaned.2
  · rw [if_neg horphaned] at hkept
    subst hkept
    have hrecovery : ¬ OrphanedRecovery ancestor job := by
      intro h
      by_cases hretained : Retained db job
      · exact horphaned ⟨h, hretained⟩
      · exact hremains ⟨h, hretained⟩
    by_cases hinv : Invalidated ((retrySettlement ancestor db.jobs).map Job.id) job
    · rw [if_pos hinv] at hinvalidated
      have hnotRequeued :
          ¬ Requeued ancestor ((retrySettlement ancestor db.jobs).map Job.id) invalidated := by
        intro hrequeued
        rw [← hinvalidated] at hrequeued
        exact absurd hrequeued.2.1 (by simp [supersededRow])
      rw [if_neg hnotRequeued] at hrow
      obtain ⟨id, hid, hsuperseded⟩ := hinv
      obtain ⟨retry, hretry, rfl⟩ := Option.map_eq_some_iff.mp hid
      rw [← hrow, ← hinvalidated]
      exact TickChange.superseded hstage hretry hrecovery hsuperseded
    · rw [if_neg hinv] at hinvalidated
      subst hinvalidated
      by_cases hrequeued : Requeued ancestor ((retrySettlement ancestor db.jobs).map Job.id) job
      · rw [if_pos hrequeued] at hrow
        rw [← hrow]
        exact TickChange.requeued hstage hrecovery hrequeued
      · rw [if_neg hrequeued] at hrow
        rw [← hrow]
        exact TickChange.kept _ _

/-- The job statements of a rollback, one after the other. -/
theorem rollbackJobs_eq_ok {indexed : Database} {ancestor : ℕ} {retryId : Option Uuid}
    (h : rollbackJobs indexed now ancestor retryId = .ok after) :
    after.writer = indexed.writer ∧ after.recoveryReady = indexed.recoveryReady ∧
      JobsConstrained after.jobs ∧
      after.jobs = updateWhere (Requeued ancestor retryId) requeuedRow
        (updateWhere (Invalidated retryId) (supersededRow now)
          ((updateWhere (fun job => OrphanedRecovery ancestor job ∧ Retained indexed job)
            (orphanedRow now) indexed.jobs).filter
              fun job => ¬ (OrphanedRecovery ancestor job ∧ ¬ Retained indexed job))) := by
  simp only [rollbackJobs, bind_eq_ok, Database.updateJobs_eq_ok, Database.storeJobs_eq_ok] at h
  obtain ⟨_, ⟨-, rfl⟩, _, ⟨-, rfl⟩, h⟩ := h
  cases retryId with
  | none =>
    simp only [bind_eq_ok, pure_eq_ok, Database.updateJobs_eq_ok] at h
    obtain ⟨_, rfl, hconstrained, rfl⟩ := h
    have hnone : ∀ job : Job, ¬ Invalidated none job := fun job hinvalidated => by
      simp [Invalidated] at hinvalidated
    rw [updateWhere_of_forall_not (p := Invalidated none) (fun job _ => hnone job)]
    exact ⟨rfl, rfl, hconstrained, rfl⟩
  | some retryId =>
    simp only [bind_eq_ok, Database.updateJobs_eq_ok] at h
    obtain ⟨_, ⟨-, rfl⟩, hconstrained, rfl⟩ := h
    have hinvalidated : ∀ rows : List Job, updateWhere (Invalidated (some retryId))
        (supersededRow now) rows = updateWhere (Superseded retryId) (supersededRow now) rows := by
      intro rows
      apply List.map_congr_left
      intro row _
      simp only [Invalidated, Option.mem_def, Option.some.injEq, exists_eq_left']
    rw [hinvalidated]
    exact ⟨rfl, rfl, hconstrained, rfl⟩

/-- The job table after a rollback. -/
theorem rollbackAfter_eq_ok {tick : Tick} {ancestor : ℕ}
    (hstage : stage = .rollingBack tick ancestor) (h : rollbackAfter db now ancestor = .ok after) :
    Evolves (TickChange db now stage .rollback) (fun _ => False)
        (fun job => OrphanedRecovery ancestor job ∧ ¬ Retained db job) db.jobs after.jobs ∧
      after.writer = db.writer ∧ after.recoveryReady = false ∧ JobsConstrained after.jobs := by
  simp only [rollbackAfter, bind_eq_ok] at h
  obtain ⟨rolled, hrolled, h⟩ := h
  have hafter : after.jobs = rolled.jobs ∧ after.writer = rolled.writer ∧
      after.recoveryReady = rolled.recoveryReady := by
    split at h
    · rw [pure_eq_ok] at h
      rw [← h]
      simp
    · rw [pure_eq_ok] at h
      rw [← h]
      simp
  obtain ⟨hjobs, hwriter, hready⟩ := hafter
  obtain ⟨hw, hr, hconstrained, hrows⟩ := rollbackJobs_eq_ok hrolled
  rw [hjobs, hwriter, hready]
  refine ⟨?_, hw, hr, hconstrained⟩
  rw [hrows]
  have hfirst : Evolves (fun old row => (if OrphanedRecovery ancestor old ∧ Retained db old
        then orphanedRow now old else old) = row) (fun _ => False) (fun _ => False) db.jobs
      (updateWhere (fun job => OrphanedRecovery ancestor job ∧ Retained db job) (orphanedRow now)
        db.jobs) := Evolves.updateWhere _ _ _
  refine ((hfirst.trans_filter.trans (Evolves.updateWhere _ _ _)).trans
    (Evolves.updateWhere _ _ _)).mono ?_ (fun _ => id) ?_
  · intro job row hrow
    obtain ⟨invalidated, ⟨kept, ⟨hkept, hremains⟩, hinvalidated⟩, hrow⟩ := hrow
    exact tickChange_of_rollback hstage hkept hremains hinvalidated hrow
  · intro job hremoved
    obtain ⟨kept, hkept, hgone⟩ := hremoved
    have hdeleted := not_not.mp hgone
    by_cases horphaned : OrphanedRecovery ancestor job ∧ Retained db job
    · rw [if_pos horphaned] at hkept
      rw [← hkept] at hdeleted
      exact absurd horphaned.2 hdeleted.2
    · rw [if_neg horphaned] at hkept
      rwa [hkept]

/-- The rows that a tick appends. -/
inductive TickInserted (now : Timestamp) (stage : IndexerStage) : IndexerStep → Job → Prop
  | recovered {id : Uuid} {tick : Tick} {event : AcceptedEvent} {rest : List AcceptedEvent}
      {publicValues : ByteWords.Bytes} {input : JobInput}
      (hstage : stage = .inserting tick event rest publicValues input) :
      TickInserted now stage (.insertRecovered id) (recoveredJob now id event input publicValues)

/-- The rows that a tick deletes. -/
inductive TickDeleted (db : Database) (stage : IndexerStage) : IndexerStep → Job → Prop
  | orphaned {tick : Tick} {ancestor : ℕ} {job : Job} (hstage : stage = .rollingBack tick ancestor)
      (horphaned : OrphanedRecovery ancestor job) (hretained : ¬ Retained db job) :
      TickDeleted db stage .rollback job

/-- The job table after a call of a tick. -/
abbrev TickEvolves (db : Database) (now : Timestamp) (stage : IndexerStage) (step : IndexerStep)
    (jobs : List Job) : Prop :=
  Evolves (TickChange db now stage step) (TickInserted now stage step)
    (TickDeleted db stage step) db.jobs jobs

/-- A call of a tick that leaves the queue as it was. -/
theorem tickEvolves_of_frame {step : IndexerStep} (h : QueueFrame db after) :
    TickEvolves db now stage step after.jobs ∧ TickFrame db after stage step := by
  rw [TickEvolves, h.jobs]
  exact ⟨Evolves.refl (TickChange.kept step), h.writer, fun hready => Or.inl (h.ready ▸ hready),
    fun hconstrained => h.jobs ▸ hconstrained⟩

/-- A stored event changes the events only. -/
theorem upsertEvent_frame {event : AcceptedEvent} : QueueFrame db (upsertEvent db event) := by
  unfold upsertEvent
  dsimp only
  split
  · exact ⟨rfl, rfl, rfl⟩
  · exact ⟨rfl, rfl, rfl⟩

/-- A conditional update that keeps the rest of the database. -/
theorem tickEvolves_of_updateJobs {step : IndexerStep} {p : Job → Prop} [DecidablePred p]
    {f : Job → Job} (hchange : ∀ job, p job → TickChange db now stage step job (f job))
    (h : db.updateJobs p f = .ok after) :
    TickEvolves db now stage step after.jobs ∧ TickFrame db after stage step := by
  obtain ⟨hconstrained, rfl⟩ := Database.updateJobs_eq_ok.mp h
  exact ⟨Evolves.update (TickChange.kept step) (fun job _ => hchange job), rfl, Or.inl,
    fun _ => hconstrained⟩

/-- What a call of a tick does to the job table, the writer row and the readiness flag. -/
theorem TickMove.evolves {step : IndexerStep} (h : TickMove state db now stage step after next) :
    TickEvolves db now stage step after.jobs ∧ TickFrame db after stage step := by
  cases h with
  | abandoned => exact tickEvolves_of_frame (QueueFrame.refl db)
  | begun head finalized => exact tickEvolves_of_frame (QueueFrame.refl db)
  | commonAncestor tick hallowed => exact tickEvolves_of_frame (QueueFrame.refl db)
  | rolledBack tick ancestor hrollback =>
    obtain ⟨hrows, hwriter, hready, hconstrained⟩ := rollbackAfter_eq_ok rfl hrollback
    refine ⟨hrows.mono (fun _ _ => id) (fun _ => False.elim) ?_, hwriter, ?_, fun _ => hconstrained⟩
    · intro job hdeleted
      exact TickDeleted.orphaned rfl hdeleted.1 hdeleted.2
    · intro htrue
      rw [hready] at htrue
      exact absurd htrue (by simp)
  | indexed tick hindex =>
    simp only [indexBridgeDeposits, bind_eq_ok, pure_eq_ok] at hindex
    obtain ⟨deposits, -, blocks, -, rfl⟩ := hindex
    exact tickEvolves_of_frame ⟨rfl, rfl, rfl⟩
  | finalityChecked tick hthrough => exact tickEvolves_of_frame (QueueFrame.refl db)
  | finalityStored tick through => exact tickEvolves_of_frame ⟨rfl, rfl, rfl⟩
  | eventStored tick event => exact tickEvolves_of_frame upsertEvent_frame
  | cursorStored tick through => exact tickEvolves_of_frame ⟨rfl, rfl, rfl⟩
  | eventsRead tick => exact tickEvolves_of_frame (QueueFrame.refl db)
  | eventPassed tick event rest happlied => exact tickEvolves_of_frame (QueueFrame.refl db)
  | eventRead tick event rest publicValues happlied =>
    exact tickEvolves_of_frame (QueueFrame.refl db)
  | submissionFound tick event rest publicValues hfind hinput =>
    exact tickEvolves_of_frame (QueueFrame.refl db)
  | submissionUnknown tick event rest publicValues hfind hinput =>
    exact tickEvolves_of_frame (QueueFrame.refl db)
  | recoveredInserted tick event rest publicValues input hstore =>
    obtain ⟨hconstrained, rfl⟩ := Database.storeJobs_eq_ok.mp hstore
    exact ⟨Evolves.append (TickChange.kept _) (TickInserted.recovered rfl), rfl, Or.inl,
      fun _ => hconstrained⟩
  | eventApplied tick event rest publicValues jobId input happly =>
    exact tickEvolves_of_frame (applyConfirmed_frame happly)
  | eventConfirmed tick event rest publicValues jobId hstore =>
    refine tickEvolves_of_updateJobs (fun job hid => ?_) hstore
    subst hid
    exact TickChange.confirmed rfl
  | jobsRead tick => exact tickEvolves_of_frame (QueueFrame.refl db)
  | receiptRead tick row rest receipt => exact tickEvolves_of_frame (QueueFrame.refl db)
  | reverted tick row rest receipt hstore =>
    have hchange : ∀ job : Job, job.id = row.id → TickChange db now
        (.reverting tick row rest receipt) .storeReverted job (revertedRow now tick.head receipt job) :=
      fun _ => TickChange.reverted rfl
    obtain ⟨hrows, hframe⟩ := tickEvolves_of_updateJobs hchange hstore
    exact ⟨hrows, hframe.writer, hframe.ready, hframe.constrained⟩
  | receiptApplied tick row rest receipt hvalues happly =>
    exact tickEvolves_of_frame (applyConfirmed_frame happly)
  | settled tick row rest receipt confirmed hstore =>
    exact tickEvolves_of_updateJobs (fun job hid => TickChange.settled rfl hid) hstore
  | ready tick =>
    exact ⟨Evolves.refl (TickChange.kept _), rfl, fun _ => Or.inr ⟨rfl, tick, rfl⟩, id⟩

end Ticks

end EthereumSettlement.IndexerMoves
