import EthereumSettlement.IndexerMoves
import EthereumSettlement.GatewayRuns

/-!
# What a rollback touches

A rollback removes what the index holds above the common ancestor and leaves the
rest. Block rows, accepted events, actions and leaves at or below the ancestor stay
as they are. A deposit at or below it keeps its log and loses only the claims of jobs
that are included above it. A job that is not included above it changes only as a
settlement that depends on the retried one.
-/

namespace EthereumSettlement.RollbackEffects

open CheckedCalls KeyedTables PastaPoseidon
open GatewayTables GatewayIndexer IndexerMoves GatewayRuns

/-- The rollback deletes the job: a recovered job above the ancestor that nothing retains. -/
def RollbackDeletes (db : Database) (ancestor : ℕ) (job : Job) : Prop :=
  OrphanedRecovery ancestor job ∧ ¬ Retained db job

instance (db : Database) (ancestor : ℕ) (job : Job) : Decidable (RollbackDeletes db ancestor job) :=
  inferInstanceAs (Decidable (_ ∧ _))

/-- Every table after a rollback except the jobs and the pending commands. -/
structure IndexRolledBack (db after : Database) (ancestor : ℕ) : Prop where
  /-- The accounts are restored. -/
  accounts : after.accounts = (rollbackIndex db ancestor).accounts
  /-- The blocks are marked. -/
  blocks : after.blocks = (rollbackIndex db ancestor).blocks
  /-- The actions are marked. -/
  actions : after.actions = (rollbackIndex db ancestor).actions
  /-- The deposits are marked and released. -/
  deposits : after.deposits = (rollbackIndex db ancestor).deposits
  /-- The leaves are marked. -/
  innerActionLeaves : after.innerActionLeaves = (rollbackIndex db ancestor).innerActionLeaves
  /-- The events are marked. -/
  acceptedEvents : after.acceptedEvents = (rollbackIndex db ancestor).acceptedEvents
  /-- The event cursor goes back. -/
  lastExplorerBlock : after.lastExplorerBlock = (rollbackIndex db ancestor).lastExplorerBlock
  /-- The configured key stays. -/
  outerPublicKey : after.outerPublicKey = db.outerPublicKey
  /-- Snapshots above the ancestor are spent. -/
  history : ∀ history, history ∈ after.accountHistory ↔
    history ∈ db.accountHistory ∧ history.ethereumBlockNumber ≤ ancestor ∧
      ¬ ∃ job ∈ db.jobs, RollbackDeletes db ancestor job ∧ history.jobId = job.id

section Tables

variable {db after : Database} {now : Timestamp} {ancestor : ℕ} {job row : Job}

/-- The job statements of a rollback write the jobs and their account history only. -/
theorem rollbackJobs_tables {indexed : Database} {retryId : Option Uuid}
    (h : rollbackJobs indexed now ancestor retryId = .ok after) :
    after = { indexed with
      jobs := after.jobs
      accountHistory := indexed.accountHistory.filter fun history =>
        ¬ ∃ job ∈ (updateWhere (fun job => OrphanedRecovery ancestor job ∧ Retained indexed job)
          (orphanedRow now) indexed.jobs).filter fun job =>
            OrphanedRecovery ancestor job ∧ ¬ Retained indexed job, history.jobId = job.id } := by
  simp only [rollbackJobs, bind_eq_ok, Database.updateJobs_eq_ok, Database.storeJobs_eq_ok] at h
  obtain ⟨_, ⟨-, rfl⟩, _, ⟨-, rfl⟩, h⟩ := h
  cases retryId with
  | none =>
    simp only [bind_eq_ok, pure_eq_ok, Database.updateJobs_eq_ok] at h
    obtain ⟨_, rfl, -, rfl⟩ := h
    rfl
  | some retryId =>
    simp only [bind_eq_ok, Database.updateJobs_eq_ok] at h
    obtain ⟨_, ⟨-, rfl⟩, -, rfl⟩ := h
    rfl

/-- The rows that the deletion of a rollback names are recovered jobs that nothing retains. -/
theorem deleted_iff {id : Uuid} :
    (∃ job ∈ (updateWhere (fun job => OrphanedRecovery ancestor job ∧ Retained db job)
        (orphanedRow now) db.jobs).filter fun job =>
          OrphanedRecovery ancestor job ∧ ¬ Retained db job, id = job.id) ↔
      ∃ job ∈ db.jobs, RollbackDeletes db ancestor job ∧ id = job.id := by
  constructor
  · rintro ⟨row, hrow, hid⟩
    obtain ⟨hmem, hdeleted⟩ := List.mem_filter.mp hrow
    obtain ⟨horphaned, hfree⟩ := of_decide_eq_true hdeleted
    obtain ⟨old, hold, heq⟩ := mem_updateWhere.mp hmem
    by_cases hretained : OrphanedRecovery ancestor old ∧ Retained db old
    · rw [if_pos hretained] at heq
      rw [← heq] at hfree
      exact absurd hretained.2 hfree
    · rw [if_neg hretained] at heq
      subst heq
      exact ⟨old, hold, ⟨horphaned, hfree⟩, hid⟩
  · rintro ⟨job, hjob, hdeletes, hid⟩
    refine ⟨job, List.mem_filter.mpr ⟨?_, decide_eq_true hdeletes⟩, hid⟩
    refine mem_updateWhere.mpr ⟨job, hjob, if_neg fun hretained => ?_⟩
    exact hdeletes.2 hretained.2

/-- The tables after a rollback. -/
theorem rollbackAfter_tables (h : rollbackAfter db now ancestor = .ok after) :
    IndexRolledBack db after ancestor := by
  simp only [rollbackAfter, bind_eq_ok] at h
  obtain ⟨rolled, hrolled, h⟩ := h
  have htables := rollbackJobs_tables hrolled
  have hafter : after = { rolled with pendingCommands := after.pendingCommands } := by
    split at h
    · rw [pure_eq_ok] at h
      rw [← h]
      unfold Database.insertPending
      split <;> rfl
    · rw [pure_eq_ok] at h
      rw [← h]
      rfl
  rw [htables] at hafter
  rw [hafter]
  refine ⟨rfl, rfl, rfl, rfl, rfl, rfl, rfl, rfl, fun history => ?_⟩
  have hdeleted : (∃ job ∈ (updateWhere (fun job => OrphanedRecovery ancestor job ∧ Retained db job)
        (orphanedRow now) db.jobs).filter fun job =>
          OrphanedRecovery ancestor job ∧ ¬ Retained db job, history.jobId = job.id) ↔
      ∃ job ∈ db.jobs, RollbackDeletes db ancestor job ∧ history.jobId = job.id := deleted_iff
  constructor
  · intro h
    obtain ⟨hkept, hundeleted⟩ := List.mem_filter.mp h
    obtain ⟨hmem, hbelow⟩ := List.mem_filter.mp hkept
    exact ⟨hmem, of_decide_eq_true hbelow,
      fun hgone => of_decide_eq_true hundeleted (hdeleted.mpr hgone)⟩
  · rintro ⟨hmem, hbelow, hkept⟩
    have hindexed : history ∈ (rollbackIndex db ancestor).accountHistory :=
      List.mem_filter.mpr ⟨hmem, decide_eq_true hbelow⟩
    exact List.mem_filter.mpr ⟨hindexed, decide_eq_true fun hgone => hkept (hdeleted.mp hgone)⟩

/-- The job table after a rollback. -/
theorem rollbackAfter_jobs (h : rollbackAfter db now ancestor = .ok after) :
    after.jobs = updateWhere (Requeued ancestor ((retrySettlement ancestor db.jobs).map Job.id))
      requeuedRow (updateWhere (Invalidated ((retrySettlement ancestor db.jobs).map Job.id))
        (supersededRow now)
          ((updateWhere (fun job => OrphanedRecovery ancestor job ∧ Retained db job)
            (orphanedRow now) db.jobs).filter
              fun job => ¬ (OrphanedRecovery ancestor job ∧ ¬ Retained db job))) := by
  simp only [rollbackAfter, bind_eq_ok] at h
  obtain ⟨rolled, hrolled, h⟩ := h
  obtain ⟨-, -, -, hrows⟩ := rollbackJobs_eq_ok hrolled
  have hjobs : after.jobs = rolled.jobs := by
    split at h
    · rw [pure_eq_ok] at h
      rw [← h]
      simp
    · rw [pure_eq_ok] at h
      rw [← h]
      simp
  rw [hjobs]
  exact hrows

end Tables

/-- The bridge job of the deposit is included above the ancestor. -/
def BridgedAbove (db : Database) (ancestor : ℕ) (row : BridgeDepositRow) : Prop :=
  ∃ job ∈ db.jobs, row.bridgeJobId = some job.id ∧ Above ancestor job.submittedBlockNumber

instance (db : Database) (ancestor : ℕ) (row : BridgeDepositRow) :
    Decidable (BridgedAbove db ancestor row) :=
  inferInstanceAs (Decidable (∃ job ∈ db.jobs, _))

/-- The settlement that synchronized the deposit is included above the ancestor. -/
def SynchronizedAbove (db : Database) (ancestor : ℕ) (row : BridgeDepositRow) : Prop :=
  ∃ job ∈ db.jobs,
    row.synchronizedSettlementJobId = some job.id ∧ Above ancestor job.submittedBlockNumber

instance (db : Database) (ancestor : ℕ) (row : BridgeDepositRow) :
    Decidable (SynchronizedAbove db ancestor row) :=
  inferInstanceAs (Decidable (∃ job ∈ db.jobs, _))

/-- What a rollback leaves of a deposit: its log, its removal mark at or below the ancestor, and
every claim of a job that is not included above the ancestor. -/
structure DepositFrame (db : Database) (ancestor : ℕ) (old row : BridgeDepositRow) : Prop where
  /-- Its event is unchanged. -/
  log : row.log = old.log
  /-- It is removed if its block is. -/
  removed : row.removed = (old.removed || decide (ancestor < old.log.blockNumber))
  /-- The claim of a bridge job below the ancestor stays. -/
  bridged : ¬ BridgedAbove db ancestor old → row.bridgeJobId = old.bridgeJobId ∧
    row.outerActionSequence = old.outerActionSequence ∧
      row.outerActionStateAfter = old.outerActionStateAfter
  /-- The claim of a settlement below the ancestor stays. -/
  synchronized : ¬ BridgedAbove db ancestor old → ¬ SynchronizedAbove db ancestor old →
    row.synchronizedSettlementJobId = old.synchronizedSettlementJobId ∧
      row.synchronizedSettlementSequence = old.synchronizedSettlementSequence

/-- The job depends on the settlement that the rollback retries. -/
def DependsOnRetry (db : Database) (ancestor : ℕ) (job : Job) : Prop :=
  Invalidated ((retrySettlement ancestor db.jobs).map Job.id) job

instance (db : Database) (ancestor : ℕ) (job : Job) : Decidable (DependsOnRetry db ancestor job) :=
  inferInstanceAs (Decidable (Invalidated _ _))

/-- What a rollback leaves of every table, and what else it changes. -/
structure RollbackFrame (db after : Database) (now : Timestamp) (ancestor : ℕ) : Prop where
  /-- Blocks at or below the ancestor stay. -/
  blocks : List.Forall₂ (fun old row => old.block.number ≤ ancestor → row = old)
    db.blocks after.blocks
  /-- Events at or below the ancestor stay. -/
  events : List.Forall₂ (fun old row => old.blockNumber ≤ ancestor → row = old)
    db.acceptedEvents after.acceptedEvents
  /-- Actions at or below the ancestor stay. -/
  actions : List.Forall₂ (fun old row => old.ethereumBlockNumber ≤ ancestor → row = old)
    db.actions after.actions
  /-- Leaves at or below the ancestor stay. -/
  leaves : List.Forall₂ (fun old row => old.row.ethereumBlockNumber ≤ (ancestor : ℤ) → row = old)
    db.innerActionLeaves after.innerActionLeaves
  /-- What stays of a deposit. -/
  deposits : List.Forall₂ (DepositFrame db ancestor) db.deposits after.deposits
  /-- Jobs that are neither above nor dependent stay. -/
  kept : ∀ job ∈ db.jobs, ¬ Above ancestor job.submittedBlockNumber →
    ¬ DependsOnRetry db ancestor job → job ∈ after.jobs
  /-- Dependent jobs without a receipt are superseded. -/
  invalidated : ∀ job ∈ db.jobs, job.submittedBlockNumber = none →
    DependsOnRetry db ancestor job → supersededRow now job ∈ after.jobs
  /-- No other job changes. -/
  changed : ∀ row ∈ after.jobs, row ∈ db.jobs ∨ ∃ old ∈ db.jobs, row.id = old.id ∧
    (Above ancestor old.submittedBlockNumber ∨ DependsOnRetry db ancestor old)
  /-- The retried settlement lay above the ancestor. -/
  retried : ∀ retry, retrySettlement ancestor db.jobs = some retry →
    retry ∈ db.jobs ∧ Above ancestor retry.submittedBlockNumber

section Frames

variable {db after : Database} {now : Timestamp} {ancestor : ℕ} {job row : Job}

/-- The retried settlement is included above the ancestor. -/
theorem above_of_retry {retry : Job} (h : retrySettlement ancestor db.jobs = some retry) :
    retry ∈ db.jobs ∧ Above ancestor retry.submittedBlockNumber := by
  have hmem := List.mem_of_find?_eq_some h
  obtain ⟨hjob, hretryable⟩ := List.mem_filter.mp hmem
  exact ⟨hjob, (of_decide_eq_true hretryable).2.2.1⟩

/-- The deposit with its removal mark. -/
def removedDeposit (ancestor : ℕ) (row : BridgeDepositRow) : BridgeDepositRow :=
  { row with removed := row.removed || decide (ancestor < row.log.blockNumber) }

/-- The deposit without the claim of a settlement above the ancestor. -/
def unsynchronizedDeposit (db : Database) (ancestor : ℕ) (row : BridgeDepositRow) :
    BridgeDepositRow :=
  if SynchronizedAbove db ancestor row then
    { row with synchronizedSettlementJobId := none, synchronizedSettlementSequence := none }
  else row

/-- The removal statement marks a deposit above the ancestor. -/
theorem removedDeposit_eq {row : BridgeDepositRow} :
    (if row.removed = false ∧ ancestor < row.log.blockNumber then { row with removed := true }
      else row) = removedDeposit ancestor row := by
  unfold removedDeposit
  by_cases habove : ancestor < row.log.blockNumber
  · cases hrow : row.removed with
    | false => simp [habove]
    | true => simp [← hrow]
  · simp [habove]

/-- The deposits after a rollback. -/
theorem deposit_frame : List.Forall₂ (DepositFrame db ancestor) db.deposits
    (rollbackIndex db ancestor).deposits := by
  simp only [rollbackIndex, updateWhere, List.map_map, List.forall₂_map_right_iff]
  refine List.forall₂_same.mpr fun old _ => ?_
  simp only [Function.comp, removedDeposit_eq]
  have hsame : SynchronizedAbove db ancestor (removedDeposit ancestor old) ↔
      SynchronizedAbove db ancestor old := Iff.rfl
  have hbridged : BridgedAbove db ancestor (unsynchronizedDeposit db ancestor
      (removedDeposit ancestor old)) ↔ BridgedAbove db ancestor old := by
    unfold unsynchronizedDeposit
    split <;> exact Iff.rfl
  change DepositFrame db ancestor old (if BridgedAbove db ancestor (unsynchronizedDeposit db ancestor
    (removedDeposit ancestor old)) then _ else unsynchronizedDeposit db ancestor
      (removedDeposit ancestor old))
  by_cases h : BridgedAbove db ancestor old
  · rw [if_pos (hbridged.mpr h)]
    refine ⟨?_, ?_, fun hnot => absurd h hnot, fun hnot => absurd h hnot⟩
    · dsimp only
      split <;> rfl
    · dsimp only
      split <;> rfl
  · rw [if_neg fun habove => h (hbridged.mp habove)]
    by_cases hsynchronized : SynchronizedAbove db ancestor old
    · rw [unsynchronizedDeposit, if_pos (hsame.mpr hsynchronized)]
      exact ⟨rfl, rfl, fun _ => ⟨rfl, rfl, rfl⟩, fun _ hnot => absurd hsynchronized hnot⟩
    · rw [unsynchronizedDeposit, if_neg fun habove => hsynchronized (hsame.mp habove)]
      exact ⟨rfl, rfl, fun _ => ⟨rfl, rfl, rfl⟩, fun _ _ => ⟨rfl, rfl⟩⟩

/-- A job that is not included above the ancestor is neither orphaned nor requeued. -/
theorem job_after (h : rollbackAfter db now ancestor = .ok after) (hjob : job ∈ db.jobs)
    (hbelow : ¬ Above ancestor job.submittedBlockNumber) :
    (if DependsOnRetry db ancestor job then supersededRow now job else job) ∈ after.jobs := by
  rw [rollbackAfter_jobs h]
  have horphaned : ¬ OrphanedRecovery ancestor job := fun h => hbelow h.2
  have hkept : job ∈ (updateWhere (fun job => OrphanedRecovery ancestor job ∧ Retained db job)
      (orphanedRow now) db.jobs).filter
        fun job => ¬ (OrphanedRecovery ancestor job ∧ ¬ Retained db job) := by
    refine List.mem_filter.mpr ⟨?_, decide_eq_true fun h => horphaned h.1⟩
    exact mem_updateWhere.mpr ⟨job, hjob, if_neg fun h => horphaned h.1⟩
  have hinvalidated := mem_updateWhere (p := DependsOnRetry db ancestor) (f := supersededRow now)
    |>.mpr ⟨job, hkept, rfl⟩
  refine mem_updateWhere.mpr ⟨_, hinvalidated, if_neg fun hrequeued => hbelow ?_⟩
  have hnumber : (if DependsOnRetry db ancestor job then supersededRow now job
      else job).submittedBlockNumber = job.submittedBlockNumber := by
    split <;> rfl
  rw [← hnumber]
  exact hrequeued.1

/-- A changed job is included above the ancestor or depends on the retried settlement. -/
theorem job_origin (h : rollbackAfter db now ancestor = .ok after) (hrow : row ∈ after.jobs) :
    row ∈ db.jobs ∨ ∃ old ∈ db.jobs, row.id = old.id ∧
      (Above ancestor old.submittedBlockNumber ∨ DependsOnRetry db ancestor old) := by
  have hstage : IndexerStage.rollingBack ⟨0, none⟩ ancestor = .rollingBack ⟨0, none⟩ ancestor := rfl
  have hevolves := (rollbackAfter_eq_ok hstage h).1
  obtain ⟨old, hold, hchange⟩ := (hevolves.origin row hrow).resolve_right id
  cases hchange with
  | kept => exact Or.inl hold
  | orphaned hstage horphaned =>
    cases hstage
    exact Or.inr ⟨old, hold, rfl, Or.inl horphaned.2⟩
  | superseded hstage hretry horphaned hsuperseded =>
    cases hstage
    refine Or.inr ⟨old, hold, rfl, Or.inr ?_⟩
    rw [DependsOnRetry, hretry]
    exact ⟨_, rfl, hsuperseded⟩
  | requeued hstage horphaned hrequeued =>
    cases hstage
    exact Or.inr ⟨old, hold, rfl, Or.inl hrequeued.1⟩

end Frames

/-- A rollback leaves block rows, events, actions and leaves at or below the ancestor as they were,
takes from a deposit only the claims of jobs that are included above it, and changes a job only if
it is included above the ancestor or is a settlement that depends on the retried one. -/
theorem rollback_frame {db after : Database} {now : Timestamp} {ancestor : ℕ}
    (h : rollbackAfter db now ancestor = .ok after) : RollbackFrame db after now ancestor := by
  have htables := rollbackAfter_tables h
  constructor
  · rw [htables.blocks]
    refine forall₂_updateWhere fun old _ hbelow => if_neg fun hold => ?_
    exact absurd hold.2 (by omega)
  · rw [htables.acceptedEvents]
    refine forall₂_updateWhere fun old _ hbelow => if_neg fun hold => ?_
    exact absurd hold.2 (by omega)
  · rw [htables.actions]
    refine forall₂_updateWhere fun old _ hbelow => if_neg fun hold => ?_
    exact absurd hold.2 (by omega)
  · rw [htables.innerActionLeaves]
    refine forall₂_updateWhere fun old _ hbelow => if_neg fun hold => ?_
    exact absurd hold.2 (by omega)
  · rw [htables.deposits]
    exact deposit_frame
  · intro job hjob hbelow hindependent
    have hafter := job_after h hjob hbelow
    rwa [if_neg hindependent] at hafter
  · intro job hjob hnone hdepends
    have hbelow : ¬ Above ancestor job.submittedBlockNumber := by simp [hnone, Above]
    have hafter := job_after h hjob hbelow
    rwa [if_pos hdepends] at hafter
  · exact fun row hrow => job_origin h hrow
  · exact fun retry hretry => above_of_retry hretry

/-- A deposit below a rollback is claimed by a bridge job above it, and a settlement is queued
behind one that the rollback retries. -/
def claimedAbove : Database :=
  let job := fun (id : Uuid) kind =>
    Job.queued id kind ⟨false, none, none, none, none, none, []⟩ none 0 0
  { emptyDatabase with
    jobs := [
      { job 1 .bridge with status := .confirmed, submittedBlockNumber := some 101 },
      { job 2 .settlement with status := .confirmed, submittedBlockNumber := some 102 },
      job 3 .settlement]
    deposits := [⟨⟨1, 0xd1, 0, 1, 99, 0xb099, 0xe1, 0⟩, false, some 1, some 1, some 7, none, none⟩] }

/-- The rollback takes the claim from the deposit, although the deposit was logged below the
ancestor, and invalidates the queued settlement, although no block includes it. -/
theorem rollback_changes_below :
    ∃ after ∈ (rollbackAfter claimedAbove second 100).toOption,
      (∃ old ∈ claimedAbove.deposits, old.log.blockNumber ≤ 100 ∧ old ∉ after.deposits) ∧
      (∃ row ∈ after.jobs, row.id = 3 ∧ row.status = .reorged ∧ row.submittedBlockNumber = none) := by
  decide

/-- The frame of that rollback. -/
theorem rollback_frame_claimed :
    ∃ after, rollbackAfter claimedAbove second 100 = .ok after ∧
      RollbackFrame claimedAbove after second 100 := by
  cases h : rollbackAfter claimedAbove second 100 with
  | error e =>
    have hok : (rollbackAfter claimedAbove second 100).toOption.isSome := by decide
    simp [h, Except.toOption] at hok
  | ok after => exact ⟨after, rfl, rollback_frame h⟩

end EthereumSettlement.RollbackEffects
