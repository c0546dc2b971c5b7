import EthereumSettlement.ObservedOutcomes
import EthereumSettlement.ProofPurchases

/-!
# Ambiguous submissions

A job that was signed or sent, or whose proof request has no known outcome, is never
failed, cancelled or executed, is reverted or confirmed only after its transaction was
seen on Ethereum, and keeps the outer writer until then. A rollback that retries an
earlier settlement is the one exception: it invalidates the later settlements, and one
that only has an unresolved intent then gives up the writer.
-/

namespace EthereumSettlement.AmbiguousSubmissions

open CheckedCalls KeyedTables TransitionRuns
open GatewayTables OuterWriter ProofJobs GatewayIndexer IndexerMoves GatewayRuns
open GatewayChanges ProofPurchases JobSoundness ObservedOutcomes

/-- The writer row leaves its job only when the outcome of the job is known. -/
theorem jobId_of_writerChange {db : Database} {generated : List Uuid} {writer : Owner} {id : Uuid}
    (h : WriterChange db generated writer) (hid : db.writer.jobId = some id) :
    writer.jobId = some id ∨ ∃ job ∈ db.jobs, job.id = id ∧ job.OutcomeKnown := by
  obtain ⟨holder, hholder, hjobId⟩ := Option.bind_eq_some_iff.mp hid
  have hreleased : ∀ {now : Timestamp}, Released db.jobs now holder →
      ∃ job ∈ db.jobs, job.id = id ∧ job.OutcomeKnown := by
    intro now hreleased
    rcases hreleased with ⟨hnone, -⟩ | ⟨job, hjob, heq, hknown⟩
    · rw [hjobId] at hnone
      exact absurd hnone (by simp)
    · rw [hjobId] at heq
      exact ⟨job, hjob, (Option.some.inj heq).symm, hknown⟩
  cases h with
  | kept => exact Or.inl hid
  | lapsed now =>
    by_cases hlapses : Released db.jobs now holder
    · exact Or.inr (hreleased hlapses)
    · refine Or.inl ?_
      rw [Owner.jobId, lapsed_holder.mpr ⟨hholder, hlapses⟩]
      exact hjobId
  | extended other expiry hother hjob =>
    rw [Option.some.inj (hother.symm.trans hholder), hjobId] at hjob
    exact absurd hjob (by simp)
  | granted now other hfree hother =>
    by_cases hlapses : Released db.jobs now holder
    · exact Or.inr (hreleased hlapses)
    · rw [lapsed_holder.mpr ⟨hholder, hlapses⟩] at hfree
      exact absurd hfree (by simp)
  | released other hother hjob =>
    rw [Option.some.inj (hother.symm.trans hholder), hjobId] at hjob
    exact absurd hjob (by simp)
  | attached other jobId hother hjob =>
    rw [Option.some.inj (hother.symm.trans hholder), hjobId] at hjob
    exact absurd hjob (by simp)

/-- The transaction of a job was seen on Ethereum before. -/
def SeenOutcome (state : AppState) (history : List (GatewayState × Action)) (job : Job) : Prop :=
  ∃ hash, Names job hash ∧ Seen state history hash

/-- The action is a rollback that retries another settlement and invalidates the job. -/
def Invalidates (s : GatewayState) (action : Action) (job : Job) : Prop :=
  ∃ now indexer tick ancestor retry, action = .tick now indexer .rollback ∧
    s.indexers indexer = .rollingBack tick ancestor ∧
    retrySettlement ancestor s.db.jobs = some retry ∧ Superseded retry.id job

/-- What one action leaves of an ambiguous job. -/
structure Kept (state : AppState) (history : List (GatewayState × Action)) (s : GatewayState)
    (action : Action) (next : GatewayState) (job : Job) : Prop where
  /-- It is not failed, cancelled or executed. -/
  unfailed : ∀ row ∈ next.db.jobs, row.id = job.id → row.status ∉ failedStatuses
  /-- A signed job stays signed. -/
  signed : job.Signed → ∀ row ∈ next.db.jobs, row.id = job.id → row.Signed
  /-- It is reverted or confirmed only after its transaction was seen. -/
  settled : ∀ row ∈ next.db.jobs, row.id = job.id → row.status ∈ settledStatuses →
    SeenOutcome state history row
  /-- A reorganization does not end a signed job; it ends a job with an unresolved intent alone by a
  rollback that invalidates it, and by nothing else. -/
  reorged : ∀ row ∈ next.db.jobs, row.id = job.id → row.status = .reorged →
    row.Signed ∨ job.status = .reorged ∨ Invalidates s action job
  /-- Only a job recovered from Ethereum, whose transaction was seen, is deleted, and not while it
  owns the writer. -/
  deleted : (∀ row ∈ next.db.jobs, row.id ≠ job.id) → job.input.recoveredFromEthereum = true ∧
    SeenOutcome state history job ∧ s.db.writer.jobId ≠ some job.id
  /-- It keeps the writer until its transaction was seen, or it was invalidated. -/
  writer : s.db.writer.jobId = some job.id → next.db.writer.jobId = some job.id ∨
    (job.status ∈ settledStatuses ∧ SeenOutcome state history job) ∨
    (job.status = .reorged ∧ ¬ job.Signed)

section Steps

variable {state : AppState} {history : List (GatewayState × Action)} {s next : GatewayState}
variable {action : Action} {job row : Job}

/-- A tick has the job observed before it ends it, and earlier calls have seen the transaction. -/
theorem seenOutcome_of_change (ht : Tracked state history s) (hjob : job ∈ s.db.jobs)
    (h : JobChange s action job row) (hsettled : row.status ∈ settledStatuses) :
    SeenOutcome state history row := by
  rcases settled_of_change ht hjob h hsettled with hbefore | ⟨indexer, hash, hhash, hnames⟩
  · obtain ⟨hash, hnames, hseen⟩ := ht.outcomes job hjob (Or.inl hbefore)
    exact ⟨hash, (soundAfter_of_change ht hjob h).2 hash hnames, hseen⟩
  · exact ⟨hash, hnames, ht.seen indexer hash hhash⟩

/-- A job is reorged by a rollback: as an orphaned recovered job or as an invalidated settlement. -/
theorem reorged_of_change (ht : Tracked state history s) (hjob : job ∈ s.db.jobs)
    (h : JobChange s action job row) (hreorged : row.status = .reorged) :
    row.Signed ∨ job.status = .reorged ∨ Invalidates s action job := by
  cases h with
  | kept => exact Or.inr (Or.inl hreorged)
  | approved => simp [approvedRow] at hreorged
  | cancelled => simp [cancelledRow] at hreorged
  | interrupted =>
    simp only [interruptedRow] at hreorged
    split at hreorged
    · simp at hreorged
    · split at hreorged
      · simp at hreorged
      · split at hreorged <;> simp at hreorged
  | claimed =>
    simp only [claimedRow] at hreorged
    split at hreorged <;> simp at hreorged
  | worked hworker hchange =>
    refine Or.inr (Or.inl ?_)
    cases hchange with
    | executed => simp at hreorged
    | awaitingApproval => simp at hreorged
    | proving => simp at hreorged
    | resolved =>
      dsimp only at hreorged
      split at hreorged
      · simp at hreorged
      · exact hreorged
    | submitting => simp at hreorged
    | submitted => simp at hreorged
    | failed hguard =>
      unfold failedRow at hreorged
      split at hreorged
      · simp at hreorged
      · split at hreorged
        · dsimp only at hreorged
          split at hreorged <;> simp at hreorged
        · simp at hreorged
    | _ => exact hreorged
  | @ticked now indexer call _ _ hchange =>
    cases hchange with
    | kept => exact Or.inr (Or.inl hreorged)
    | orphaned hstage horphaned hretained =>
      obtain ⟨hash, hnames, -⟩ := ht.outcomes job hjob (Or.inr horphaned.1)
      exact Or.inl (signed_of_names hnames)
    | superseded hstage hretry horphaned hsuperseded =>
      exact Or.inr (Or.inr ⟨now, indexer, _, _, _, rfl, hstage, hretry, hsuperseded⟩)
    | requeued =>
      simp only [requeuedRow] at hreorged
      split at hreorged <;> simp at hreorged
    | confirmed => simp [confirmedRow] at hreorged
    | reverted => simp [revertedRow] at hreorged
    | settled =>
      simp only [settledRow] at hreorged
      split at hreorged <;> simp at hreorged

/-- The request of a job is recorded while the job is open. -/
theorem request_of_change (h : JobChange s action job row) :
    row.proofRequestId = job.proofRequestId ∨ row.status ∉ failedStatuses := by
  cases h with
  | kept => exact Or.inl rfl
  | approved => exact Or.inl rfl
  | cancelled => exact Or.inl rfl
  | interrupted => exact Or.inl rfl
  | claimed => exact Or.inl rfl
  | worked hworker hchange =>
    cases hchange with
    | resolved hstage hid hintent hrequest hstatus =>
      refine Or.inr ?_
      dsimp only
      split
      · decide
      · have hopen : ∀ status ∈ [ProofStatus.queued, .approved, .proving, .proofRequested],
            status ∉ failedStatuses := by decide
        exact hopen job.status hstatus
    | failed hguard =>
      refine Or.inl ?_
      unfold failedRow
      split
      · rfl
      · split <;> rfl
    | _ => exact Or.inl rfl
  | ticked hchange => cases hchange <;> exact Or.inl rfl

/-- A change leaves an ambiguous job in no failed state. -/
theorem unfailed_of_change (ht : Tracked state history s) (hjob : job ∈ s.db.jobs)
    (hambiguous : Ambiguous job) (h : JobChange s action job row) :
    row.status ∉ failedStatuses := by
  have hsound := soundAfter_of_change ht hjob h
  rcases request_of_change h with hrequest | hopen
  · refine hsound.1.unfailed ?_
    rcases hambiguous with hsigned | ⟨hintent, hnone⟩
    · obtain ⟨hash, hnames⟩ := exists_names_of_signed hsigned
      exact Or.inl (signed_of_names (hsound.2 hash hnames))
    · obtain ⟨intent, hintent⟩ := Option.isSome_iff_exists.mp hintent
      have hkept := intent_of_change h hintent
      exact Or.inr ⟨by rw [hkept]; rfl, hrequest.trans hnone⟩
  · exact hopen

/-- What one action leaves of an ambiguous job of a reached state. -/
theorem kept_of_step (ht : Tracked state history s) (h : step state s action = .ok next)
    (hjob : job ∈ s.db.jobs) (hambiguous : Ambiguous job) :
    Kept state history s action next job where
  unfailed := fun _ hrow hid =>
    unfailed_of_change ht hjob hambiguous (change_of_id ht.keyed h hjob hrow hid)
  signed := by
    intro hsigned row hrow hid
    obtain ⟨hash, hnames⟩ := exists_names_of_signed hsigned
    have hkept := (soundAfter_of_change ht hjob (change_of_id ht.keyed h hjob hrow hid)).2
    exact signed_of_names (hkept hash hnames)
  settled := fun _ hrow hid =>
    seenOutcome_of_change ht hjob (change_of_id ht.keyed h hjob hrow hid)
  reorged := fun _ hrow hid =>
    reorged_of_change ht hjob (change_of_id ht.keyed h hjob hrow hid)
  deleted := by
    intro hgone
    rcases (step_changes ht.keyed h).rows.fate job hjob with ⟨row, hrow, hchange⟩ | hdeleted
    · exact absurd hchange.id_eq (hgone row hrow)
    · cases hdeleted with
      | ticked hdeleted =>
        cases hdeleted with
        | orphaned hstage horphaned hretained =>
          refine ⟨horphaned.1, ht.outcomes job hjob (Or.inr horphaned.1), fun howner => ?_⟩
          exact hretained (Or.inr (Or.inl howner))
  writer := by
    intro howner
    rcases jobId_of_writerChange (step_changes ht.keyed h).writer howner with hkept |
        ⟨owner, howned, hid, hknown⟩
    · exact Or.inl hkept
    · have hsame := row_eq_of_key ht.keyed.constrained.primaryKey howned hjob hid
      subst hsame
      rcases hknown with hsettled | ⟨hhash, hprepared, hended⟩
      · exact Or.inr (Or.inl ⟨hsettled, ht.outcomes owner hjob (Or.inl hsettled)⟩)
      · refine Or.inr (Or.inr ⟨?_, ?_⟩)
        · have hunfailed := (ht.jobs owner hjob).unfailed hambiguous
          simp only [failedStatuses, List.mem_cons, List.not_mem_nil, or_false, not_or] at hunfailed
          simp only [List.mem_cons, List.not_mem_nil, or_false] at hended
          rcases hended with heq | heq | heq | heq | heq
          · exact absurd heq hunfailed.1
          · exact absurd heq hunfailed.2.1
          · exact absurd heq hunfailed.2.2.1
          · exact absurd heq hunfailed.2.2.2
          · exact heq
        · rintro (hsome | hsome)
          · rw [hprepared] at hsome
            exact absurd hsome (by simp)
          · rw [hhash] at hsome
            exact absurd hsome (by simp)

end Steps

/-- In every run, every action keeps every ambiguous job: it is not failed, cancelled or executed,
it is reverted or confirmed only after its transaction was seen on Ethereum, a signed job stays
signed, and the job keeps the outer writer until its transaction was seen. Only a rollback that
retries an earlier settlement ends a job with an unresolved intent otherwise. -/
theorem ambiguous_submissions_kept (state : AppState) (actions : List Action) {action : Action}
    {next : GatewayState} (h : step state (run (step state) start actions) action = .ok next)
    {job : Job} (hjob : job ∈ (run (step state) start actions).db.jobs)
    (hambiguous : Ambiguous job) :
    Kept state (accepted (step state) start actions) (run (step state) start actions) action next
      job :=
  kept_of_step (tracked_run state actions) h hjob hambiguous

/-- A second settlement is admitted, and its worker dies after the proof request was sent. -/
def unresolvedSuccessor : List Action :=
  confirmedSettlement ++
    [.serve (.acquire second 6 ⟨"second", some 30⟩ (secondBlock 0xb101) settlementState),
      .serve (.createSettlement second 7 none (settlementUnder ⟨6, "2"⟩))] ++
    requestProof 1 8 ++ [.crash 1]

/-- The second block is replaced, and a worker claims the retried settlement. -/
def replacedBlock : List Action :=
  [.tick second 0 (.begin 101 none), .tick second 0 (.commonAncestor 100),
    .tick second 0 .rollback, .tick second 0 (.indexBlock (secondBlock 0xc101) [])] ++
    quietCalls 0 0xc101 ++ [.tick second 0 .reportReady, .claim second 2 []]

/-- An unresolved intent is ended, and its writer released, by a rollback that retries the
settlement before it, although no transaction of its job was ever signed. -/
theorem unresolved_intent_released :
    let before := run (step confirming) start unresolvedSuccessor
    let after := run (step confirming) before replacedBlock
    ((∃ job ∈ before.db.jobs, job.id = 7 ∧ job.UnresolvedIntent ∧ ¬ job.Signed) ∧
        before.db.writer.jobId = some 7) ∧
      (∃ job ∈ after.db.jobs, job.id = 7 ∧ job.UnresolvedIntent ∧ ¬ job.Signed ∧
        job.status = .reorged) ∧ after.db.writer.jobId = none := by
  decide +kernel

/-- A restart keeps the unresolved intent of the second settlement. -/
theorem ambiguous_submissions_kept_restart :
    ∃ next, step confirming (run (step confirming) start unresolvedSuccessor)
        (.serve .recoverInterrupted) = .ok next ∧
      ∃ job ∈ (run (step confirming) start unresolvedSuccessor).db.jobs, job.id = 7 ∧
        Kept confirming (accepted (step confirming) start unresolvedSuccessor)
          (run (step confirming) start unresolvedSuccessor) (.serve .recoverInterrupted) next job := by
  have hrun : (∃ job ∈ (run (step confirming) start unresolvedSuccessor).db.jobs,
        job.id = 7 ∧ Ambiguous job) ∧
      (step confirming (run (step confirming) start unresolvedSuccessor)
        (.serve .recoverInterrupted)).toOption.isSome := by
    decide +kernel
  obtain ⟨⟨job, hjob, hid, hambiguous⟩, hstep⟩ := hrun
  cases hnext : step confirming (run (step confirming) start unresolvedSuccessor)
      (.serve .recoverInterrupted) with
  | error e => simp [hnext, Except.toOption] at hstep
  | ok next =>
    exact ⟨next, rfl, job, hjob, hid,
      ambiguous_submissions_kept confirming unresolvedSuccessor hnext hjob hambiguous⟩

end EthereumSettlement.AmbiguousSubmissions
