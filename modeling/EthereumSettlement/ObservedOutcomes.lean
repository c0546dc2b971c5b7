import EthereumSettlement.JobSoundness

/-!
# Observed outcomes

A job is confirmed or reverted only by an indexer that has seen its transaction on
Ethereum: as an accepted event in a finalized block, or by a finalized receipt. A tick
remembers which transactions it has seen and which job it will write for each of
them; both agree with the history of the run and with the rows of the job table.
-/

namespace EthereumSettlement.ObservedOutcomes

open CheckedCalls KeyedTables TransitionRuns
open GatewayTables OuterWriter ProofJobs WorkerMoves GatewayIndexer IndexerMoves GatewayRuns
open GatewayChanges AttemptFencing JobSoundness

/-- The job and the transaction of a row to reconcile. -/
def rowNames (row : ReconcileRow) : Uuid × PastaPoseidon.Bytes32 := (row.id, row.transactionHash)

/-- The jobs that a tick may write, each with the transaction it takes the job for. -/
def named : IndexerStage → List (Uuid × PastaPoseidon.Bytes32)
  | .applying _ event _ _ jobId _ | .confirming _ event _ _ jobId =>
    [(jobId, event.transactionHash)]
  | .reconciling _ rows => rows.map rowNames
  | .reverting _ row rest _ | .settling _ row rest _ | .recording _ row rest _ _ =>
    rowNames row :: rest.map rowNames
  | _ => []

/-- The transactions that a tick has seen on Ethereum and may end a job by. -/
def observed : IndexerStage → List PastaPoseidon.Bytes32
  | .recovering _ events => events.map AcceptedEvent.transactionHash
  | .replaying _ event rest _ | .inserting _ event rest _ _ | .applying _ event rest _ _ _
  | .confirming _ event rest _ _ =>
    event.transactionHash :: rest.map AcceptedEvent.transactionHash
  | .reverting _ row _ _ | .settling _ row _ _ => [row.transactionHash]
  | .recording _ row _ _ confirmed => if confirmed then [row.transactionHash] else []
  | _ => []

/-- The receipt is in a canonical block and its transaction is final. -/
def FinalReceipt (state : AppState) (db : Database) (tick : Tick) (receipt : Receipt) : Prop :=
  (db.canonicalBlock? receipt.blockNumber).map (fun block => block.block.hash) =
      some receipt.blockHash ∧
    transactionIsFinalized state receipt.blockNumber (confirmationsAt tick.head receipt)
      tick.finalized = true

/-- The call of a tick that sees a transaction on Ethereum: the query of the accepted events, or
the final receipt of a job's transaction. -/
inductive Sighting (state : AppState) (db : Database) (hash : PastaPoseidon.Bytes32) :
    IndexerStage → IndexerStep → Prop
  | event (tick : Tick) {event : AcceptedEvent} (hevent : event ∈ acceptedEvents db)
      (hhash : event.transactionHash = hash) :
      Sighting state db hash (.exploring tick) .readEvents
  | receipt (tick : Tick) (row : ReconcileRow) (rest : List ReconcileRow) {receipt : Receipt}
      (hhash : row.transactionHash = hash) (hfinal : FinalReceipt state db tick receipt) :
      Sighting state db hash (.reconciling tick (row :: rest)) (.readReceipt (some receipt))

section Moves

variable {state : AppState} {db after : Database} {now : Timestamp} {stage next : IndexerStage}
variable {call : IndexerStep}

/-- A decision to revert or to confirm a job rests on a final receipt. -/
theorem finalReceipt_of_reconcile {tick : Tick} {row : ReconcileRow} {answer : Option Receipt}
    {receipt : Receipt}
    (h : reconcile state db tick.head tick.finalized row answer = .revert receipt ∨
      reconcile state db tick.head tick.finalized row answer = .settle receipt true) :
    answer = some receipt ∧ FinalReceipt state db tick receipt := by
  cases answer with
  | none => simp [reconcile] at h
  | some answered =>
    simp only [reconcile] at h
    split at h
    · simp at h
    · rename_i hcanonical
      split at h
      · simp at h
      · split at h
        · rename_i hreverted
          simp only [Reconciliation.revert.injEq, reduceCtorEq, or_false] at h
          subst h
          exact ⟨rfl, not_not.mp hcanonical, hreverted.2⟩
        · simp only [reduceCtorEq, Reconciliation.settle.injEq, false_or] at h
          obtain ⟨rfl, hfinal⟩ := h
          exact ⟨rfl, not_not.mp hcanonical, hfinal⟩

/-- What a tick may end a job by after a call was seen before or is seen by the call. -/
theorem observed_of_move (h : TickMove state db now stage call after next)
    {hash : PastaPoseidon.Bytes32} (hhash : hash ∈ observed next) :
    hash ∈ observed stage ∨ Sighting state db hash stage call := by
  cases h with
  | eventsRead tick =>
    obtain ⟨event, hevent, heq⟩ := List.mem_map.mp hhash
    exact Or.inr (Sighting.event tick hevent heq)
  | eventPassed tick event rest happlied => exact Or.inl (List.mem_cons_of_mem _ hhash)
  | eventRead tick event rest publicValues happlied => exact Or.inl hhash
  | submissionFound tick event rest publicValues hfind hinput => exact Or.inl hhash
  | submissionUnknown tick event rest publicValues hfind hinput => exact Or.inl hhash
  | recoveredInserted tick event rest publicValues input hstore => exact Or.inl hhash
  | eventApplied tick event rest publicValues jobId input happly => exact Or.inl hhash
  | eventConfirmed tick event rest publicValues jobId hstore =>
    exact Or.inl (List.mem_cons_of_mem _ hhash)
  | receiptRead tick row rest answer =>
    refine Or.inr ?_
    cases hdecision : reconcile state db tick.head tick.finalized row answer with
    | skip =>
      rw [hdecision] at hhash
      simp [reconciledStage, observed] at hhash
    | revert receipt =>
      obtain ⟨rfl, hfinal⟩ := finalReceipt_of_reconcile (Or.inl hdecision)
      rw [hdecision] at hhash
      exact Sighting.receipt tick row rest (List.mem_singleton.mp hhash).symm hfinal
    | settle receipt confirmed =>
      rw [hdecision] at hhash
      cases confirmed with
      | false => simp [reconciledStage, observed] at hhash
      | true =>
        obtain ⟨rfl, hfinal⟩ := finalReceipt_of_reconcile (Or.inr hdecision)
        have hrow : hash = row.transactionHash := by
          simp only [reconciledStage] at hhash
          split at hhash
          · exact List.mem_singleton.mp hhash
          · exact List.mem_singleton.mp hhash
        exact Sighting.receipt tick row rest hrow.symm hfinal
  | receiptApplied tick row rest receipt hvalues happly => exact Or.inl hhash
  | _ => exact absurd hhash (by simp [observed])

/-- The stage after a receipt is read names no other job. -/
theorem named_reconciledStage {tick : Tick} {row : ReconcileRow} {rest : List ReconcileRow}
    {decision : Reconciliation} {entry : Uuid × PastaPoseidon.Bytes32}
    (h : entry ∈ named (reconciledStage tick row rest decision)) :
    entry ∈ rowNames row :: rest.map rowNames := by
  cases decision with
  | skip => exact List.mem_cons_of_mem _ h
  | revert receipt => exact h
  | settle receipt confirmed =>
    simp only [reconciledStage] at h
    split at h
    · exact h
    · exact h

/-- A job that a tick may write after a call was named before, or its row names the transaction. -/
theorem named_of_move (h : TickMove state db now stage call after next)
    {entry : Uuid × PastaPoseidon.Bytes32} (hentry : entry ∈ named next) :
    entry ∈ named stage ∨ ∃ job ∈ after.jobs, job.id = entry.1 ∧ Names job entry.2 := by
  cases h with
  | submissionFound tick event rest publicValues hfind hinput =>
    obtain ⟨hjob, hnames⟩ := List.mem_filter.mp (List.mem_of_find?_eq_some hfind)
    rw [List.mem_singleton.mp hentry]
    exact Or.inr ⟨_, hjob, rfl, of_decide_eq_true hnames⟩
  | recoveredInserted tick event rest publicValues input hstore =>
    obtain ⟨-, rfl⟩ := Database.storeJobs_eq_ok.mp hstore
    rw [List.mem_singleton.mp hentry]
    exact Or.inr ⟨_, List.mem_append_right _ List.mem_cons_self, rfl, Or.inl rfl⟩
  | eventApplied tick event rest publicValues jobId input happly => exact Or.inl hentry
  | jobsRead tick =>
    obtain ⟨row, hrow, rfl⟩ := List.mem_map.mp hentry
    obtain ⟨job, hjob, hread⟩ := List.mem_filterMap.mp hrow
    obtain ⟨hash, hhash, rfl⟩ := Option.map_eq_some_iff.mp hread
    exact Or.inr ⟨job, (List.mem_filter.mp hjob).1, rfl, Or.inl hhash⟩
  | receiptRead tick row rest answer => exact Or.inl (named_reconciledStage hentry)
  | reverted tick row rest receipt hstore => exact Or.inl (List.mem_cons_of_mem _ hentry)
  | receiptApplied tick row rest receipt hvalues happly => exact Or.inl hentry
  | settled tick row rest receipt confirmed hstore => exact Or.inl (List.mem_cons_of_mem _ hentry)
  | _ => exact absurd hentry (by simp [named])

/-- The row of an unknown submitter is marked as recovered. -/
def InsertsRecovered (stage : IndexerStage) : Prop :=
  ∀ tick event rest publicValues input, stage = .inserting tick event rest publicValues input →
    input.recoveredFromEthereum = true

/-- A recovered input is marked. -/
theorem recoveredInput_marked {kind : ProofKind} {publicValues : ByteWords.Bytes} {input : JobInput}
    (h : recoveredInput state db kind publicValues = .ok input) :
    input.recoveredFromEthereum = true := by
  cases kind with
  | settlement =>
    simp only [recoveredInput, recoveredSettlementInput, bind_eq_ok, requireSome_eq_ok, pure_eq_ok]
      at h
    obtain ⟨-, -, -, -, -, -, -, -, rfl⟩ := h
    rfl
  | bridge =>
    rw [recoveredInput, pure_eq_ok] at h
    rw [← h]

/-- Every call keeps the mark of the row to insert. -/
theorem insertsRecovered_of_move (h : TickMove state db now stage call after next) :
    InsertsRecovered next := by
  intro tick event rest publicValues input hnext
  cases h with
  | submissionUnknown _ _ _ _ hfind hinput =>
    cases hnext
    exact recoveredInput_marked hinput
  | receiptRead tick' row rest' answer =>
    cases hdecision : reconcile state db tick'.head tick'.finalized row answer with
    | skip =>
      rw [hdecision] at hnext
      cases hnext
    | revert receipt =>
      rw [hdecision] at hnext
      cases hnext
    | settle receipt confirmed =>
      rw [hdecision] at hnext
      simp only [reconciledStage] at hnext
      split at hnext <;> cases hnext
  | _ => cases hnext

end Moves

/-- Some tick of the history has seen the transaction on Ethereum. -/
def Seen (state : AppState) (history : List (GatewayState × Action))
    (hash : PastaPoseidon.Bytes32) : Prop :=
  ∃ entry ∈ history, ∃ now indexer call, entry.2 = .tick now indexer call ∧
    Sighting state entry.1.db hash (entry.1.indexers indexer) call

/-- A longer history has seen at least as much. -/
theorem Seen.append {state : AppState} {history : List (GatewayState × Action)}
    {hash : PastaPoseidon.Bytes32} (h : Seen state history hash) (entry : GatewayState × Action) :
    Seen state (history ++ [entry]) hash := by
  obtain ⟨first, hfirst, hsighting⟩ := h
  exact ⟨first, List.mem_append_left _ hfirst, hsighting⟩

/-- The states that an observation on Ethereum leads to. -/
def settledStatuses : List ProofStatus := [.confirmed, .ethereumReverted]

/-- What holds of every reached state and its history. -/
structure Tracked (state : AppState) (history : List (GatewayState × Action)) (s : GatewayState) :
    Prop where
  /-- Identifiers are distinct and generated. -/
  keyed : Keyed s
  /-- Every row is sound. -/
  jobs : ∀ job ∈ s.db.jobs, JobSound job
  /-- Every worker is sound. -/
  workers : ∀ worker current, s.workers worker = some current → WorkerSound s current
  /-- What an indexer reconciles names a job's transaction. -/
  names : ∀ indexer, ∀ entry ∈ named (s.indexers indexer), entry.1 ∈ s.minted ∧
    ∀ job ∈ s.db.jobs, job.id = entry.1 → Names job entry.2
  /-- Indexers insert recovered jobs only. -/
  inserts : ∀ indexer, InsertsRecovered (s.indexers indexer)
  /-- What an indexer acts on was observed. -/
  seen : ∀ indexer, ∀ hash ∈ observed (s.indexers indexer), Seen state history hash
  /-- Every outcome was observed. -/
  outcomes : ∀ job ∈ s.db.jobs,
    (job.status ∈ settledStatuses ∨ job.input.recoveredFromEthereum = true) →
      ∃ hash, Names job hash ∧ Seen state history hash

section Steps

variable {state : AppState} {history : List (GatewayState × Action)} {s next : GatewayState}
variable {action : Action} {old row : Job}

/-- A state outside the recovered ones. -/
theorem unrecovered_of_mem {status : ProofStatus} (statuses : List ProofStatus)
    (hdisjoint : ∀ status ∈ statuses, status ∉ recoveredStatuses) (h : status ∈ statuses) :
    status ∉ recoveredStatuses :=
  hdisjoint status h

/-- A change leaves a sound row with the same names. -/
theorem soundAfter_of_change (ht : Tracked state history s) (hold : old ∈ s.db.jobs)
    (h : JobChange s action old row) : SoundAfter old row := by
  have hs := ht.jobs old hold
  cases h with
  | kept => exact ⟨hs, fun _ => id⟩
  | approved hguard =>
    exact SoundAfter.of_open hs ⟨rfl, rfl, rfl, rfl, id, id⟩
      (by rw [hguard.2.1]; decide) ⟨by simp [approvedRow, failedStatuses], by simp [approvedRow]⟩
  | cancelled hguard =>
    obtain ⟨-, -, hintent, hprepared, hhash, hstatus⟩ := hguard
    have hunambiguous : ¬ Ambiguous old := by
      rintro ((hsome | hsome) | ⟨hsome, -⟩)
      · rw [hprepared] at hsome
        exact absurd hsome (by simp)
      · rw [hhash] at hsome
        exact absurd hsome (by simp)
      · rw [hintent] at hsome
        exact absurd hsome (by simp)
    have hunrecovered : old.status ∉ recoveredStatuses :=
      unrecovered_of_mem [.queued, .validating, .awaitingApproval, .approved] (by decide) hstatus
    exact SoundAfter.of_same hs ⟨rfl, rfl, rfl, rfl, id, id⟩
      (Or.inr ⟨fun hambiguous => absurd hambiguous hunambiguous, by simp [cancelledRow],
        fun hrecovered => absurd hrecovered (hs.not_recovered hunrecovered)⟩)
  | interrupted hstatus =>
    have hunrecovered : old.status ∉ recoveredStatuses :=
      unrecovered_of_mem [.validating, .proofRequested, .proving, .submitting] (by decide) hstatus
    refine SoundAfter.of_open hs ⟨rfl, rfl, rfl, rfl, id, id⟩ hunrecovered ?_
    simp only [interruptedRow]
    split
    · decide
    · split
      · decide
      · split <;> decide
  | claimed hclaimable =>
    have hstatus := hclaimable.1
    have hunrecovered : old.status ∉ recoveredStatuses :=
      unrecovered_of_mem [.queued, .approved] (by decide) hstatus
    refine SoundAfter.of_open hs ⟨rfl, rfl, rfl, rfl, id, id⟩ hunrecovered ?_
    simp only [claimedRow]
    split <;> decide
  | worked hworker hchange => exact soundAfter_worked hs (ht.workers _ _ hworker) hold hchange
  | @ticked _ indexer _ _ _ hchange =>
    cases hchange with
    | kept => exact ⟨hs, fun _ => id⟩
    | orphaned hstage horphaned hretained =>
      exact SoundAfter.of_same hs ⟨rfl, rfl, rfl, rfl, id, id⟩
        (Or.inr ⟨fun _ => by simp [orphanedRow, failedStatuses], by simp [orphanedRow],
          fun _ => by simp [orphanedRow, recoveredStatuses]⟩)
    | superseded hstage hretry horphaned hsuperseded =>
      exact SoundAfter.of_same hs ⟨rfl, rfl, rfl, rfl, id, id⟩
        (Or.inr ⟨fun _ => by simp [supersededRow, failedStatuses], by simp [supersededRow],
          fun _ => by simp [supersededRow, recoveredStatuses]⟩)
    | requeued hstage horphaned hrequeued => exact soundAfter_requeued hs horphaned hrequeued
    | confirmed hstage =>
      have hnames := ht.names indexer (old.id, _) (by rw [hstage]; exact List.mem_cons_self)
      exact soundAfter_confirmed hs (hnames.2 old hold rfl)
    | reverted hstage hid =>
      exact SoundAfter.of_same hs ⟨rfl, rfl, rfl, rfl, id, id⟩
        (Or.inr ⟨fun _ => by simp [revertedRow, failedStatuses], by simp [revertedRow],
          fun _ => by simp [revertedRow, recoveredStatuses]⟩)
    | settled hstage hid =>
      refine SoundAfter.of_same hs ⟨rfl, rfl, rfl, rfl, id, id⟩ (Or.inr ?_)
      simp only [settledRow]
      split
      · exact ⟨fun _ => by decide, by decide, fun _ => by decide⟩
      · exact ⟨fun _ => by decide, by decide, fun _ => by decide⟩

/-- A changed row is recovered only if the row before was. -/
theorem recovered_of_change (ht : Tracked state history s) (h : JobChange s action old row)
    (hrecovered : row.input.recoveredFromEthereum = true) :
    old.input.recoveredFromEthereum = true := by
  cases h with
  | kept => exact hrecovered
  | approved => exact hrecovered
  | cancelled => exact hrecovered
  | interrupted => exact hrecovered
  | claimed => exact hrecovered
  | worked hworker hchange =>
    cases hchange with
    | hydrated hstage hfresh hinput hguard =>
      rw [recovered_of_hydrated hinput] at hrecovered
      exact absurd hrecovered (ht.workers _ _ hworker).claimInput
    | failed hguard =>
      unfold failedRow at hrecovered
      split at hrecovered
      · exact hrecovered
      · split at hrecovered <;> exact hrecovered
    | _ => exact hrecovered
  | ticked hchange => cases hchange <;> exact hrecovered

/-- A job becomes confirmed or reverted by a tick that has observed a transaction of its row. -/
theorem settled_of_change (ht : Tracked state history s) (hold : old ∈ s.db.jobs)
    (h : JobChange s action old row) (hsettled : row.status ∈ settledStatuses) :
    old.status ∈ settledStatuses ∨
      ∃ indexer, ∃ hash ∈ observed (s.indexers indexer), Names row hash := by
  cases h with
  | kept => exact Or.inl hsettled
  | approved => simp [approvedRow, settledStatuses] at hsettled
  | cancelled => simp [cancelledRow, settledStatuses] at hsettled
  | interrupted =>
    simp only [interruptedRow] at hsettled
    split at hsettled
    · simp [settledStatuses] at hsettled
    · split at hsettled
      · simp [settledStatuses] at hsettled
      · split at hsettled <;> simp [settledStatuses] at hsettled
  | claimed =>
    simp only [claimedRow] at hsettled
    split at hsettled <;> simp [settledStatuses] at hsettled
  | worked hworker hchange =>
    refine Or.inl ?_
    cases hchange with
    | executed => simp [settledStatuses] at hsettled
    | awaitingApproval => simp [settledStatuses] at hsettled
    | proving => simp [settledStatuses] at hsettled
    | resolved =>
      dsimp only at hsettled
      split at hsettled
      · simp [settledStatuses] at hsettled
      · exact hsettled
    | submitting => simp [settledStatuses] at hsettled
    | submitted => simp [settledStatuses] at hsettled
    | failed hguard =>
      unfold failedRow at hsettled
      split at hsettled
      · simp [settledStatuses] at hsettled
      · split at hsettled
        · dsimp only at hsettled
          split at hsettled <;> simp [settledStatuses] at hsettled
        · simp [settledStatuses] at hsettled
    | _ => exact hsettled
  | @ticked _ indexer _ _ _ hchange =>
    cases hchange with
    | kept => exact Or.inl hsettled
    | orphaned => simp [orphanedRow, settledStatuses] at hsettled
    | superseded => simp [supersededRow, settledStatuses] at hsettled
    | requeued =>
      simp only [requeuedRow] at hsettled
      split at hsettled <;> simp [settledStatuses] at hsettled
    | confirmed hstage =>
      exact Or.inr ⟨indexer, _, by rw [hstage]; exact List.mem_cons_self, Or.inl rfl⟩
    | @reverted tick reconciled rest receipt _ hstage hid =>
      have hnames := ht.names indexer (rowNames reconciled) (by rw [hstage]; exact List.mem_cons_self)
      exact Or.inr ⟨indexer, _, by rw [hstage]; exact List.mem_cons_self, hnames.2 old hold hid⟩
    | @settled tick reconciled rest receipt confirmed _ hstage hid =>
      have hnames := ht.names indexer (rowNames reconciled) (by rw [hstage]; exact List.mem_cons_self)
      cases confirmed with
      | false => simp [settledRow, settledStatuses] at hsettled
      | true =>
        exact Or.inr ⟨indexer, _, by rw [hstage]; exact List.mem_cons_self, hnames.2 old hold hid⟩

/-- A row in validation was unsigned before if it is not a new attempt. -/
theorem validating_of_change (h : JobChange s action old row) (hstatus : row.status = .validating)
    (hattempts : row.attempts = old.attempts) :
    old.status = .validating ∧ (row.Signed → old.Signed) := by
  cases h with
  | kept => exact ⟨hstatus, id⟩
  | approved => simp [approvedRow] at hstatus
  | cancelled => simp [cancelledRow] at hstatus
  | interrupted => exact absurd hattempts (Nat.succ_ne_self _)
  | claimed => exact absurd hattempts (Nat.succ_ne_self _)
  | worked hworker hchange =>
    cases hchange with
    | executed => simp at hstatus
    | awaitingApproval => simp at hstatus
    | proving => simp at hstatus
    | resolved hstage hid hintent hrequest hopen =>
      dsimp only at hstatus
      split at hstatus
      · simp at hstatus
      · rw [hstatus] at hopen
        simp at hopen
    | submitting => simp at hstatus
    | prepared hguard =>
      change old.status = .validating at hstatus
      rw [hguard.2.2.1] at hstatus
      simp at hstatus
    | submitted => simp at hstatus
    | failed hguard =>
      unfold failedRow at hstatus
      split at hstatus
      · simp at hstatus
      · split at hstatus
        · dsimp only at hstatus
          split at hstatus <;> simp at hstatus
        · simp at hstatus
    | _ => exact ⟨hstatus, id⟩
  | ticked hchange =>
    cases hchange with
    | kept => exact ⟨hstatus, id⟩
    | orphaned => simp [orphanedRow] at hstatus
    | superseded => simp [supersededRow] at hstatus
    | requeued =>
      simp only [requeuedRow] at hstatus
      split at hstatus <;> simp at hstatus
    | confirmed => simp [confirmedRow] at hstatus
    | reverted => simp [revertedRow] at hstatus
    | settled =>
      simp only [settledRow] at hstatus
      split at hstatus <;> simp at hstatus

/-- A worker of a new claim of a sound row is sound. -/
theorem workerSound_claimed (ht : Tracked state history s) (h : step state s action = .ok next)
    (hold : old ∈ s.db.jobs) (hclaimable : old.status ∈ [ProofStatus.queued, .approved])
    (hclaimed : claimedRow old ∈ next.db.jobs) :
    WorkerSound next ⟨ClaimedJob.of old, .claimed⟩ := by
  have hs := ht.jobs old hold
  have hn := hs.not_recovered (unrecovered_of_mem [.queued, .approved] (by decide) hclaimable)
  have hrow : ∀ row ∈ next.db.jobs, row.id = old.id → row = claimedRow old := by
    intro row hrow hid
    exact row_eq_of_key (keyed_step ht.keyed h).constrained.primaryKey hrow hclaimed hid
  refine ⟨minted_mono h (ht.keyed.minted old hold), hn, fun input hstage => (by cases hstage),
    fun row hmem hid => ?_, fun row hmem hid => ?_, ?_⟩
  · rw [hrow row hmem hid]
    exact Nat.le_refl _
  · rw [hrow row hmem hid]
    exact hn
  · intro hpreflighting row hmem hid _ _ hsigned
    rw [hrow row hmem hid] at hsigned
    have hfresh : (ClaimedJob.of old).NeedsPreflight := by
      rcases hpreflighting with ⟨-, hfresh⟩ | ⟨input, hstage⟩ | hstage | hstage | hstage
      · exact hfresh
      · cases hstage
      · cases hstage
      · cases hstage
      · cases hstage
    have hproof : old.proofBytes = none := hfresh.1
    rcases hsigned with hprepared | hhash
    · have hproved := hs.proved hprepared
      rw [hproof] at hproved
      exact absurd hproved (by simp)
    · cases hprepared : old.preparedTransaction with
      | none => exact absurd (hs.unprepared hprepared hhash) hn
      | some prepared =>
        have hproved := hs.proved (by rw [hprepared]; rfl)
        rw [hproof] at hproved
        exact absurd hproved (by simp)

/-- A preflight goes on only from a preflight. -/
theorem preflighting_of_move {db after : Database} {now : Timestamp} {worker later : Worker}
    {call : WorkerStep} (h : WorkerMove state db now worker call after (some later))
    (hlater : Preflighting later) : Preflighting worker := by
  cases h with
  | resumed hstage hresume =>
    rcases resumedStage_eq_ok hresume with ⟨_, _, rfl⟩ | ⟨_, rfl⟩
    · simp [Preflighting] at hlater
    · simp [Preflighting] at hlater
  | hydrated hstage hfresh => exact Or.inl ⟨hstage, hfresh⟩
  | digestedBridge hstage hfresh => exact Or.inl ⟨hstage, hfresh⟩
  | digestedSettlement hstage => exact Or.inr (Or.inl ⟨_, hstage⟩)
  | preflighted hstage => exact Or.inr (Or.inr (Or.inl hstage))
  | proving hstage =>
    simp only [Preflighting] at hlater
    split at hlater <;> simp at hlater
  | submitting hstage =>
    simp only [Preflighting] at hlater
    split at hlater <;> simp at hlater
  | _ => simp [Preflighting] at hlater

/-- A move keeps the origin of the input that a worker remembers. -/
theorem inputs_of_move {db after : Database} {now : Timestamp} {worker later : Worker}
    {call : WorkerStep} (hw : WorkerSound s worker)
    (h : WorkerMove state db now worker call after (some later)) :
    later.job.input.recoveredFromEthereum ≠ true ∧
      ∀ input, later.stage = .hydrated input → input.recoveredFromEthereum ≠ true := by
  cases h with
  | resumed hstage hresume =>
    refine ⟨hw.claimInput, fun input hlater => ?_⟩
    rcases resumedStage_eq_ok hresume with ⟨_, _, rfl⟩ | ⟨_, rfl⟩
    · cases hlater
    · cases hlater
  | hydrated hstage hfresh hinput =>
    refine ⟨hw.claimInput, fun input hlater => ?_⟩
    cases hlater
    rw [recovered_of_hydrated hinput]
    exact hw.claimInput
  | digestedSettlement hstage =>
    exact ⟨hw.hydratedInput _ hstage, fun input hlater => by cases hlater⟩
  | preflighted =>
    refine ⟨hw.claimInput, fun input hlater => ?_⟩
    simp only [preflightedStage] at hlater
    split at hlater
    · cases hlater
    · split at hlater <;> cases hlater
  | proving =>
    refine ⟨hw.claimInput, fun input hlater => ?_⟩
    dsimp only at hlater
    split at hlater <;> cases hlater
  | submitting =>
    refine ⟨hw.claimInput, fun input hlater => ?_⟩
    dsimp only at hlater
    split at hlater <;> cases hlater
  | _ => exact ⟨hw.claimInput, fun input hlater => by cases hlater⟩

/-- What a sound worker remembers agrees with the rows after a step, at a stage that has not gone
back to the preflight. -/
theorem workerSound_later (ht : Tracked state history s) (h : step state s action = .ok next)
    {worker later : Worker} (hw : WorkerSound s worker) (hid : later.job.id = worker.job.id)
    (hattempts : later.job.attempts = worker.job.attempts)
    (hinputs : later.job.input.recoveredFromEthereum ≠ true ∧
      ∀ input, later.stage = .hydrated input → input.recoveredFromEthereum ≠ true)
    (hpreflighting : Preflighting later → Preflighting worker) : WorkerSound next later := by
  have horigin : ∀ row ∈ next.db.jobs, row.id = later.job.id →
      ∃ old ∈ s.db.jobs, old.id = worker.job.id ∧ JobChange s action old row := by
    intro row hrow hrowId
    have hminted : row.id ∈ s.minted := by
      rw [hrowId, hid]
      exact hw.minted
    obtain ⟨old, hold, holdId, hchange⟩ := origin_of_minted ht.keyed h hrow hminted
    exact ⟨old, hold, holdId.trans (hrowId.trans hid), hchange⟩
  refine ⟨hid ▸ minted_mono h hw.minted, hinputs.1, hinputs.2, ?_, ?_, ?_⟩
  · intro row hrow hrowId
    obtain ⟨old, hold, holdId, hchange⟩ := horigin row hrow hrowId
    have hbefore := hw.attempts old hold holdId
    have hmore := attempts_le_of_change hchange
    omega
  · intro row hrow hrowId hrecovered
    obtain ⟨old, hold, holdId, hchange⟩ := horigin row hrow hrowId
    exact hw.notRecovered old hold holdId (recovered_of_change ht hchange hrecovered)
  · intro hlater row hrow hrowId hrowAttempts hvalidating hsigned
    obtain ⟨old, hold, holdId, hchange⟩ := horigin row hrow hrowId
    have hbefore := hw.attempts old hold holdId
    have hmore := attempts_le_of_change hchange
    have hsame : row.attempts = old.attempts := by omega
    obtain ⟨holdStatus, holdSigned⟩ := validating_of_change hchange hvalidating hsame
    exact hw.unsigned (hpreflighting hlater) old hold holdId (by omega) holdStatus
      (holdSigned hsigned)

/-- Every worker is sound after a step. -/
theorem workers_step (ht : Tracked state history s) (h : step state s action = .ok next)
    {worker : ℕ} {later : Worker} (hlater : next.workers worker = some later) :
    WorkerSound next later := by
  cases worker_origin h hlater with
  | kept hkept hidle =>
    have hw := ht.workers worker later hkept
    exact workerSound_later ht h hw rfl rfl ⟨hw.claimInput, hw.hydratedInput⟩ id
  | claimed haction hjob hclaimable hrow hclaim =>
    rw [hclaim]
    exact workerSound_claimed ht h hjob hclaimable.1 hrow
  | moved haction hcurrent hmove =>
    have hw := ht.workers worker _ hcurrent
    obtain ⟨hid, hattempts⟩ := hmove.claim_eq rfl
    exact workerSound_later ht h hw hid hattempts (inputs_of_move hw hmove)
      (preflighting_of_move hmove)

/-- The jobs that an indexer may write name their transactions after a step. -/
theorem names_step (ht : Tracked state history s) (h : step state s action = .ok next)
    (indexer : ℕ) {entry : Uuid × PastaPoseidon.Bytes32}
    (hentry : entry ∈ named (next.indexers indexer)) : entry.1 ∈ next.minted ∧
      ∀ job ∈ next.db.jobs, job.id = entry.1 → Names job entry.2 := by
  have hkept : entry ∈ named (s.indexers indexer) → entry.1 ∈ next.minted ∧
      ∀ job ∈ next.db.jobs, job.id = entry.1 → Names job entry.2 := by
    intro hbefore
    obtain ⟨hminted, hnames⟩ := ht.names indexer entry hbefore
    refine ⟨minted_mono h hminted, fun job hjob hid => ?_⟩
    obtain ⟨old, hold, holdId, hchange⟩ := origin_of_minted ht.keyed h hjob (hid ▸ hminted)
    exact (soundAfter_of_change ht hold hchange).2 _ (hnames old hold (holdId.trans hid))
  rcases indexer_origin h indexer with hsame | ⟨now, call, haction, hmove⟩
  · exact hkept (hsame ▸ hentry)
  · rcases named_of_move hmove hentry with hbefore | ⟨job, hjob, hid, hnames⟩
    · exact hkept hbefore
    · have hkeyed := keyed_step ht.keyed h
      refine ⟨hid ▸ hkeyed.minted job hjob, fun other hother hotherId => ?_⟩
      rw [row_eq_of_key hkeyed.constrained.primaryKey hother hjob (hotherId.trans hid.symm)]
      exact hnames

/-- An appended row is sound, and a recovered one was seen. -/
theorem inserted_step (ht : Tracked state history s) (h : Inserted s action row) : JobSound row ∧
    ((row.status ∈ settledStatuses ∨ row.input.recoveredFromEthereum = true) →
      ∃ hash, Names row hash ∧ Seen state history hash) := by
  cases h with
  | @admitted request id reservationId kind input key digest now writer hid hnow hrecovered =>
    have hunmarked : input.recoveredFromEthereum ≠ true := by simp [hrecovered]
    refine ⟨⟨?_, ?_, fun hmarked => absurd hmarked hunmarked, ?_, ?_, ?_⟩, ?_⟩
    · exact fun prepared hprepared => absurd hprepared (by simp [Job.queued])
    · exact fun _ hhash => absurd hhash (by simp [Job.queued])
    · exact fun hprepared => absurd hprepared (by simp [Job.queued])
    · exact fun hsubmitting => absurd hsubmitting (by simp [Job.queued])
    · exact fun _ => by simp [Job.queued, failedStatuses]
    · rintro (hsettled | hmarked)
      · simp [Job.queued, settledStatuses] at hsettled
      · exact absurd hmarked hunmarked
  | @ticked now indexer call job hinserted =>
    cases hinserted with
    | @recovered id tick event rest publicValues input hstage =>
      have hmarked := ht.inserts indexer tick event rest publicValues input hstage
      refine ⟨⟨?_, fun _ _ => hmarked, fun _ => ⟨by simp [recoveredJob, recoveredStatuses], rfl, rfl⟩,
        ?_, ?_, ?_⟩, fun _ => ?_⟩
      · exact fun prepared hprepared => absurd hprepared (by simp [recoveredJob])
      · exact fun hprepared => absurd hprepared (by simp [recoveredJob])
      · exact fun hsubmitting => absurd hsubmitting (by simp [recoveredJob])
      · exact fun _ => by simp [recoveredJob, failedStatuses]
      · refine ⟨event.transactionHash, Or.inl rfl, ht.seen indexer _ ?_⟩
        rw [hstage]
        exact List.mem_cons_self

/-- A step keeps the invariant. -/
theorem tracked_step (ht : Tracked state history s) (h : step state s action = .ok next) :
    Tracked state (history ++ [(s, action)]) next := by
  have hrows := (step_changes ht.keyed h).rows
  refine
    { keyed := keyed_step ht.keyed h
      jobs := ?_
      workers := fun _ _ => workers_step ht h
      names := fun indexer _ => names_step ht h indexer
      inserts := ?_
      seen := ?_
      outcomes := ?_ }
  · intro row hrow
    rcases hrows.origin row hrow with ⟨old, hold, hchange⟩ | hinserted
    · exact (soundAfter_of_change ht hold hchange).1
    · exact (inserted_step ht hinserted).1
  · intro indexer
    rcases indexer_origin h indexer with hsame | ⟨now, call, haction, hmove⟩
    · exact hsame ▸ ht.inserts indexer
    · exact insertsRecovered_of_move hmove
  · intro indexer hash hhash
    rcases indexer_origin h indexer with hsame | ⟨now, call, haction, hmove⟩
    · exact (ht.seen indexer hash (hsame ▸ hhash)).append _
    · rcases observed_of_move hmove hhash with hbefore | hsighting
      · exact (ht.seen indexer hash hbefore).append _
      · exact ⟨(s, action), List.mem_append_right _ List.mem_cons_self, now, indexer, call, haction,
          hsighting⟩
  · intro row hrow houtcome
    rcases hrows.origin row hrow with ⟨old, hold, hchange⟩ | hinserted
    · have hkept := (soundAfter_of_change ht hold hchange).2
      have hbefore : (old.status ∈ settledStatuses ∨ old.input.recoveredFromEthereum = true) →
          ∃ hash, Names row hash ∧ Seen state (history ++ [(s, action)]) hash := by
        intro hold'
        obtain ⟨hash, hnames, hseen⟩ := ht.outcomes old hold hold'
        exact ⟨hash, hkept hash hnames, hseen.append _⟩
      rcases houtcome with hsettled | hrecovered
      · rcases settled_of_change ht hold hchange hsettled with hsame | ⟨indexer, hash, hhash, hnames⟩
        · exact hbefore (Or.inl hsame)
        · exact ⟨hash, hnames, (ht.seen indexer hash hhash).append _⟩
      · exact hbefore (Or.inr (recovered_of_change ht hchange hrecovered))
    · obtain ⟨hash, hnames, hseen⟩ := (inserted_step ht hinserted).2 houtcome
      exact ⟨hash, hnames, hseen.append _⟩

/-- The invariant holds of every reached state and its history. -/
theorem tracked_run (state : AppState) (actions : List Action) :
    Tracked state (accepted (step state) start actions) (run (step state) start actions) := by
  have hstart : Tracked state [] start := by
    refine ⟨keyed_run state [], ?_, ?_, ?_, ?_, ?_, ?_⟩
    · exact fun job hjob => absurd hjob (by simp [start, emptyDatabase])
    · exact fun worker current hcurrent => absurd hcurrent (by simp [start])
    · exact fun indexer entry hentry => absurd hentry (by simp [start, named])
    · exact fun indexer tick event rest publicValues input hstage => by cases hstage
    · exact fun indexer hash hhash => absurd hhash (by simp [start, observed])
    · exact fun job hjob => absurd hjob (by simp [start, emptyDatabase])
  have hinv := history_invariant (J := Tracked state) (Q := fun _ => True)
    (fun _ _ _ _ ht _ h => tracked_step ht h) actions [] hstart (fun _ _ => trivial)
  rwa [List.nil_append] at hinv

end Steps

end EthereumSettlement.ObservedOutcomes
