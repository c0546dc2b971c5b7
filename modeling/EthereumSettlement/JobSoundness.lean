import EthereumSettlement.AttemptFencing

/-!
# Sound rows of the job table

A job that was signed keeps the hash of its signed transaction, a hash without a
signed transaction belongs to a job recovered from Ethereum, and a job that may have
reached the prover network or Ethereum is in no failed state. What a worker and an
indexer remember of a row agrees with the row. One step keeps all of this, and a row
keeps every transaction that it names.
-/

namespace EthereumSettlement.JobSoundness

open CheckedCalls KeyedTables TransitionRuns
open GatewayTables OuterWriter ProofJobs WorkerMoves GatewayIndexer IndexerMoves GatewayRuns
open GatewayChanges AttemptFencing

/-- The job was signed, sent or seen on Ethereum, or its proof was paid for or may have been. -/
def Ambiguous (job : Job) : Prop := job.Signed ∨ job.UnresolvedIntent

instance (job : Job) : Decidable (Ambiguous job) := inferInstanceAs (Decidable (_ ∨ _))

/-- The states that end a job without a transaction. -/
def failedStatuses : List ProofStatus := [.executed, .failed, .proofFailed, .rejected]

/-- The states of a job recovered from Ethereum. -/
def recoveredStatuses : List ProofStatus := [.confirmed, .submitted, .reorged, .ethereumReverted]

/-- What holds of every row of the job table. -/
structure JobSound (job : Job) : Prop where
  /-- The hash of a signed job is the hash of its signed transaction. -/
  signedHash : ∀ prepared, job.preparedTransaction = some prepared → ∀ hash,
    job.transactionHash = some hash → hash = prepared.transactionHash
  /-- A hash without a signed transaction was found on Ethereum. -/
  unprepared : job.preparedTransaction = none → job.transactionHash.isSome →
    job.input.recoveredFromEthereum = true
  /-- A recovered job was never run by a worker. -/
  recovered : job.input.recoveredFromEthereum = true → job.status ∈ recoveredStatuses ∧
    job.preparedTransaction = none ∧ job.proofRequestIntent = none
  /-- A signed job has its proof. -/
  proved : job.preparedTransaction.isSome → job.proofBytes.isSome
  /-- A job in submission has its proof. -/
  submitting : job.status = .submitting → job.proofBytes.isSome
  /-- An ambiguous job has not failed. -/
  unfailed : Ambiguous job → job.status ∉ failedStatuses

/-- A job names the transactions of its two columns. -/
theorem exists_names_of_signed {job : Job} (h : job.Signed) : ∃ hash, Names job hash := by
  rcases h with hprepared | hhash
  · obtain ⟨prepared, hprepared⟩ := Option.isSome_iff_exists.mp hprepared
    exact ⟨prepared.transactionHash, Or.inr (by rw [hprepared]; rfl)⟩
  · obtain ⟨hash, hhash⟩ := Option.isSome_iff_exists.mp hhash
    exact ⟨hash, Or.inl hhash⟩

/-- A job that names a transaction is signed. -/
theorem signed_of_names {job : Job} {hash : PastaPoseidon.Bytes32} (h : Names job hash) :
    job.Signed := by
  rcases h with hhash | hprepared
  · exact Or.inr (by rw [hhash]; rfl)
  · obtain ⟨prepared, hprepared, -⟩ := Option.map_eq_some_iff.mp hprepared
    exact Or.inl (by rw [hprepared]; rfl)

/-- A sound job names one transaction. -/
theorem JobSound.names_unique {job : Job} (hs : JobSound job)
    {first second : PastaPoseidon.Bytes32} (h1 : Names job first) (h2 : Names job second) :
    first = second := by
  rcases h1 with hash1 | prepared1
  · rcases h2 with hash2 | prepared2
    · exact Option.some.inj (hash1.symm.trans hash2)
    · obtain ⟨prepared, hprepared, rfl⟩ := Option.map_eq_some_iff.mp prepared2
      exact hs.signedHash prepared hprepared first hash1
  · rcases h2 with hash2 | prepared2
    · obtain ⟨prepared, hprepared, rfl⟩ := Option.map_eq_some_iff.mp prepared1
      exact (hs.signedHash prepared hprepared second hash2).symm
    · exact Option.some.inj (prepared1.symm.trans prepared2)

/-- A change that keeps what a job was signed and recovered by. -/
structure SameSubmission (old row : Job) : Prop where
  /-- The input is unchanged. -/
  input : row.input = old.input
  /-- The signed transaction is unchanged. -/
  prepared : row.preparedTransaction = old.preparedTransaction
  /-- The sent transaction is unchanged. -/
  hash : row.transactionHash = old.transactionHash
  /-- The intent is unchanged. -/
  intent : row.proofRequestIntent = old.proofRequestIntent
  /-- A proof is not lost. -/
  proof : old.proofBytes.isSome → row.proofBytes.isSome
  /-- A request is not lost. -/
  request : row.proofRequestId = none → old.proofRequestId = none

/-- A job with the same submission is ambiguous only if the job before was. -/
theorem SameSubmission.ambiguous {old row : Job} (h : SameSubmission old row)
    (hrow : Ambiguous row) : Ambiguous old := by
  rcases hrow with hsigned | ⟨hintent, hrequest⟩
  · rw [Job.Signed, h.prepared, h.hash] at hsigned
    exact Or.inl hsigned
  · rw [h.intent] at hintent
    exact Or.inr ⟨hintent, h.request hrequest⟩

/-- A change of the same submission keeps a row sound if the new status suits it. -/
theorem JobSound.of_same {old row : Job} (hs : JobSound old) (h : SameSubmission old row)
    (hstatus : row.status = old.status ∨
      ((Ambiguous old → row.status ∉ failedStatuses) ∧ row.status ≠ .submitting ∧
        (old.input.recoveredFromEthereum = true → row.status ∈ recoveredStatuses))) :
    JobSound row where
  signedHash := by
    rw [h.prepared, h.hash]
    exact hs.signedHash
  unprepared := by
    rw [h.prepared, h.hash, h.input]
    exact hs.unprepared
  recovered := by
    intro hrecovered
    rw [h.input] at hrecovered
    obtain ⟨hold, hprepared, hintent⟩ := hs.recovered hrecovered
    rw [h.prepared, h.intent]
    refine ⟨?_, hprepared, hintent⟩
    rcases hstatus with hsame | ⟨-, -, hnew⟩
    · exact hsame ▸ hold
    · exact hnew hrecovered
  proved := by
    rw [h.prepared]
    exact fun hprepared => h.proof (hs.proved hprepared)
  submitting := by
    intro hsubmitting
    rcases hstatus with hsame | ⟨-, hnot, -⟩
    · exact h.proof (hs.submitting (hsame ▸ hsubmitting))
    · exact absurd hsubmitting hnot
  unfailed := by
    intro hrow
    have hambiguous := h.ambiguous hrow
    rcases hstatus with hsame | ⟨hnew, -, -⟩
    · exact hsame ▸ hs.unfailed hambiguous
    · exact hnew hambiguous

/-- A row of the same submission names the same transactions. -/
theorem SameSubmission.names {old row : Job} (h : SameSubmission old row)
    {hash : PastaPoseidon.Bytes32} (hnames : Names old hash) : Names row hash := by
  rw [Names, h.hash, h.prepared]
  exact hnames

/-- A sound row after a change that keeps the names of the row. -/
def SoundAfter (old row : Job) : Prop := JobSound row ∧ ∀ hash, Names old hash → Names row hash

/-- A change of the same submission leaves a sound row. -/
theorem SoundAfter.of_same {old row : Job} (hs : JobSound old) (h : SameSubmission old row)
    (hstatus : row.status = old.status ∨
      ((Ambiguous old → row.status ∉ failedStatuses) ∧ row.status ≠ .submitting ∧
        (old.input.recoveredFromEthereum = true → row.status ∈ recoveredStatuses))) :
    SoundAfter old row :=
  ⟨hs.of_same h hstatus, fun _ => h.names⟩

/-- A job outside the recovered states is not recovered. -/
theorem JobSound.not_recovered {job : Job} (hs : JobSound job)
    (hstatus : job.status ∉ recoveredStatuses) : job.input.recoveredFromEthereum ≠ true :=
  fun hrecovered => hstatus (hs.recovered hrecovered).1

/-- A job in a state that no recovered job has moves to any open state. -/
theorem SoundAfter.of_open {old row : Job} (hs : JobSound old) (h : SameSubmission old row)
    (hold : old.status ∉ recoveredStatuses)
    (hrow : row.status ∉ failedStatuses ∧ row.status ≠ .submitting) : SoundAfter old row :=
  SoundAfter.of_same hs h
    (Or.inr ⟨fun _ => hrow.1, hrow.2, fun hrecovered => absurd hrecovered (hs.not_recovered hold)⟩)

/-- A signed or requested row keeps its submission when a rollback puts it back. -/
theorem soundAfter_requeued {ancestor : ℕ} {retryId : Option Uuid} {job : Job} (hs : JobSound job)
    (horphaned : ¬ OrphanedRecovery ancestor job) (hrequeued : Requeued ancestor retryId job) :
    SoundAfter job (requeuedRow job) := by
  have hnotRecovered : job.input.recoveredFromEthereum ≠ true :=
    fun hrecovered => horphaned ⟨hrecovered, hrequeued.1⟩
  have hstatus : (requeuedRow job).status ∉ failedStatuses ∧
      (requeuedRow job).status ≠ .submitting := by
    simp only [requeuedRow]
    split
    · decide
    · decide
  refine ⟨⟨?_, ?_, ?_, hs.proved, ?_, fun _ => hstatus.1⟩, ?_⟩
  · intro prepared _ hash hhash
    exact absurd hhash (by simp [requeuedRow])
  · intro _ hhash
    exact absurd hhash (by simp [requeuedRow])
  · exact fun hrecovered => absurd hrecovered hnotRecovered
  · exact fun hsubmitting => absurd hsubmitting hstatus.2
  · intro hash hnames
    rcases hnames with hhash | hprepared
    · cases hprepared : job.preparedTransaction with
      | none => exact absurd (hs.unprepared hprepared (by rw [hhash]; rfl)) hnotRecovered
      | some prepared =>
        have heq := hs.signedHash prepared hprepared hash hhash
        exact Or.inr (by simp only [requeuedRow, hprepared, Option.map_some, heq])
    · exact Or.inr hprepared

/-- A row that names the transaction of an event takes its hash. -/
theorem soundAfter_confirmed {now : Timestamp} {event : AcceptedEvent}
    {publicValues : ByteWords.Bytes} {job : Job} (hs : JobSound job)
    (hnames : Names job event.transactionHash) :
    SoundAfter job (confirmedRow now event publicValues job) := by
  have hstatus : (confirmedRow now event publicValues job).status = .confirmed := rfl
  refine ⟨⟨?_, ?_, ?_, hs.proved, ?_, ?_⟩, ?_⟩
  · intro prepared hprepared hash hhash
    change job.preparedTransaction = some prepared at hprepared
    have hevent : event.transactionHash = hash := Option.some.inj hhash
    rw [← hevent]
    exact hs.names_unique hnames (Or.inr (by rw [hprepared]; rfl))
  · intro hprepared _
    change job.preparedTransaction = none at hprepared
    rcases hnames with hhash | hnamed
    · exact hs.unprepared hprepared (by rw [hhash]; rfl)
    · rw [hprepared] at hnamed
      exact absurd hnamed (by simp)
  · intro hrecovered
    obtain ⟨-, hprepared, hintent⟩ := hs.recovered hrecovered
    exact ⟨by rw [hstatus]; decide, hprepared, hintent⟩
  · exact fun hsubmitting => absurd hsubmitting (by rw [hstatus]; decide)
  · exact fun _ => by rw [hstatus]; decide
  · intro hash hnamed
    exact Or.inl (by rw [hs.names_unique hnamed hnames]; rfl)

/-- The worker has not passed the preflight of a new claim. -/
def Preflighting (worker : Worker) : Prop :=
  (worker.stage = .claimed ∧ worker.job.NeedsPreflight) ∨
    (∃ input, worker.stage = .hydrated input) ∨ worker.stage = .digested ∨
    worker.stage = .executing ∨ worker.stage = .requestingApproval

/-- What a worker remembers agrees with the row of its claim: the row has made the attempt of the
claim and is not recovered, and before the preflight is over it is unsigned. -/
structure WorkerSound (s : GatewayState) (worker : Worker) : Prop where
  /-- The identifier was generated. -/
  minted : worker.job.id ∈ s.minted
  /-- The claimed job is not a recovered one. -/
  claimInput : worker.job.input.recoveredFromEthereum ≠ true
  /-- Nor is the input that it was completed to. -/
  hydratedInput : ∀ input, worker.stage = .hydrated input → input.recoveredFromEthereum ≠ true
  /-- The row counts at least the worker's attempt. -/
  attempts : ∀ row ∈ s.db.jobs, row.id = worker.job.id → worker.job.attempts ≤ row.attempts
  /-- The row is not a recovered one. -/
  notRecovered : ∀ row ∈ s.db.jobs, row.id = worker.job.id → row.input.recoveredFromEthereum ≠ true
  /-- Before the preflight ends, the row of the attempt is not signed. -/
  unsigned : Preflighting worker → ∀ row ∈ s.db.jobs, row.id = worker.job.id →
    row.attempts = worker.job.attempts → row.status = .validating → ¬ row.Signed

/-- Hydration keeps the origin of an input. -/
theorem recovered_of_hydrated {context : SettlementReceipt.SettlementContextV1}
    {input hydrated : JobInput} (h : hydrateQueuedSettlement context input = .ok hydrated) :
    hydrated.recoveredFromEthereum = input.recoveredFromEthereum := by
  simp only [hydrateQueuedSettlement, bind_eq_ok, require_eq_ok, exists_const, requireSome_eq_ok,
    pure_eq_ok] at h
  obtain ⟨-, -, -, -, -, rfl⟩ := h
  rfl

section Changes

variable {s : GatewayState} {now : Timestamp} {worker : Worker} {call : WorkerStep} {old row : Job}

/-- A statement on the row of an unrecovered job that keeps its submission and opens it. -/
theorem SoundAfter.of_unrecovered (hs : JobSound old) (h : SameSubmission old row)
    (hn : old.input.recoveredFromEthereum ≠ true)
    (hrow : row.status ∉ failedStatuses ∧ row.status ≠ .submitting) : SoundAfter old row :=
  SoundAfter.of_same hs h
    (Or.inr ⟨fun _ => hrow.1, hrow.2, fun hrecovered => absurd hrecovered hn⟩)

/-- A hash of an unrecovered job is the hash of its signed transaction. -/
theorem JobSound.hash_eq_none (hs : JobSound old) (hn : old.input.recoveredFromEthereum ≠ true)
    (hprepared : old.preparedTransaction = none) : old.transactionHash = none := by
  cases hhash : old.transactionHash with
  | none => rfl
  | some hash => exact absurd (hs.unprepared hprepared (by rw [hhash]; rfl)) hn

/-- The first statement of a submission. -/
theorem soundAfter_submitting {publicValues proof : ByteWords.Bytes} (hs : JobSound old)
    (hn : old.input.recoveredFromEthereum ≠ true)
    (hrow : row = { old with
      publicValues := some publicValues
      proofBytes := some proof
      transactionHash :=
        (old.preparedTransaction.map PreparedSubmission.transactionHash).or old.transactionHash
      status := .submitting }) : SoundAfter old row := by
  subst hrow
  refine ⟨⟨?_, ?_, fun hrecovered => absurd hrecovered hn, fun _ => rfl, fun _ => rfl,
    fun _ => by simp [failedStatuses]⟩, ?_⟩
  · intro prepared hprepared hash hhash
    change old.preparedTransaction = some prepared at hprepared
    simp only [hprepared, Option.map_some, Option.some_or, Option.some.injEq] at hhash
    exact hhash.symm
  · intro hprepared hhash
    change old.preparedTransaction = none at hprepared
    simp only [hprepared, Option.map_none, Option.none_or] at hhash
    exact hs.unprepared hprepared hhash
  · intro hash hnames
    rcases hnames with hhash | hprepared
    · cases hprepared : old.preparedTransaction with
      | none => exact Or.inl (by simp only [Option.map_none, Option.none_or, hhash])
      | some prepared =>
        have heq := hs.signedHash prepared hprepared hash hhash
        exact Or.inr (by simp only [Option.map_some, heq])
    · exact Or.inr hprepared

/-- The statement that persists a signed transaction. -/
theorem soundAfter_prepared {prepared : PreparedSubmission} (hs : JobSound old)
    (hn : old.input.recoveredFromEthereum ≠ true) (hsubmitting : old.status = .submitting)
    (hnone : old.preparedTransaction = none)
    (hrow : row = { old with
      preparedTransaction := some prepared
      transactionHash := some prepared.transactionHash }) : SoundAfter old row := by
  subst hrow
  have hhash := hs.hash_eq_none hn hnone
  refine ⟨⟨?_, ?_, fun hrecovered => absurd hrecovered hn, fun _ => hs.submitting hsubmitting,
    fun _ => hs.submitting hsubmitting, fun _ => ?_⟩, ?_⟩
  · intro signed hsigned hash hstored
    rw [← Option.some.inj hsigned]
    exact (Option.some.inj hstored).symm
  · intro hprepared
    exact absurd hprepared (by simp)
  · change old.status ∉ failedStatuses
    rw [hsubmitting]
    decide
  · intro hash hnames
    rw [Names, hhash, hnone] at hnames
    exact absurd hnames (by simp)

/-- The row that a recorded failure leaves. -/
theorem soundAfter_failed {failure : FailureClass} {message : String} (hs : JobSound old)
    (hn : old.input.recoveredFromEthereum ≠ true) :
    SoundAfter old (failedRow now failure message old) := by
  unfold failedRow
  split
  · exact SoundAfter.of_unrecovered hs ⟨rfl, rfl, rfl, rfl, id, id⟩ hn
      ⟨by simp [failedStatuses], by simp⟩
  · rename_i hresolved
    split
    · refine SoundAfter.of_unrecovered hs ⟨rfl, rfl, rfl, rfl, id, id⟩ hn ?_
      dsimp only
      split
      · simp [failedStatuses]
      · simp [failedStatuses]
    · rename_i hends
      have hunambiguous : ¬ Ambiguous old := by
        rintro (hsigned | hunresolved)
        · exact hends (Or.inr hsigned)
        · exact hresolved hunresolved
      exact SoundAfter.of_same hs ⟨rfl, rfl, rfl, rfl, id, id⟩
        (Or.inr ⟨fun hambiguous => absurd hambiguous hunambiguous, by simp,
          fun hrecovered => absurd hrecovered hn⟩)

/-- A statement of a sound worker leaves a sound row. -/
theorem soundAfter_worked (hs : JobSound old) (hw : WorkerSound s worker) (hold : old ∈ s.db.jobs)
    (h : WorkerChange now worker call old row) : SoundAfter old row := by
  cases h with
  | kept => exact ⟨hs, fun _ => id⟩
  | hydrated hstage hfresh hinput hguard =>
    obtain ⟨hid, -, hvalidating, -⟩ := hguard
    have hn := hw.notRecovered old hold hid
    have hinputRecovered := recovered_of_hydrated hinput
    refine ⟨⟨hs.signedHash, fun hprepared hhash => absurd (hs.unprepared hprepared hhash) hn, ?_,
      hs.proved, hs.submitting, fun _ => ?_⟩, fun _ => id⟩
    · intro hrecovered
      exact absurd (hinputRecovered ▸ hrecovered) hw.claimInput
    · change old.status ∉ failedStatuses
      rw [hvalidating]
      decide
  | digested hguard => exact SoundAfter.of_same hs ⟨rfl, rfl, rfl, rfl, id, id⟩ (Or.inl rfl)
  | preflighted hguard => exact SoundAfter.of_same hs ⟨rfl, rfl, rfl, rfl, id, id⟩ (Or.inl rfl)
  | executed hstage hguard =>
    obtain ⟨hid, hattempts, hvalidating, hintent⟩ := hguard
    have hn := hw.notRecovered old hold hid
    have hpreflighting : Preflighting worker := Or.inr (Or.inr (Or.inr (Or.inl hstage)))
    have hunsigned := hw.unsigned hpreflighting old hold hid hattempts hvalidating
    have hunambiguous : ¬ Ambiguous old := by
      rintro (hsigned | ⟨hsome, -⟩)
      · exact hunsigned hsigned
      · rw [hintent] at hsome
        exact absurd hsome (by simp)
    exact SoundAfter.of_same hs ⟨rfl, rfl, rfl, rfl, id, id⟩
      (Or.inr ⟨fun hambiguous => absurd hambiguous hunambiguous, by simp,
        fun hrecovered => absurd hrecovered hn⟩)
  | awaitingApproval hguard =>
    exact SoundAfter.of_unrecovered hs ⟨rfl, rfl, rfl, rfl, id, id⟩
      (hw.notRecovered old hold hguard.1) ⟨by simp [failedStatuses], by simp⟩
  | mocked hguard => exact SoundAfter.of_same hs ⟨rfl, rfl, rfl, rfl, id, id⟩ (Or.inl rfl)
  | proving hguard =>
    exact SoundAfter.of_unrecovered hs ⟨rfl, rfl, rfl, rfl, id, id⟩
      (hw.notRecovered old hold hguard.1) ⟨by simp [failedStatuses], by simp⟩
  | sealed hguard =>
    obtain ⟨hid, -, hproving, -, -⟩ := hguard
    have hn := hw.notRecovered old hold hid
    refine ⟨⟨hs.signedHash, hs.unprepared, fun hrecovered => absurd hrecovered hn, hs.proved,
      hs.submitting, fun _ => ?_⟩, fun _ => id⟩
    change old.status ∉ failedStatuses
    rw [hproving]
    decide
  | @resolved requestId _ _ _ _ hstage hid hintent hrequest hstatus =>
    have hsame : SameSubmission old { old with
        proofRequestId := some requestId
        status := if old.status = .proving then .proofRequested else old.status
        error := none
        errorClass := none
        nextAttemptAt := none } := ⟨rfl, rfl, rfl, rfl, id, fun hnone => absurd hnone (by simp)⟩
    by_cases hproving : old.status = .proving
    · refine SoundAfter.of_unrecovered hs hsame (hw.notRecovered old hold hid) ?_
      simp [hproving, failedStatuses]
    · refine SoundAfter.of_same hs hsame (Or.inl ?_)
      simp [hproving]
  | proved hguard => exact SoundAfter.of_same hs ⟨rfl, rfl, rfl, rfl, fun _ => rfl, id⟩ (Or.inl rfl)
  | measured hguard => exact SoundAfter.of_same hs ⟨rfl, rfl, rfl, rfl, id, id⟩ (Or.inl rfl)
  | submitting hguard =>
    exact soundAfter_submitting hs (hw.notRecovered old hold hguard.1) rfl
  | prepared hguard hstage =>
    exact soundAfter_prepared hs (hw.notRecovered old hold hguard.1) hguard.2.2.1 hguard.2.2.2 rfl
  | submitted hguard =>
    exact SoundAfter.of_unrecovered hs ⟨rfl, rfl, rfl, rfl, id, id⟩
      (hw.notRecovered old hold hguard.1) ⟨by simp [failedStatuses], by simp⟩
  | failed hguard => exact soundAfter_failed hs (hw.notRecovered old hold hguard.1)

end Changes

end EthereumSettlement.JobSoundness
