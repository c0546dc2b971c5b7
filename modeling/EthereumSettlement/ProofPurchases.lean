import EthereumSettlement.GatewayChanges

/-!
# Purchased proofs

A worker seals an intent in the row of its job before it asks the prover network for
a proof, and only a row without an intent can be sealed. An intent is never changed
or removed, so a job has at most one intent over its whole life, and at most one
worker is between the seal and the request. A job whose intent has no known request
is never claimed again.
-/

namespace EthereumSettlement.ProofPurchases

open CheckedCalls KeyedTables TransitionRuns
open GatewayTables ProofJobs WorkerMoves GatewayIndexer IndexerMoves GatewayRuns GatewayChanges

variable {state : AppState} {s next : GatewayState} {action : Action}

/-- No change of a row changes a sealed intent. -/
theorem intent_of_change {old row : Job} {intent : Uuid} (h : JobChange s action old row)
    (hintent : old.proofRequestIntent = some intent) : row.proofRequestIntent = some intent := by
  cases h with
  | kept => exact hintent
  | approved => exact hintent
  | cancelled => exact hintent
  | interrupted => exact hintent
  | claimed => exact hintent
  | worked hworker hchange =>
    cases hchange with
    | sealed hguard => exact absurd (hguard.2.2.2.1.symm.trans hintent) (by simp)
    | failed hguard =>
      unfold failedRow
      split
      · exact hintent
      · split <;> exact hintent
    | _ => exact hintent
  | ticked hchange => cases hchange <;> exact hintent

/-- A worker is between the seal of an intent and its request. -/
def SealedAt (s : GatewayState) (worker : ℕ) (id intent : Uuid) : Prop :=
  ∃ current publicValues cycles, s.workers worker = some current ∧ current.job.id = id ∧
    current.stage = .sealed intent publicValues cycles

/-- The only move to a sealed intent is the statement that seals it. -/
theorem beginProofRequest_of_sealed {db after : Database} {now : Timestamp} {worker later : Worker}
    {call : WorkerStep} {intent : Uuid} {publicValues : ByteWords.Bytes} {cycles : Option ℕ}
    (h : WorkerMove state db now worker call after (some later))
    (hsealed : later.stage = .sealed intent publicValues cycles) :
    call = .beginProofRequest intent ∧ later.job = worker.job ∧
      beginProofRequest db worker.job intent = .ok after := by
  cases h with
  | resumed hstage hresume =>
    rcases resumedStage_eq_ok hresume with ⟨_, _, rfl⟩ | ⟨_, rfl⟩
    · cases hsealed
    · cases hsealed
  | hydrated => cases hsealed
  | digestedBridge => cases hsealed
  | digestedSettlement => cases hsealed
  | preflighted =>
    simp only [preflightedStage] at hsealed
    split at hsealed
    · cases hsealed
    · split at hsealed <;> cases hsealed
  | mocked => cases hsealed
  | proving =>
    dsimp only at hsealed
    split at hsealed <;> cases hsealed
  | sealed hstage hstore =>
    cases hsealed
    exact ⟨rfl, rfl, hstore⟩
  | requested => cases hsealed
  | resolved => cases hsealed
  | proved => cases hsealed
  | measured => cases hsealed
  | submitting =>
    dsimp only at hsealed
    split at hsealed <;> cases hsealed
  | prepared => cases hsealed

/-- A seal finds a row without an intent and writes it. -/
theorem beginProofRequest_eq_ok {db after : Database} {claim : ClaimedJob} {intent : Uuid}
    (hkeys : (db.jobs.map Job.id).Nodup) (h : beginProofRequest db claim intent = .ok after) :
    (∃ row ∈ db.jobs, row.id = claim.id ∧ row.proofRequestIntent = none) ∧
      ∀ row ∈ after.jobs, row.id = claim.id → row.proofRequestIntent = some intent := by
  obtain ⟨haffected, -, rfl⟩ := Database.updateJob_eq_ok.mp h
  obtain ⟨found, hfound, hfenced⟩ := exists_of_affected haffected
  refine ⟨⟨found, hfound, hfenced.1, hfenced.2.2.2.1⟩, fun row hrow hid => ?_⟩
  obtain ⟨old, hold, rfl⟩ := mem_updateWhere.mp hrow
  have hsame : old = found := by
    refine row_eq_of_key hkeys hold hfound (Eq.trans ?_ hfenced.1.symm)
    split at hid <;> exact hid
  subst hsame
  rw [if_pos hfenced]

/-- Where a worker with a sealed intent comes from: it had it, and did not send the request, or it
has just sealed it in a row that had none. -/
theorem sealedAt_origin (hkeyed : Keyed s) (h : step state s action = .ok next) {worker : ℕ}
    {id intent : Uuid} (hsealed : SealedAt next worker id intent) :
    (SealedAt s worker id intent ∧ ∀ now call, action ≠ .work now worker call) ∨
      ((∃ now, action = .work now worker (.beginProofRequest intent)) ∧
        (∃ row ∈ s.db.jobs, row.id = id ∧ row.proofRequestIntent = none) ∧
        ∀ row ∈ next.db.jobs, row.id = id → row.proofRequestIntent = some intent) := by
  obtain ⟨later, publicValues, cycles, hlater, hid, hstage⟩ := hsealed
  cases worker_origin h hlater with
  | kept hkept hidle => exact Or.inl ⟨⟨later, publicValues, cycles, hkept, hid, hstage⟩, hidle⟩
  | claimed haction hjob hclaimable hrow hclaim =>
    rw [hclaim] at hstage
    cases hstage
  | moved haction hcurrent hmove =>
    obtain ⟨rfl, hjob, hbegin⟩ := beginProofRequest_of_sealed hmove hstage
    obtain ⟨hfound, hafter⟩ := beginProofRequest_eq_ok hkeyed.constrained.primaryKey hbegin
    rw [hjob] at hid
    rw [hid] at hfound hafter
    exact Or.inr ⟨⟨_, haction⟩, hfound, hafter⟩

/-- Sealed intents and sent requests belong to generated jobs and agree with the rows of these
jobs, no job has two of them, and no job was requested twice. -/
structure Purchases (s : GatewayState) : Prop where
  /-- Identifiers are distinct and generated. -/
  keyed : Keyed s
  /-- An intent about to be spent belongs to a generated job. -/
  sealedMinted : ∀ worker id intent, SealedAt s worker id intent → id ∈ s.minted
  /-- Its row has the intent. -/
  sealedRow : ∀ worker id intent, SealedAt s worker id intent →
    ∀ job ∈ s.db.jobs, job.id = id → job.proofRequestIntent = some intent
  /-- No other worker is about to spend for the job. -/
  sealedOnce : ∀ worker other id intent another, SealedAt s worker id intent →
    SealedAt s other id another → worker = other
  /-- Nothing was requested for the job. -/
  sealedUnsent : ∀ worker id intent, SealedAt s worker id intent → id ∉ s.requests.map Prod.fst
  /-- A request belongs to a generated job. -/
  requestedMinted : ∀ request ∈ s.requests, request.1 ∈ s.minted
  /-- Its row has the requested intent. -/
  requestedRow : ∀ request ∈ s.requests, ∀ job ∈ s.db.jobs, job.id = request.1 →
    job.proofRequestIntent = some request.2
  /-- No job has two requests. -/
  once : (s.requests.map Prod.fst).Nodup

/-- A sealed intent stays in the rows of its job. -/
theorem intent_step (hkeyed : Keyed s) (h : step state s action = .ok next) {id intent : Uuid}
    (hid : id ∈ s.minted)
    (hrows : ∀ job ∈ s.db.jobs, job.id = id → job.proofRequestIntent = some intent) :
    ∀ job ∈ next.db.jobs, job.id = id → job.proofRequestIntent = some intent := by
  intro job hjob hjobId
  obtain ⟨old, hold, holdId, hchange⟩ := origin_of_minted hkeyed h hjob (hjobId ▸ hid)
  exact intent_of_change hchange (hrows old hold (holdId.trans hjobId))

/-- A freshly sealed job has neither a sealed worker nor a request. -/
theorem Purchases.unsealed (hp : Purchases s) {id : Uuid}
    (hrow : ∃ row ∈ s.db.jobs, row.id = id ∧ row.proofRequestIntent = none) :
    (∀ worker intent, ¬ SealedAt s worker id intent) ∧ id ∉ s.requests.map Prod.fst := by
  obtain ⟨row, hmem, hid, hnone⟩ := hrow
  refine ⟨fun worker intent hsealed => ?_, fun hrequested => ?_⟩
  · have hsome := hp.sealedRow worker id intent hsealed row hmem hid
    rw [hnone] at hsome
    exact absurd hsome (by simp)
  · obtain ⟨request, hrequest, rfl⟩ := List.mem_map.mp hrequested
    have hsome := hp.requestedRow request hrequest row hmem hid
    rw [hnone] at hsome
    exact absurd hsome (by simp)

/-- At most one worker has sealed an intent of one job after a step. -/
theorem Purchases.sealedOnce_step (hp : Purchases s) (h : step state s action = .ok next)
    {worker other : ℕ} {id intent another : Uuid} (h1 : SealedAt next worker id intent)
    (h2 : SealedAt next other id another) : worker = other := by
  rcases sealedAt_origin hp.keyed h h1 with ⟨hs1, -⟩ | ⟨⟨now1, hbegin1⟩, hrow1, -⟩
  · rcases sealedAt_origin hp.keyed h h2 with ⟨hs2, -⟩ | ⟨-, hrow2, -⟩
    · exact hp.sealedOnce worker other id intent another hs1 hs2
    · exact absurd hs1 ((hp.unsealed hrow2).1 worker intent)
  · rcases sealedAt_origin hp.keyed h h2 with ⟨hs2, -⟩ | ⟨⟨now2, hbegin2⟩, -, -⟩
    · exact absurd hs2 ((hp.unsealed hrow1).1 other another)
    · have heq := hbegin1.symm.trans hbegin2
      injection heq

/-- A sealed intent has no request after a step. -/
theorem Purchases.sealedUnsent_step (hp : Purchases s) (h : step state s action = .ok next)
    {worker : ℕ} {id intent : Uuid} (hsealed : SealedAt next worker id intent) :
    id ∉ next.requests.map Prod.fst := by
  rcases step_requests h with hrequests |
      ⟨now, sender, current, sent, publicValues, cycles, haction, hcurrent, hstage, -, -, hrequests⟩
  · rw [hrequests]
    rcases sealedAt_origin hp.keyed h hsealed with ⟨hs, -⟩ | ⟨-, hrow, -⟩
    · exact hp.sealedUnsent worker id intent hs
    · exact (hp.unsealed hrow).2
  · have hsender : SealedAt s sender current.job.id sent :=
      ⟨current, publicValues, cycles, hcurrent, rfl, hstage⟩
    rcases sealedAt_origin hp.keyed h hsealed with ⟨hs, hidle⟩ | ⟨⟨_, hbegin⟩, -⟩
    · rw [hrequests, List.map_append, List.mem_append]
      intro hmem
      rcases hmem with hold | hnew
      · exact hp.sealedUnsent worker id intent hs hold
      · have hid : id = current.job.id := List.mem_singleton.mp hnew
        subst hid
        have hworker := hp.sealedOnce worker sender _ intent sent hs hsender
        exact hidle now .requestProof (hworker ▸ haction)
    · rw [haction] at hbegin
      simp at hbegin

/-- A step keeps the invariant. -/
theorem purchases_step (hp : Purchases s) (h : step state s action = .ok next) : Purchases next := by
  have hrequested : ∀ request ∈ next.requests, request ∈ s.requests ∨
      ∃ sender, SealedAt s sender request.1 request.2 := by
    intro request hrequest
    rcases step_requests h with hrequests |
        ⟨-, sender, current, sent, publicValues, cycles, -, hcurrent, hstage, -, -, hrequests⟩
    · exact Or.inl (hrequests ▸ hrequest)
    · rw [hrequests, List.mem_append] at hrequest
      rcases hrequest with hold | hnew
      · exact Or.inl hold
      · rw [List.mem_singleton.mp hnew]
        exact Or.inr ⟨sender, current, publicValues, cycles, hcurrent, rfl, hstage⟩
  refine
    { keyed := keyed_step hp.keyed h
      sealedMinted := ?_
      sealedRow := ?_
      sealedOnce := fun _ _ _ _ _ => hp.sealedOnce_step h
      sealedUnsent := fun _ _ _ => hp.sealedUnsent_step h
      requestedMinted := ?_
      requestedRow := ?_
      once := ?_ }
  · intro worker id intent hsealed
    rcases sealedAt_origin hp.keyed h hsealed with ⟨hs, -⟩ | ⟨-, ⟨row, hrow, hid, -⟩, -⟩
    · exact minted_mono h (hp.sealedMinted worker id intent hs)
    · exact minted_mono h (hid ▸ hp.keyed.minted row hrow)
  · intro worker id intent hsealed
    rcases sealedAt_origin hp.keyed h hsealed with ⟨hs, -⟩ | ⟨-, -, hafter⟩
    · exact intent_step hp.keyed h (hp.sealedMinted worker id intent hs)
        (hp.sealedRow worker id intent hs)
    · exact hafter
  · intro request hrequest
    rcases hrequested request hrequest with hold | ⟨sender, hsender⟩
    · exact minted_mono h (hp.requestedMinted request hold)
    · exact minted_mono h (hp.sealedMinted sender _ _ hsender)
  · intro request hrequest
    rcases hrequested request hrequest with hold | ⟨sender, hsender⟩
    · exact intent_step hp.keyed h (hp.requestedMinted request hold) (hp.requestedRow request hold)
    · exact intent_step hp.keyed h (hp.sealedMinted sender _ _ hsender)
        (hp.sealedRow sender _ _ hsender)
  · rcases step_requests h with hrequests |
        ⟨-, sender, current, sent, publicValues, cycles, -, hcurrent, hstage, -, -, hrequests⟩
    · rw [hrequests]
      exact hp.once
    · have hunsent := hp.sealedUnsent sender current.job.id sent
        ⟨current, publicValues, cycles, hcurrent, rfl, hstage⟩
      rw [hrequests, List.map_append]
      refine List.Nodup.append hp.once (List.nodup_singleton _) ?_
      intro id hold hnew
      rw [List.mem_singleton.mp hnew] at hold
      exact hunsent hold

/-- The invariant holds of every reached state. -/
theorem purchases_run (state : AppState) (actions : List Action) :
    Purchases (run (step state) start actions) := by
  refine run_invariant (fun _ _ _ => purchases_step) ?_ actions
  have hnone : ∀ worker id intent, ¬ SealedAt start worker id intent := by
    intro worker id intent hsealed
    obtain ⟨current, _, _, hcurrent, -, -⟩ := hsealed
    simp [start] at hcurrent
  refine ⟨keyed_run state [], ?_, ?_, ?_, ?_, ?_, ?_, ?_⟩
  · exact fun worker id intent h => absurd h (hnone worker id intent)
  · exact fun worker id intent h => absurd h (hnone worker id intent)
  · exact fun worker other id intent another h => absurd h (hnone worker id intent)
  · exact fun worker id intent h => absurd h (hnone worker id intent)
  · exact fun request hrequest => absurd hrequest (by simp [start])
  · exact fun request hrequest => absurd hrequest (by simp [start])
  · exact List.nodup_nil

/-- The job has an intent, and no worker is about to request its proof. -/
structure Spent (id intent : Uuid) (s : GatewayState) : Prop where
  /-- The invariant of purchases holds. -/
  purchases : Purchases s
  /-- The job was generated. -/
  minted : id ∈ s.minted
  /-- Its row has the intent. -/
  rows : ∀ job ∈ s.db.jobs, job.id = id → job.proofRequestIntent = some intent
  /-- No worker is about to spend for it. -/
  unsealed : ∀ worker another, ¬ SealedAt s worker id another

/-- A step sends no request for a job whose intent is spent. -/
theorem spent_step {id intent : Uuid} (hspent : Spent id intent s)
    (h : step state s action = .ok next) : Spent id intent next ∧
      next.requests.filter (fun request => request.1 = id) =
        s.requests.filter fun request => request.1 = id := by
  have hkeyed := hspent.purchases.keyed
  refine ⟨⟨purchases_step hspent.purchases h, minted_mono h hspent.minted,
    intent_step hkeyed h hspent.minted hspent.rows, fun worker another hsealed => ?_⟩, ?_⟩
  · rcases sealedAt_origin hkeyed h hsealed with ⟨hs, -⟩ | ⟨-, ⟨row, hrow, hid, hnone⟩, -⟩
    · exact hspent.unsealed worker another hs
    · have hsome := hspent.rows row hrow hid
      rw [hnone] at hsome
      exact absurd hsome (by simp)
  · rcases step_requests h with hrequests |
        ⟨-, sender, current, sent, publicValues, cycles, -, hcurrent, hstage, -, -, hrequests⟩
    · rw [hrequests]
    · have hother : current.job.id ≠ id := by
        intro hid
        exact hspent.unsealed sender sent
          ⟨current, publicValues, cycles, hcurrent, hid, hstage⟩
      rw [hrequests, List.filter_append]
      simp [hother]

/-- A run sends no request for a job whose intent is spent. -/
theorem spent_run (state : AppState) {id intent : Uuid} (hspent : Spent id intent s)
    (actions : List Action) : Spent id intent (run (step state) s actions) ∧
      (run (step state) s actions).requests.filter (fun request => request.1 = id) =
        s.requests.filter fun request => request.1 = id := by
  have hstep : ∀ middle action next,
      (Spent id intent middle ∧ middle.requests.filter (fun request => request.1 = id) =
        s.requests.filter fun request => request.1 = id) →
      step state middle action = .ok next →
      (Spent id intent next ∧ next.requests.filter (fun request => request.1 = id) =
        s.requests.filter fun request => request.1 = id) := by
    intro middle action next hmiddle h
    obtain ⟨hnext, hrequests⟩ := spent_step hmiddle.1 h
    exact ⟨hnext, hrequests.trans hmiddle.2⟩
  exact run_invariant hstep ⟨hspent, rfl⟩ actions

/-- A claim does not take a job whose intent has no known request. -/
theorem unclaimed_of_unresolved (hkeyed : Keyed s) {now : Timestamp} {worker : ℕ}
    {locked : List Uuid} {job : Job} (hjob : job ∈ s.db.jobs) (hunresolved : job.UnresolvedIntent)
    (h : step state s (.claim now worker locked) = .ok next) : job ∈ next.db.jobs := by
  rcases (step_changes hkeyed h).rows.fate job hjob with ⟨row, hrow, hchange⟩ | hdeleted
  · cases hchange with
    | kept => exact hrow
    | claimed hclaimable =>
      obtain ⟨hintent, hrequest⟩ := hunresolved
      rcases hclaimable.2.1 with hnone | hsome
      · rw [hnone] at hintent
        exact absurd hintent (by simp)
      · rw [hrequest] at hsome
        exact absurd hsome (by simp)
  · cases hdeleted

/-- In any run every job is requested at most once. A job with an intent that no worker is about to
send is never requested again, keeps its intent, and is left alone by every claim as long as its
request is not known. -/
theorem purchased_at_most_once (state : AppState) (earlier : List Action) :
    let s := run (step state) start earlier
    (s.requests.map Prod.fst).Nodup ∧
      ∀ job ∈ s.db.jobs, ∀ intent, job.proofRequestIntent = some intent →
        (∀ worker another, ¬ SealedAt s worker job.id another) → ∀ later,
          let t := run (step state) s later
          t.requests.filter (fun request => request.1 = job.id) =
              s.requests.filter (fun request => request.1 = job.id) ∧
            ∀ row ∈ t.db.jobs, row.id = job.id → row.proofRequestIntent = some intent ∧
              (row.UnresolvedIntent → ∀ now worker locked next,
                step state t (.claim now worker locked) = .ok next → row ∈ next.db.jobs) := by
  intro s
  have hp : Purchases s := purchases_run state earlier
  refine ⟨hp.once, fun job hjob intent hintent hunsealed later => ?_⟩
  have hspent : Spent job.id intent s := by
    refine ⟨hp, hp.keyed.minted job hjob, fun row hrow hid => ?_, hunsealed⟩
    rw [row_eq_of_key hp.keyed.constrained.primaryKey hrow hjob hid]
    exact hintent
  obtain ⟨hlater, hrequests⟩ := spent_run state hspent later
  refine ⟨hrequests, fun row hrow hid => ⟨hlater.rows row hrow hid, ?_⟩⟩
  intro hunresolved now worker locked next h
  exact unclaimed_of_unresolved hlater.purchases.keyed hrow hunresolved h

end EthereumSettlement.ProofPurchases
