import EthereumSettlement.GatewayChanges
import EthereumSettlement.RollbackEffects
import EthereumSettlement.VirtualAccounts

/-!
# Which actions write the records of the chain

The gateway keeps three kinds of records of Ethereum: the indexed blocks with the
logs of the deposits in them, the accepted events, and the virtual accounts that the
events were applied to. Requests, workers and the queue statements of a tick only
read them; claims on deposits are written next to the logs and leave them as they
are.
-/

namespace EthereumSettlement.ChainRecords

open CheckedCalls KeyedTables
open GatewayTables OuterWriter ProofJobs WorkerMoves ConfirmedReceipts VirtualAccounts
open GatewayIndexer IndexerMoves GatewayRuns GatewayChanges RollbackEffects

/-- The deposit logs that are stored, each with its removal mark. -/
def depositLogs (db : Database) : List (BridgeDepositLog × Bool) :=
  db.deposits.map fun row => (row.log, row.removed)

/-- The indexed blocks and the deposit logs are unchanged. -/
structure ChainKept (db after : Database) : Prop where
  /-- The blocks are unchanged. -/
  blocks : after.blocks = db.blocks
  /-- The deposit logs are unchanged. -/
  logs : depositLogs after = depositLogs db

/-- All records of the chain are unchanged. -/
structure RecordsKept (db after : Database) : Prop where
  /-- Blocks and deposit logs are unchanged. -/
  chain : ChainKept db after
  /-- The accepted events are unchanged. -/
  events : after.acceptedEvents = db.acceptedEvents
  /-- The accounts are unchanged. -/
  accounts : AccountsKept db after

section Frames

variable {db after later : Database}

/-- An unchanged database keeps the blocks and the logs. -/
theorem ChainKept.refl (db : Database) : ChainKept db db := ⟨rfl, rfl⟩

/-- Steps that keep the blocks and the logs compose. -/
theorem ChainKept.trans (first : ChainKept db after) (second : ChainKept after later) :
    ChainKept db later where
  blocks := second.blocks.trans first.blocks
  logs := second.logs.trans first.logs

/-- A conditional update of deposits that rewrites no log keeps the logs. -/
theorem logs_updateWhere {p : BridgeDepositRow → Prop} [DecidablePred p]
    {f : BridgeDepositRow → BridgeDepositRow} {rows : List BridgeDepositRow}
    (hlog : ∀ row, (f row).log = row.log) (hremoved : ∀ row, (f row).removed = row.removed) :
    (updateWhere p f rows).map (fun row => (row.log, row.removed)) =
      rows.map fun row => (row.log, row.removed) :=
  map_updateWhere fun row _ => by rw [hlog row, hremoved row]

/-- A step that rewrites the queue, the writer and the pending commands keeps all records. -/
theorem recordsKept_of_queue {ready : Bool} {writer : Owner} {jobs : List Job}
    {pending : List PendingCommand}
    (h : { db with
      recoveryReady := ready
      writer := writer
      jobs := jobs
      pendingCommands := pending } = after) : RecordsKept db after := by
  rw [← h]
  exact ⟨⟨rfl, rfl⟩, rfl, ⟨rfl, rfl, rfl⟩⟩

/-- An unchanged database keeps all records. -/
theorem RecordsKept.refl (db : Database) : RecordsKept db db := recordsKept_of_queue rfl

/-- Steps that keep all records compose. -/
theorem RecordsKept.trans (first : RecordsKept db after) (second : RecordsKept after later) :
    RecordsKept db later where
  chain := first.chain.trans second.chain
  events := second.events.trans first.events
  accounts := first.accounts.trans second.accounts

/-- A step that rewrites the claims on deposits keeps all records. -/
theorem recordsKept_of_claims {deposits : List BridgeDepositRow}
    (hlogs : (deposits.map fun row => (row.log, row.removed)) = depositLogs db) :
    RecordsKept db { db with deposits := deposits } :=
  ⟨⟨rfl, hlogs⟩, rfl, ⟨rfl, rfl, rfl⟩⟩

/-- A stored pending command keeps all records. -/
theorem insertPending_records {command : PendingCommand} :
    RecordsKept db (db.insertPending command) := by
  unfold Database.insertPending
  split
  · exact RecordsKept.refl db
  · exact recordsKept_of_queue rfl

end Frames

section Requests

variable {state : AppState} {db after : Database} {now : Timestamp} {id reservationId : Uuid}

/-- An insertion of a job keeps all records. -/
theorem insertJob_records {job : Job} {message : String} {actualId : Uuid}
    (h : insertJob db job message = .ok (actualId, after)) : RecordsKept db after := by
  rcases insertJob_eq_ok h with ⟨-, rfl⟩ | ⟨-, -, rfl⟩
  · exact RecordsKept.refl db
  · exact recordsKept_of_queue rfl

/-- An attached settlement keeps all records. -/
theorem attachSettlement_records {token : Option ReservationToken} {input : JobInput}
    (h : attachSettlement db now id token input = .ok after) : RecordsKept db after := by
  obtain ⟨_, holder, _, _, _, _, _, _, rfl⟩ := attachSettlement_eq_ok h
  exact recordsKept_of_queue rfl

/-- An attached bridge job keeps all records. -/
theorem attachBridge_records {input : JobInput}
    (h : attachBridge db id reservationId input = .ok after) : RecordsKept db after := by
  obtain ⟨_, _, holder, _, _, rfl⟩ := attachBridge_eq_ok h
  exact recordsKept_of_queue rfl

/-- The lock keeps all records. -/
theorem lock_records (h : lock db now = .ok after) : RecordsKept db after :=
  recordsKept_of_queue (lock_eq_ok.mp h).2

/-- `create_job` keeps all records. -/
theorem createJob_records {header : Option String} {kind : ProofKind} {input : JobInput}
    {actualId : Uuid}
    (h : createJob state db now id reservationId header kind input = .ok (after, actualId)) :
    RecordsKept db after := by
  simp only [createJob, bind_eq_ok, Prod.exists] at h
  obtain ⟨locked, hlock, actual, inserted, hinsert, h⟩ := h
  have hinserted := (lock_records hlock).trans (insertJob_records hinsert)
  by_cases hid : actual = id
  · rw [if_pos hid] at h
    simp only [bind_eq_ok, pure_eq_ok, Prod.mk.injEq] at h
    obtain ⟨_, hattach, rfl, -⟩ := h
    cases kind with
    | settlement => exact hinserted.trans (attachSettlement_records hattach)
    | bridge => exact hinserted.trans (attachBridge_records hattach)
  · rw [if_neg hid, pure_eq_ok, Prod.mk.injEq] at h
    exact h.1 ▸ hinserted

/-- `send_zkapp` keeps all records. -/
theorem sendZkapp_records {settlement : GatewaySettlement} {actualId : Uuid}
    (h : sendZkapp state db now id settlement = .ok (after, actualId)) : RecordsKept db after := by
  simp only [sendZkapp, bind_eq_ok, require_eq_ok, exists_const, Prod.exists] at h
  obtain ⟨-, -, -, locked, hlock, actual, inserted, hinsert, attached, hattach, h⟩ := h
  have hinserted := (lock_records hlock).trans (insertJob_records hinsert)
  have hattached : RecordsKept db attached := by
    unfold attachSubmission at hattach
    split at hattach
    · simp only [bind_eq_ok, pure_eq_ok] at hattach
      obtain ⟨_, hsettlement, -, -, rfl⟩ := hattach
      exact hinserted.trans (attachSettlement_records hsettlement)
    · rw [pure_eq_ok] at hattach
      exact hattach ▸ hinserted
  split at h
  · rw [pure_eq_ok, Prod.mk.injEq] at h
    exact h.1 ▸ hattached.trans insertPending_records
  · rw [pure_eq_ok, Prod.mk.injEq] at h
    exact h.1 ▸ hattached

/-- `queue_canonical_deposit_batch` writes claims on deposits and keeps all records. -/
theorem queueCanonicalDepositBatch_records {idempotencyKey : Option String}
    {allowTerminalRetry : Bool} {input : BridgeGuest.BridgeTransitionInput} {actualId : Uuid}
    (h : queueCanonicalDepositBatch state db now id reservationId idempotencyKey allowTerminalRetry
      input = .ok (after, actualId)) : RecordsKept db after := by
  simp only [queueCanonicalDepositBatch, bind_eq_ok, require_eq_ok, exists_const,
    Prod.exists, pure_eq_ok, Prod.mk.injEq] at h
  obtain ⟨-, locked, hlock, -, actual, inserted, hinsert, attached, hattach, -, rfl, -⟩ := h
  have hinserted := (lock_records hlock).trans (insertJob_records hinsert)
  have hattached : RecordsKept db attached := by
    unfold attachBatch at hattach
    split at hattach
    · exact hinserted.trans (attachBridge_records hattach)
    · rw [pure_eq_ok] at hattach
      exact hattach ▸ hinserted
  exact hattached.trans (recordsKept_of_claims (logs_updateWhere (fun _ => rfl) fun _ => rfl))

end Requests

/-- The action writes blocks or deposit logs. -/
def WritesChain : Action → Prop
  | .tick _ _ .rollback => True
  | .tick _ _ (.indexBlock _ _) => True
  | .tick _ _ .storeFinality => True
  | _ => False

instance (action : Action) : Decidable (WritesChain action) := by
  unfold WritesChain
  split <;> infer_instance

/-- The action writes records of the chain: the configuration creates accounts, a tick writes
blocks and events and applies receipts. -/
def WritesRecords : Action → Prop
  | .serve (.initializeGatewayConfig _ _) => True
  | .tick _ _ (.storeEvent _) => True
  | .tick _ _ .applyEvent => True
  | .tick _ _ .applyReceipt => True
  | action => WritesChain action

instance (action : Action) : Decidable (WritesRecords action) := by
  unfold WritesRecords
  split <;> infer_instance

section Steps

variable {state : AppState} {s next : GatewayState} {db after : Database} {now : Timestamp}

/-- A transaction of the API keeps all records. -/
theorem serve_records {request : Request} (hwrites : ¬ WritesRecords (.serve request))
    (h : serve state db request = .ok after) : RecordsKept db after := by
  cases request with
  | initializeGatewayConfig outerPublicKey accounts => exact absurd trivial hwrites
  | acquire now reservationId request block checkpoint =>
    simp only [serve, map_eq_ok, acquire, bind_eq_ok, Prod.exists, exists_and_right] at h
    obtain ⟨_, ⟨result, -, h⟩, rfl⟩ := h
    obtain ⟨-, writer, rfl, -⟩ := acquireWithCheckpoint_eq_ok h
    exact recordsKept_of_queue rfl
  | renew now token ttlSeconds =>
    simp only [serve, map_eq_ok, renew, bind_eq_ok, Prod.exists, exists_and_right] at h
    obtain ⟨_, ⟨result, seconds, -, h⟩, rfl⟩ := h
    obtain ⟨-, holder, -, ⟨-, -, expiry, rfl⟩ | ⟨-, rfl⟩⟩ := renewToken_eq_ok h
    · exact recordsKept_of_queue rfl
    · exact RecordsKept.refl db
  | release now token =>
    obtain ⟨-, ⟨-, rfl⟩ | ⟨holder, -, -, -, rfl⟩⟩ := release_eq_ok h
    · exact recordsKept_of_queue rfl
    · exact recordsKept_of_queue rfl
  | createSettlement now id header request =>
    simp only [serve, map_eq_ok, createSettlement, bind_eq_ok, require_eq_ok, exists_const,
      Prod.exists, exists_and_right] at h
    obtain ⟨_, ⟨actualId, -, -, -, h⟩, rfl⟩ := h
    exact createJob_records h
  | createBridge now id reservationId header input =>
    simp only [serve, map_eq_ok, createBridge, Prod.exists, exists_and_right] at h
    obtain ⟨_, ⟨actualId, h⟩, rfl⟩ := h
    exact createJob_records h
  | sendZkapp now id settlement =>
    simp only [serve, map_eq_ok, Prod.exists, exists_and_right] at h
    obtain ⟨_, ⟨actualId, h⟩, rfl⟩ := h
    exact sendZkapp_records h
  | queueDepositBatch now id reservationId idempotencyKey allowTerminalRetry input =>
    simp only [serve, map_eq_ok, Prod.exists, exists_and_right] at h
    obtain ⟨_, ⟨actualId, h⟩, rfl⟩ := h
    exact queueCanonicalDepositBatch_records h
  | approveProof now id request =>
    simp only [serve, approveProof, bind_eq_ok, require_eq_ok, exists_const] at h
    obtain ⟨-, h⟩ := h
    by_cases positive : 0 < request.maxPgu ∧ 0 < request.maxPricePerPgu
    · rw [dif_pos positive] at h
      simp only [bind_eq_ok, require_eq_ok, exists_const, Database.updateJob_eq_ok] at h
      obtain ⟨-, -, -, -, -, -, -, -, -, -, -, -, rfl⟩ := h
      exact recordsKept_of_queue rfl
    · rw [dif_neg positive] at h
      exact absurd h (by simp)
  | cancelProof now id =>
    simp only [serve, cancelProof, bind_eq_ok, Database.updateJob_eq_ok, pure_eq_ok] at h
    obtain ⟨_, ⟨-, -, rfl⟩, rfl⟩ := h
    exact recordsKept_of_queue rfl
  | recoverInterrupted =>
    simp only [serve, recoverInterrupted, Database.updateJobs_eq_ok] at h
    obtain ⟨-, rfl⟩ := h
    exact recordsKept_of_queue rfl

/-- A claim of a job keeps all records. -/
theorem claimJob_records {locked : List Uuid} {claim : Option ClaimedJob}
    (h : claimJob db now locked = .ok (after, claim)) : RecordsKept db after := by
  rcases claimJob_eq_ok h with ⟨-, rfl | ⟨-, rfl⟩⟩ | ⟨job, -, -, -, -, -, rfl⟩
  · exact RecordsKept.refl db
  · exact recordsKept_of_queue rfl
  · exact recordsKept_of_queue rfl

/-- A one-row update of the job table keeps all records. -/
theorem updateJob_records {p : Job → Prop} [DecidablePred p] {f : Job → Job} {message : String}
    (h : db.updateJob p f message = .ok after) : RecordsKept db after := by
  obtain ⟨-, -, rfl⟩ := Database.updateJob_eq_ok.mp h
  exact recordsKept_of_queue rfl

/-- An update of the job table keeps all records. -/
theorem updateJobs_records {p : Job → Prop} [DecidablePred p] {f : Job → Job}
    (h : db.updateJobs p f = .ok after) : RecordsKept db after := by
  obtain ⟨-, rfl⟩ := Database.updateJobs_eq_ok.mp h
  exact recordsKept_of_queue rfl

/-- A call of a worker keeps all records. -/
theorem workerMove_records {worker : Worker} {step : WorkerStep} {later : Option Worker}
    (h : WorkerMove state db now worker step after later) : RecordsKept db after := by
  cases h with
  | resumed => exact RecordsKept.refl db
  | requested => exact RecordsKept.refl db
  | submitted _ hstore => exact updateJobs_records hstore
  | failed hstore =>
    simp only [recordFailure, bind_eq_ok, requireSome_eq_ok] at hstore
    obtain ⟨-, -, stored, hstored, h⟩ := hstore
    have hkept := updateJobs_records hstored
    split at h
    · rw [pure_eq_ok] at h
      rw [← h]
      exact hkept.trans (recordsKept_of_queue rfl)
    · rw [pure_eq_ok] at h
      exact h ▸ hkept
  | hydrated _ _ _ hstore => exact updateJob_records hstore
  | digestedBridge _ _ hstore => exact updateJob_records hstore
  | digestedSettlement _ hstore => exact updateJob_records hstore
  | preflighted _ hstore => exact updateJob_records hstore
  | executed _ hstore => exact updateJob_records hstore
  | awaitingApproval _ hstore => exact updateJob_records hstore
  | mocked _ hstore => exact updateJob_records hstore
  | proving _ hstore => exact updateJob_records hstore
  | sealed _ hstore => exact updateJob_records hstore
  | resolved _ hstore => exact updateJob_records hstore
  | proved _ hstore => exact updateJob_records hstore
  | measured _ hstore => exact updateJob_records hstore
  | submitting _ hstore _ => exact updateJob_records hstore
  | prepared _ hstore => exact updateJob_records hstore

/-- A queue statement of a tick, or a read of one, keeps all records. -/
theorem tickMove_records {stage later : IndexerStage} {step : IndexerStep} {indexer : ℕ}
    (hwrites : ¬ WritesRecords (.tick now indexer step))
    (h : TickMove state db now stage step after later) : RecordsKept db after := by
  cases h with
  | rolledBack => exact absurd trivial hwrites
  | indexed => exact absurd trivial hwrites
  | finalityStored => exact absurd trivial hwrites
  | eventStored => exact absurd trivial hwrites
  | eventApplied => exact absurd trivial hwrites
  | receiptApplied => exact absurd trivial hwrites
  | cursorStored => exact ⟨⟨rfl, rfl⟩, rfl, ⟨rfl, rfl, rfl⟩⟩
  | recoveredInserted _ _ _ _ _ hstore =>
    obtain ⟨-, rfl⟩ := Database.storeJobs_eq_ok.mp hstore
    exact recordsKept_of_queue rfl
  | eventConfirmed _ _ _ _ _ hstore => exact updateJobs_records hstore
  | reverted _ _ _ _ hstore => exact (updateJobs_records hstore).trans (recordsKept_of_queue rfl)
  | settled _ _ _ _ _ hstore => exact updateJobs_records hstore
  | ready => exact recordsKept_of_queue rfl
  | abandoned => exact RecordsKept.refl db
  | begun => exact RecordsKept.refl db
  | commonAncestor => exact RecordsKept.refl db
  | finalityChecked => exact RecordsKept.refl db
  | eventsRead => exact RecordsKept.refl db
  | eventPassed => exact RecordsKept.refl db
  | eventRead => exact RecordsKept.refl db
  | submissionFound => exact RecordsKept.refl db
  | submissionUnknown => exact RecordsKept.refl db
  | jobsRead => exact RecordsKept.refl db
  | receiptRead => exact RecordsKept.refl db

/-- Any other action than the ones that write records keeps all of them. -/
theorem recordsKept_of_step {action : Action} (hwrites : ¬ WritesRecords action)
    (h : step state s action = .ok next) : RecordsKept s.db next.db := by
  obtain ⟨performed, hmove, rfl⟩ := step_move h
  cases hmove with
  | served hserve => exact serve_records hwrites hserve
  | claimed hclaim => exact claimJob_records hclaim
  | worked hworker hmove => exact workerMove_records hmove
  | crashed worker => exact RecordsKept.refl s.db
  | ticked hmove => exact tickMove_records hwrites hmove

end Steps

section Applications

variable {state : AppState} {s next : GatewayState} {db after : Database} {now : Timestamp}
variable {jobId : Uuid} {inclusion : Inclusion} {publicKey : String}

/-- A snapshot and a stored account keep the blocks and the logs. -/
theorem write_chain {row : Account} {json : AccountJson} :
    ChainKept db (storeAccount (snapshotAccount db now jobId row inclusion) publicKey json
      inclusion) := by
  unfold storeAccount snapshotAccount
  split
  · exact ⟨rfl, rfl⟩
  · exact ⟨rfl, rfl⟩

/-- An action row keeps the blocks and the logs. -/
theorem upsertAction_chain {action : ActionRow} {f : ActionRow → ActionRow} :
    ChainKept db (upsertAction db action f) := by
  unfold upsertAction
  dsimp only
  split
  · exact ⟨rfl, rfl⟩
  · exact ⟨rfl, rfl⟩

/-- Stored inner actions keep the blocks and the logs. -/
theorem storeInnerActions_chain {input : JobInput}
    {decoded : SettlementCodec.SettlementPublicValues}
    (h : storeInnerActions state db input decoded inclusion = .ok after) : ChainKept db after := by
  unfold storeInnerActions at h
  split at h
  · rw [pure_eq_ok] at h
    exact h ▸ ChainKept.refl db
  · simp only [bind_eq_ok, pure_eq_ok] at h
    obtain ⟨-, -, -, -, rfl⟩ := h
    exact ⟨rfl, rfl⟩

/-- A confirmed settlement synchronizes deposits and keeps the blocks and the logs. -/
theorem applyConfirmedSettlement_chain {input : JobInput} {publicValues : ByteWords.Bytes}
    (h : applyConfirmedSettlement state db now jobId input publicValues inclusion = .ok after) :
    ChainKept db after := by
  simp only [applyConfirmedSettlement, bind_eq_ok] at h
  obtain ⟨decoded, -, sequence, -, h⟩ := h
  have hdeposits : ∀ f : BridgeDepositRow → BridgeDepositRow, (∀ row, (f row).log = row.log) →
      (∀ row, (f row).removed = row.removed) → ChainKept db
        { db with deposits := updateWhere (Synchronizes decoded.settlement) f db.deposits } :=
    fun _ hlog hremoved => ⟨rfl, logs_updateWhere hlog hremoved⟩
  split at h
  · rw [pure_eq_ok] at h
    rw [← h]
    exact hdeposits _ (fun _ => rfl) fun _ => rfl
  · split at h
    · rw [pure_eq_ok] at h
      rw [← h]
      exact hdeposits _ (fun _ => rfl) fun _ => rfl
    · simp only [bind_eq_ok, updateOuterAccount_eq_ok, updateFeePayer_eq_ok] at h
      obtain ⟨actions, -, outer, ⟨_, -, houter⟩, payer, ⟨_, -, -, -, hpayer⟩, hstore⟩ := h
      have hwritten := write_chain.trans (houter ▸ hpayer ▸ write_chain)
      have hpending : ∀ start : Database, ChainKept start
          (start.deletePending fun command => command.jobId = jobId) := fun _ => ⟨rfl, rfl⟩
      have hlast := upsertAction_chain.trans ((hpending _).trans (storeInnerActions_chain hstore))
      have hafter := hwritten.trans hlast
      exact ⟨hafter.blocks, hafter.logs.trans (logs_updateWhere (fun _ => rfl) fun _ => rfl)⟩

/-- The assignment of deposits keeps the blocks and the logs. -/
theorem assignDeposits_chain {decoded : BridgeCodec.BridgeTransitionPublicValuesV2}
    {entries : List (BridgeCodec.BridgeOuterActionV2 × ℕ)}
    (h : entries.foldlM (assignDeposit jobId decoded) db = .ok after) : ChainKept db after := by
  refine foldlM_related ChainKept.refl ChainKept.trans (fun start entry result hentry => ?_) _ h
  simp only [assignDeposit, bind_eq_ok, require_eq_ok, exists_const, pure_eq_ok] at hentry
  obtain ⟨-, -, -, -, -, rfl⟩ := hentry
  exact ⟨rfl, logs_updateWhere (fun _ => rfl) fun _ => rfl⟩

/-- A confirmed bridge transition claims deposits and keeps the blocks and the logs. -/
theorem applyConfirmedBridge_chain {publicValues : ByteWords.Bytes}
    (h : applyConfirmedBridge db now jobId publicValues inclusion = .ok after) :
    ChainKept db after := by
  simp only [applyConfirmedBridge, bind_eq_ok, require_eq_ok, exists_const] at h
  obtain ⟨decoded, -, -, -, -, -, assigned, hassigned, h⟩ := h
  have hdeposits := assignDeposits_chain hassigned
  split at h
  · rw [pure_eq_ok] at h
    exact h ▸ hdeposits
  · simp only [bind_eq_ok, pure_eq_ok, updateOuterAccountActions_eq_ok] at h
    obtain ⟨outerPublicKey, -, _, ⟨outer, -, -, rfl⟩, rfl⟩ := h
    exact (hdeposits.trans write_chain).trans
      (foldl_related ChainKept.refl ChainKept.trans (fun _ _ => upsertAction_chain) _ _)

/-- An applied receipt keeps the blocks and the logs. -/
theorem applyConfirmed_chain {kind : ProofKind} {input : JobInput} {publicValues : ByteWords.Bytes}
    (h : applyConfirmed state db now kind jobId input publicValues inclusion = .ok after) :
    ChainKept db after := by
  cases kind with
  | settlement => exact applyConfirmedSettlement_chain h
  | bridge => exact applyConfirmedBridge_chain h

/-- A stored event keeps the blocks and the logs. -/
theorem upsertEvent_chain {event : AcceptedEvent} : ChainKept db (upsertEvent db event) := by
  unfold upsertEvent
  dsimp only
  split
  · exact ⟨rfl, rfl⟩
  · exact ⟨rfl, rfl⟩

/-- Only the statements of a tick that index, roll back or finalize blocks write blocks or
deposit logs. -/
theorem chainKept_of_step {action : Action} (hwrites : ¬ WritesChain action)
    (h : step state s action = .ok next) : ChainKept s.db next.db := by
  by_cases hrecords : WritesRecords action
  · unfold WritesRecords at hrecords
    split at hrecords
    · obtain ⟨performed, hmove, rfl⟩ := step_move h
      cases hmove with
      | served hserve =>
        rw [serve, pure_eq_ok] at hserve
        rw [← hserve]
        exact ⟨rfl, rfl⟩
    · obtain ⟨later, hmove⟩ := tickMove_of_step h
      generalize s.indexers _ = stage at hmove
      generalize next.db = after at hmove
      cases hmove
      exact upsertEvent_chain
    · obtain ⟨later, hmove⟩ := tickMove_of_step h
      generalize s.indexers _ = stage at hmove
      cases hmove with
      | eventApplied _ _ _ _ _ _ happly => exact applyConfirmed_chain happly
    · obtain ⟨later, hmove⟩ := tickMove_of_step h
      generalize s.indexers _ = stage at hmove
      cases hmove with
      | receiptApplied _ _ _ _ _ happly => exact applyConfirmed_chain happly
    · exact absurd hrecords hwrites
  · exact (recordsKept_of_step hrecords h).chain

end Applications

section Chain

variable {db after : Database} {now : Timestamp}

/-- The logs after one more log is stored under its nonce. -/
def upsertLog (stored : List (BridgeDepositLog × Bool)) (log : BridgeDepositLog) :
    List (BridgeDepositLog × Bool) :=
  if ∃ entry ∈ stored, entry.1.nonce = log.nonce then
    updateWhere (fun entry => entry.1.nonce = log.nonce) (fun _ => (log, false)) stored
  else
    stored ++ [(log, false)]

/-- A stored deposit stores its log. -/
theorem logs_upsertDeposit (rows : List BridgeDepositRow) (log : BridgeDepositLog) :
    upsertLog (rows.map fun row => (row.log, row.removed)) log =
      (upsertDeposit rows log).map fun row => (row.log, row.removed) := by
  unfold upsertLog upsertDeposit
  by_cases hknown : ∃ row ∈ rows, row.log.nonce = log.nonce
  · have hentry : ∃ entry ∈ rows.map (fun row => (row.log, row.removed)),
        entry.1.nonce = log.nonce := by
      obtain ⟨row, hrow, hnonce⟩ := hknown
      exact ⟨_, List.mem_map.mpr ⟨row, hrow, rfl⟩, hnonce⟩
    rw [if_pos hentry, if_pos hknown]
    simp only [updateWhere, List.map_map]
    apply List.map_congr_left
    intro row _
    by_cases hnonce : row.log.nonce = log.nonce
    · simp [hnonce]
    · simp [hnonce]
  · have hentry : ¬ ∃ entry ∈ rows.map (fun row => (row.log, row.removed)),
        entry.1.nonce = log.nonce := by
      rintro ⟨entry, hentry, hnonce⟩
      obtain ⟨row, hrow, rfl⟩ := List.mem_map.mp hentry
      exact hknown ⟨row, hrow, hnonce⟩
    rw [if_neg hentry, if_neg hknown, List.map_append, List.map_singleton]

/-- The loop over the logs of a block upserts them, and every one names the block. -/
theorem foldlM_insertDeposit {block : BlockRef} {logs : List BridgeDepositLog}
    {rows stored : List BridgeDepositRow}
    (h : logs.foldlM (insertDeposit block) rows = .ok stored) :
    stored = logs.foldl upsertDeposit rows ∧ ∀ log ∈ logs,
      (log.blockNumber = block.number ∧ log.blockHash = block.hash) ∧ log.nonce < 2 ^ 63 := by
  induction logs generalizing rows with
  | nil =>
    rw [List.foldlM_nil, pure_eq_ok] at h
    exact ⟨h.symm, fun log hlog => absurd hlog List.not_mem_nil⟩
  | cons log logs ih =>
    rw [List.foldlM_cons, bind_eq_ok] at h
    obtain ⟨middle, hinsert, hrest⟩ := h
    simp only [insertDeposit, require_bind_eq_ok, pure_eq_ok] at hinsert
    obtain ⟨hinside, hfits, -, hmiddle⟩ := hinsert
    obtain ⟨hstored, hothers⟩ := ih hrest
    constructor
    · rw [List.foldl_cons, hmiddle]
      exact hstored
    · intro other hother
      rcases List.mem_cons.mp hother with hsame | htail
      · rw [hsame]
        exact ⟨hinside, hfits.1⟩
      · exact hothers other htail

/-- An indexed block is stored with its logs, which name the block. -/
theorem indexBridgeDeposits_eq_ok {block : BlockRef} {logs : List BridgeDepositLog}
    (h : indexBridgeDeposits db block logs = .ok after) :
    (∀ log ∈ logs, log.blockNumber = block.number ∧ log.blockHash = block.hash) ∧
      (∀ log ∈ logs, log.nonce < 2 ^ 63) ∧ after.blocks = upsertBlock db.blocks block ∧
      depositLogs after = logs.foldl upsertLog (depositLogs db) := by
  simp only [indexBridgeDeposits, insertBlock, bind_eq_ok, require_eq_ok, exists_const,
    pure_eq_ok] at h
  obtain ⟨deposits, hdeposits, blocks, ⟨-, -, hblocks⟩, hafter⟩ := h
  obtain ⟨hstored, hlogs⟩ := foldlM_insertDeposit hdeposits
  rw [← hafter, ← hblocks, hstored]
  exact ⟨fun log hlog => (hlogs log hlog).1, fun log hlog => (hlogs log hlog).2, rfl,
    (List.foldl_hom _ logs_upsertDeposit).symm⟩

/-- The log with its removal mark after a rollback. -/
def removeLog (ancestor : ℕ) (entry : BridgeDepositLog × Bool) : BridgeDepositLog × Bool :=
  (entry.1, entry.2 || decide (ancestor < entry.1.blockNumber))

/-- A rollback marks the blocks and the logs above the ancestor. -/
theorem rollbackAfter_chain {ancestor : ℕ} (h : rollbackAfter db now ancestor = .ok after) :
    after.blocks = updateWhere (fun row => row.canonical ∧ ancestor < row.block.number)
        (fun row => { row with canonical := false, finalized := false }) db.blocks ∧
      depositLogs after = (depositLogs db).map (removeLog ancestor) := by
  have htables := rollbackAfter_tables h
  refine ⟨htables.blocks, ?_⟩
  have hframe : List.Forall₂ (fun old row => removeLog ancestor (old.log, old.removed) =
      (row.log, row.removed)) db.deposits (rollbackIndex db ancestor).deposits := by
    refine deposit_frame.imp fun old row hrow => ?_
    rw [hrow.log, hrow.removed]
    rfl
  rw [depositLogs, htables.deposits, depositLogs, List.map_map]
  have hequal := List.forall₂_map_right_iff.mpr (List.forall₂_map_left_iff.mpr hframe)
  rw [List.forall₂_eq_eq_eq] at hequal
  exact hequal.symm

end Chain

end EthereumSettlement.ChainRecords
