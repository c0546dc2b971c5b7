import EthereumSettlement.GatewayTables
import Mathlib.Algebra.Order.Ring.Int

/-!
# Ownership of the outer action-state writer

One row names the current reservation of the outer writer, its fencing token and
the job that owns it. A preparation lease expires and is cleared lazily, under the
configuration lock; a reservation with a job lasts until the outcome of that job
is known. Each function is one database transaction or a part of one.
-/

namespace EthereumSettlement.OuterWriter

open ByteWords CheckedCalls KeyedTables PastaPoseidon GatewayTables

/-- A nonempty run of decimal digits. -/
def parseDigits (digits : List Char) : Option ℕ :=
  if digits = [] then none
  else digits.foldlM (fun value digit =>
    if digit.isDigit then some (10 * value + (digit.toNat - 48)) else none) 0

/-- `str::parse::<i64>`. -/
def parseI64 (text : String) : Option ℤ := do
  let value ← match text.toList with
    | '-' :: digits => (parseDigits digits).map fun value => -(value : ℤ)
    | '+' :: digits => (parseDigits digits).map Nat.cast
    | digits => (parseDigits digits).map Nat.cast
  if -2 ^ 63 ≤ value ∧ value < 2 ^ 63 then some value else none

/-- `Owner::matches`: the row holds this reservation under this token. -/
def Matches (owner : Owner) (token : ReservationToken) : Prop :=
  owner.holder.map Holder.reservationId = some token.id ∧
    parseI64 token.fencingToken = some owner.fencingToken

instance (owner : Owner) (token : ReservationToken) : Decidable (Matches owner token) :=
  inferInstanceAs (Decidable (_ ∧ _))

/-- The next fencing token, a `BIGINT`. -/
def nextFencingToken (fencingToken : ℕ) : Except GatewayError ℕ := do
  require (fencingToken + 1 < 2 ^ 63) (.other "bigint out of range")
  pure (fencingToken + 1)

/-- `settlement_idempotency_key`. -/
def settlementIdempotencyKey (hash : String) : Option ReservationToken → String
  | some reservation => hash ++ ":reservation:" ++ uuidText reservation.id
  | none => hash

/-- `ttl`. -/
def ttl (value : Option ℕ) : Except GatewayError ℕ := do
  let seconds := value.getD 120
  require (30 ≤ seconds ∧ seconds ≤ 600)
    (.conflict "INVALID_RESERVATION" "ttlSeconds must be between 30 and 600")
  pure seconds

/-- The rows that `lock` clears: an expired preparation lease, or a job whose outcome is
known. -/
def Released (jobs : List Job) (now : Timestamp) (holder : Holder) : Prop :=
  (holder.jobId = none ∧ ∃ expiry ∈ holder.expiresAt, expiry ≤ now) ∨
    ∃ job ∈ jobs, holder.jobId = some job.id ∧ job.OutcomeKnown

instance (jobs : List Job) (now : Timestamp) (holder : Holder) :
    Decidable (Released jobs now holder) :=
  inferInstanceAs (Decidable ((_ ∧ ∃ expiry ∈ holder.expiresAt, expiry ≤ now) ∨ _))

/-- `lock`. -/
def lock (db : Database) (now : Timestamp) : Except GatewayError Database := do
  require db.recoveryReady (.conflict "OUTER_WRITER_BUSY" "gateway is replaying finalized state")
  pure { db with writer := { db.writer with
    holder := db.writer.holder.filter fun holder => ¬ Released db.jobs now holder } }

/-- `ensure_no_jobs`. -/
def ensureNoJobs (db : Database) (except : Option Uuid) : Except GatewayError Unit :=
  require (∀ job ∈ db.jobs, except ≠ some job.id → job.OutcomeKnown)
    (.conflict "OUTER_WRITER_BUSY" "an outer-state job is queued or active")

/-- `virtual_account`. -/
def virtualAccount (db : Database) : Except GatewayError AccountJson :=
  match db.outerPublicKey.bind db.account? with
  | some account => pure account.account
  | none => throw (.other "virtual outer account is not configured")

/-- `account_matches`. -/
def AccountMatches (account : AccountJson) (checkpoint : Checkpoint) : Prop :=
  account.zkappState = some checkpoint.outerStateFields ∧
    account.actionState.bind List.head? = some checkpoint.actionState

instance (account : AccountJson) (checkpoint : Checkpoint) :
    Decidable (AccountMatches account checkpoint) :=
  inferInstanceAs (Decidable (_ ∧ _))

/-- `proof_matches_checkpoint`. -/
def proofMatchesCheckpoint (input : JobInput) (checkpoint : Checkpoint) :
    Except GatewayError Bool := do
  let fields ← requireSome (input.binding.bind BindingDocument.stateBefore)
    "missing outer state binding"
  let action ← requireSome
    ((input.binding.bind BindingDocument.accountUpdateBody).bind fun body => body[36]?)
    "missing action state binding"
  pure (fields = checkpoint.outerStateFields ∧ action = checkpoint.actionState)

/-- `ledger_hashes`. -/
def ledgerHashes (input : JobInput) : Except GatewayError (Bytes32 × Bytes32) := do
  let source ← requireSome
    ((input.binding.bind BindingDocument.stateBefore).bind fun fields => fields[2]?)
    "missing source ledger binding"
  let target ← requireSome
    ((input.binding.bind fun binding => binding.actions[0]?).bind fun action => action[1]?)
    "missing target ledger binding"
  pure (source, target)

/-- `AcquireRequest`. -/
structure AcquireRequest where
  /-- Process that asks. -/
  ownerId : String
  /-- Seconds until the reservation lapses. -/
  ttlSeconds : Option ℕ

/-- `Reservation`, the response of `acquire` and `renew`. -/
structure Reservation where
  /-- Identifier of the reservation. -/
  reservationId : Uuid
  /-- Token that fences out earlier holders. -/
  fencingToken : ℕ
  /-- When the reservation lapses. -/
  expiresAt : Option Timestamp
  /-- Chain state that the holder started from. -/
  checkpoint : Checkpoint
  deriving DecidableEq

/-- `Owner::response`. -/
def response (owner : Owner) : Except GatewayError Reservation := do
  let holder ← requireSome owner.holder "writer has no reservation"
  let checkpoint ← requireSome holder.checkpoint "writer has no checkpoint"
  pure ⟨holder.reservationId, owner.fencingToken, holder.expiresAt, checkpoint⟩

/-- The reservation columns once a job owns them. -/
def Holder.attach (holder : Holder) (jobId : Uuid) : Holder :=
  { holder with jobId := some jobId, expiresAt := none, held := Or.inl rfl }

/-- A preparation lease that has no job: its expiry is replaced. -/
def Holder.extend (holder : Holder) (expiry : Timestamp) : Holder :=
  { holder with expiresAt := some expiry, held := Or.inr rfl }

/-- `acquire_with_checkpoint`. -/
def acquireWithCheckpoint (db : Database) (now : Timestamp) (reservationId : Uuid)
    (request : AcquireRequest) (checkpoint : Checkpoint) :
    Except GatewayError (Database × Reservation) := do
  let seconds ← ttl request.ttlSeconds
  require (request.ownerId ≠ "" ∧ request.ownerId.utf8ByteSize ≤ 200)
    (.conflict "INVALID_RESERVATION" "ownerId must contain 1 to 200 bytes")
  let db ← lock db now
  match db.writer.holder with
  | some holder => do
    require (holder.jobId = none ∧ holder.ownerId = request.ownerId)
      (.conflict "OUTER_WRITER_BUSY" "another writer owns preparation or submission")
    let writer : Owner :=
      { db.writer with holder := some (Holder.extend holder (now + seconds * second)) }
    let result ← response writer
    pure ({ db with writer := writer }, result)
  | none => do
    ensureNoJobs db none
    let account ← virtualAccount db
    require (AccountMatches account checkpoint)
      (.conflict "STALE_CHECKPOINT" "gateway has not caught up to the finalized checkpoint")
    let fencingToken ← nextFencingToken db.writer.fencingToken
    let writer : Owner :=
      { fencingToken := fencingToken,
        holder := some ⟨reservationId, request.ownerId, some (now + seconds * second),
          some checkpoint, none, Or.inr rfl⟩ }
    let result ← response writer
    pure ({ db with writer := writer }, result)

/-- `SettlementState` of the Ethereum client, as far as a checkpoint reads it. -/
structure SettlementState where
  /-- App state of the outer account. -/
  outerState : List Bytes32
  /-- Settled ledger. -/
  currentRoot : Bytes32
  /-- Last state of the outer action chain. -/
  actionState : Bytes32
  /-- Number of actions in the outer action chain. -/
  outerActionStateLength : BitVec 32

/-- `Checkpoint::from_chain`. -/
def Checkpoint.fromChain (block : BlockRef) (state : SettlementState) : Checkpoint where
  outerStateFields := state.outerState
  ledgerHash := state.currentRoot
  actionState := state.actionState
  actionStateLength := state.outerActionStateLength
  blockNumber := block.number
  blockHash := block.hash

/-- `MAX(block_number) … WHERE canonical AND finalized`. -/
def finalizedHeight (db : Database) : Option ℕ :=
  ((db.blocks.filter fun row => row.canonical ∧ row.finalized).map fun row => row.block.number).max?

/-- The block that `acquire` reads its checkpoint at: the finalized block of Ethereum, or the
indexed finalized height where finality is a number of confirmations. -/
def acquireBoundary (state : AppState) (db : Database) (block : BlockRef) :
    Except GatewayError Unit :=
  match state.ethereumFinalityMode with
  | .finalized => pure ()
  | .confirmations =>
    require (finalizedHeight db = some block.number)
      (.conflict "OUTER_WRITER_BUSY" "no indexed finalized checkpoint yet")

/-- `acquire`. -/
def acquire (state : AppState) (db : Database) (now : Timestamp) (reservationId : Uuid)
    (request : AcquireRequest) (block : BlockRef) (checkpoint : SettlementState) :
    Except GatewayError (Database × Reservation) := do
  acquireBoundary state db block
  acquireWithCheckpoint db now reservationId request (Checkpoint.fromChain block checkpoint)

/-- `renew_token`. -/
def renewToken (db : Database) (now : Timestamp) (token : ReservationToken) (seconds : ℕ) :
    Except GatewayError (Database × Reservation) := do
  require (Matches db.writer token)
    (.conflict "RESERVATION_EXPIRED" "reservation was released or fenced")
  let holder ← requireSome db.writer.holder "writer has no reservation"
  if holder.jobId = none then do
    require (∃ expiry ∈ holder.expiresAt, now < expiry)
      (.conflict "RESERVATION_EXPIRED" "preparation lease expired")
    let writer : Owner :=
      { db.writer with holder := some (Holder.extend holder (now + seconds * second)) }
    let result ← response writer
    pure ({ db with writer := writer }, result)
  else do
    let result ← response db.writer
    pure (db, result)

/-- `renew`. -/
def renew (db : Database) (now : Timestamp) (token : ReservationToken) (ttlSeconds : Option ℕ) :
    Except GatewayError (Database × Reservation) := do
  let seconds ← ttl ttlSeconds
  renewToken db now token seconds

/-- `release`. -/
def release (db : Database) (now : Timestamp) (token : ReservationToken) :
    Except GatewayError Database := do
  let db ← lock db now
  match db.writer.holder with
  | none => pure db
  | some holder => do
    require (Matches db.writer token)
      (.conflict "RESERVATION_EXPIRED" "reservation was released or fenced")
    require (holder.jobId = none)
      (.conflict "OUTER_WRITER_BUSY" "accepted job ownership lasts until its outcome is reconciled")
    pure { db with writer := { db.writer with holder := none } }

/-- `attach_settlement`. -/
def attachSettlement (db : Database) (now : Timestamp) (jobId : Uuid)
    (token : Option ReservationToken) (input : JobInput) : Except GatewayError Database := do
  match token with
  | none => throw (.conflict "RESERVATION_REQUIRED" "acquire a preparation reservation before proving")
  | some token => do
    require (Matches db.writer token ∧ db.writer.jobId = none)
      (.conflict "RESERVATION_EXPIRED" "preparation token is no longer the current owner")
    ensureNoJobs db (some jobId)
    let holder ← requireSome db.writer.holder "reservation checkpoint missing"
    let checkpoint ← requireSome holder.checkpoint "reservation checkpoint missing"
    let account ← virtualAccount db
    require (AccountMatches account checkpoint)
      (.conflict "STALE_CHECKPOINT"
        "settlement proof does not match its reserved finalized checkpoint")
    let proofMatches ← proofMatchesCheckpoint input checkpoint
    require proofMatches
      (.conflict "STALE_CHECKPOINT"
        "settlement proof does not match its reserved finalized checkpoint")
    let _ ← ledgerHashes input
    require (∃ expiry ∈ holder.expiresAt, now < expiry)
      (.conflict "RESERVATION_EXPIRED" "preparation lease expired before admission")
    pure { db with writer := { db.writer with holder := some (Holder.attach holder jobId) } }

/-- `attach_bridge`. -/
def attachBridge (db : Database) (jobId reservationId : Uuid) (input : JobInput) :
    Except GatewayError Database := do
  require (db.writer.holder = none)
    (.conflict "OUTER_WRITER_BUSY" "another writer owns preparation or submission")
  ensureNoJobs db (some jobId)
  let transition ← requireSome input.transition "missing bridge action state"
  let account ← virtualAccount db
  require (account.actionState.bind List.head? = some transition.zeko.actionState)
    (.conflict "STALE_CHECKPOINT" "bridge input does not match finalized gateway state")
  let fencingToken ← nextFencingToken db.writer.fencingToken
  pure { db with writer :=
    { fencingToken := fencingToken,
      holder := some ⟨reservationId, "bridge:" ++ uuidText jobId, none,
        none, some jobId, Or.inl rfl⟩ } }

/-- `attach_job`. -/
def attachJob (db : Database) (now : Timestamp) (jobId reservationId : Uuid) (kind : ProofKind)
    (input : JobInput) : Except GatewayError Database :=
  match kind with
  | .bridge => attachBridge db jobId reservationId input
  | .settlement => attachSettlement db now jobId input.reservation input

/-- The writer row after `lock`: a released holder is cleared. -/
def lapsed (db : Database) (now : Timestamp) : Owner :=
  { db.writer with holder := db.writer.holder.filter fun holder => ¬ Released db.jobs now holder }

variable {db after : Database} {now : Timestamp}

/-- `lock` needs a finished recovery and clears a released holder. -/
theorem lock_eq_ok : lock db now = .ok after ↔
    db.recoveryReady = true ∧ { db with writer := lapsed db now } = after := by
  simp only [lock, bind_eq_ok, require_eq_ok, exists_const, pure_eq_ok, lapsed]

/-- A holder that `lock` leaves is the holder before, and not released. -/
theorem lapsed_holder {holder : Holder} :
    (lapsed db now).holder = some holder ↔
      db.writer.holder = some holder ∧ ¬ Released db.jobs now holder := by
  simp only [lapsed, Option.filter_eq_some_iff, decide_eq_true_eq]

/-- A token that matches the row after `lock` matched it before. -/
theorem matches_of_lapsed {token : ReservationToken} (h : Matches (lapsed db now) token) :
    Matches db.writer token := by
  obtain ⟨hid, hparse⟩ := h
  refine ⟨?_, hparse⟩
  obtain ⟨holder, hholder, hid⟩ := Option.map_eq_some_iff.mp hid
  rw [(lapsed_holder.mp hholder).1, ← hid]
  rfl

/-- `ensure_no_jobs` passes when every other job has a known outcome. -/
theorem ensureNoJobs_eq_ok {except : Option Uuid} {u : Unit} : ensureNoJobs db except = .ok u ↔
    ∀ job ∈ db.jobs, except ≠ some job.id → job.OutcomeKnown := by
  rw [ensureNoJobs, require_eq_ok]

/-- The response of a writer row names its reservation and its token. -/
theorem response_eq_ok {owner : Owner} {result : Reservation} (h : response owner = .ok result) :
    owner.holder.map Holder.reservationId = some result.reservationId ∧
      result.fencingToken = owner.fencingToken := by
  simp only [response, bind_eq_ok, requireSome_eq_ok, pure_eq_ok] at h
  obtain ⟨holder, hholder, -, -, rfl⟩ := h
  exact ⟨by rw [hholder]; rfl, rfl⟩

/-- What a transaction does to the writer row, with the identifiers it generates. -/
inductive WriterChange (db : Database) (generated : List Uuid) : Owner → Prop
  | kept : WriterChange db generated db.writer
  | lapsed (now : Timestamp) : WriterChange db generated (lapsed db now)
  | extended (holder : Holder) (expiry : Timestamp) (hholder : db.writer.holder = some holder)
      (hjob : holder.jobId = none) :
      WriterChange db generated { db.writer with holder := some (Holder.extend holder expiry) }
  | granted (now : Timestamp) (holder : Holder) (hfree : (OuterWriter.lapsed db now).holder = none)
      (hid : holder.reservationId ∈ generated) :
      WriterChange db generated ⟨db.writer.fencingToken + 1, some holder⟩
  | released (holder : Holder) (hholder : db.writer.holder = some holder)
      (hjob : holder.jobId = none) : WriterChange db generated { db.writer with holder := none }
  | attached (holder : Holder) (jobId : Uuid) (hholder : db.writer.holder = some holder)
      (hjob : holder.jobId = none) :
      WriterChange db generated { db.writer with holder := some (Holder.attach holder jobId) }

/-- A successful `acquire` extends the lease of the same owner or grants a reservation under
the next token while no job is open. -/
theorem acquireWithCheckpoint_eq_ok {reservationId : Uuid} {request : AcquireRequest}
    {checkpoint : Checkpoint} {result : Reservation}
    (h : acquireWithCheckpoint db now reservationId request checkpoint = .ok (after, result)) :
    db.recoveryReady = true ∧ ∃ writer, { db with writer := writer } = after ∧
      response writer = .ok result ∧
      ((∃ holder expiry, (lapsed db now).holder = some holder ∧ holder.jobId = none ∧
          holder.ownerId = request.ownerId ∧
          { db.writer with holder := some (Holder.extend holder expiry) } = writer) ∨
        ((lapsed db now).holder = none ∧ (∀ job ∈ db.jobs, job.OutcomeKnown) ∧
          ∃ holder, holder.reservationId = reservationId ∧
            ⟨db.writer.fencingToken + 1, some holder⟩ = writer)) := by
  simp only [acquireWithCheckpoint, bind_eq_ok, require_eq_ok, exists_const, lock_eq_ok] at h
  obtain ⟨seconds, -, -, _, ⟨hready, rfl⟩, h⟩ := h
  refine ⟨hready, ?_⟩
  cases hholder : (lapsed db now).holder with
  | some holder =>
    simp only [hholder, bind_eq_ok, require_eq_ok, exists_const, pure_eq_ok, Prod.mk.injEq] at h
    obtain ⟨⟨hjob, howner⟩, result, hresponse, rfl, rfl⟩ := h
    exact ⟨_, rfl, hresponse, Or.inl ⟨holder, _, rfl, hjob, howner, rfl⟩⟩
  | none =>
    simp only [hholder, bind_eq_ok, require_eq_ok, exists_const, pure_eq_ok, Prod.mk.injEq,
      ensureNoJobs_eq_ok, nextFencingToken] at h
    obtain ⟨hjobs, -, -, -, _, ⟨-, rfl⟩, result, hresponse, rfl, rfl⟩ := h
    refine ⟨_, rfl, hresponse, Or.inr ⟨rfl, ?_, _, rfl, rfl⟩⟩
    intro job hjob
    exact hjobs job hjob (by simp)

/-- A successful `renew_token` presents the current token, and extends an unexpired lease or
leaves the row of a job as it was. -/
theorem renewToken_eq_ok {token : ReservationToken} {seconds : ℕ} {result : Reservation}
    (h : renewToken db now token seconds = .ok (after, result)) :
    Matches db.writer token ∧ ∃ holder, db.writer.holder = some holder ∧
      ((holder.jobId = none ∧ (∃ expiry ∈ holder.expiresAt, now < expiry) ∧
          ∃ expiry, { db with writer := { db.writer with
            holder := some (Holder.extend holder expiry) } } = after) ∨
        (holder.jobId ≠ none ∧ db = after)) := by
  simp only [renewToken, bind_eq_ok, require_eq_ok, exists_const, requireSome_eq_ok] at h
  obtain ⟨hmatches, holder, hholder, h⟩ := h
  refine ⟨hmatches, holder, hholder, ?_⟩
  by_cases hjob : holder.jobId = none
  · rw [if_pos hjob] at h
    simp only [bind_eq_ok, require_eq_ok, exists_const, pure_eq_ok, Prod.mk.injEq] at h
    obtain ⟨hlive, _, -, rfl, -⟩ := h
    exact Or.inl ⟨hjob, hlive, _, rfl⟩
  · rw [if_neg hjob] at h
    simp only [bind_eq_ok, pure_eq_ok, Prod.mk.injEq] at h
    obtain ⟨_, -, rfl, -⟩ := h
    exact Or.inr ⟨hjob, rfl⟩

/-- A successful `release` finds no holder or clears the preparation lease of its token. -/
theorem release_eq_ok {token : ReservationToken} (h : release db now token = .ok after) :
    db.recoveryReady = true ∧
      (((lapsed db now).holder = none ∧ { db with writer := lapsed db now } = after) ∨
        ∃ holder, (lapsed db now).holder = some holder ∧ Matches (lapsed db now) token ∧
          holder.jobId = none ∧ { db with writer := { db.writer with holder := none } } = after) := by
  simp only [release, bind_eq_ok, lock_eq_ok] at h
  obtain ⟨_, ⟨hready, rfl⟩, h⟩ := h
  refine ⟨hready, ?_⟩
  cases hholder : (lapsed db now).holder with
  | none =>
    simp only [hholder, pure_eq_ok] at h
    exact Or.inl ⟨rfl, h⟩
  | some holder =>
    simp only [hholder, bind_eq_ok, require_eq_ok, exists_const, pure_eq_ok] at h
    obtain ⟨hmatches, hjob, rfl⟩ := h
    exact Or.inr ⟨holder, rfl, hmatches, hjob, rfl⟩

/-- A settlement is attached by the current token of an unexpired lease without a job, while
every other job has a known outcome. -/
theorem attachSettlement_eq_ok {jobId : Uuid} {token : Option ReservationToken} {input : JobInput}
    (h : attachSettlement db now jobId token input = .ok after) :
    ∃ presented holder, token = some presented ∧ Matches db.writer presented ∧
      db.writer.holder = some holder ∧ holder.jobId = none ∧
      (∀ job ∈ db.jobs, job.id ≠ jobId → job.OutcomeKnown) ∧
      (∃ expiry ∈ holder.expiresAt, now < expiry) ∧
      { db with writer := { db.writer with holder := some (Holder.attach holder jobId) } } =
        after := by
  cases token with
  | none => simp [attachSettlement] at h
  | some presented =>
    simp only [attachSettlement, bind_eq_ok, require_eq_ok, exists_const, requireSome_eq_ok,
      ensureNoJobs_eq_ok, pure_eq_ok] at h
    obtain ⟨⟨hmatches, hjob⟩, hjobs, holder, hholder, -, -, -, -, -, -, -, -, -, -, hlive, rfl⟩ := h
    rw [Owner.jobId, hholder] at hjob
    refine ⟨presented, holder, rfl, hmatches, hholder, hjob, ?_, hlive, rfl⟩
    intro job hmem hne
    exact hjobs job hmem (fun heq => hne (Option.some.inj heq).symm)

/-- A bridge job takes a free writer row under the next token, while every other job has a
known outcome. -/
theorem attachBridge_eq_ok {jobId reservationId : Uuid} {input : JobInput}
    (h : attachBridge db jobId reservationId input = .ok after) :
    db.writer.holder = none ∧ (∀ job ∈ db.jobs, job.id ≠ jobId → job.OutcomeKnown) ∧
      ∃ holder, holder.reservationId = reservationId ∧ holder.jobId = some jobId ∧
        { db with writer := ⟨db.writer.fencingToken + 1, some holder⟩ } = after := by
  simp only [attachBridge, bind_eq_ok, require_eq_ok, exists_const, requireSome_eq_ok,
    ensureNoJobs_eq_ok, nextFencingToken, pure_eq_ok] at h
  obtain ⟨hfree, hjobs, -, -, -, -, -, _, ⟨-, rfl⟩, rfl⟩ := h
  refine ⟨hfree, ?_, _, rfl, rfl, rfl⟩
  intro job hmem hne
  exact hjobs job hmem (fun heq => hne (Option.some.inj heq).symm)

end EthereumSettlement.OuterWriter
