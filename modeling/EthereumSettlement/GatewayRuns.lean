import EthereumSettlement.GatewayIndexer
import EthereumSettlement.ProofJobs
import EthereumSettlement.ReferenceHashes
import EthereumSettlement.TransitionRuns
import Mathlib.Logic.Function.Basic

/-!
# Runs of the gateway

The gateway is one database with any number of API instances, workers and indexers
around it. An action is one database transaction, one call to the prover network or
one crash, so a run is an arbitrary interleaving of all of them. A failed action
changes nothing. Generated identifiers do not repeat, and clocks are arbitrary.
-/

namespace EthereumSettlement.GatewayRuns

open CheckedCalls KeyedTables TransitionRuns
open GatewayTables OuterWriter ProofJobs GatewayIndexer

/-- The transactions of the API, of the start of an instance and of the start of a worker. -/
inductive Request
  | initializeGatewayConfig (outerPublicKey : Option String) (accounts : List (String × AccountJson))
  | acquire (now : Timestamp) (reservationId : Uuid) (request : AcquireRequest) (block : BlockRef)
      (checkpoint : SettlementState)
  | renew (now : Timestamp) (token : ReservationToken) (ttlSeconds : Option ℕ)
  | release (now : Timestamp) (token : ReservationToken)
  | createSettlement (now : Timestamp) (id : Uuid) (header : Option String)
      (request : SettlementRequest)
  | createBridge (now : Timestamp) (id reservationId : Uuid) (header : Option String)
      (input : BridgeGuest.BridgeTransitionInput)
  | sendZkapp (now : Timestamp) (id : Uuid) (settlement : GatewaySettlement)
  | queueDepositBatch (now : Timestamp) (id reservationId : Uuid) (idempotencyKey : Option String)
      (allowTerminalRetry : Bool) (input : BridgeGuest.BridgeTransitionInput)
  | approveProof (now : Timestamp) (id : Uuid) (request : ApproveProofRequest)
  | cancelProof (now : Timestamp) (id : Uuid)
  | recoverInterrupted

/-- One action of the system. -/
inductive Action
  | serve (request : Request)
  | claim (now : Timestamp) (worker : ℕ) (locked : List Uuid)
  | work (now : Timestamp) (worker : ℕ) (step : WorkerStep)
  | crash (worker : ℕ)
  | tick (now : Timestamp) (indexer : ℕ) (step : IndexerStep)

/-- The identifiers that an action generates. -/
def Action.generated : Action → List Uuid
  | .serve (.acquire _ reservationId _ _ _) => [reservationId]
  | .serve (.createSettlement _ id _ _) => [id]
  | .serve (.createBridge _ id reservationId _ _) => [id, reservationId]
  | .serve (.sendZkapp _ id _) => [id]
  | .serve (.queueDepositBatch _ id reservationId _ _ _) => [id, reservationId]
  | .work _ _ (.beginProofRequest intent) => [intent]
  | .tick _ _ (.insertRecovered id) => [id]
  | _ => []

/-- The state of the system: the database, the workers and indexers that are running, the
identifiers generated so far, and the proof requests that the prover network received, each
with its job and intent. -/
structure GatewayState where
  /-- The database. -/
  db : Database
  /-- Running workers. -/
  workers : ℕ → Option Worker
  /-- Where each indexer stands. -/
  indexers : ℕ → IndexerStage
  /-- Identifiers generated so far. -/
  minted : List Uuid
  /-- Proofs requested so far, by job and intent. -/
  requests : List (Uuid × Uuid)

/-- The empty database of a fresh gateway. -/
def emptyDatabase : Database where
  recoveryReady := false
  outerPublicKey := none
  writer := ⟨0, none⟩
  jobs := []
  pendingCommands := []
  accounts := []
  accountHistory := []
  actions := []
  deposits := []
  innerActionLeaves := []
  blocks := []
  acceptedEvents := []
  lastExplorerBlock := none

/-- A fresh gateway, with nothing running. -/
def start : GatewayState where
  db := emptyDatabase
  workers := fun _ => none
  indexers := fun _ => .idle
  minted := []
  requests := []

/-- `INSERT INTO gateway_accounts … ON CONFLICT (public_key, token_id) DO NOTHING`. -/
def insertAccount (accounts : List Account) (entry : String × AccountJson) : List Account :=
  if ∃ account ∈ accounts, account.publicKey = entry.1 then accounts
  else accounts ++ [⟨entry.1, entry.2, none, none⟩]

/-- `initialize_gateway_config`. -/
def initializeGatewayConfig (db : Database) (outerPublicKey : Option String)
    (accounts : List (String × AccountJson)) : Database :=
  { db with
    outerPublicKey := db.outerPublicKey.or outerPublicKey
    recoveryReady := false
    accounts := accounts.foldl insertAccount db.accounts }

/-- The database after a transaction. -/
def serve (state : AppState) (db : Database) : Request → Except GatewayError Database
  | .initializeGatewayConfig outerPublicKey accounts =>
    pure (initializeGatewayConfig db outerPublicKey accounts)
  | .acquire now reservationId request block checkpoint =>
    Prod.fst <$> acquire state db now reservationId request block checkpoint
  | .renew now token ttlSeconds => Prod.fst <$> renew db now token ttlSeconds
  | .release now token => release db now token
  | .createSettlement now id header request =>
    Prod.fst <$> createSettlement state db now id header request
  | .createBridge now id reservationId header input =>
    Prod.fst <$> createBridge state db now id reservationId header input
  | .sendZkapp now id settlement => Prod.fst <$> sendZkapp state db now id settlement
  | .queueDepositBatch now id reservationId idempotencyKey allowTerminalRetry input =>
    Prod.fst <$> queueCanonicalDepositBatch state db now id reservationId idempotencyKey
      allowTerminalRetry input
  | .approveProof now id request => approveProof state db now id request
  | .cancelProof now id => cancelProof db now id
  | .recoverInterrupted => recoverInterrupted db

/-- The prover request that a step of a worker sends. -/
def sentRequest (worker : Worker) : WorkerStep → List (Uuid × Uuid)
  | .requestProof =>
    match worker.stage with
    | .sealed intent _ _ => [(worker.job.id, intent)]
    | _ => []
  | _ => []

/-- The state after an action, before its generated identifiers are recorded. -/
def perform (state : AppState) (s : GatewayState) : Action → Except GatewayError GatewayState
  | .serve request => do
    let db ← serve state s.db request
    pure { s with db := db }
  | .claim now worker locked => do
    require ((s.workers worker).isNone) (.other "worker is busy")
    let (db, claim) ← claimJob s.db now locked
    pure { s with
      db := db
      workers := Function.update s.workers worker (claim.map fun claim => ⟨claim, .claimed⟩) }
  | .work now worker step => do
    let current ← requireSome (s.workers worker) "worker has no job"
    let (db, next) ← processJob state s.db now current step
    pure { s with
      db := db
      workers := Function.update s.workers worker next
      requests := s.requests ++ sentRequest current step }
  | .crash worker => pure { s with workers := Function.update s.workers worker none }
  | .tick now indexer step => do
    let (db, next) ← tickStep state s.db now (s.indexers indexer) step
    pure { s with db := db, indexers := Function.update s.indexers indexer next }

/-- One action of the system: its generated identifiers are new. -/
def step (state : AppState) (s : GatewayState) (action : Action) :
    Except GatewayError GatewayState := do
  require (action.generated.Nodup ∧ action.generated.all fun id => decide (id ∉ s.minted))
    (.other "generated identifier is in use")
  let next ← perform state s action
  pure { next with minted := action.generated ++ next.minted }

variable {state : AppState} {s next : GatewayState}

/-- A step performs its action with new identifiers. -/
theorem step_eq_ok {action : Action} :
    step state s action = .ok next ↔
      (action.generated.Nodup ∧ ∀ id ∈ action.generated, id ∉ s.minted) ∧
        ∃ performed, perform state s action = .ok performed ∧
          { performed with minted := action.generated ++ performed.minted } = next := by
  simp only [step, bind_eq_ok, require_eq_ok, exists_const, pure_eq_ok, List.all_eq_true,
    decide_eq_true_eq]

/-- A gateway in finalized mode that needs no approval. -/
def replica : AppState where
  hashes := ReferenceHashes.referenceHashes
  ethereumFinalityMode := .finalized
  ethereumConfirmations := 1
  executeOnly := false
  localMockSubmit := false
  requireProofApproval := false
  gasLimit := none
  maxPricePerPgu := none
  feePayerPublicKey := some "B62payer"
  bridgeAddress := 0xb1
  proofInputDigest := fun input => ReferenceHashes.referenceHashes.keccak256 input.remainder

/-- The outer account of the reference gateway: its state and one action state. -/
def outerAccount : AccountJson := ⟨some [1, 2, 3], some [7, 0, 0, 0, 0], some 0, some true⟩

/-- The first block that the reference gateway indexes. -/
def firstBlock : BlockRef := ⟨100, 0xb100, 0xb099⟩

/-- The receipt of a settlement that moves the outer action state. -/
def settledReceipt (before after : PastaPoseidon.Bytes32) : ByteWords.Bytes :=
  (SettlementCodec.SettlementPublicValues.v1 { SettlementDecoder.zeroReceipt with
    outerActionStateBefore := before
    outerActionStateAfter := after }).encode

/-- The receipt of a bridge transition that bridges the deposit after a nonce. -/
def bridgedReceipt (nonce : BitVec 64) (before after : PastaPoseidon.Bytes32) : ByteWords.Bytes :=
  (BridgeCodec.BridgeTransitionPublicValuesV2.encode
    ⟨0, 1, nonce, nonce + 1, before, after, 0, 1, [⟨fun _ => 0, after⟩]⟩).toOption.getD []

/-- The calls of a tick from its finality check to its job query, with no events to replay. -/
def quietCalls (indexer : ℕ) (headHash : PastaPoseidon.Bytes32) : List Action :=
  [.tick 0 indexer (.checkFinality headHash), .tick 0 indexer .storeFinality,
    .tick 0 indexer .readEvents, .tick 0 indexer .readJobs]

/-- The start of a gateway up to its first report that recovery is ready, over one finalized block. -/
def startup : List Action :=
  [.serve (.initializeGatewayConfig (some "B62outer")
      [("B62outer", outerAccount), ("B62payer", ⟨none, none, some 0, none⟩)]),
    .tick 0 0 (.begin firstBlock.number (some firstBlock)),
    .tick 0 0 (.indexBlock firstBlock [])] ++ quietCalls 0 firstBlock.hash ++
    [.tick 0 0 .reportReady]

/-- The finalized settlement state that matches the outer account. -/
def settlementState : SettlementState := ⟨[1, 2, 3], 3, 7, 0⟩

/-- An owner asks for a reservation of half a minute. -/
def acquireAt (now : Timestamp) (id : Uuid) (owner : String) : Action :=
  .serve (.acquire now id ⟨owner, some 30⟩ firstBlock settlementState)

/-- A settlement of the outer account under a reservation. -/
def settlementUnder (token : ReservationToken) : SettlementRequest where
  schemaVersion := 1
  minaTransactionHash := "0x" ++ String.ofList (List.replicate 64 '0')
  proof := ⟨some ⟨some [1, 2, 3], some (List.replicate 36 0 ++ [7]), [[0, 4]]⟩, none, none⟩
  reservation := some token
  remainder := []

/-- A worker takes a queued settlement to its proof request. -/
def requestProof (worker : ℕ) (intent : Uuid) : List Action :=
  [.claim second worker [], .work second worker (.hydrate ⟨1, 0xe7, 1, 0, 0⟩),
    .work second worker .storePreflightDigest,
    .work second worker (.storePreflight
      (SettlementCodec.SettlementPublicValues.v1 SettlementDecoder.zeroReceipt).encode none),
    .work second worker .setProving, .work second worker (.beginProofRequest intent),
    .work second worker .requestProof]

/-- A worker takes a requested proof to its submission. -/
def submitProof (worker : ℕ) (transactionHash : PastaPoseidon.Bytes32) : List Action :=
  [.work second worker (.finishProofRequest "request"), .work second worker (.storeProof [1]),
    .work second worker (.storeMetrics none), .work second worker .send,
    .work second worker (.storePrepared ⟨transactionHash, [2], 0xfee, 0⟩),
    .work second worker .storeSubmitted]

/-- The reference gateway with one confirmation for finality. -/
def confirming : AppState := { replica with ethereumFinalityMode := .confirmations }

/-- The two blocks of one height that the gateway sees. -/
def secondBlock (hash : PastaPoseidon.Bytes32) : BlockRef := ⟨101, hash, firstBlock.hash⟩

/-- A settlement is submitted and confirmed in the second block. -/
def confirmedSettlement : List Action :=
  [.serve (.initializeGatewayConfig (some "B62outer")
      [("B62outer", outerAccount), ("B62payer", ⟨none, none, some 0, none⟩)]),
    .tick 0 0 (.begin 100 none), .tick 0 0 (.indexBlock firstBlock [])] ++
    quietCalls 0 firstBlock.hash ++ [.tick 0 0 .reportReady, acquireAt 0 1 "first",
      .serve (.createSettlement second 3 none (settlementUnder ⟨1, "1"⟩))] ++
    requestProof 0 5 ++ submitProof 0 0xabc ++
    [.tick second 0 (.begin 101 none), .tick second 0 (.indexBlock (secondBlock 0xb101) [])] ++
    quietCalls 0 0xb101 ++ [.tick second 0 (.readReceipt (some ⟨101, 0xb101, true, 0⟩)),
      .tick second 0 .applyReceipt, .tick second 0 .storeSettled, .tick second 0 .reportReady]

end EthereumSettlement.GatewayRuns
