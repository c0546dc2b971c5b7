import EthereumSettlement.ChainRecords

/-!
# How a tick indexes the chain

A tick follows one view of Ethereum: a chain of blocks linked by their hashes up to a
head. It compares its newest block with the view, walks down to a common ancestor
where they differ, rolls back to it, and stores one block after the other with the
deposit logs of that block. Each of its calls is one read or one transaction, any of
them may fail and end the tick, and the other parties of the gateway act in between.
-/

namespace EthereumSettlement.ChainIndexing

open CheckedCalls KeyedTables PastaPoseidon
open GatewayTables OuterWriter GatewayIndexer GatewayRuns ChainRecords

/-- Ethereum as the indexer reads it: a hash names one block and the deposit logs in it. -/
structure Ethereum where
  /-- The block that a hash names. -/
  header : Bytes32 → BlockRef
  /-- The deposit logs of the block that a hash names. -/
  logs : Bytes32 → List BridgeDepositLog
  /-- A block is found under its own hash. -/
  hash_header : ∀ hash, (header hash).hash = hash

/-- One view of the chain: the blocks of all heights up to the head, each linked to the block
below it. The bridge numbers its deposits, so no two logs of one chain share a nonce. -/
structure View (ethereum : Ethereum) where
  /-- Height of the head. -/
  head : ℕ
  /-- Hash of the block at each height. -/
  hashes : ℕ → Bytes32
  /-- The block that the remote calls finalized. -/
  finalized : BlockRef
  /-- Every block has the height that it stands at. -/
  numbered : ∀ number ≤ head, (ethereum.header (hashes number)).number = number
  /-- Every block names the one below it. -/
  linked : ∀ number < head, (ethereum.header (hashes (number + 1))).parentHash = hashes number
  /-- No two logs have one nonce. -/
  nonces : ((List.range (head + 1)).flatMap fun number =>
    (ethereum.logs (hashes number)).map BridgeDepositLog.nonce).Nodup

namespace View

variable {ethereum : Ethereum}

/-- The block of a height. -/
def block (view : View ethereum) (number : ℕ) : BlockRef := ethereum.header (view.hashes number)

/-- `Ethereum::block`. -/
def fetch (view : View ethereum) (number : ℕ) : Except GatewayError BlockRef := do
  require (number ≤ view.head) (.other "Ethereum block is unavailable")
  pure (view.block number)

end View

/-- What a tick follows: its view and the configured start height. -/
structure IndexTick (ethereum : Ethereum) where
  /-- The chain that the remote shows. -/
  view : View ethereum
  /-- Height to start from, where one is configured. -/
  startBlock : Option ℕ

/-- `ORDER BY block_number DESC LIMIT 1` over the canonical blocks. -/
def latestBlock (db : Database) : Option BlockRow :=
  let canonical := db.blocks.filter fun row => row.canonical
  canonical.find? fun row => ∀ other ∈ canonical, other.block.number ≤ row.block.number

/-- The next height that `index_blocks` fetches. -/
def nextBlock {ethereum : Ethereum} (tick : IndexTick ethereum) (db : Database) : ℕ :=
  match latestBlock db with
  | some row => row.block.number + 1
  | none => min (tick.startBlock.getD tick.view.head) tick.view.head

/-- How far `index_blocks` has run. A search for the common ancestor keeps the block whose parent
did not match, if there is one. -/
inductive IndexPhase (ethereum : Ethereum)
  | idle
  | readingTip (tick : IndexTick ethereum)
  | searching (tick : IndexTick ethereum) (remote : BlockRef) (child : Option BlockRef)
  | guarding (tick : IndexTick ethereum) (ancestor : ℕ) (child : Option BlockRef)
  | rollingBack (tick : IndexTick ethereum) (ancestor : ℕ) (child : Option BlockRef)
  | resuming (tick : IndexTick ethereum)
  | fetching (tick : IndexTick ethereum) (next : ℕ)
  | storing (tick : IndexTick ethereum) (block : BlockRef)
  | finishing (tick : IndexTick ethereum)
  | finalizing (tick : IndexTick ethereum) (through : Option ℕ)

/-- Where a rollback leads: back to the tip, or on to the block whose parent did not match. -/
def afterRollback {ethereum : Ethereum} (tick : IndexTick ethereum) (ancestor : ℕ) :
    Option BlockRef → IndexPhase ethereum
  | none => .resuming tick
  | some block => if ancestor + 1 = block.number then .storing tick block else .idle

/-- The next call of `index_blocks`, with `ensure_parent`, `common_ancestor` and
`rollback_canonical_chain`. -/
def indexStep (state : AppState) {ethereum : Ethereum} (db : Database) (now : Timestamp) :
    IndexPhase ethereum → Except GatewayError (Database × IndexPhase ethereum)
  | .idle => throw (.other "no tick is running")
  | .readingTip tick =>
    match latestBlock db with
    | some row =>
      if tick.view.head ≤ row.block.number then do
        let remote ← tick.view.fetch tick.view.head
        if tick.view.head < row.block.number ∨ row.block.hash ≠ remote.hash then
          pure (db, .searching tick remote none)
        else pure (db, .fetching tick (row.block.number + 1))
      else pure (db, .fetching tick (row.block.number + 1))
    | none => pure (db, .fetching tick (nextBlock tick db))
  | .searching tick remote child =>
    match db.canonicalBlock? remote.number with
    | some row =>
      if row.block.hash = remote.hash then pure (db, .guarding tick remote.number child)
      else do
        require (0 < remote.number) (.other "Ethereum genesis hash changed")
        let parent ← tick.view.fetch (remote.number - 1)
        pure (db, .searching tick parent child)
    | none => pure (db, .guarding tick remote.number child)
  | .guarding tick ancestor child => do
    require (rollbackAllowed state db ancestor)
      (.other "Ethereum canonical chain conflicts with a consensus-finalized checkpoint")
    pure (db, .rollingBack tick ancestor child)
  | .rollingBack tick ancestor child => do
    let db ← rollbackAfter db now ancestor
    pure (db, afterRollback tick ancestor child)
  | .resuming tick => pure (db, .fetching tick (nextBlock tick db))
  | .fetching tick next =>
    if next ≤ tick.view.head then do
      let block ← tick.view.fetch next
      if block.number = 0 then pure (db, .storing tick block)
      else match db.canonicalBlock? (block.number - 1) with
        | none => pure (db, .storing tick block)
        | some row =>
          if row.block.hash = block.parentHash then pure (db, .storing tick block)
          else do
            let parent ← tick.view.fetch (block.number - 1)
            require (parent.hash = block.parentHash)
              (.other "Ethereum parent changed while indexing; refetch the child block")
            pure (db, .searching tick parent (some block))
    else pure (db, .finishing tick)
  | .storing tick block => do
    let db ← indexBridgeDeposits db block (ethereum.logs block.hash)
    pure (db, .fetching tick (block.number + 1))
  | .finishing tick => do
    let head ← tick.view.fetch tick.view.head
    let finalized := if state.ethereumFinalityMode = .finalized then some tick.view.finalized else none
    let through ← finalizedThrough state db tick.view.head head.hash finalized
    pure (db, .finalizing tick through)
  | .finalizing _ through => pure (storeFinality db through, .idle)

/-- The gateway with its one chain indexer. -/
structure IndexedGateway (ethereum : Ethereum) where
  /-- The gateway. -/
  gateway : GatewayState
  /-- Where the chain indexer stands. -/
  phase : IndexPhase ethereum

/-- A call of the indexer, or any other action of the gateway. -/
inductive IndexedAction (ethereum : Ethereum)
  | begin (tick : IndexTick ethereum)
  | proceed (now : Timestamp)
  | fail
  | other (action : Action)

/-- A fresh gateway. -/
def freshGateway (ethereum : Ethereum) : IndexedGateway ethereum := ⟨start, .idle⟩

/-- The phase is between two ticks. -/
def IndexPhase.isIdle {ethereum : Ethereum} : IndexPhase ethereum → Bool
  | .idle => true
  | _ => false

/-- One action. A failed call ends its tick; the indexer alone writes blocks and deposit logs. -/
def indexedStep (state : AppState) {ethereum : Ethereum} (s : IndexedGateway ethereum) :
    IndexedAction ethereum → Except GatewayError (IndexedGateway ethereum)
  | .begin tick => do
    require s.phase.isIdle (.other "a tick is running")
    pure { s with phase := .readingTip tick }
  | .proceed now => do
    let (db, phase) ← indexStep state s.gateway.db now s.phase
    pure ⟨{ s.gateway with db := db }, phase⟩
  | .fail => pure { s with phase := .idle }
  | .other action => do
    require (¬ WritesChain action) (.other "another indexer writes the chain")
    let gateway ← step state s.gateway action
    pure { s with gateway := gateway }

end EthereumSettlement.ChainIndexing
