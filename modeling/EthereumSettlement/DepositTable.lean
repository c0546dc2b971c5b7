import EthereumSettlement.ChainRecords
import EthereumSettlement.DepositLogJoin
import EthereumSettlement.DepositChain
import EthereumSettlement.GatewayTables
import EthereumSettlement.ServedClaims
import EthereumSettlement.UpsertedTables

/-!
# The table of indexed deposits

The indexer follows a chain of blocks. It joins the deposit logs of every block, upserts
the deposits under their nonces, and marks the deposits of the blocks that a
reorganisation takes away. After any run of the indexer the rows that are not marked are
the deposits of the blocks it follows. When these blocks hold a run of the contracts, the
join never fails, and the rows are the deposits of that run, each with the states of
the accumulator around it.
-/

namespace EthereumSettlement.DepositLogJoin.ERC20DepositIdentity

open InnerActionCommitment PastaPoseidon

/-- `ERC20DepositIdentity::asset_id`. -/
def assetId : ERC20DepositIdentity → Bytes32
  | .historicalV1 assetId => assetId
  | .registryV2 assetId _ _ => assetId

/-- `ERC20DepositIdentity::action_encoding_version`. -/
def actionEncodingVersion : ERC20DepositIdentity → BitVec 32
  | .historicalV1 _ => ServedClaims.historicalErc20ActionEncodingV1
  | .registryV2 .. => erc20ActionEncodingV2

/-- `ERC20DepositIdentity::registry_index`. -/
def registryIndex : ERC20DepositIdentity → Option (BitVec 32)
  | .historicalV1 _ => none
  | .registryV2 _ registryIndex _ => some registryIndex

/-- `ERC20DepositIdentity::record_commitment`. -/
def recordCommitment : ERC20DepositIdentity → Option Bytes32
  | .historicalV1 _ => none
  | .registryV2 _ _ recordCommitment => some recordCommitment

end EthereumSettlement.DepositLogJoin.ERC20DepositIdentity

namespace EthereumSettlement.DepositTable

open ByteWords CheckedCalls HashCommitments TransitionRuns KeyedTables UpsertedTables
open PastaPoseidon InnerActionCommitment ZekoSettlement EthereumZekoBridge ZekoAssetRegistry
open BridgeSystem StepEffects RunInvariants DepositChain DepositLogJoin ReferenceDeployment
open OpenZeppelin
open BridgeGuest (DepositRecord depositChainStep)
open GatewayTables (FinalityMode)

/-- The data of a chain event that the deposit filter selects. -/
def depositData : ChainEvent → Option EventData
  | .bridge (.bridgeDeposit nonce depositLeaf newDepositState oldDepositState token sender
      zekoRecipient amount zekoAmount timeout) =>
    some (.bridgeDeposit ⟨nonce, depositLeaf, newDepositState, oldDepositState, token, sender,
      zekoRecipient, amount, zekoAmount, timeout⟩)
  | .bridge (.erc20DepositSubmitted nonce assetId depositLeaf newDepositState token sender
      zekoRecipient amount timeout) =>
    some (.erc20DepositSubmitted ⟨nonce, assetId, depositLeaf, newDepositState, token, sender,
      zekoRecipient, amount, timeout⟩)
  | .bridge (.erc20DepositSubmittedV2 nonce assetId depositLeaf newDepositState token sender
      zekoRecipient amount timeout encodingVersion registryIndex recordCommitment) =>
    some (.erc20DepositSubmittedV2 ⟨⟨nonce, assetId, depositLeaf, newDepositState, token, sender,
      zekoRecipient, amount, timeout⟩, encodingVersion, registryIndex, recordCommitment⟩)
  | _ => none

/-- A transaction of a block: its calls to the contracts, each with the logs that it left
and their indexes in the block. -/
structure Receipt where
  /-- Hash of the transaction. -/
  transactionHash : Bytes32
  /-- The logs of each call with their indexes. -/
  calls : List (List (BitVec 64 × ChainEvent))

/-- A block. -/
structure Block where
  /-- Height of the block. -/
  number : BitVec 64
  /-- Its hash. -/
  hash : Bytes32
  /-- Hash of the block below. -/
  parentHash : Bytes32
  /-- The transactions, in order. -/
  receipts : List Receipt

/-- The hash of a transaction and the logs of one of its calls. -/
abbrev CallLogs := Bytes32 × List (BitVec 64 × ChainEvent)

namespace Block

variable (block : Block)

/-- The calls of a block, in order. -/
def calls : List CallLogs :=
  block.receipts.flatMap fun receipt =>
    receipt.calls.map fun logs => (receipt.transactionHash, logs)

/-- The deposit events of a call in the block. -/
def callEvents (call : CallLogs) : List Event :=
  call.2.filterMap fun log => (depositData log.2).map fun data =>
    ⟨⟨block.number, block.hash, call.1, log.1⟩, data⟩

/-- The logs that the deposit filter selects in the block. -/
def logs : List Log := (block.calls.flatMap block.callEvents).map Event.log

/-- The joined deposits of the block. -/
def entries : List BridgeDepositLog := (bridgeDepositLogs block.logs).toOption.getD []

end Block

/-- The columns of `gateway_bridge_deposits` that describe the deposit. -/
structure DepositColumns where
  /-- Number of the deposit. -/
  nonce : BitVec 64
  /-- Leaf of the deposit in its accumulator. -/
  depositLeaf : Bytes32
  /-- Accumulator before the deposit. -/
  oldDepositState : Bytes32
  /-- Accumulator after the deposit. -/
  newDepositState : Bytes32
  /-- Address of the token, zero for ether. -/
  token : Address
  /-- The asset, for a token deposit. -/
  assetId : Option Bytes32
  /-- Version of the encoding, one for ether. -/
  actionEncodingVersion : BitVec 32
  /-- Registry index, for a token deposit. -/
  registryIndex : Option (BitVec 32)
  /-- Record commitment, for a token deposit. -/
  recordCommitment : Option Bytes32
  /-- Account that sends the transaction. -/
  sender : Address
  /-- Mina key that receives the deposit, as the contract packs it. -/
  zekoRecipient : Bytes32
  /-- Amount on Ethereum. -/
  ethereumAmount : Bytes32
  /-- Amount on Zeko. -/
  zekoAmount : Bytes32
  /-- Timeout slot on Zeko. -/
  timeout : BitVec 64
  deriving DecidableEq

/-- A row of `gateway_bridge_deposits`. -/
structure DepositRow where
  /-- What describes the deposit. -/
  columns : DepositColumns
  /-- Where its log is. -/
  position : Position
  /-- Set by a rollback past the block of the row. -/
  removed : Bool
  deriving DecidableEq

/-- A row of `gateway_blocks`. -/
structure BlockRow where
  /-- Height of the block. -/
  number : BitVec 64
  /-- Its hash. -/
  hash : Bytes32
  /-- Hash of the block below. -/
  parentHash : Bytes32
  /-- Cleared by a rollback past the block. -/
  canonical : Bool
  /-- Set once Ethereum has finalized the block. -/
  finalized : Bool
  deriving DecidableEq

/-- The tables of deposits and blocks. -/
structure Tables where
  /-- Rows of deposits. -/
  deposits : List DepositRow
  /-- Rows of blocks. -/
  blocks : List BlockRow
  deriving DecidableEq

/-- The columns of a joined deposit. -/
def columnsOf (entry : BridgeDepositLog) : DepositColumns where
  nonce := entry.nonce
  depositLeaf := entry.depositLeaf
  oldDepositState := entry.oldDepositState
  newDepositState := entry.newDepositState
  token := entry.token
  assetId := entry.erc20Identity.map ERC20DepositIdentity.assetId
  actionEncodingVersion := entry.erc20Identity.elim 0 ERC20DepositIdentity.actionEncodingVersion
  registryIndex := entry.erc20Identity.bind ERC20DepositIdentity.registryIndex
  recordCommitment := entry.erc20Identity.bind ERC20DepositIdentity.recordCommitment
  sender := entry.sender
  zekoRecipient := entry.zekoRecipient
  ethereumAmount := entry.amount
  zekoAmount := entry.zekoAmount
  timeout := entry.timeout

/-- The row of a joined deposit. -/
def rowOf (entry : BridgeDepositLog) : DepositRow where
  columns := columnsOf entry
  position := ⟨entry.blockNumber, entry.blockHash, entry.transactionHash, entry.logIndex⟩
  removed := false

/-- The nonce of a row. -/
def DepositRow.nonce (row : DepositRow) : ℕ := row.columns.nonce.toNat

/-- The integers of a deposit fit their columns. -/
def InRange (entry : BridgeDepositLog) : Prop :=
  entry.nonce.toNat < 2 ^ 63 ∧ entry.timeout.toNat < 2 ^ 63 ∧ entry.blockNumber.toNat < 2 ^ 63 ∧
    entry.logIndex.toNat < 2 ^ 63

instance (entry : BridgeDepositLog) : Decidable (InRange entry) := by
  unfold InRange
  infer_instance

/-- The checks of the table on a row. -/
def Checked (columns : DepositColumns) : Prop :=
  columns.nonce ≠ 0 ∧ columns.ethereumAmount ≠ 0 ∧ columns.zekoAmount ≠ 0 ∧
    (columns.actionEncodingVersion = 0 ∨ columns.actionEncodingVersion = 1 ∨
      columns.actionEncodingVersion = 2) ∧
    ((columns.actionEncodingVersion = 2 ∧ columns.registryIndex ≠ none ∧
        columns.recordCommitment ≠ none) ∨
      (columns.actionEncodingVersion ≠ 2 ∧ columns.registryIndex = none ∧
        columns.recordCommitment = none))

instance (columns : DepositColumns) : Decidable (Checked columns) := by
  unfold Checked
  infer_instance

/-- The loop of `index_bridge_deposits`. -/
def insertDeposit (block : Block) (deposits : List DepositRow) (entry : BridgeDepositLog) :
    Except String (List DepositRow) := do
  require (entry.blockNumber = block.number ∧ entry.blockHash = block.hash)
    "bridge deposit RPC returned logs outside the requested block"
  require (InRange entry) "out of range integral type conversion attempted"
  require (Checked (columnsOf entry)) "new row violates check constraint"
  require (∀ row ∈ deposits, row.columns.nonce ≠ entry.nonce →
      (row.position.transactionHash, row.position.logIndex) ≠
        (entry.transactionHash, entry.logIndex))
    "duplicate key value violates unique constraint"
  pure (upsert DepositRow.nonce deposits (rowOf entry))

/-- `insert_block`. -/
def insertBlock (blocks : List BlockRow) (block : Block) : Except String (List BlockRow) := do
  require (block.number.toNat < 2 ^ 63) "out of range integral type conversion attempted"
  require (∀ row ∈ blocks, row.number ≠ block.number → row.hash ≠ block.hash)
    "duplicate key value violates unique constraint"
  pure (upsert BlockRow.number blocks ⟨block.number, block.hash, block.parentHash, true, false⟩)

/-- `index_bridge_deposits`. -/
def indexBridgeDeposits (t : Tables) (block : Block) : Except String Tables := do
  let entries ← bridgeDepositLogs block.logs
  let deposits ← entries.foldlM (insertDeposit block) t.deposits
  let blocks ← insertBlock t.blocks block
  pure ⟨deposits, blocks⟩

/-- `rollback_canonical_chain` on both tables. -/
def rollbackCanonicalChain (mode : FinalityMode) (t : Tables) (ancestor : BitVec 64) :
    Except String Tables := do
  require (mode = .finalized → ∀ row ∈ t.blocks, row.canonical = true → row.finalized = true →
      row.number ≤ ancestor)
    "Ethereum canonical chain conflicts with a consensus-finalized checkpoint"
  pure ⟨updateWhere (fun row => row.removed = false ∧ ancestor < row.position.blockNumber)
      (fun row => { row with removed := true }) t.deposits,
    updateWhere (fun row => row.canonical = true ∧ ancestor < row.number)
      (fun row => { row with canonical := false, finalized := false }) t.blocks⟩

/-- The finality update of `index_blocks`. -/
def advanceFinality (t : Tables) (finalizedThrough : Option (BitVec 64)) : Tables :=
  { t with blocks := t.blocks.map fun row =>
      { row with finalized := row.canonical && finalizedThrough.any (row.number ≤ ·) } }

/-- A transaction of the indexer. -/
inductive IndexStep
  | store (block : Block)
  | rollback (ancestor : BitVec 64)
  | finalize (finalizedThrough : Option (BitVec 64))

/-- The tables, and the blocks that the indexer follows. -/
structure Indexer where
  /-- The stored tables. -/
  tables : Tables
  /-- Blocks indexed and not rolled back. -/
  chain : List Block

/-- The blocks that the indexer follows after a step. -/
def follow (chain : List Block) : IndexStep → List Block
  | .store block => chain ++ [block]
  | .rollback ancestor => chain.filter fun block => decide (block.number ≤ ancestor)
  | .finalize _ => chain

/-- The tables after a step. -/
def indexTables (mode : FinalityMode) (t : Tables) : IndexStep → Except String Tables
  | .store block => indexBridgeDeposits t block
  | .rollback ancestor => rollbackCanonicalChain mode t ancestor
  | .finalize finalizedThrough => pure (advanceFinality t finalizedThrough)

/-- A step of the indexer. -/
def indexStep (mode : FinalityMode) (s : Indexer) (step : IndexStep) : Except String Indexer := do
  let tables ← indexTables mode s.tables step
  pure ⟨tables, follow s.chain step⟩

/-- The indexer after some steps from empty tables. -/
def indexed (mode : FinalityMode) (steps : List IndexStep) : Indexer :=
  run (indexStep mode) ⟨⟨[], []⟩, []⟩ steps

/-- Blocks with different numbers and joined deposits with different nonces. -/
structure Distinct (chain : List Block) : Prop where
  /-- No two blocks have one height. -/
  numbers : (chain.map Block.number).Nodup
  /-- No two deposits have one nonce. -/
  nonces : ((chain.flatMap Block.entries).map fun entry => entry.nonce.toNat).Nodup

/-- The tables hold the blocks and the joined deposits of a chain. -/
structure Holds (t : Tables) (chain : List Block) : Prop where
  /-- No two rows have one nonce. -/
  nonces : (t.deposits.map DepositRow.nonce).Nodup
  /-- No two rows of blocks have one height. -/
  numbers : (t.blocks.map BlockRow.number).Nodup
  /-- Joined deposits are of their block. -/
  placed : ∀ block ∈ chain, ∀ entry ∈ block.entries,
    entry.blockNumber = block.number ∧ entry.blockHash = block.hash
  /-- The rows that are not removed are those of the chain. -/
  deposits : ∀ row, (row ∈ t.deposits ∧ row.removed = false) ↔
    ∃ block ∈ chain, ∃ entry ∈ block.entries, row = rowOf entry
  /-- Every canonical row is a block of the chain. -/
  blocks : ∀ row, row ∈ t.blocks → row.canonical = true →
    ∃ block ∈ chain, row.number = block.number ∧ row.hash = block.hash
  /-- Every block of the chain has its canonical row. -/
  stored : ∀ block ∈ chain, ∃ row ∈ t.blocks, row.canonical = true ∧
    row.number = block.number ∧ row.hash = block.hash

/-- The loop over joined deposits places them in the block and upserts their rows. -/
theorem foldlM_insertDeposit {block : Block} {entries : List BridgeDepositLog}
    {deposits after : List DepositRow}
    (h : entries.foldlM (insertDeposit block) deposits = .ok after) :
    after = (entries.map rowOf).foldl (upsert DepositRow.nonce) deposits ∧
      ∀ entry ∈ entries, entry.blockNumber = block.number ∧ entry.blockHash = block.hash := by
  induction entries generalizing deposits with
  | nil =>
    rw [List.foldlM_nil, pure_eq_ok] at h
    exact ⟨h.symm, fun entry hentry => absurd hentry List.not_mem_nil⟩
  | cons entry entries ih =>
    rw [List.foldlM_cons, bind_eq_ok] at h
    obtain ⟨middle, hinsert, hrest⟩ := h
    simp only [insertDeposit, require_bind_eq_ok, pure_eq_ok] at hinsert
    obtain ⟨hplaced, -, -, -, hmiddle⟩ := hinsert
    obtain ⟨hafter, hothers⟩ := ih hrest
    constructor
    · rw [List.map_cons, List.foldl_cons, hmiddle]
      exact hafter
    · intro other hother
      rcases List.mem_cons.mp hother with hsame | htail
      · rw [hsame]
        exact hplaced
      · exact hothers other htail

/-- What storing a block does to the tables. -/
theorem indexBridgeDeposits_eq_ok {t after : Tables} {block : Block}
    (h : indexBridgeDeposits t block = .ok after) :
    after.deposits = (block.entries.map rowOf).foldl (upsert DepositRow.nonce) t.deposits ∧
      after.blocks = upsert BlockRow.number t.blocks
        ⟨block.number, block.hash, block.parentHash, true, false⟩ ∧
      ∀ entry ∈ block.entries, entry.blockNumber = block.number ∧ entry.blockHash = block.hash := by
  simp only [indexBridgeDeposits, insertBlock, bind_eq_ok, require_eq_ok, exists_const,
    pure_eq_ok] at h
  obtain ⟨entries, hentries, deposits, hdeposits, blocks, ⟨-, -, hblocks⟩, hafter⟩ := h
  have hown : block.entries = entries := by
    rw [Block.entries, hentries]
    rfl
  obtain ⟨hrows, hplaced⟩ := foldlM_insertDeposit hdeposits
  rw [hown, ← hafter]
  exact ⟨hrows, hblocks.symm, hplaced⟩

/-- Empty tables hold the empty chain. -/
theorem holds_nil : Holds ⟨[], []⟩ [] where
  nonces := List.nodup_nil
  numbers := List.nodup_nil
  placed := fun _ hblock => absurd hblock List.not_mem_nil
  deposits := fun row => by simp
  blocks := fun _ hrow => absurd hrow List.not_mem_nil
  stored := fun _ hblock => absurd hblock List.not_mem_nil

/-- The rows of a further block have different nonces, and no live row has one of them. -/
theorem Holds.apart {t : Tables} {chain : List Block} {block : Block} (h : Holds t chain)
    (hdistinct : Distinct (chain ++ [block])) :
    ((block.entries.map rowOf).map DepositRow.nonce).Nodup ∧
      ∀ old ∈ t.deposits, old.removed = false →
        old.nonce ∉ (block.entries.map rowOf).map DepositRow.nonce := by
  have hnonces := hdistinct.nonces
  rw [List.flatMap_append, List.map_append, List.nodup_append] at hnonces
  obtain ⟨-, hown, hapart⟩ := hnonces
  rw [List.flatMap_singleton] at hown hapart
  constructor
  · rw [List.map_map]
    exact hown
  · intro old hold hkept hin
    obtain ⟨earlier, hearlier, entry, hentry, hrow⟩ := (h.deposits old).mp ⟨hold, hkept⟩
    obtain ⟨fresh, hfresh, hsame⟩ := List.mem_map.mp hin
    obtain ⟨other, hother, hrowOf⟩ := List.mem_map.mp hfresh
    have hnonce : entry.nonce.toNat = other.nonce.toNat := by
      rw [← hrowOf, hrow] at hsame
      exact hsame.symm
    exact hapart _ (List.mem_map_of_mem (List.mem_flatMap.mpr ⟨earlier, hearlier, hentry⟩)) _
      (List.mem_map_of_mem hother) hnonce

/-- Storing a block extends the chain that the tables hold. -/
theorem Holds.store {t after : Tables} {chain : List Block} {block : Block} (h : Holds t chain)
    (hdistinct : Distinct (chain ++ [block])) (hstore : indexBridgeDeposits t block = .ok after) :
    Holds after (chain ++ [block]) := by
  obtain ⟨hdeposits, hblocks, hplaced⟩ := indexBridgeDeposits_eq_ok hstore
  obtain ⟨hkeys, hothers⟩ := h.apart hdistinct
  have hbatch : ∀ fresh ∈ block.entries.map rowOf, fresh.removed = false := by
    intro fresh hfresh
    obtain ⟨entry, -, hentry⟩ := List.mem_map.mp hfresh
    rw [← hentry]
    rfl
  have hlive : ∀ row, (row ∈ (block.entries.map rowOf).foldl (upsert DepositRow.nonce) t.deposits ∧
      row.removed = false) ↔
      row ∈ block.entries.map rowOf ∨ (row ∈ t.deposits ∧ row.removed = false) :=
    fun row => live_upserts hkeys hbatch hothers
  have hnumbers := hdistinct.numbers
  rw [List.map_append, List.nodup_append] at hnumbers
  have hfresh : ∀ earlier ∈ chain, earlier.number ≠ block.number := fun earlier hearlier =>
    hnumbers.2.2 _ (List.mem_map_of_mem hearlier) _ (List.mem_singleton.mpr rfl)
  constructor
  · rw [hdeposits]
    exact nodup_upserts h.nonces _
  · rw [hblocks]
    exact nodup_upsert h.numbers _
  · intro other hother
    rcases List.mem_append.mp hother with hearlier | hlast
    · exact h.placed other hearlier
    · rw [List.mem_singleton.mp hlast]
      exact hplaced
  · intro row
    rw [hdeposits, hlive row, h.deposits row, List.mem_map]
    constructor
    · intro hrow
      rcases hrow with ⟨entry, hentry, hsame⟩ | ⟨earlier, hearlier, hentry⟩
      · exact ⟨block, List.mem_append_right _ (List.mem_singleton.mpr rfl), entry, hentry,
          hsame.symm⟩
      · exact ⟨earlier, List.mem_append_left _ hearlier, hentry⟩
    · intro hrow
      obtain ⟨other, hother, entry, hentry, hsame⟩ := hrow
      rcases List.mem_append.mp hother with hearlier | hlast
      · exact Or.inr ⟨other, hearlier, entry, hentry, hsame⟩
      · rw [List.mem_singleton.mp hlast] at hentry
        exact Or.inl ⟨entry, hentry, hsame.symm⟩
  · intro row hrow hcanonical
    rw [hblocks, mem_upsert] at hrow
    rcases hrow with hown | hkept
    · rw [hown]
      exact ⟨block, List.mem_append_right _ (List.mem_singleton.mpr rfl), rfl, rfl⟩
    · obtain ⟨earlier, hearlier, hsame⟩ := h.blocks row hkept.1 hcanonical
      exact ⟨earlier, List.mem_append_left _ hearlier, hsame⟩
  · intro other hother
    rw [hblocks]
    rcases List.mem_append.mp hother with hearlier | hlast
    · obtain ⟨row, hrow, hcanonical, hnumber, hhash⟩ := h.stored other hearlier
      refine ⟨row, mem_upsert.mpr (Or.inr ⟨hrow, ?_⟩), hcanonical, hnumber, hhash⟩
      rw [hnumber]
      exact hfresh other hearlier
    · rw [List.mem_singleton.mp hlast]
      exact ⟨_, mem_upsert.mpr (Or.inl rfl), rfl, rfl, rfl⟩

/-- A rollback cuts the chain that the tables hold. -/
theorem Holds.rollback {mode : FinalityMode} {t after : Tables} {chain : List Block}
    {ancestor : BitVec 64} (h : Holds t chain)
    (hrollback : rollbackCanonicalChain mode t ancestor = .ok after) :
    Holds after (chain.filter fun block => decide (block.number ≤ ancestor)) := by
  simp only [rollbackCanonicalChain, require_bind_eq_ok, pure_eq_ok] at hrollback
  rw [← hrollback.2]
  have hchain : ∀ block, (block ∈ chain.filter fun block => decide (block.number ≤ ancestor)) ↔
      block ∈ chain ∧ block.number ≤ ancestor := fun block => by
    rw [List.mem_filter, decide_eq_true_eq]
  constructor
  · change ((updateWhere _ _ t.deposits).map DepositRow.nonce).Nodup
    rw [map_updateWhere]
    · exact h.nonces
    · exact fun _ _ => rfl
  · change ((updateWhere _ _ t.blocks).map BlockRow.number).Nodup
    rw [map_updateWhere]
    · exact h.numbers
    · exact fun _ _ => rfl
  · intro block hblock
    exact h.placed block ((hchain block).mp hblock).1
  · intro row
    rw [mem_updateWhere]
    constructor
    · intro hrow
      obtain ⟨⟨old, hold, hsame⟩, hlive⟩ := hrow
      by_cases hcut : old.removed = false ∧ ancestor < old.position.blockNumber
      · rw [if_pos hcut] at hsame
        rw [← hsame] at hlive
        cases hlive
      · rw [if_neg hcut] at hsame
        rw [← hsame] at hlive ⊢
        obtain ⟨block, hblock, entry, hentry, hrow⟩ := (h.deposits old).mp ⟨hold, hlive⟩
        refine ⟨block, (hchain block).mpr ⟨hblock, ?_⟩, entry, hentry, hrow⟩
        rw [← (h.placed block hblock entry hentry).1]
        have hnumber : old.position.blockNumber = entry.blockNumber := by rw [hrow]; rfl
        rw [← hnumber]
        exact BitVec.not_lt.mp fun hlt => hcut ⟨hlive, hlt⟩
    · intro hrow
      obtain ⟨block, hblock, entry, hentry, hsame⟩ := hrow
      obtain ⟨hmem, hle⟩ := (hchain block).mp hblock
      obtain ⟨hold, hlive⟩ := (h.deposits row).mpr ⟨block, hmem, entry, hentry, hsame⟩
      refine ⟨⟨row, hold, if_neg fun hcut => ?_⟩, hlive⟩
      have hnumber : row.position.blockNumber = block.number := by
        rw [hsame]
        exact (h.placed block hmem entry hentry).1
      have hlt := hcut.2
      rw [hnumber] at hlt
      exact BitVec.not_lt.mpr hle hlt
  · intro row hrow hcanonical
    obtain ⟨old, hold, hsame⟩ := mem_updateWhere.mp hrow
    by_cases hcut : old.canonical = true ∧ ancestor < old.number
    · rw [if_pos hcut] at hsame
      rw [← hsame] at hcanonical
      cases hcanonical
    · rw [if_neg hcut] at hsame
      rw [← hsame] at hcanonical ⊢
      obtain ⟨block, hblock, hnumber, hhash⟩ := h.blocks old hold hcanonical
      refine ⟨block, (hchain block).mpr ⟨hblock, ?_⟩, hnumber, hhash⟩
      rw [← hnumber]
      exact BitVec.not_lt.mp fun hlt => hcut ⟨hcanonical, hlt⟩
  · intro block hblock
    obtain ⟨hmem, hle⟩ := (hchain block).mp hblock
    obtain ⟨row, hrow, hcanonical, hnumber, hhash⟩ := h.stored block hmem
    refine ⟨row, mem_updateWhere.mpr ⟨row, hrow, if_neg fun hcut => ?_⟩, hcanonical, hnumber, hhash⟩
    have hlt := hcut.2
    rw [hnumber] at hlt
    exact BitVec.not_lt.mpr hle hlt

/-- Finality changes nothing that the tables hold. -/
theorem Holds.finalize {t : Tables} {chain : List Block} (h : Holds t chain)
    (finalizedThrough : Option (BitVec 64)) : Holds (advanceFinality t finalizedThrough) chain := by
  constructor
  · exact h.nonces
  · rw [advanceFinality, List.map_map]
    exact h.numbers
  · exact h.placed
  · exact h.deposits
  · intro row hrow hcanonical
    obtain ⟨old, hold, hsame⟩ := List.mem_map.mp hrow
    rw [← hsame] at hcanonical ⊢
    exact h.blocks old hold hcanonical
  · intro block hblock
    obtain ⟨row, hrow, hcanonical, hsame⟩ := h.stored block hblock
    exact ⟨_, List.mem_map_of_mem hrow, hcanonical, hsame⟩

/-- After any steps the tables hold the chain that the indexer follows, if every chain on
the way has different numbers and nonces. -/
theorem indexed_holds (mode : FinalityMode) (steps : List IndexStep)
    (hdistinct : ∀ first second, steps = first ++ second → Distinct (indexed mode first).chain) :
    Holds (indexed mode steps).tables (indexed mode steps).chain := by
  induction steps using List.reverseRecOn with
  | nil => exact holds_nil
  | append_singleton steps step ih =>
    have hbefore := ih fun first second hsteps =>
      hdistinct first (second ++ [step]) (by rw [hsteps, List.append_assoc])
    have hafter := hdistinct (steps ++ [step]) [] (List.append_nil _).symm
    have hrun : indexed mode (steps ++ [step]) =
        exec (indexStep mode) (indexed mode steps) step := by
      rw [indexed, run_append]
      rfl
    rw [hrun] at hafter ⊢
    cases hstep : indexStep mode (indexed mode steps) step with
    | error message =>
      rw [exec, hstep]
      exact hbefore
    | ok next =>
      rw [exec_of_ok hstep] at hafter ⊢
      simp only [indexStep, bind_eq_ok, pure_eq_ok] at hstep
      obtain ⟨tables, htables, hnext⟩ := hstep
      rw [← hnext] at hafter ⊢
      cases step with
      | store block => exact hbefore.store hafter htables
      | rollback ancestor => exact hbefore.rollback htables
      | finalize finalizedThrough =>
        rw [indexTables, pure_eq_ok] at htables
        rw [← htables]
        exact hbefore.finalize finalizedThrough

/-- A deposit, with the accumulator around it and its sender. -/
structure Submitted where
  /-- The deposit. -/
  record : DepositRecord
  /-- Leaf of the deposit in its accumulator. -/
  depositLeaf : Bytes32
  /-- Accumulator before the deposit. -/
  oldDepositState : Bytes32
  /-- Accumulator after the deposit. -/
  newDepositState : Bytes32
  /-- Account that made it. -/
  sender : Address
  deriving DecidableEq

namespace Submitted

variable (s : Submitted)

/-- The data of its `BridgeDeposit` event. -/
def bridgeDeposit : BridgeDeposit :=
  match s.record with
  | .native zekoRecipient zekoAmount timeout nonce =>
    ⟨nonce, s.depositLeaf, s.newDepositState, s.oldDepositState, 0, s.sender, zekoRecipient,
      BitVec.ofNat 256 (zekoAmount.toNat * gwei), zekoAmount, timeout⟩
  | .erc20 token _ _ _ zekoRecipient amount timeout nonce =>
    ⟨nonce, s.depositLeaf, s.newDepositState, s.oldDepositState, token, s.sender, zekoRecipient,
      toWord amount, toWord amount, timeout⟩

/-- The data of its `ERC20DepositSubmittedV2` event. -/
def registry : Option ERC20DepositSubmittedV2 :=
  match s.record with
  | .native .. => none
  | .erc20 token registryIndex recordCommitment assetId zekoRecipient amount timeout nonce =>
    some ⟨⟨nonce, assetId, s.depositLeaf, s.newDepositState, token, s.sender, zekoRecipient, amount,
      timeout⟩, erc20ActionEncodingV2, registryIndex, recordCommitment⟩

/-- The events of a deposit, in order. -/
def events : List EventData :=
  .bridgeDeposit s.bridgeDeposit :: s.registry.toList.flatMap fun data =>
    [.erc20DepositSubmitted data.toERC20DepositSubmitted, .erc20DepositSubmittedV2 data]

/-- The columns of a deposit. -/
def columns : DepositColumns where
  nonce := s.record.nonce
  depositLeaf := s.depositLeaf
  oldDepositState := s.oldDepositState
  newDepositState := s.newDepositState
  token := s.bridgeDeposit.token
  assetId := s.registry.map fun data => data.assetId
  actionEncodingVersion := s.registry.elim 0 fun _ => erc20ActionEncodingV2
  registryIndex := s.registry.map fun data => data.registryIndex
  recordCommitment := s.registry.map fun data => data.recordCommitment
  sender := s.sender
  zekoRecipient := s.bridgeDeposit.zekoRecipient
  ethereumAmount := s.bridgeDeposit.amount
  zekoAmount := s.bridgeDeposit.zekoAmount
  timeout := s.bridgeDeposit.timeout

/-- The deposit that the deposit events of a call report. -/
def read : List EventData → Option Submitted
  | [.bridgeDeposit data] =>
    some ⟨.native data.zekoRecipient data.zekoAmount data.timeout data.nonce, data.depositLeaf,
      data.oldDepositState, data.newDepositState, data.sender⟩
  | [.bridgeDeposit data, .erc20DepositSubmitted _, .erc20DepositSubmittedV2 registry] =>
    some ⟨.erc20 registry.token registry.registryIndex registry.recordCommitment registry.assetId
      registry.zekoRecipient registry.amount registry.timeout registry.nonce, data.depositLeaf,
      data.oldDepositState, data.newDepositState, data.sender⟩
  | _ => none

/-- The events of at most one deposit report it. -/
theorem read_events (submitted : Option Submitted) :
    read (submitted.toList.flatMap events) = submitted := by
  cases submitted with
  | none => rfl
  | some s =>
    obtain ⟨record, depositLeaf, oldDepositState, newDepositState, sender⟩ := s
    cases record <;> rfl

/-- The nonce of the deposit event is that of the record. -/
theorem bridgeDeposit_nonce : s.bridgeDeposit.nonce = s.record.nonce := by
  rw [bridgeDeposit]
  cases s.record <;> rfl

/-- The identity events carry the nonce of the record. -/
theorem registry_nonce {data : ERC20DepositSubmittedV2} (h : s.registry = some data) :
    data.nonce = s.record.nonce := by
  rw [registry] at h
  cases hrecord : s.record <;> rw [hrecord] at h <;> cases h
  rfl

end Submitted

/-- What the bridge contract asks of a deposit. -/
def Submittable : DepositRecord → Prop
  | .native _ zekoAmount timeout _ =>
    zekoAmount ≠ 0 ∧ zekoAmount.toNat * gwei < 2 ^ 256 ∧ timeout = depositTimeout
  | .erc20 token _ recordCommitment assetId _ amount timeout _ =>
    token ≠ 0 ∧ recordCommitment ≠ 0 ∧ assetId ≠ 0 ∧ amount ≠ 0 ∧ timeout = depositTimeout

section Runs

variable {env : Environment} {W : TokenWorld}

/-- A deposited value in whole gwei. -/
theorem gwei_amount {value : BitVec 256} (h : value.toNat % gwei = 0) :
    (BitVec.ofNat 256 (value.toNat / gwei)).toNat * gwei = value.toNat := by
  have hlt : value.toNat / gwei < 2 ^ 256 := lt_of_le_of_lt (Nat.div_le_self _ _) value.isLt
  rw [BitVec.toNat_ofNat, Nat.mod_eq_of_lt hlt]
  exact Nat.div_mul_cancel (Nat.dvd_of_mod_eq_zero h)

/-- Admitted records are submittable. -/
theorem submittable_of_admitted {c : Chain W} {record : DepositRecord} (hsound : RegistrySound c)
    (h : RecordAdmitted c.bridge record) : Submittable record := by
  cases h with
  | @native value zekoRecipient nonce value_ne whole_gwei recipient_lt =>
    have hamount := gwei_amount whole_gwei
    refine ⟨?_, ?_, rfl⟩
    · intro hzero
      rw [hzero] at hamount
      apply value_ne
      apply BitVec.eq_of_toNat_eq
      rw [← hamount]
      exact Nat.zero_mul _
    · rw [hamount]
      exact value.isLt
  | @token token amount zekoRecipient nonce registered commitment_ne amount_ne amount_lt
      recipient_lt =>
    refine ⟨?_, commitment_ne, hsound.assetId token registered, ?_, rfl⟩
    · intro hzero
      rw [hzero, hsound.zero] at registered
      cases registered
    · intro hzero
      apply amount_ne
      apply BitVec.eq_of_toNat_eq
      have hnarrow := congrArg BitVec.toNat hzero
      rw [BitVec.toNat_setWidth, Nat.mod_eq_of_lt amount_lt] at hnarrow
      exact hnarrow

/-- The deposit that an accepted transaction submits. -/
def submission (env : Environment) (entry : Chain W × Transaction) : Option Submitted :=
  (callRecord entry.1.bridge entry.2.call).map fun record =>
    ⟨record, record.leaf env.hashes env.chainId env.bridgeAddress,
      entry.1.bridge.currentDepositState,
      depositChainStep env.hashes env.chainId env.bridgeAddress entry.1.bridge.currentDepositState
        record,
      entry.2.ctx.sender⟩

/-- The events that an accepted transaction leaves. -/
def leaves (env : Environment) (entry : Chain W × Transaction) : List ChainEvent :=
  match step env entry.1 entry.2 with
  | .ok next => next.log.drop entry.1.log.length
  | .error _ => []

/-- The new events between two states report at most one deposit. -/
def Reports (c next : Chain W) (submitted : Option Submitted) : Prop :=
  ∃ events, next.log = c.log ++ events ∧
    events.filterMap depositData = submitted.toList.flatMap Submitted.events

/-- Events of the settlement contract report no deposit. -/
theorem settlement_events (events : List SettlementEvent) :
    (events.map ChainEvent.settlement).filterMap depositData = [] := by
  rw [List.filterMap_map]
  exact List.filterMap_eq_nil_iff.mpr fun _ _ => rfl

/-- A settlement call reports no deposit. -/
theorem reports_settlementStep {c next : Chain W} {result : SettlementCall}
    (h : settlementStep c result = .ok next) : Reports c next none := by
  simp only [settlementStep, bind_eq_ok, pure_eq_ok] at h
  obtain ⟨settled, -, hnext⟩ := h
  rw [← hnext]
  exact ⟨_, rfl, settlement_events _⟩

/-- Administration reports no deposit. -/
theorem reports_administration {c next : Chain W} {ctx : CallContext} {call : Call}
    (hkind : call.isAdministration = true) (h : execute env c ctx call = .ok next) :
    Reports c next none := by
  cases call with
  | settlementGrantRole role account => exact reports_settlementStep h
  | settlementRevokeRole role account => exact reports_settlementStep h
  | settlementRenounceRole role confirmation => exact reports_settlementStep h
  | setVkHash newVkHash => exact reports_settlementStep h
  | setBridgeContract newBridge => exact reports_settlementStep h
  | bridgeGrantRole role account =>
    simp only [execute, grantBridgeRole_eq_ok] at h
    rw [← h.2]
    exact ⟨[], (List.append_nil _).symm, rfl⟩
  | bridgeRevokeRole role account =>
    simp only [execute, revokeBridgeRole_eq_ok] at h
    rw [← h.2]
    exact ⟨[], (List.append_nil _).symm, rfl⟩
  | bridgeRenounceRole role confirmation =>
    simp only [execute, renounceBridgeRole_eq_ok] at h
    rw [← h.2]
    exact ⟨[], (List.append_nil _).symm, rfl⟩
  | pause =>
    simp only [execute, pause_eq_ok] at h
    rw [← h.2.2]
    exact ⟨_, rfl, rfl⟩
  | unpause =>
    simp only [execute, unpause_eq_ok] at h
    rw [← h.2.2]
    exact ⟨_, rfl, rfl⟩
  | setWithdrawalDelaySlots newDelay =>
    simp only [execute, EthereumZekoBridge.setWithdrawalDelaySlots, onlyBridgeRole_bind_eq_ok,
      pure_eq_ok] at h
    rw [← h.2]
    exact ⟨_, rfl, rfl⟩
  | _ => cases hkind

/-- The shared end of both activations reports no deposit. -/
theorem reports_activate {c next : Chain W} {record : AssetRecord}
    {recordHash recordCommitment registryRoot : Bytes32} {registryCount registrySchema : BitVec 32}
    (h : activate c record recordHash recordCommitment registryRoot registryCount
      registrySchema = .ok next) : Reports c next none := by
  simp only [activate, activateAssetRecordFromRegistry, bind_eq_ok,
    require_eq_ok, exists_const, pure_eq_ok] at h
  obtain ⟨activated, ⟨-, -, rfl⟩, rfl⟩ := h
  simp only [Reports, Chain.emit, List.append_assoc]
  exact ⟨_, rfl, rfl⟩

/-- Activations report no deposit. -/
theorem reports_activation {c next : Chain W} {ctx : CallContext} {call : Call}
    (hkind : call.isActivation = true) (h : execute env c ctx call = .ok next) :
    Reports c next none := by
  cases call with
  | activateAsset token root count =>
    simp only [execute, activateAsset, pendingRecord,
      onlyBridgeAdmin, bind_eq_ok, require_eq_ok, exists_const, pure_eq_ok] at h
    obtain ⟨-, pending, ⟨-, rfl⟩, -, -, -, hactivate⟩ := h
    exact reports_activate hactivate
  | activateAssetFromBatch token sequence commitment siblings =>
    simp only [execute, activateAssetFromBatch, pendingRecord,
      onlyBridgeAdmin, bind_eq_ok, require_eq_ok, exists_const, pure_eq_ok] at h
    obtain ⟨-, pending, ⟨-, rfl⟩, -, -, hactivate⟩ := h
    exact reports_activate hactivate
  | _ => cases hkind

/-- Every accepted transaction reports exactly what it submits. -/
theorem reports_step {c next : Chain W} {tx : Transaction} (h : step env c tx = .ok next) :
    Reports c next (submission env (c, tx)) := by
  have heffect := step_effect env h
  rw [step, require_bind_eq_ok] at h
  have hexecuted := h.2
  obtain ⟨ctx, call⟩ := tx
  cases heffect with
  | administer kind administered =>
    rw [submission, callRecord_of_kind (.inl kind)]
    exact reports_administration kind hexecuted
  | settle proved decode settled reported => exact ⟨_, rfl, settlement_events _⟩
  | append appended reported => exact ⟨_, rfl, settlement_events _⟩
  | transition proved transitioned =>
    obtain ⟨events, hlog, -⟩ := transitioned.log_eq
    rw [List.append_assoc] at hlog
    refine ⟨_, hlog, ?_⟩
    rw [List.filterMap_append, settlement_events]
    rfl
  | @nativeDeposit value zekoRecipient nonce total liability deposited =>
    have hnonce := nonce_succ deposited.nonce_eq
    have hamount := gwei_amount deposited.whole_gwei
    refine ⟨_, rfl, ?_⟩
    simp only [submission, callRecord, ← hnonce, Option.map_some, Option.toList_some,
      List.flatMap_singleton, Submitted.events, Submitted.bridgeDeposit, Submitted.registry,
      nativeRecord, hamount, BitVec.ofNat_toNat, BitVec.setWidth_eq]
    rfl
  | tokenDeposit deposited =>
    have hnonce := nonce_succ deposited.nonce_eq
    refine ⟨_, rfl, ?_⟩
    simp only [submission, callRecord, ← hnonce]
    rfl
  | nativeClaim claimed => exact ⟨_, rfl, rfl⟩
  | tokenClaim claimed => exact ⟨_, rfl, rfl⟩
  | etherRescue rescued => exact ⟨_, rfl, rfl⟩
  | tokenRescue rescued => exact ⟨_, rfl, rfl⟩
  | propose proposed => exact ⟨_, proposed.log_eq, rfl⟩
  | cancel cancelled =>
    obtain ⟨recordHash, registryIndex, hlog⟩ := cancelled.log_eq
    exact ⟨_, hlog, rfl⟩
  | activate kind activated =>
    rw [submission, callRecord_of_kind (.inr kind)]
    exact reports_activation kind hexecuted
  | status changed =>
    simp only [execute, setAssetStatus, onlyBridgeAdmin,
      bind_eq_ok, require_eq_ok, exists_const, pure_eq_ok] at hexecuted
    obtain ⟨-, -, rfl⟩ := hexecuted
    exact ⟨_, rfl, rfl⟩
  | tokenTransfer outside transferred => exact ⟨[], (List.append_nil _).symm, rfl⟩
  | etherForced => exact ⟨[], (List.append_nil _).symm, rfl⟩

/-- The deposit events of an accepted transaction are those of its deposit. -/
theorem leaves_submission (d : Deployment env W) {transactions : List Transaction}
    {entry : Chain W × Transaction} (h : entry ∈ d.history transactions) :
    (leaves env entry).filterMap depositData =
      (submission env entry).toList.flatMap Submitted.events := by
  obtain ⟨before, after, -, -, next, hnext⟩ := accepted_split h
  obtain ⟨events, hlog, hevents⟩ := reports_step hnext
  rw [leaves, hnext]
  change (next.log.drop entry.1.log.length).filterMap depositData = _
  rw [hlog, List.drop_left]
  exact hevents

/-- The deposits of a run, in order. -/
def submissions (d : Deployment env W) (transactions : List Transaction) : List Submitted :=
  (d.history transactions).filterMap (submission env)

/-- Submitted deposits are those of the log, with the accumulator around each. -/
structure Recorded (env : Environment) (c : Chain W) (submitted : List Submitted) : Prop where
  /-- The stored accumulators fold the deposits in the log. -/
  folded : DepositsFolded env c
  /-- They are the deposits in the log. -/
  records : submitted.map Submitted.record = deposits c.log
  /-- Each has the accumulators around its position. -/
  states : ∀ i s, submitted[i]? = some s →
    s.oldDepositState = depositFold env ((deposits c.log).take i) ∧
      s.newDepositState = depositFold env ((deposits c.log).take (i + 1))
  /-- Each passes the checks of its kind. -/
  admitted : ∀ s ∈ submitted, Submittable s.record

/-- A deposit is recorded behind the deposits before it. -/
theorem Recorded.deposit {c next : Chain W} {submitted : List Submitted} {record : DepositRecord}
    {leaf : Bytes32} {sender : Address} (h : Recorded env c submitted) (hsound : RegistrySound c)
    (hlinked : DepositLinked env c next record) :
    Recorded env next (submitted ++ [⟨record, leaf, c.bridge.currentDepositState,
      depositChainStep env.hashes env.chainId env.bridgeAddress c.bridge.currentDepositState record,
      sender⟩]) := by
  have hlength : (deposits c.log).length = submitted.length := by
    rw [← h.records, List.length_map]
  constructor
  · exact h.folded.deposit hlinked
  · rw [hlinked.deposits_eq, List.map_append, h.records]
    rfl
  · intro i s hs
    rw [hlinked.deposits_eq]
    by_cases hi : i < submitted.length
    · rw [List.getElem?_append_left hi] at hs
      rw [List.take_append_of_le_length (by omega), List.take_append_of_le_length (by omega)]
      exact h.states i s hs
    · have hlt := (List.getElem?_eq_some_iff.mp hs).1
      rw [List.length_append, List.length_singleton] at hlt
      have hindex : i = submitted.length := by omega
      rw [hindex, List.getElem?_concat_length] at hs
      rw [← Option.some.inj hs, hindex, ← hlength, List.take_left,
        List.take_of_length_le (by rw [List.length_append, List.length_singleton]), depositFold,
        depositFold, List.foldl_append, ← depositFold, ← h.folded.current]
      exact ⟨rfl, rfl⟩
  · intro s hs
    rcases List.mem_append.mp hs with hearlier | hlast
    · exact h.admitted s hearlier
    · rw [List.mem_singleton.mp hlast]
      exact submittable_of_admitted hsound hlinked.admitted

/-- The deposits of a run are recorded. -/
theorem submissions_recorded (d : Deployment env W) (transactions : List Transaction) :
    Recorded env (d.reached transactions) (submissions d transactions) := by
  apply reached_induction d
    (J := fun history c => Recorded env c (history.filterMap (submission env))) ?_ ?_
    (history_registrySound d)
  · constructor
    · exact start_depositsFolded d
    · rw [d.initialized.log_eq]
      rfl
    · intro i s hs
      cases hs
    · intro s hs
      cases hs
  · intro history c tx next hc hsound heffect
    rw [List.filterMap_append]
    have hmoved : ChainsMoved env c next tx.call := chainsMoved_of_effect hsound heffect
    obtain ⟨ctx, call⟩ := tx
    cases hmoved with
    | deposit brings linked =>
      simp only [List.filterMap_cons, List.filterMap_nil, submission, brings, Option.map_some]
      exact hc.deposit hsound linked
    | transition proved transitioned =>
      have hdeposits := (transitioned_views transitioned).1
      rw [List.filterMap_cons_none rfl, List.filterMap_nil, List.append_nil]
      refine ⟨hc.folded.transition transitioned, ?_, ?_, hc.admitted⟩
      · rw [hdeposits]
        exact hc.records
      · rw [hdeposits]
        exact hc.states
    | other brings kept outer =>
      have hnone : submission env (c, ⟨ctx, call⟩) = none := by
        rw [submission, brings]
        rfl
      rw [List.filterMap_cons_none hnone, List.filterMap_nil, List.append_nil]
      refine ⟨hc.folded.kept kept, ?_, ?_, hc.admitted⟩
      · rw [kept.deposits_eq]
        exact hc.records
      · rw [kept.deposits_eq]
        exact hc.states

end Runs

/-- The deposit that the logs of a call report. -/
def callSubmission (call : CallLogs) : Option Submitted :=
  Submitted.read (call.2.filterMap fun log => depositData log.2)

/-- The deposits of a block with the hashes of their transactions. -/
def Block.submissions (block : Block) : List (Bytes32 × Submitted) :=
  block.calls.filterMap fun call => (callSubmission call).map fun s => (call.1, s)

/-- The logs of a call are the events of the deposit that they report. -/
def Faithful (call : CallLogs) : Prop :=
  (call.2.filterMap fun log => depositData log.2) =
    (callSubmission call).toList.flatMap Submitted.events

/-- Blocks with different numbers whose calls left the events of the transactions of a
run. -/
structure Mined {env : Environment} {W : TokenWorld} (d : Deployment env W)
    (transactions : List Transaction) (chain : List Block) : Prop where
  /-- No two blocks have one height. -/
  numbers : (chain.map Block.number).Nodup
  /-- The calls of the blocks are the transactions, in order. -/
  calls : ((chain.flatMap Block.calls).map fun call => call.2.map Prod.snd) =
    (d.history transactions).map (leaves env)

/-- What one part of an event gives, over the events of a call. -/
theorem callEvents_filterMap {β : Type} (block : Block) (call : CallLogs)
    (part : Bytes32 → EventData → Option β) :
    ((block.callEvents call).filterMap fun event =>
        part event.position.transactionHash event.data) =
      (call.2.filterMap fun log => depositData log.2).filterMap (part call.1) := by
  rw [Block.callEvents, List.filterMap_filterMap, List.filterMap_filterMap]
  congr 1
  funext log
  cases depositData log.2 <;> rfl

/-- What one part of the events gives, over the events of a block. -/
theorem blockEvents_filterMap {β : Type} {block : Block} {part : Bytes32 → EventData → Option β}
    {placedPart : Bytes32 × Submitted → Option β} (hfaithful : ∀ call ∈ block.calls, Faithful call)
    (hpart : ∀ hash (s : Submitted),
      s.events.filterMap (part hash) = (placedPart (hash, s)).toList) :
    ((block.calls.flatMap block.callEvents).filterMap fun event =>
        part event.position.transactionHash event.data) =
      block.submissions.filterMap placedPart := by
  rw [Block.submissions, List.filterMap_filterMap, List.filterMap_flatMap,
    List.filterMap_eq_flatMap_toList]
  apply List.flatMap_congr
  intro call hcall
  rw [callEvents_filterMap, hfaithful call hcall]
  cases callSubmission call with
  | none => rfl
  | some s =>
    rw [Option.toList_some, List.flatMap_singleton, hpart]
    rfl

/-- The key of a deposit in a block. -/
def placedKey (placed : Bytes32 × Submitted) : Key := (placed.1, placed.2.record.nonce)

/-- The identity event of a deposit in a block. -/
def identityOf (placed : Bytes32 × Submitted) : Option (Key × ERC20DepositSubmitted) :=
  placed.2.registry.map fun data => ((placed.1, data.nonce), data.toERC20DepositSubmitted)

/-- The registry event of a deposit in a block. -/
def registryEventOf (placed : Bytes32 × Submitted) : Option (Key × ERC20DepositSubmittedV2) :=
  placed.2.registry.map fun data => ((placed.1, data.nonce), data)

/-- The identity in an event of a transaction. -/
def identityData (hash : Bytes32) : EventData → Option (Key × ERC20DepositSubmitted)
  | .erc20DepositSubmitted data => some ((hash, data.nonce), data)
  | _ => none

/-- The registry record in an event of a transaction. -/
def registryData (hash : Bytes32) : EventData → Option (Key × ERC20DepositSubmittedV2)
  | .erc20DepositSubmittedV2 data => some ((hash, data.nonce), data)
  | _ => none

/-- The deposit in an event of a transaction. -/
def bridgeData (hash : Bytes32) : EventData → Option (Bytes32 × BridgeDeposit)
  | .bridgeDeposit data => some (hash, data)
  | _ => none

/-- The identity events of a block are those of its deposits. -/
theorem blockEvents_identity {block : Block} (hfaithful : ∀ call ∈ block.calls, Faithful call) :
    (block.calls.flatMap block.callEvents).filterMap Event.identity =
      block.submissions.filterMap identityOf := by
  have hpart : Event.identity = fun event =>
      identityData event.position.transactionHash event.data := by
    funext event
    obtain ⟨position, data⟩ := event
    cases data <;> rfl
  rw [hpart]
  apply blockEvents_filterMap hfaithful
  intro hash s
  rw [Submitted.events, identityOf]
  cases s.registry <;> rfl

/-- The registry events of a block are those of its deposits. -/
theorem blockEvents_registry {block : Block} (hfaithful : ∀ call ∈ block.calls, Faithful call) :
    (block.calls.flatMap block.callEvents).filterMap Event.registry =
      block.submissions.filterMap registryEventOf := by
  have hpart : Event.registry = fun event =>
      registryData event.position.transactionHash event.data := by
    funext event
    obtain ⟨position, data⟩ := event
    cases data <;> rfl
  rw [hpart]
  apply blockEvents_filterMap hfaithful
  intro hash s
  rw [Submitted.events, registryEventOf]
  cases s.registry <;> rfl

/-- The deposit events of a block are those of its deposits. -/
theorem blockEvents_deposit {block : Block} (hfaithful : ∀ call ∈ block.calls, Faithful call) :
    ((block.calls.flatMap block.callEvents).filterMap Event.deposit).map
        (fun deposit => (deposit.transactionHash, deposit.data)) =
      block.submissions.map fun placed => (placed.1, placed.2.bridgeDeposit) := by
  have hpart : (fun event => (Event.deposit event).map fun deposit =>
      (deposit.transactionHash, deposit.data)) = fun event =>
      bridgeData event.position.transactionHash event.data := by
    funext event
    obtain ⟨position, data⟩ := event
    cases data <;> rfl
  rw [List.map_filterMap, hpart, ← List.filterMap_eq_map]
  apply blockEvents_filterMap hfaithful
  intro hash s
  rw [Submitted.events]
  cases s.registry <;> rfl

/-- The deposit events of a block are of the block. -/
theorem blockEvents_placed {block : Block} {deposit : Deposit}
    (h : deposit ∈ (block.calls.flatMap block.callEvents).filterMap Event.deposit) :
    deposit.blockNumber = block.number ∧ deposit.blockHash = block.hash := by
  obtain ⟨event, hevent, hdeposit⟩ := List.mem_filterMap.mp h
  obtain ⟨call, -, hcall⟩ := List.mem_flatMap.mp hevent
  obtain ⟨log, -, hlog⟩ := List.mem_filterMap.mp hcall
  obtain ⟨data, -, hsame⟩ := Option.map_eq_some_iff.mp hlog
  rw [← hsame] at hdeposit
  cases data with
  | bridgeDeposit data =>
    rw [← Option.some.inj hdeposit]
    exact ⟨rfl, rfl⟩
  | erc20DepositSubmitted data => cases hdeposit
  | erc20DepositSubmittedV2 data => cases hdeposit

section Joins

variable {placed : List (Bytes32 × Submitted)}

/-- Keys of deposits with different nonces are different. -/
theorem pairwise_placedKey (hn : (placed.map fun p => p.2.record.nonce).Nodup) :
    placed.Pairwise fun first second => placedKey first ≠ placedKey second := by
  rw [List.Nodup, List.pairwise_map] at hn
  exact hn.imp fun hne hsame => hne (congrArg Prod.snd hsame)

/-- The events of one kind have different keys. -/
theorem nodup_part {α : Type} {part : Bytes32 × Submitted → Option (Key × α)}
    (hkey : ∀ p event, part p = some event → event.1 = placedKey p)
    (hn : (placed.map fun p => p.2.record.nonce).Nodup) :
    ((placed.filterMap part).map Prod.fst).Nodup := by
  rw [List.Nodup, List.pairwise_map, List.pairwise_filterMap]
  refine (pairwise_placedKey hn).imp ?_
  intro first second hne event hevent other hother
  rw [hkey first event hevent, hkey second other hother]
  exact hne

/-- The event of one kind of a deposit is found under the key of the deposit. -/
theorem dataAt_part {α : Type} {part : Bytes32 × Submitted → Option (Key × α)}
    (hkey : ∀ p event, part p = some event → event.1 = placedKey p)
    (hn : (placed.map fun p => p.2.record.nonce).Nodup) {p : Bytes32 × Submitted}
    (hp : p ∈ placed) : dataAt (placed.filterMap part) (placedKey p) = (part p).map Prod.snd := by
  cases hpart : part p with
  | some event =>
    rw [Option.map_some, dataAt_eq_some (nodup_part hkey hn), ← hkey p event hpart]
    exact List.mem_filterMap.mpr ⟨p, hp, hpart⟩
  | none =>
    rw [Option.map_none, dataAt_eq_none]
    intro event hevent hsame
    obtain ⟨q, hq, hfound⟩ := List.mem_filterMap.mp hevent
    rw [hkey q event hfound] at hsame
    have hq : q = p := List.inj_on_of_nodup_map hn hq hp (congrArg Prod.snd hsame)
    rw [hq, hpart] at hfound
    cases hfound

/-- The key of an identity event is that of its deposit. -/
theorem identityOf_key (p : Bytes32 × Submitted) (event : Key × ERC20DepositSubmitted)
    (h : identityOf p = some event) : event.1 = placedKey p := by
  obtain ⟨data, hdata, hevent⟩ := Option.map_eq_some_iff.mp h
  rw [← hevent, placedKey, ← Submitted.registry_nonce p.2 hdata]

/-- The key of a registry event is that of its deposit. -/
theorem registryEventOf_key (p : Bytes32 × Submitted) (event : Key × ERC20DepositSubmittedV2)
    (h : registryEventOf p = some event) : event.1 = placedKey p := by
  obtain ⟨data, hdata, hevent⟩ := Option.map_eq_some_iff.mp h
  rw [← hevent, placedKey, ← Submitted.registry_nonce p.2 hdata]

/-- The joined identity of a deposit. -/
def joinedIdentity (s : Submitted) : Option ERC20DepositMetadata :=
  s.registry.map fun data =>
    { metadataOf data.toERC20DepositSubmitted with registryIdentity := some (registryOf data) }

/-- What the join holds for a deposit. -/
theorem tableOf_placed (hn : (placed.map fun p => p.2.record.nonce).Nodup)
    {p : Bytes32 × Submitted} (hp : p ∈ placed) :
    tableOf (placed.filterMap identityOf) (placed.filterMap registryEventOf) (placedKey p) =
      joinedIdentity p.2 := by
  rw [tableOf, dataAt_part identityOf_key hn hp, dataAt_part registryEventOf_key hn hp, identityOf,
    registryEventOf, joinedIdentity]
  cases p.2.registry <;> rfl

/-- The joined identity fits a submittable deposit. -/
theorem fits_joined {s : Submitted} (h : Submittable s.record) :
    Fits (joinedIdentity s) s.bridgeDeposit := by
  obtain ⟨record, depositLeaf, oldDepositState, newDepositState, sender⟩ := s
  cases record with
  | native => exact rfl
  | erc20 => exact ⟨h.1, rfl, rfl, rfl, rfl, rfl, (BitVec.ofNat_toNat _ _).symm, rfl, rfl⟩

/-- The identity that a submittable deposit shows. -/
theorem shown_joined {s : Submitted} (h : Submittable s.record) :
    shown (joinedIdentity s) s.bridgeDeposit = s.registry.map fun data =>
      .registryV2 data.assetId data.registryIndex data.recordCommitment := by
  obtain ⟨record, depositLeaf, oldDepositState, newDepositState, sender⟩ := s
  cases record with
  | native => rfl
  | erc20 => exact if_neg h.1

/-- The entry of a deposit shows its columns. -/
theorem columns_joined {s : Submitted} (h : Submittable s.record) {deposit : Deposit}
    (hdata : deposit.data = s.bridgeDeposit) :
    columnsOf (deposit.entry (shown (joinedIdentity s) deposit.data)) = s.columns := by
  rw [Deposit.entry, hdata, shown_joined h]
  obtain ⟨record, depositLeaf, oldDepositState, newDepositState, sender⟩ := s
  cases record <;> rfl

/-- Deposits with different keys have no repeated ones. -/
theorem repeats_eq_nil {deposits : List Deposit} {seen : List Key}
    (hn : (deposits.map Deposit.key).Nodup) (hseen : ∀ deposit ∈ deposits, deposit.key ∉ seen) :
    repeats seen deposits = [] := by
  induction deposits generalizing seen with
  | nil => rfl
  | cons deposit deposits ih =>
    rw [List.map_cons, List.nodup_cons] at hn
    rw [repeats, if_neg (hseen deposit List.mem_cons_self)]
    apply ih hn.2
    intro other hother hmem
    rcases List.mem_cons.mp hmem with hsame | hold
    · exact hn.1 (hsame ▸ List.mem_map_of_mem hother)
    · exact hseen other (List.mem_cons_of_mem _ hother) hold

/-- The deposit events of deposits have their keys. -/
theorem key_placed {deposits : List Deposit}
    (h : (deposits.map fun deposit => (deposit.transactionHash, deposit.data)) =
      placed.map fun p => (p.1, p.2.bridgeDeposit)) :
    deposits.map Deposit.key = placed.map placedKey := by
  have hkeys := congrArg (List.map fun pair : Bytes32 × BridgeDeposit => (pair.1, pair.2.nonce)) h
  rw [List.map_map, List.map_map] at hkeys
  refine hkeys.trans (List.map_congr_left ?_)
  intro p _
  exact congrArg (Prod.mk p.1) (Submitted.bridgeDeposit_nonce p.2)

/-- A logged deposit is one of those that were placed. -/
theorem exists_placed {deposits : List Deposit}
    (h : (deposits.map fun deposit => (deposit.transactionHash, deposit.data)) =
      placed.map fun p => (p.1, p.2.bridgeDeposit)) {deposit : Deposit} (hdeposit : deposit ∈ deposits) :
    ∃ p ∈ placed, deposit.key = placedKey p ∧ deposit.data = p.2.bridgeDeposit := by
  have hmem := List.mem_map_of_mem (f := fun deposit : Deposit =>
    (deposit.transactionHash, deposit.data)) hdeposit
  rw [h] at hmem
  obtain ⟨p, hp, hsame⟩ := List.mem_map.mp hmem
  have hhash := congrArg Prod.fst hsame
  have hdata := congrArg Prod.snd hsame
  refine ⟨p, hp, ?_, hdata.symm⟩
  rw [Deposit.key, placedKey, ← Submitted.bridgeDeposit_nonce]
  exact Prod.ext hhash.symm (congrArg BridgeDeposit.nonce hdata.symm)

/-- The registry event of a submittable deposit names an asset, a record and the encoding of
today. -/
theorem registry_admitted {s : Submitted} {data : ERC20DepositSubmittedV2}
    (h : Submittable s.record) (hsome : s.registry = some data) :
    data.assetId ≠ 0 ∧ data.encodingVersion = erc20ActionEncodingV2 ∧ data.recordCommitment ≠ 0 := by
  obtain ⟨record, depositLeaf, oldDepositState, newDepositState, sender⟩ := s
  cases record with
  | native => cases hsome
  | erc20 =>
    cases hsome
    exact ⟨h.2.2.1, rfl, h.2.1⟩

/-- The events of submittable deposits with different nonces join. -/
theorem joinable_placed (hn : (placed.map fun p => p.2.record.nonce).Nodup)
    (hsubmittable : ∀ p ∈ placed, Submittable p.2.record) {deposits : List Deposit}
    (h : (deposits.map fun deposit => (deposit.transactionHash, deposit.data)) =
      placed.map fun p => (p.1, p.2.bridgeDeposit)) :
    Joinable (placed.filterMap identityOf) (placed.filterMap registryEventOf) deposits := by
  have hkeys := key_placed h
  have hnodup : (deposits.map Deposit.key).Nodup := by
    rw [hkeys, List.Nodup, List.pairwise_map]
    exact pairwise_placedKey hn
  have hregistry : ∀ event ∈ placed.filterMap registryEventOf, ∃ p ∈ placed, ∃ data,
      p.2.registry = some data ∧ event = ((p.1, data.nonce), data) := by
    intro event hevent
    obtain ⟨p, hp, hsome⟩ := List.mem_filterMap.mp hevent
    obtain ⟨data, hdata, hsame⟩ := Option.map_eq_some_iff.mp hsome
    exact ⟨p, hp, data, hdata, hsame.symm⟩
  constructor
  · intro event hevent
    obtain ⟨p, hp, hsome⟩ := List.mem_filterMap.mp hevent
    obtain ⟨data, hsource, hsame⟩ := Option.map_eq_some_iff.mp hsome
    rw [← hsame]
    exact (registry_admitted (hsubmittable p hp) hsource).1
  · exact nodup_part identityOf_key hn
  · intro event hevent
    obtain ⟨p, hp, data, hsource, hsame⟩ := hregistry event hevent
    rw [hsame]
    exact (registry_admitted (hsubmittable p hp) hsource).2.1
  · intro event hevent
    obtain ⟨p, hp, data, hsource, hsame⟩ := hregistry event hevent
    rw [hsame]
    exact (registry_admitted (hsubmittable p hp) hsource).2.2
  · exact nodup_part registryEventOf_key hn
  · intro event hevent
    obtain ⟨p, hp, data, hsource, hsame⟩ := hregistry event hevent
    refine ⟨((p.1, data.nonce), data.toERC20DepositSubmitted),
      List.mem_filterMap.mpr ⟨p, hp, ?_⟩, ?_⟩
    · rw [identityOf, hsource]
      rfl
    · rw [hsame]
      exact ⟨rfl, rfl, rfl, rfl, rfl, rfl, rfl, rfl, rfl⟩
  · constructor
    · intro deposit hdeposit
      have hmem := (mem_firsts_or_repeats []).mpr (Or.inl hdeposit)
      obtain ⟨p, hp, hkey, hsame⟩ := exists_placed h hmem
      rw [hkey, tableOf_placed hn hp, hsame]
      exact fits_joined (hsubmittable p hp)
    · intro deposit hdeposit
      rw [repeats_eq_nil hnodup fun _ _ => List.not_mem_nil] at hdeposit
      cases hdeposit
  · intro event hevent
    obtain ⟨p, hp, hsome⟩ := List.mem_filterMap.mp hevent
    have hkey := List.mem_map_of_mem (f := placedKey) hp
    rw [← hkeys] at hkey
    obtain ⟨deposit, hdeposit, hsame⟩ := List.mem_map.mp hkey
    exact ⟨deposit, hdeposit, by rw [hsame, identityOf_key p event hsome]⟩

end Joins

/-- Lists whose elements correspond under one pair of maps correspond under another. -/
theorem map_congr_of_map {α β γ δ : Type} {first : List α} {second : List β} {f : α → γ} {g : β → γ}
    {F : α → δ} {G : β → δ} (h : first.map f = second.map g)
    (hstep : ∀ a, ∀ b ∈ second, f a = g b → F a = G b) : first.map F = second.map G := by
  induction second generalizing first with
  | nil => rw [List.map_eq_nil_iff.mp h, List.map_nil, List.map_nil]
  | cons b second ih =>
    cases first with
    | nil => cases h
    | cons a first =>
      rw [List.map_cons, List.map_cons] at h
      obtain ⟨hhead, htail⟩ := List.cons.inj h
      rw [List.map_cons, List.map_cons, hstep a b List.mem_cons_self hhead,
        ih htail fun other last hlast => hstep other last (List.mem_cons_of_mem _ hlast)]

/-- A block whose calls report submittable deposits with different nonces joins into
them. -/
theorem block_joins {block : Block} (hfaithful : ∀ call ∈ block.calls, Faithful call)
    (hn : (block.submissions.map fun p => p.2.record.nonce).Nodup)
    (hsubmittable : ∀ p ∈ block.submissions, Submittable p.2.record) :
    bridgeDepositLogs block.logs = .ok block.entries ∧
      block.entries.map columnsOf = block.submissions.map (fun p => p.2.columns) ∧
      ∀ entry ∈ block.entries, entry.blockNumber = block.number ∧ entry.blockHash = block.hash := by
  have hdeposits := blockEvents_deposit hfaithful
  have hjoinable := joinable_placed hn hsubmittable hdeposits
  have hjoined : bridgeDepositLogs block.logs =
      .ok (entriesOf (tableOf (block.submissions.filterMap identityOf)
        (block.submissions.filterMap registryEventOf))
        ((block.calls.flatMap block.callEvents).filterMap Event.deposit)) := by
    rw [Block.logs, bridgeDepositLogs_events, blockEvents_identity hfaithful,
      blockEvents_registry hfaithful, joinEvents_eq_ok]
    exact ⟨hjoinable, rfl⟩
  have hentries : block.entries = entriesOf (tableOf (block.submissions.filterMap identityOf)
      (block.submissions.filterMap registryEventOf))
      ((block.calls.flatMap block.callEvents).filterMap Event.deposit) := by
    rw [Block.entries, hjoined]
    rfl
  rw [hentries]
  refine ⟨hjoined, ?_, ?_⟩
  · rw [entriesOf, List.map_map]
    refine map_congr_of_map hdeposits fun deposit p hp hsame => ?_
    have hdata : deposit.data = p.2.bridgeDeposit := congrArg Prod.snd hsame
    have hkey : deposit.key = placedKey p := by
      have hhash : deposit.transactionHash = p.1 := congrArg Prod.fst hsame
      rw [Deposit.key, placedKey, hhash, hdata, Submitted.bridgeDeposit_nonce]
    rw [Function.comp, hkey, tableOf_placed hn hp]
    exact columns_joined (hsubmittable p hp) hdata
  · intro entry hentry
    obtain ⟨deposit, hdeposit, hsame⟩ := List.mem_map.mp hentry
    rw [← hsame]
    exact blockEvents_placed hdeposit

section Chains

variable {env : Environment} {W : TokenWorld} {d : Deployment env W}
  {transactions : List Transaction} {chain : List Block}

/-- The nonces of a run's deposits are different. -/
theorem submissions_nodup (d : Deployment env W) (transactions : List Transaction) :
    ((submissions d transactions).map fun s => s.record.nonce).Nodup := by
  have hrecorded := submissions_recorded d transactions
  have hnonces : (submissions d transactions).map (fun s => s.record.nonce) =
      (deposits (d.reached transactions).log).map DepositRecord.nonce := by
    rw [← hrecorded.records, List.map_map]
    rfl
  rw [hnonces]
  rw [List.nodup_iff_getElem?_ne_getElem?]
  intro i j hij hj
  rw [List.length_map] at hj
  have hi : i < (deposits (d.reached transactions).log).length := by omega
  rw [List.getElem?_map, List.getElem?_map, List.getElem?_eq_getElem hi,
    List.getElem?_eq_getElem hj]
  intro hsame
  have hsame := Option.some.inj hsame
  have hfirst := hrecorded.folded.nonces i _ (List.getElem?_eq_getElem hi)
  have hsecond := hrecorded.folded.nonces j _ (List.getElem?_eq_getElem hj)
  rw [hsame] at hfirst
  omega

/-- A call of a mined chain is that of an accepted transaction. -/
theorem Mined.call (h : Mined d transactions chain) {call : CallLogs}
    (hcall : call ∈ chain.flatMap Block.calls) :
    ∃ entry ∈ d.history transactions, leaves env entry = call.2.map Prod.snd := by
  have hmem := List.mem_map_of_mem (f := fun call : CallLogs => call.2.map Prod.snd) hcall
  rw [h.calls] at hmem
  exact List.mem_map.mp hmem

/-- The calls of a mined chain leave the events of the deposits that they report. -/
theorem Mined.faithful (h : Mined d transactions chain) {call : CallLogs}
    (hcall : call ∈ chain.flatMap Block.calls) : Faithful call := by
  obtain ⟨entry, hentry, hleaves⟩ := h.call hcall
  have hevents : (call.2.filterMap fun log => depositData log.2) =
      (submission env entry).toList.flatMap Submitted.events := by
    rw [← leaves_submission d hentry, hleaves, List.filterMap_map]
    rfl
  rw [Faithful, callSubmission, hevents, Submitted.read_events]

/-- The deposits of a mined chain are those of the run. -/
theorem Mined.submissions_eq (h : Mined d transactions chain) :
    (chain.flatMap Block.submissions).map Prod.snd = submissions d transactions := by
  have hcalls := congrArg (List.filterMap fun events => Submitted.read
    (events.filterMap depositData)) h.calls
  rw [List.filterMap_map, List.filterMap_map] at hcalls
  have hreads : (chain.flatMap Block.submissions).map Prod.snd =
      (chain.flatMap Block.calls).filterMap callSubmission := by
    have hblocks : chain.flatMap Block.submissions = (chain.flatMap Block.calls).filterMap
        (fun call => (callSubmission call).map fun s => (call.1, s)) := by
      rw [List.filterMap_flatMap]
      rfl
    rw [hblocks, List.map_filterMap]
    congr 1
    funext call
    cases callSubmission call <;> rfl
  have hown : (chain.flatMap Block.calls).filterMap callSubmission =
      (chain.flatMap Block.calls).filterMap ((fun events => Submitted.read
        (events.filterMap depositData)) ∘ fun call : CallLogs => call.2.map Prod.snd) := by
    congr 1
    funext call
    rw [Function.comp, List.filterMap_map]
    rfl
  rw [hreads, hown, hcalls]
  apply List.filterMap_congr
  intro entry hentry
  rw [Function.comp, leaves_submission d hentry, Submitted.read_events]

/-- Every block of a mined chain joins into its deposits. -/
theorem Mined.joins (h : Mined d transactions chain) {block : Block} (hblock : block ∈ chain) :
    bridgeDepositLogs block.logs = .ok block.entries ∧
      block.entries.map columnsOf = block.submissions.map (fun p => p.2.columns) ∧
      ∀ entry ∈ block.entries, entry.blockNumber = block.number ∧ entry.blockHash = block.hash := by
  have hown : (block.submissions.map Prod.snd).Sublist (submissions d transactions) := by
    rw [← h.submissions_eq]
    apply List.Sublist.map
    rw [List.flatMap_def]
    exact List.sublist_flatten_of_mem (List.mem_map_of_mem hblock)
  apply block_joins
  · intro call hcall
    exact h.faithful (List.mem_flatMap.mpr ⟨block, hblock, hcall⟩)
  · have hnodup := (hown.map fun s => s.record.nonce).nodup (submissions_nodup d transactions)
    rw [List.map_map] at hnodup
    exact hnodup
  · intro p hp
    exact (submissions_recorded d transactions).admitted p.2
      (hown.subset (List.mem_map_of_mem hp))

/-- The joined deposits of a mined chain are the deposits of the run. -/
theorem Mined.columns_eq (h : Mined d transactions chain) :
    (chain.flatMap Block.entries).map columnsOf =
      (submissions d transactions).map Submitted.columns := by
  rw [← h.submissions_eq, List.map_map, List.map_flatMap, List.map_flatMap]
  apply List.flatMap_congr
  intro block hblock
  exact (h.joins hblock).2.1

/-- A mined chain has different numbers and nonces. -/
theorem Mined.distinct (h : Mined d transactions chain) : Distinct chain := by
  refine ⟨h.numbers, ?_⟩
  have hcolumns := congrArg (List.map fun columns : DepositColumns => columns.nonce.toNat)
    h.columns_eq
  rw [List.map_map, List.map_map] at hcolumns
  have hnonces : (chain.flatMap Block.entries).map (fun entry => entry.nonce.toNat) =
      ((submissions d transactions).map fun s => s.record.nonce).map BitVec.toNat := by
    rw [List.map_map]
    exact hcolumns
  rw [hnonces]
  exact (submissions_nodup d transactions).map fun _ _ => BitVec.eq_of_toNat_eq

end Chains

/-- The rows that are not removed. -/
def Tables.live (t : Tables) : List DepositRow := t.deposits.filter fun row => !row.removed

/-- The live rows of tables that hold a mined chain are the deposits of the run. -/
theorem live_columns {env : Environment} {W : TokenWorld} {d : Deployment env W}
    {transactions : List Transaction} {t : Tables} {chain : List Block} (h : Holds t chain)
    (hmined : Mined d transactions chain) :
    (t.live.map DepositRow.columns).Perm ((submissions d transactions).map Submitted.columns) := by
  have hperm : t.live.Perm ((chain.flatMap Block.entries).map rowOf) := by
    have hentries : ((chain.flatMap Block.entries).map rowOf).Nodup := by
      apply List.Nodup.of_map DepositRow.nonce
      rw [List.map_map]
      exact hmined.distinct.nonces
    refine (List.perm_ext_iff_of_nodup (h.nonces.of_map.filter _) hentries).mpr fun row => ?_
    have hrow := h.deposits row
    rw [List.mem_filter, Bool.not_eq_true', hrow, List.mem_map]
    constructor
    · intro hfound
      obtain ⟨block, hblock, entry, hentry, hsame⟩ := hfound
      exact ⟨entry, List.mem_flatMap.mpr ⟨block, hblock, hentry⟩, hsame.symm⟩
    · intro hfound
      obtain ⟨entry, hentry, hsame⟩ := hfound
      obtain ⟨block, hblock, hown⟩ := List.mem_flatMap.mp hentry
      exact ⟨block, hblock, entry, hown, hsame.symm⟩
  rw [← hmined.columns_eq]
  have hmapped := hperm.map DepositRow.columns
  rw [List.map_map] at hmapped
  exact hmapped

/-- However the indexer stores blocks, rolls back and advances finality, as long as every
chain it follows on the way holds a run of the contracts, its live rows are at the end
the deposits of the run that its chain holds, once each, and these are the deposits of
the bridge's log, each with the accumulator before and after it. -/
theorem indexed_deposits {env : Environment} {W : TokenWorld} (d : Deployment env W)
    (mode : FinalityMode) (steps : List IndexStep)
    (hmined : ∀ first second, steps = first ++ second →
      ∃ earlier, Mined d earlier (indexed mode first).chain)
    {transactions : List Transaction} (hchain : Mined d transactions (indexed mode steps).chain) :
    ((indexed mode steps).tables.live.map DepositRow.columns).Perm
        ((submissions d transactions).map Submitted.columns) ∧
      Recorded env (d.reached transactions) (submissions d transactions) := by
  have hholds := indexed_holds mode steps fun first second hsteps => by
    obtain ⟨earlier, hearlier⟩ := hmined first second hsteps
    exact hearlier.distinct
  exact ⟨live_columns hholds hchain, submissions_recorded d transactions⟩

/-- The parts of a joined deposit that the gateway's jobs read. -/
def gatewayLog (entry : BridgeDepositLog) : GatewayTables.BridgeDepositLog where
  nonce := entry.nonce.toNat
  depositLeaf := entry.depositLeaf
  oldDepositState := entry.oldDepositState
  newDepositState := entry.newDepositState
  blockNumber := entry.blockNumber.toNat
  blockHash := entry.blockHash
  transactionHash := entry.transactionHash
  logIndex := entry.logIndex.toNat

/-- The parts of a row that the gateway's jobs read. -/
def DepositRow.shown (row : DepositRow) : GatewayTables.BridgeDepositLog × Bool :=
  (⟨row.columns.nonce.toNat, row.columns.depositLeaf, row.columns.oldDepositState,
    row.columns.newDepositState, row.position.blockNumber.toNat, row.position.blockHash,
    row.position.transactionHash, row.position.logIndex.toNat⟩, row.removed)

/-- The block as the gateway's database names it. -/
def Block.ref (block : Block) : GatewayTables.BlockRef :=
  ⟨block.number.toNat, block.hash, block.parentHash⟩

/-- The row of a block in the gateway's database. -/
def BlockRow.shown (row : BlockRow) : GatewayTables.BlockRow :=
  ⟨⟨row.number.toNat, row.hash, row.parentHash⟩, row.finalized, row.canonical⟩

/-- The gateway's database shows the tables. -/
structure Shows (db : GatewayTables.Database) (t : Tables) : Prop where
  /-- Its deposits are those of the table, beside what its jobs wrote to them. -/
  deposits : ChainRecords.depositLogs db = t.deposits.map DepositRow.shown
  /-- Its blocks are those of the table. -/
  blocks : db.blocks = t.blocks.map BlockRow.shown

/-- A checked deposit is one of the gateway's database. -/
theorem insertDeposit_shown {block : Block} {deposits after : List DepositRow}
    {entry : BridgeDepositLog} {rows : List GatewayTables.BridgeDepositRow}
    (hshown : (rows.map fun row => (row.log, row.removed)) = deposits.map DepositRow.shown)
    (h : insertDeposit block deposits entry = .ok after) :
    ∃ next, GatewayIndexer.insertDeposit block.ref rows (gatewayLog entry) = .ok next ∧
      (next.map fun row => (row.log, row.removed)) = after.map DepositRow.shown := by
  simp only [insertDeposit, require_bind_eq_ok, pure_eq_ok] at h
  obtain ⟨⟨hnumber, hhash⟩, ⟨hnonce, -, hheight, hindex⟩, -, hfree, hafter⟩ := h
  have hplace : ∀ row ∈ rows, row.log.nonce ≠ (gatewayLog entry).nonce →
      (row.log.transactionHash, row.log.logIndex) ≠
        ((gatewayLog entry).transactionHash, (gatewayLog entry).logIndex) := by
    intro row hrow hother hsame
    have hmember : (row.log, row.removed) ∈ deposits.map DepositRow.shown :=
      hshown ▸ List.mem_map_of_mem hrow
    obtain ⟨old, hold, hview⟩ := List.mem_map.mp hmember
    have hlog : old.shown.1 = row.log := congrArg Prod.fst hview
    rw [← hlog] at hother hsame
    have hkey : old.columns.nonce ≠ entry.nonce := fun heq => hother (congrArg BitVec.toNat heq)
    have hhashes := (Prod.mk.inj hsame).1
    have hindexes := BitVec.eq_of_toNat_eq (Prod.mk.inj hsame).2
    exact hfree old hold hkey (Prod.ext hhashes hindexes)
  refine ⟨_, require_bind_eq_ok.mpr ⟨⟨congrArg BitVec.toNat hnumber, hhash⟩,
    require_bind_eq_ok.mpr ⟨⟨hnonce, hheight, hindex⟩,
      require_bind_eq_ok.mpr ⟨hplace, rfl⟩⟩⟩, ?_⟩
  have hkey : ∀ first second : DepositRow, first.shown.1.nonce = second.shown.1.nonce ↔
      first.nonce = second.nonce := fun _ _ => Iff.rfl
  have hview : (upsert DepositRow.nonce deposits (rowOf entry)).map DepositRow.shown =
      upsert (fun shown : GatewayTables.BridgeDepositLog × Bool => shown.1.nonce)
        (deposits.map DepositRow.shown) (rowOf entry).shown :=
    map_upsert _ DepositRow.shown hkey _ _
  rw [← ChainRecords.logs_upsertDeposit, hshown, ← hafter, hview]
  rfl

/-- The checked deposits of a block are those of the gateway's database. -/
theorem foldlM_insertDeposit_shown {block : Block} {entries : List BridgeDepositLog}
    {deposits after : List DepositRow} {rows : List GatewayTables.BridgeDepositRow}
    (hshown : (rows.map fun row => (row.log, row.removed)) = deposits.map DepositRow.shown)
    (h : entries.foldlM (insertDeposit block) deposits = .ok after) :
    ∃ next, (entries.map gatewayLog).foldlM (GatewayIndexer.insertDeposit block.ref) rows =
        .ok next ∧
      (next.map fun row => (row.log, row.removed)) = after.map DepositRow.shown := by
  induction entries generalizing deposits rows with
  | nil =>
    rw [List.foldlM_nil, pure_eq_ok] at h
    rw [← h]
    exact ⟨rows, rfl, hshown⟩
  | cons entry entries ih =>
    rw [List.foldlM_cons, bind_eq_ok] at h
    obtain ⟨middle, hinsert, hrest⟩ := h
    obtain ⟨stored, hstored, hmiddle⟩ := insertDeposit_shown hshown hinsert
    obtain ⟨next, hnext, hafter⟩ := ih hmiddle hrest
    refine ⟨next, ?_, hafter⟩
    rw [List.map_cons, List.foldlM_cons]
    exact bind_eq_ok.mpr ⟨stored, hstored, hnext⟩

/-- A checked block is one of the gateway's database. -/
theorem insertBlock_shown {blocks after : List BlockRow} {block : Block}
    (h : insertBlock blocks block = .ok after) :
    GatewayIndexer.insertBlock (blocks.map BlockRow.shown) block.ref =
      .ok (after.map BlockRow.shown) := by
  simp only [insertBlock, require_bind_eq_ok, pure_eq_ok] at h
  obtain ⟨hheight, hfree, hafter⟩ := h
  have hhash : ∀ row ∈ blocks.map BlockRow.shown, row.block.number ≠ block.ref.number →
      row.block.hash ≠ block.ref.hash := by
    intro row hrow hother
    obtain ⟨old, hold, hview⟩ := List.mem_map.mp hrow
    rw [← hview] at hother ⊢
    exact hfree old hold fun heq => hother (congrArg BitVec.toNat heq)
  have hkey : ∀ first second : BlockRow, first.shown.block.number = second.shown.block.number ↔
      first.number = second.number := by
    intro first second
    constructor
    · intro heq
      exact BitVec.eq_of_toNat_eq heq
    · intro heq
      exact congrArg BitVec.toNat heq
  have hview : (upsert BlockRow.number blocks ⟨block.number, block.hash, block.parentHash, true,
      false⟩).map BlockRow.shown =
      upsert (fun row : GatewayTables.BlockRow => row.block.number) (blocks.map BlockRow.shown)
        ⟨block.ref, false, true⟩ := map_upsert _ BlockRow.shown hkey _ _
  refine require_bind_eq_ok.mpr ⟨hheight, require_bind_eq_ok.mpr ⟨hhash, ?_⟩⟩
  rw [← hafter, hview]
  rfl

/-- The gateway's database follows when a block is stored: it accepts the joined deposits
and shows the new tables. -/
theorem Shows.store {db : GatewayTables.Database} {t after : Tables} {block : Block}
    (hshows : Shows db t) (h : indexBridgeDeposits t block = .ok after) :
    ∃ next, GatewayIndexer.indexBridgeDeposits db block.ref (block.entries.map gatewayLog) =
      .ok next ∧ Shows next after := by
  simp only [indexBridgeDeposits, bind_eq_ok, pure_eq_ok] at h
  obtain ⟨entries, hentries, deposits, hdeposits, blocks, hblocks, hafter⟩ := h
  have hown : block.entries = entries := by
    rw [Block.entries, hentries]
    rfl
  obtain ⟨rows, hrows, hshown⟩ := foldlM_insertDeposit_shown hshows.deposits hdeposits
  have hstored := insertBlock_shown hblocks
  rw [← hshows.blocks] at hstored
  refine ⟨{ db with deposits := rows, blocks := blocks.map BlockRow.shown }, ?_, ?_⟩
  · rw [hown]
    exact bind_eq_ok.mpr ⟨rows, hrows, bind_eq_ok.mpr ⟨_, hstored, rfl⟩⟩
  · rw [← hafter]
    exact ⟨hshown, rfl⟩

/-- The gateway's database follows a rollback: it allows it, and whatever the rollback does to
the jobs, it shows the new tables. -/
theorem Shows.rollback {state : GatewayTables.AppState} {db : GatewayTables.Database}
    {t after : Tables} {ancestor : BitVec 64} (hshows : Shows db t)
    (h : rollbackCanonicalChain state.ethereumFinalityMode t ancestor = .ok after) :
    GatewayIndexer.rollbackAllowed state db ancestor.toNat ∧ ∀ now next,
      GatewayIndexer.rollbackAfter db now ancestor.toNat = .ok next → Shows next after := by
  rw [rollbackCanonicalChain, require_bind_eq_ok, pure_eq_ok] at h
  obtain ⟨hallowed, hafter⟩ := h
  constructor
  · intro hmode row hrow hcanonical hfinalized
    rw [hshows.blocks] at hrow
    obtain ⟨old, hold, hview⟩ := List.mem_map.mp hrow
    rw [← hview] at hcanonical hfinalized ⊢
    exact hallowed hmode old hold hcanonical hfinalized
  · intro now next hnext
    obtain ⟨hblocks, hlogs⟩ := ChainRecords.rollbackAfter_chain hnext
    rw [← hafter]
    constructor
    · rw [hlogs, hshows.deposits, updateWhere, List.map_map, List.map_map]
      apply List.map_congr_left
      intro row _
      by_cases habove : row.removed = false ∧ ancestor < row.position.blockNumber
      · have hmark : ancestor.toNat < row.position.blockNumber.toNat := habove.2
        simp only [Function.comp, if_pos habove]
        simp [ChainRecords.removeLog, DepositRow.shown, hmark]
      · simp only [Function.comp, if_neg habove]
        cases hremoved : row.removed with
        | true => simp [ChainRecords.removeLog, DepositRow.shown, hremoved]
        | false =>
          have hbelow : ¬ ancestor.toNat < row.position.blockNumber.toNat :=
            fun hlt => habove ⟨hremoved, hlt⟩
          simp [ChainRecords.removeLog, DepositRow.shown, hremoved, hbelow]
    · rw [hblocks, hshows.blocks]
      exact (updateWhere_map BlockRow.shown (fun _ => Iff.rfl) fun _ _ => rfl).symm

/-- The gateway's database follows a change of finality. -/
theorem Shows.finalize {db : GatewayTables.Database} {t : Tables} (hshows : Shows db t)
    (finalizedThrough : Option (BitVec 64)) :
    Shows (GatewayIndexer.storeFinality db (finalizedThrough.map BitVec.toNat))
      (advanceFinality t finalizedThrough) := by
  refine ⟨hshows.deposits, ?_⟩
  rw [GatewayIndexer.storeFinality, advanceFinality, hshows.blocks, updateWhere, List.map_map,
    List.map_map]
  apply List.map_congr_left
  intro row _
  cases finalizedThrough with
  | none => rfl
  | some height => rfl

/-- A block with one transaction that holds accepted calls. -/
def minedBlock (env : Environment) {W : TokenWorld} (number : BitVec 64)
    (hash parentHash transactionHash : Bytes32) (entries : List (Chain W × Transaction)) :
    Block where
  number := number
  hash := hash
  parentHash := parentHash
  receipts := [⟨transactionHash, (entries.map (leaves env)).zipIdx.map fun entry =>
    entry.1.zipIdx.map fun event => (BitVec.ofNat 64 (16 * entry.2 + event.2), event.1)⟩]

/-- The block holds the events of the calls. -/
theorem minedBlock_calls (env : Environment) {W : TokenWorld} (number : BitVec 64)
    (hash parentHash transactionHash : Bytes32) (entries : List (Chain W × Transaction)) :
    ((minedBlock env number hash parentHash transactionHash entries).calls.map fun call =>
      call.2.map Prod.snd) = entries.map (leaves env) := by
  rw [Block.calls, minedBlock, List.flatMap_singleton, List.map_map, List.map_map]
  have hlogs : (fun entry : List ChainEvent × ℕ => entry.1) =
      (fun call : CallLogs => call.2.map Prod.snd) ∘ (fun logs => (transactionHash, logs)) ∘
        fun entry : List ChainEvent × ℕ => entry.1.zipIdx.map fun event =>
          (BitVec.ofNat 64 (16 * entry.2 + event.2), event.1) := by
    funext entry
    simp only [Function.comp, List.map_map]
    exact (List.zipIdx_map_fst 0 entry.1).symm
  exact (congrArg (fun f => List.map f (entries.map (leaves env)).zipIdx) hlogs.symm).trans
    (List.zipIdx_map_fst 0 _)

/-- The run of a chain that is given up: its deposit is another one. -/
def staleRun : List Transaction := setup.take 2 ++ [⟨⟨depositor, 1000⟩, .depositETH 6000000000 3⟩]

/-- A deposit after those of the setup. -/
def furtherDeposit : List Transaction := [⟨⟨depositor, 1000⟩, .depositETH 7000000000 3⟩]

/-- The first block of the chain that is given up. -/
def staleBlock : Block := minedBlock environment 1 0xdead 0xb0 0x57 (deployment.history staleRun)

/-- The block of the setup, in its place. -/
def firstBlock : Block := minedBlock environment 1 0xb10c 0xb0 0x7a (deployment.history setup)

/-- The block of the further deposit. -/
def secondBlock : Block := minedBlock environment 2 0xb20c 0xb10c 0x7b
  (accepted (step environment) (deployment.reached setup) furtherDeposit)

/-- A concrete index: it follows the first chain, gives it up, follows the other one beyond
the setup, and finds its first block final. -/
def setupSteps : List IndexStep :=
  [.store staleBlock, .rollback 0, .store firstBlock, .store secondBlock, .finalize (some 1)]

/-- The steps of the concrete index all go through. -/
theorem setupSteps_stored :
    Succeeds (setupSteps.foldlM (indexStep .confirmations) ⟨⟨[], []⟩, []⟩) := by
  decide +kernel

/-- Steps that all go through move the chain that the index follows. -/
theorem chain_of_foldlM {mode : FinalityMode} {steps : List IndexStep} {s : Indexer}
    (h : Succeeds (steps.foldlM (indexStep mode) s)) :
    (run (indexStep mode) s steps).chain = steps.foldl follow s.chain := by
  induction steps generalizing s with
  | nil => rfl
  | cons step steps ih =>
    rw [List.foldlM_cons, succeeds_bind] at h
    obtain ⟨next, hnext, hrest⟩ := h
    rw [run_cons, exec_of_ok hnext, ih hrest, List.foldl_cons]
    simp only [indexStep, bind_eq_ok, pure_eq_ok] at hnext
    obtain ⟨tables, -, hsame⟩ := hnext
    rw [← hsame]

/-- The concrete index follows mined chains, at last that of the run with the further
deposit. -/
theorem setupSteps_mined :
    (∀ first second, setupSteps = first ++ second →
      ∃ earlier, Mined deployment earlier (indexed .confirmations first).chain) ∧
    Mined deployment (setup ++ furtherDeposit) (indexed .confirmations setupSteps).chain := by
  have hchains : ∀ first second, setupSteps = first ++ second →
      (indexed .confirmations first).chain = first.foldl follow [] := by
    intro first second hsplit
    have hstored := setupSteps_stored
    rw [hsplit, List.foldlM_append, succeeds_bind] at hstored
    obtain ⟨reached, hreached, -⟩ := hstored
    exact chain_of_foldlM ⟨reached, hreached⟩
  have hnil : Mined deployment [] [] := ⟨List.nodup_nil, rfl⟩
  have hstale : Mined deployment staleRun [staleBlock] := by
    refine ⟨List.nodup_singleton _, ?_⟩
    rw [List.flatMap_singleton]
    exact minedBlock_calls _ _ _ _ _ _
  have hfirst : Mined deployment setup [firstBlock] := by
    refine ⟨List.nodup_singleton _, ?_⟩
    rw [List.flatMap_singleton]
    exact minedBlock_calls _ _ _ _ _ _
  have hsecond : Mined deployment (setup ++ furtherDeposit) [firstBlock, secondBlock] := by
    refine ⟨by decide, ?_⟩
    have hhistory : deployment.history (setup ++ furtherDeposit) = deployment.history setup ++
        accepted (step environment) (deployment.reached setup) furtherDeposit :=
      accepted_append _ _ _
    rw [List.flatMap_cons, List.flatMap_singleton, List.map_append, hhistory, List.map_append]
    exact congrArg₂ _ (minedBlock_calls _ _ _ _ _ _) (minedBlock_calls _ _ _ _ _ _)
  constructor
  · intro first second hsplit
    rw [hchains first second hsplit]
    have hprefix : first ∈ setupSteps.inits := (List.mem_inits _ _).mpr ⟨second, hsplit.symm⟩
    simp only [setupSteps, List.inits, List.map_cons, List.map_nil, List.mem_cons, List.not_mem_nil,
      or_false] at hprefix
    rcases hprefix with rfl | rfl | rfl | rfl | rfl | rfl
    · exact ⟨[], hnil⟩
    · exact ⟨staleRun, hstale⟩
    · exact ⟨[], hnil⟩
    · exact ⟨setup, hfirst⟩
    · exact ⟨_, hsecond⟩
    · exact ⟨_, hsecond⟩
  · rw [hchains setupSteps [] (List.append_nil _).symm]
    exact hsecond

/-- The concrete index holds the three deposits of the chain that it follows at last. -/
theorem indexed_deposits_setup :
    ((indexed .confirmations setupSteps).tables.live.map DepositRow.columns).Perm
      ((submissions deployment (setup ++ furtherDeposit)).map Submitted.columns) :=
  (indexed_deposits deployment .confirmations setupSteps setupSteps_mined.1
    setupSteps_mined.2).1

end EthereumSettlement.DepositTable
