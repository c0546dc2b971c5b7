import Mathlib.Data.List.AList
import EthereumSettlement.InnerActionCommitment
import EthereumSettlement.KeyedTables

/-!
# Deposit logs of a block

A deposit of a token leaves up to three events: the deposit itself, the identity of its
token, and the registry record of that identity. The indexer reads them in one query
and joins them by transaction and nonce through a mutable map: identities are inserted,
registry records are added to them, and every deposit removes its own. The join depends
on no order but that of the deposits.
-/

namespace EthereumSettlement.DepositLogJoin

open CheckedCalls InnerActionCommitment PastaPoseidon

/-- `BridgeDeposit`. -/
structure BridgeDeposit where
  /-- Number of the deposit. -/
  nonce : BitVec 64
  /-- Leaf of the deposit in its accumulator. -/
  depositLeaf : Bytes32
  /-- Accumulator after the deposit. -/
  newDepositState : Bytes32
  /-- Accumulator before the deposit. -/
  oldDepositState : Bytes32
  /-- Address of the token, zero for ether. -/
  token : Address
  /-- Account that sends the transaction. -/
  sender : Address
  /-- Mina key that receives the deposit, as the contract packs it. -/
  zekoRecipient : Bytes32
  /-- Amount on Ethereum. -/
  amount : Bytes32
  /-- Amount on Zeko. -/
  zekoAmount : Bytes32
  /-- Timeout slot on Zeko. -/
  timeout : BitVec 64
  deriving DecidableEq

/-- `ERC20DepositSubmitted`. -/
structure ERC20DepositSubmitted where
  /-- Number of the deposit. -/
  nonce : BitVec 64
  /-- Identifier of the asset. -/
  assetId : Bytes32
  /-- Leaf of the deposit in its accumulator. -/
  depositLeaf : Bytes32
  /-- Accumulator after the deposit. -/
  newDepositState : Bytes32
  /-- Address of the token, zero for ether. -/
  token : Address
  /-- Account that sends the transaction. -/
  sender : Address
  /-- Mina key that receives the deposit, as the contract packs it. -/
  zekoRecipient : Bytes32
  /-- Amount of the token. -/
  amount : BitVec 64
  /-- Timeout slot on Zeko. -/
  timeout : BitVec 64
  deriving DecidableEq

/-- `ERC20DepositSubmittedV2`. -/
structure ERC20DepositSubmittedV2 extends ERC20DepositSubmitted where
  /-- Version of the encoding of token actions. -/
  encodingVersion : BitVec 32
  /-- Index of the asset's record in the registry. -/
  registryIndex : BitVec 32
  /-- Poseidon commitment of the asset's record. -/
  recordCommitment : Bytes32
  deriving DecidableEq

/-- What a log is by its first topic, with its data where the log decodes. -/
inductive Payload
  | bridgeDeposit (decoded : Option BridgeDeposit)
  | erc20DepositSubmitted (decoded : Option ERC20DepositSubmitted)
  | erc20DepositSubmittedV2 (decoded : Option ERC20DepositSubmittedV2)
  | unexpected (signature : Bytes32)
  | anonymous
  deriving DecidableEq

/-- A log with the metadata that the node sent. -/
structure Log where
  /-- What the log decodes to. -/
  payload : Payload
  /-- Height of its block, once it is mined. -/
  blockNumber : Option (BitVec 64)
  /-- Hash of its block, once it is mined. -/
  blockHash : Option Bytes32
  /-- Its transaction, once it is mined. -/
  transactionHash : Option Bytes32
  /-- Its index in the block, once it is mined. -/
  logIndex : Option (BitVec 64)
  deriving DecidableEq

/-- A transaction hash and a nonce. -/
abbrev Key := Bytes32 × BitVec 64

/-- `ERC20RegistryIdentity`. -/
structure ERC20RegistryIdentity where
  /-- Index of the asset's record in the registry. -/
  registryIndex : BitVec 32
  /-- Poseidon commitment of the asset's record. -/
  recordCommitment : Bytes32
  deriving DecidableEq

/-- `ERC20DepositMetadata`. -/
structure ERC20DepositMetadata where
  /-- Identifier of the asset. -/
  assetId : Bytes32
  /-- Leaf of the deposit in its accumulator. -/
  depositLeaf : Bytes32
  /-- Accumulator after the deposit. -/
  newDepositState : Bytes32
  /-- Address of the token, zero for ether. -/
  token : Address
  /-- Account that sends the transaction. -/
  sender : Address
  /-- Mina key that receives the deposit, as the contract packs it. -/
  zekoRecipient : Bytes32
  /-- Amount of the token. -/
  amount : BitVec 64
  /-- Timeout slot on Zeko. -/
  timeout : BitVec 64
  /-- Registry identity, once its event is seen. -/
  registryIdentity : Option ERC20RegistryIdentity
  deriving DecidableEq

/-- `ERC20DepositIdentity`. -/
inductive ERC20DepositIdentity
  | historicalV1 (assetId : Bytes32)
  | registryV2 (assetId : Bytes32) (registryIndex : BitVec 32) (recordCommitment : Bytes32)
  deriving DecidableEq

/-- `classify_erc20_deposit_identity`. -/
def classifyErc20DepositIdentity (assetId : Bytes32) :
    Option ERC20RegistryIdentity → ERC20DepositIdentity
  | none => .historicalV1 assetId
  | some identity => .registryV2 assetId identity.registryIndex identity.recordCommitment

/-- `BridgeDepositLog`. -/
structure BridgeDepositLog where
  /-- Number of the deposit. -/
  nonce : BitVec 64
  /-- Leaf of the deposit in its accumulator. -/
  depositLeaf : Bytes32
  /-- Accumulator after the deposit. -/
  newDepositState : Bytes32
  /-- Accumulator before the deposit. -/
  oldDepositState : Bytes32
  /-- Address of the token, zero for ether. -/
  token : Address
  /-- Account that sends the transaction. -/
  sender : Address
  /-- Mina key that receives the deposit, as the contract packs it. -/
  zekoRecipient : Bytes32
  /-- Amount on Ethereum. -/
  amount : Bytes32
  /-- Amount on Zeko. -/
  zekoAmount : Bytes32
  /-- Timeout slot on Zeko. -/
  timeout : BitVec 64
  /-- Identity of the asset, for a token deposit. -/
  erc20Identity : Option ERC20DepositIdentity
  /-- Height of the block. -/
  blockNumber : BitVec 64
  /-- Hash of the block. -/
  blockHash : Bytes32
  /-- Hash of the transaction. -/
  transactionHash : Bytes32
  /-- Index of the log in its block. -/
  logIndex : BitVec 64
  deriving DecidableEq

/-- The identities that are waiting for their deposit. -/
abbrev Metadata := AList fun _ : Key => ERC20DepositMetadata

/-- The three vectors of logs. -/
structure Sorted where
  /-- Deposits of all assets. -/
  bridgeLogs : List Log
  /-- Identities of token deposits. -/
  erc20Logs : List Log
  /-- Registry identities of token deposits. -/
  erc20V2Logs : List Log

/-- The log is pushed onto the vector of its event. -/
def sortLog (sorted : Sorted) (log : Log) : Except String Sorted :=
  match log.payload with
  | .bridgeDeposit _ => pure { sorted with bridgeLogs := sorted.bridgeLogs ++ [log] }
  | .erc20DepositSubmitted _ => pure { sorted with erc20Logs := sorted.erc20Logs ++ [log] }
  | .erc20DepositSubmittedV2 _ => pure { sorted with erc20V2Logs := sorted.erc20V2Logs ++ [log] }
  | .unexpected _ => throw "unexpected bridge deposit event"
  | .anonymous => throw "bridge deposit event is missing topic zero"

/-- `log_decode_validate::<BridgeDeposit>`. -/
def Log.bridgeDeposit (log : Log) : Option BridgeDeposit :=
  match log.payload with
  | .bridgeDeposit decoded => decoded
  | _ => none

/-- `log_decode_validate::<ERC20DepositSubmitted>`. -/
def Log.erc20DepositSubmitted (log : Log) : Option ERC20DepositSubmitted :=
  match log.payload with
  | .erc20DepositSubmitted decoded => decoded
  | _ => none

/-- `log_decode_validate::<ERC20DepositSubmittedV2>`. -/
def Log.erc20DepositSubmittedV2 (log : Log) : Option ERC20DepositSubmittedV2 :=
  match log.payload with
  | .erc20DepositSubmittedV2 decoded => decoded
  | _ => none

/-- The key and data of an identity event. -/
def decodeIdentity (log : Log) : Except String (Key × ERC20DepositSubmitted) := do
  let data ← context log.erc20DepositSubmitted "decode ERC20DepositSubmitted log"
  let transactionHash ← context log.transactionHash
    "ERC20DepositSubmitted log missing transaction hash"
  pure ((transactionHash, data.nonce), data)

/-- The metadata that an identity event inserts. -/
def metadataOf (data : ERC20DepositSubmitted) : ERC20DepositMetadata where
  assetId := data.assetId
  depositLeaf := data.depositLeaf
  newDepositState := data.newDepositState
  token := data.token
  sender := data.sender
  zekoRecipient := data.zekoRecipient
  amount := data.amount
  timeout := data.timeout
  registryIdentity := none

/-- An identity is inserted under its key. -/
def insertIdentity (metadata : Metadata) (event : Key × ERC20DepositSubmitted) :
    Except String Metadata := do
  require (event.2.assetId ≠ 0) "ERC20 deposit asset identity is zero"
  let previous := metadata.lookup event.1
  let metadata := metadata.insert event.1 (metadataOf event.2)
  require (previous = none) "duplicate ERC20 deposit identity event"
  pure metadata

/-- The body of the first loop. -/
def recordIdentity (metadata : Metadata) (log : Log) : Except String Metadata := do
  let event ← decodeIdentity log
  insertIdentity metadata event

/-- The key and data of a registry event. -/
def decodeRegistry (log : Log) : Except String (Key × ERC20DepositSubmittedV2) := do
  let data ← context log.erc20DepositSubmittedV2 "decode ERC20DepositSubmittedV2 log"
  let transactionHash ← context log.transactionHash
    "ERC20DepositSubmittedV2 log missing transaction hash"
  pure ((transactionHash, data.nonce), data)

/-- Both identity events carry the same fields. -/
def RegistryAgrees (identity : ERC20DepositMetadata) (data : ERC20DepositSubmittedV2) : Prop :=
  identity.assetId = data.assetId ∧ identity.depositLeaf = data.depositLeaf ∧
    identity.newDepositState = data.newDepositState ∧ identity.token = data.token ∧
    identity.sender = data.sender ∧ identity.zekoRecipient = data.zekoRecipient ∧
    identity.amount = data.amount ∧ identity.timeout = data.timeout

instance (identity : ERC20DepositMetadata) (data : ERC20DepositSubmittedV2) :
    Decidable (RegistryAgrees identity data) := by
  unfold RegistryAgrees
  infer_instance

/-- The registry identity of a registry event. -/
def registryOf (data : ERC20DepositSubmittedV2) : ERC20RegistryIdentity :=
  ⟨data.registryIndex, data.recordCommitment⟩

/-- A registry record is added to the identity of its key. -/
def updateIdentity (metadata : Metadata) (event : Key × ERC20DepositSubmittedV2) :
    Except String Metadata := do
  require (event.2.encodingVersion = erc20ActionEncodingV2)
    "ERC20 deposit has an unsupported action encoding"
  require (event.2.recordCommitment ≠ 0) "ERC20 deposit record commitment is zero"
  let identity ← context (metadata.lookup event.1)
    "registry ERC20 deposit is missing its base identity event"
  require (RegistryAgrees identity event.2) "registry ERC20 deposit identity events disagree"
  require (identity.registryIdentity = none) "duplicate registry ERC20 deposit identity event"
  pure (metadata.insert event.1 { identity with registryIdentity := some (registryOf event.2) })

/-- The body of the second loop. -/
def recordRegistry (metadata : Metadata) (log : Log) : Except String Metadata := do
  let event ← decodeRegistry log
  updateIdentity metadata event

/-- The identity carries the fields of the deposit, whose two amounts are equal. -/
def DepositAgrees (identity : ERC20DepositMetadata) (data : BridgeDeposit) : Prop :=
  identity.depositLeaf = data.depositLeaf ∧ identity.newDepositState = data.newDepositState ∧
    identity.token = data.token ∧ identity.sender = data.sender ∧
    identity.zekoRecipient = data.zekoRecipient ∧ identity.amount.setWidth 256 = data.amount ∧
    data.amount = data.zekoAmount ∧ identity.timeout = data.timeout

instance (identity : ERC20DepositMetadata) (data : BridgeDeposit) :
    Decidable (DepositAgrees identity data) := by
  unfold DepositAgrees
  infer_instance

/-- The identity of a deposit: none for a native one, the removed one for a token. -/
def depositIdentity (identity : Option ERC20DepositMetadata) (data : BridgeDeposit) :
    Except String (Option ERC20DepositIdentity) :=
  if data.token = 0 then do
    require (identity = none) "native deposit has an ERC20 identity event"
    pure none
  else do
    let identity ← context identity "ERC20 deposit is missing its immutable identity event"
    require (DepositAgrees identity data) "BridgeDeposit and ERC20 identity events disagree"
    pure (some (classifyErc20DepositIdentity identity.assetId identity.registryIdentity))

/-- The waiting identities and the deposits found so far. -/
structure Joining where
  /-- Identities that no deposit has used yet. -/
  metadata : Metadata
  /-- Deposits joined so far. -/
  deposits : List BridgeDepositLog

/-- The body of the third loop. -/
def joinDeposit (joining : Joining) (log : Log) : Except String Joining := do
  let data ← context log.bridgeDeposit "decode BridgeDeposit log"
  let transactionHash ← context log.transactionHash "BridgeDeposit log missing transaction hash"
  let identity := joining.metadata.lookup (transactionHash, data.nonce)
  let metadata := joining.metadata.erase (transactionHash, data.nonce)
  let erc20Identity ← depositIdentity identity data
  let blockNumber ← context log.blockNumber "BridgeDeposit log missing block number"
  let blockHash ← context log.blockHash "BridgeDeposit log missing block hash"
  let logIndex ← context log.logIndex "BridgeDeposit log missing log index"
  let deposit : BridgeDepositLog := { data with
    erc20Identity := erc20Identity
    blockNumber := blockNumber
    blockHash := blockHash
    transactionHash := transactionHash
    logIndex := logIndex }
  pure ⟨metadata, joining.deposits ++ [deposit]⟩

/-- `bridge_deposit_logs` on the logs that the node returns. -/
def bridgeDepositLogs (logs : List Log) : Except String (List BridgeDepositLog) := do
  let sorted ← logs.foldlM sortLog ⟨[], [], []⟩
  let metadata ← sorted.erc20Logs.foldlM recordIdentity ∅
  let metadata ← sorted.erc20V2Logs.foldlM recordRegistry metadata
  let joining ← sorted.bridgeLogs.foldlM joinDeposit ⟨metadata, []⟩
  require (joining.metadata.entries = [])
    "ERC20 identity event is missing its BridgeDeposit event"
  pure joining.deposits

/-- The three kinds of deposit events. -/
inductive Kind
  | bridge
  | erc20
  | erc20V2
  deriving DecidableEq

/-- The kind of a log, by its first topic. -/
def Log.kind (log : Log) : Option Kind :=
  match log.payload with
  | .bridgeDeposit _ => some .bridge
  | .erc20DepositSubmitted _ => some .erc20
  | .erc20DepositSubmittedV2 _ => some .erc20V2
  | .unexpected _ => none
  | .anonymous => none

/-- The logs of one kind, in order. -/
def ofKind (kind : Kind) (logs : List Log) : List Log := logs.filter fun log => log.kind = some kind

/-- All logs are deposit events. -/
def Known (logs : List Log) : Prop := ∀ log ∈ logs, log.kind ≠ none

/-- Logs are sorted if all are deposit events, each kind in order. -/
theorem foldlM_sortLog {logs : List Log} {sorted result : Sorted} :
    logs.foldlM sortLog sorted = .ok result ↔
      Known logs ∧ result = ⟨sorted.bridgeLogs ++ ofKind .bridge logs,
        sorted.erc20Logs ++ ofKind .erc20 logs, sorted.erc20V2Logs ++ ofKind .erc20V2 logs⟩ := by
  induction logs generalizing sorted with
  | nil =>
    rw [List.foldlM_nil, pure_eq_ok]
    simp [Known, ofKind, eq_comm]
  | cons log logs ih =>
    have hknown : Known (log :: logs) ↔ log.kind ≠ none ∧ Known logs := List.forall_mem_cons
    rw [List.foldlM_cons, bind_eq_ok, hknown]
    cases hpayload : log.payload <;>
      simp [sortLog, hpayload, Log.kind, ofKind, ih]

/-- A loop that decodes each log before its step runs over the decoded events. -/
theorem foldlM_decode {α β σ : Type} {decode : α → Except String β} {step : σ → β → Except String σ}
    {body : σ → α → Except String σ}
    (h : ∀ state log after, body state log = .ok after ↔
      ∃ event, decode log = .ok event ∧ step state event = .ok after)
    {logs : List α} {state after : σ} :
    logs.foldlM body state = .ok after ↔
      ∃ events, logs.mapM decode = .ok events ∧ events.foldlM step state = .ok after := by
  induction logs generalizing state with
  | nil =>
    rw [List.foldlM_nil, pure_eq_ok]
    constructor
    · intro hafter
      exact ⟨[], rfl, by rw [hafter]; rfl⟩
    · intro hafter
      obtain ⟨events, hevents, hfold⟩ := hafter
      rw [List.mapM_nil, pure_eq_ok] at hevents
      rw [← hevents, List.foldlM_nil, pure_eq_ok] at hfold
      exact hfold
  | cons log logs ih =>
    rw [List.foldlM_cons, bind_eq_ok]
    constructor
    · intro hafter
      obtain ⟨middle, hbody, hfold⟩ := hafter
      obtain ⟨event, hdecode, hstep⟩ := (h state log middle).mp hbody
      obtain ⟨events, hevents, hrest⟩ := ih.mp hfold
      refine ⟨event :: events, ?_, ?_⟩
      · rw [mapM_eq_ok]
        exact .cons hdecode (mapM_eq_ok.mp hevents)
      · rw [List.foldlM_cons, bind_eq_ok]
        exact ⟨middle, hstep, hrest⟩
    · intro hafter
      obtain ⟨events, hevents, hfold⟩ := hafter
      rw [mapM_eq_ok] at hevents
      cases hevents with
      | cons hdecode hrest =>
        rw [List.foldlM_cons, bind_eq_ok] at hfold
        obtain ⟨middle, hstep, htail⟩ := hfold
        exact ⟨middle, (h state log middle).mpr ⟨_, hdecode, hstep⟩,
          ih.mpr ⟨_, mapM_eq_ok.mpr hrest, htail⟩⟩

/-- The data of the first event of a key. -/
def dataAt {α : Type} (events : List (Key × α)) (key : Key) : Option α :=
  (events.find? fun event => event.1 = key).map Prod.snd

/-- The first event of a key is the head, or it is in the tail. -/
theorem dataAt_cons {α : Type} (event : Key × α) (events : List (Key × α)) (key : Key) :
    dataAt (event :: events) key = if event.1 = key then some event.2 else dataAt events key := by
  rw [dataAt, List.find?_cons]
  by_cases hkey : event.1 = key
  · simp [hkey]
  · simp [hkey, dataAt]

/-- Without an event of the key there is no data. -/
theorem dataAt_eq_none {α : Type} {events : List (Key × α)} {key : Key} :
    dataAt events key = none ↔ ∀ event ∈ events, event.1 ≠ key := by
  simp [dataAt]

/-- The data of a key is that of an event. -/
theorem mem_of_dataAt {α : Type} {events : List (Key × α)} {key : Key} {data : α}
    (h : dataAt events key = some data) : (key, data) ∈ events := by
  obtain ⟨event, hevent, hdata⟩ := Option.map_eq_some_iff.mp h
  have hmem := List.mem_of_find?_eq_some hevent
  have hfound := List.find?_some hevent
  have hkey : event.1 = key := by simpa using hfound
  rw [← hkey, ← hdata]
  exact hmem

/-- Among events of pairwise different keys, the data is that of the one event. -/
theorem dataAt_eq_some {α : Type} {events : List (Key × α)} (hn : (events.map Prod.fst).Nodup)
    {key : Key} {data : α} : dataAt events key = some data ↔ (key, data) ∈ events := by
  constructor
  · exact mem_of_dataAt
  · intro h
    cases hfound : dataAt events key with
    | none => exact absurd rfl (dataAt_eq_none.mp hfound _ h)
    | some found =>
      have hsame := KeyedTables.row_eq_of_key hn (mem_of_dataAt hfound) h rfl
      rw [(Prod.mk.inj hsame).2]

/-- Permuted events of pairwise different keys have the same data. -/
theorem dataAt_perm {α : Type} {events others : List (Key × α)} (h : events.Perm others)
    (hn : (events.map Prod.fst).Nodup) : dataAt events = dataAt others := by
  have hothers : (others.map Prod.fst).Nodup := (h.map Prod.fst).nodup_iff.mp hn
  funext key
  apply Option.ext
  intro data
  rw [dataAt_eq_some hn, dataAt_eq_some hothers, h.mem_iff]

/-- One insertion is refused for the zero asset and for a key that is there. -/
theorem insertIdentity_eq_ok {metadata after : Metadata} {event : Key × ERC20DepositSubmitted} :
    insertIdentity metadata event = .ok after ↔ event.2.assetId ≠ 0 ∧
      metadata.lookup event.1 = none ∧ after = metadata.insert event.1 (metadataOf event.2) := by
  rw [insertIdentity, require_bind_eq_ok, require_bind_eq_ok, pure_eq_ok]
  exact and_congr_right' (and_congr_right' eq_comm)

/-- Identity events that a map takes: no zero asset, each key once, none there before. -/
structure Fresh (metadata : Metadata) (events : List (Key × ERC20DepositSubmitted)) : Prop where
  /-- No asset is zero. -/
  assetId : ∀ event ∈ events, event.2.assetId ≠ 0
  /-- Every key comes once. -/
  distinct : (events.map Prod.fst).Nodup
  /-- No key is in the map. -/
  absent : ∀ event ∈ events, metadata.lookup event.1 = none

/-- The head of fresh events is taken, and the tail is fresh behind it. -/
theorem fresh_cons {metadata : Metadata} {event : Key × ERC20DepositSubmitted}
    {events : List (Key × ERC20DepositSubmitted)} :
    Fresh metadata (event :: events) ↔ event.2.assetId ≠ 0 ∧ metadata.lookup event.1 = none ∧
      Fresh (metadata.insert event.1 (metadataOf event.2)) events := by
  constructor
  · intro h
    have hdistinct := h.distinct
    rw [List.map_cons, List.nodup_cons] at hdistinct
    refine ⟨h.assetId event List.mem_cons_self, h.absent event List.mem_cons_self, ?_⟩
    refine ⟨fun other hother => h.assetId other (List.mem_cons_of_mem event hother), hdistinct.2, ?_⟩
    intro other hother
    have hne : other.1 ≠ event.1 := by
      intro heq
      exact hdistinct.1 (by rw [← heq]; exact List.mem_map_of_mem hother)
    rw [AList.lookup_insert_ne hne]
    exact h.absent other (List.mem_cons_of_mem event hother)
  · intro h
    obtain ⟨hasset, habsent, hrest⟩ := h
    have hne : ∀ other ∈ events, other.1 ≠ event.1 := by
      intro other hother heq
      have hnone := hrest.absent other hother
      rw [heq, AList.lookup_insert] at hnone
      cases hnone
    refine ⟨List.forall_mem_cons.mpr ⟨hasset, hrest.assetId⟩, ?_, ?_⟩
    · rw [List.map_cons, List.nodup_cons]
      refine ⟨?_, hrest.distinct⟩
      intro hmem
      obtain ⟨other, hother, heq⟩ := List.mem_map.mp hmem
      exact hne other hother heq
    · refine List.forall_mem_cons.mpr ⟨habsent, fun other hother => ?_⟩
      have hnone := hrest.absent other hother
      rwa [AList.lookup_insert_ne (hne other hother)] at hnone

/-- The first loop runs through fresh events only. -/
theorem insertIdentities_succeeds {events : List (Key × ERC20DepositSubmitted)} {metadata : Metadata} :
    Succeeds (events.foldlM insertIdentity metadata) ↔ Fresh metadata events := by
  induction events generalizing metadata with
  | nil =>
    constructor
    · intro _
      exact ⟨by simp, by simp, by simp⟩
    · intro _
      exact ⟨metadata, rfl⟩
  | cons event events ih =>
    rw [List.foldlM_cons, fresh_cons, ← ih]
    constructor
    · intro h
      obtain ⟨after, hafter⟩ := h
      obtain ⟨middle, hstep, hrest⟩ := bind_eq_ok.mp hafter
      obtain ⟨hasset, habsent, hmiddle⟩ := insertIdentity_eq_ok.mp hstep
      rw [hmiddle] at hrest
      exact ⟨hasset, habsent, after, hrest⟩
    · intro h
      obtain ⟨hasset, habsent, after, hrest⟩ := h
      exact ⟨after, bind_eq_ok.mpr ⟨_, insertIdentity_eq_ok.mpr ⟨hasset, habsent, rfl⟩, hrest⟩⟩

/-- The first loop adds each event under its key. -/
theorem lookup_insertIdentities {events : List (Key × ERC20DepositSubmitted)}
    {metadata after : Metadata} (h : events.foldlM insertIdentity metadata = .ok after) (key : Key) :
    after.lookup key = (metadata.lookup key).or ((dataAt events key).map metadataOf) := by
  induction events generalizing metadata with
  | nil =>
    rw [List.foldlM_nil, pure_eq_ok] at h
    rw [← h]
    cases metadata.lookup key <;> rfl
  | cons event events ih =>
    rw [List.foldlM_cons, bind_eq_ok] at h
    obtain ⟨middle, hstep, hrest⟩ := h
    obtain ⟨-, habsent, hmiddle⟩ := insertIdentity_eq_ok.mp hstep
    rw [ih hrest, hmiddle, dataAt_cons]
    by_cases hkey : event.1 = key
    · rw [if_pos hkey, ← hkey, AList.lookup_insert, habsent]
      rfl
    · rw [if_neg hkey, AList.lookup_insert_ne (Ne.symm hkey)]

/-- An identity with the record of a registry event. -/
def register (identity : ERC20DepositMetadata) (data : ERC20DepositSubmittedV2) :
    ERC20DepositMetadata :=
  { identity with registryIdentity := some (registryOf data) }

/-- A registry event has an identity that agrees with it and has no record yet. -/
def Based (metadata : Metadata) (event : Key × ERC20DepositSubmittedV2) : Prop :=
  ∃ identity, metadata.lookup event.1 = some identity ∧ RegistryAgrees identity event.2 ∧
    identity.registryIdentity = none

/-- One update is refused for another encoding, the zero commitment, and where there is no
identity that agrees and has no record. -/
theorem updateIdentity_eq_ok {metadata after : Metadata} {event : Key × ERC20DepositSubmittedV2} :
    updateIdentity metadata event = .ok after ↔
      event.2.encodingVersion = erc20ActionEncodingV2 ∧ event.2.recordCommitment ≠ 0 ∧
        ∃ identity, metadata.lookup event.1 = some identity ∧ RegistryAgrees identity event.2 ∧
          identity.registryIdentity = none ∧
          metadata.insert event.1 (register identity event.2) = after := by
  simp only [updateIdentity, bind_eq_ok, require_eq_ok, context_eq_ok, pure_eq_ok, register, exists_const]

/-- Registry events that a map takes. -/
structure Recordable (metadata : Metadata) (events : List (Key × ERC20DepositSubmittedV2)) : Prop where
  /-- Every event has the second encoding. -/
  encodingVersion : ∀ event ∈ events, event.2.encodingVersion = erc20ActionEncodingV2
  /-- No commitment is zero. -/
  recordCommitment : ∀ event ∈ events, event.2.recordCommitment ≠ 0
  /-- Every key comes once. -/
  distinct : (events.map Prod.fst).Nodup
  /-- Every event has its identity in the map. -/
  based : ∀ event ∈ events, Based metadata event

/-- The head of recordable events is taken, and the tail is recordable behind it. -/
theorem recordable_cons {metadata : Metadata} {event : Key × ERC20DepositSubmittedV2}
    {events : List (Key × ERC20DepositSubmittedV2)} :
    Recordable metadata (event :: events) ↔ ∃ after, updateIdentity metadata event = .ok after ∧
      Recordable after events := by
  constructor
  · intro h
    have hdistinct := h.distinct
    rw [List.map_cons, List.nodup_cons] at hdistinct
    obtain ⟨identity, hlookup, hagrees, hnone⟩ := h.based event List.mem_cons_self
    have hversion := h.encodingVersion event List.mem_cons_self
    have hcommitment := h.recordCommitment event List.mem_cons_self
    refine ⟨_, updateIdentity_eq_ok.mpr ⟨hversion, hcommitment, identity, hlookup, hagrees, hnone, rfl⟩,
      ?_⟩
    refine ⟨fun other hother => h.encodingVersion other (List.mem_cons_of_mem event hother),
      fun other hother => h.recordCommitment other (List.mem_cons_of_mem event hother),
      hdistinct.2, ?_⟩
    intro other hother
    have hne : other.1 ≠ event.1 := by
      intro heq
      exact hdistinct.1 (by rw [← heq]; exact List.mem_map_of_mem hother)
    obtain ⟨found, hfound, hrest⟩ := h.based other (List.mem_cons_of_mem event hother)
    exact ⟨found, by rw [AList.lookup_insert_ne hne]; exact hfound, hrest⟩
  · intro h
    obtain ⟨after, hupdate, hrest⟩ := h
    obtain ⟨hversion, hcommitment, identity, hlookup, hagrees, hnone, hafter⟩ :=
      updateIdentity_eq_ok.mp hupdate
    have hne : ∀ other ∈ events, other.1 ≠ event.1 := by
      intro other hother heq
      obtain ⟨found, hfound, -, hfresh⟩ := hrest.based other hother
      rw [← hafter, heq, AList.lookup_insert] at hfound
      rw [← Option.some.inj hfound, register] at hfresh
      cases hfresh
    refine ⟨List.forall_mem_cons.mpr ⟨hversion, hrest.encodingVersion⟩,
      List.forall_mem_cons.mpr ⟨hcommitment, hrest.recordCommitment⟩, ?_, ?_⟩
    · rw [List.map_cons, List.nodup_cons]
      refine ⟨?_, hrest.distinct⟩
      intro hmem
      obtain ⟨other, hother, heq⟩ := List.mem_map.mp hmem
      exact hne other hother heq
    · refine List.forall_mem_cons.mpr ⟨⟨identity, hlookup, hagrees, hnone⟩, fun other hother => ?_⟩
      obtain ⟨found, hfound, hother'⟩ := hrest.based other hother
      rw [← hafter, AList.lookup_insert_ne (hne other hother)] at hfound
      exact ⟨found, hfound, hother'⟩

/-- The second loop runs through recordable events only. -/
theorem updateIdentities_succeeds {events : List (Key × ERC20DepositSubmittedV2)}
    {metadata : Metadata} :
    Succeeds (events.foldlM updateIdentity metadata) ↔ Recordable metadata events := by
  induction events generalizing metadata with
  | nil =>
    constructor
    · intro _
      exact ⟨by simp, by simp, by simp, by simp⟩
    · intro _
      exact ⟨metadata, rfl⟩
  | cons event events ih =>
    rw [List.foldlM_cons, recordable_cons]
    constructor
    · intro h
      obtain ⟨after, hafter⟩ := h
      obtain ⟨middle, hstep, hrest⟩ := bind_eq_ok.mp hafter
      exact ⟨middle, hstep, ih.mp ⟨after, hrest⟩⟩
    · intro h
      obtain ⟨middle, hstep, hrest⟩ := h
      obtain ⟨after, hafter⟩ := ih.mpr hrest
      exact ⟨after, bind_eq_ok.mpr ⟨middle, hstep, hafter⟩⟩

/-- An identity with the record of a registry event, if there is one. -/
def registerOptional (data : Option ERC20DepositSubmittedV2) (identity : ERC20DepositMetadata) :
    ERC20DepositMetadata :=
  match data with
  | some data => register identity data
  | none => identity

/-- The second loop adds the record of each event to the identity of its key. -/
theorem lookup_updateIdentities {events : List (Key × ERC20DepositSubmittedV2)}
    {metadata after : Metadata} (h : events.foldlM updateIdentity metadata = .ok after) (key : Key) :
    after.lookup key = (metadata.lookup key).map (registerOptional (dataAt events key)) := by
  induction events generalizing metadata with
  | nil =>
    rw [List.foldlM_nil, pure_eq_ok] at h
    rw [← h]
    cases metadata.lookup key <;> rfl
  | cons event events ih =>
    have hrecordable := updateIdentities_succeeds.mp ⟨after, h⟩
    have hdistinct := hrecordable.distinct
    rw [List.map_cons, List.nodup_cons] at hdistinct
    rw [List.foldlM_cons, bind_eq_ok] at h
    obtain ⟨middle, hstep, hrest⟩ := h
    obtain ⟨-, -, identity, hlookup, -, -, hmiddle⟩ := updateIdentity_eq_ok.mp hstep
    rw [ih hrest, ← hmiddle, dataAt_cons]
    by_cases hkey : event.1 = key
    · have habsent : dataAt events key = none := by
        rw [dataAt_eq_none]
        intro other hother heq
        exact hdistinct.1 (by rw [hkey, ← heq]; exact List.mem_map_of_mem hother)
      rw [if_pos hkey, habsent, ← hkey, AList.lookup_insert, hlookup]
      rfl
    · rw [if_neg hkey, AList.lookup_insert_ne (Ne.symm hkey)]

/-- A decoded deposit log with its metadata. -/
structure Deposit where
  /-- Hash of the transaction. -/
  transactionHash : Bytes32
  /-- The decoded event. -/
  data : BridgeDeposit
  /-- Height of the block. -/
  blockNumber : BitVec 64
  /-- Hash of the block. -/
  blockHash : Bytes32
  /-- Index of the log in its block. -/
  logIndex : BitVec 64
  deriving DecidableEq

/-- The key of a deposit. -/
def Deposit.key (deposit : Deposit) : Key := (deposit.transactionHash, deposit.data.nonce)

/-- The entry of a deposit with an identity. -/
def Deposit.entry (deposit : Deposit) (erc20Identity : Option ERC20DepositIdentity) :
    BridgeDepositLog :=
  { deposit.data with
    erc20Identity := erc20Identity
    blockNumber := deposit.blockNumber
    blockHash := deposit.blockHash
    transactionHash := deposit.transactionHash
    logIndex := deposit.logIndex }

/-- The decoded deposit of a log. -/
def decodeDeposit (log : Log) : Except String Deposit := do
  let data ← context log.bridgeDeposit "decode BridgeDeposit log"
  let transactionHash ← context log.transactionHash "BridgeDeposit log missing transaction hash"
  let blockNumber ← context log.blockNumber "BridgeDeposit log missing block number"
  let blockHash ← context log.blockHash "BridgeDeposit log missing block hash"
  let logIndex ← context log.logIndex "BridgeDeposit log missing log index"
  pure ⟨transactionHash, data, blockNumber, blockHash, logIndex⟩

/-- The step of the third loop on a decoded deposit. -/
def applyDeposit (joining : Joining) (deposit : Deposit) : Except String Joining := do
  let erc20Identity ← depositIdentity (joining.metadata.lookup deposit.key) deposit.data
  pure ⟨joining.metadata.erase deposit.key, joining.deposits ++ [deposit.entry erc20Identity]⟩

/-- The body of the third loop decodes its log and takes that step. -/
theorem joinDeposit_eq_ok (joining : Joining) (log : Log) (after : Joining) :
    joinDeposit joining log = .ok after ↔
      ∃ deposit, decodeDeposit log = .ok deposit ∧ applyDeposit joining deposit = .ok after := by
  simp only [joinDeposit, decodeDeposit, applyDeposit, bind_eq_ok, context_eq_ok, pure_eq_ok]
  constructor
  · intro h
    obtain ⟨data, hdata, hash, hhash, identity, hidentity, number, hnumber, block, hblock, index,
      hindex, hafter⟩ := h
    exact ⟨⟨hash, data, number, block, index⟩, ⟨data, hdata, hash, hhash, number, hnumber, block,
      hblock, index, hindex, rfl⟩, identity, hidentity, hafter⟩
  · intro h
    obtain ⟨deposit, ⟨data, hdata, hash, hhash, number, hnumber, block, hblock, index, hindex,
      hdeposit⟩, identity, hidentity, hafter⟩ := h
    rw [← hdeposit] at hidentity hafter
    exact ⟨data, hdata, hash, hhash, identity, hidentity, number, hnumber, block, hblock, index,
      hindex, hafter⟩

/-- The identity fits the deposit: none for a native one, one that agrees for a token. -/
def Fits (identity : Option ERC20DepositMetadata) (data : BridgeDeposit) : Prop :=
  match identity with
  | some identity => data.token ≠ 0 ∧ DepositAgrees identity data
  | none => data.token = 0

/-- The identity that an entry shows. -/
def shown (identity : Option ERC20DepositMetadata) (data : BridgeDeposit) :
    Option ERC20DepositIdentity :=
  if data.token = 0 then none
  else identity.map fun identity =>
    classifyErc20DepositIdentity identity.assetId identity.registryIdentity

/-- The identity of a deposit is found if it fits. -/
theorem depositIdentity_eq_ok {identity : Option ERC20DepositMetadata} {data : BridgeDeposit}
    {result : Option ERC20DepositIdentity} :
    depositIdentity identity data = .ok result ↔ Fits identity data ∧ result = shown identity data := by
  by_cases htoken : data.token = 0
  · rw [depositIdentity, if_pos htoken, require_bind_eq_ok, pure_eq_ok, shown, if_pos htoken]
    cases identity with
    | none => simp [Fits, htoken, eq_comm]
    | some identity => simp [Fits, htoken]
  · rw [depositIdentity, if_neg htoken, shown, if_neg htoken]
    cases identity with
    | none =>
      rw [bind_eq_ok]
      constructor
      · intro h
        obtain ⟨found, hfound, -⟩ := h
        cases hfound
      · intro h
        exact absurd h.1 htoken
    | some identity =>
      simp only [bind_eq_ok, context_eq_ok, require_eq_ok, pure_eq_ok, exists_const, Fits]
      constructor
      · intro h
        obtain ⟨found, hfound, hagrees, hresult⟩ := h
        rw [← Option.some.inj hfound] at hagrees hresult
        exact ⟨⟨htoken, hagrees⟩, hresult.symm⟩
      · intro h
        exact ⟨identity, rfl, h.1.2, h.2.symm⟩

/-- The deposits whose key none of the seen ones and no earlier one has. -/
def firsts (seen : List Key) : List Deposit → List Deposit
  | [] => []
  | deposit :: deposits =>
    if deposit.key ∈ seen then firsts seen deposits
    else deposit :: firsts (deposit.key :: seen) deposits

/-- The other deposits. -/
def repeats (seen : List Key) : List Deposit → List Deposit
  | [] => []
  | deposit :: deposits =>
    if deposit.key ∈ seen then deposit :: repeats seen deposits
    else repeats (deposit.key :: seen) deposits

/-- What is left of a table when some keys were removed. -/
def Left (metadata : Metadata) (table : Key → Option ERC20DepositMetadata) (seen : List Key) : Prop :=
  ∀ key, metadata.lookup key = if key ∈ seen then none else table key

/-- Removing another key. -/
theorem left_erase {metadata : Metadata} {table : Key → Option ERC20DepositMetadata}
    {seen : List Key} (h : Left metadata table seen) (key : Key) :
    Left (metadata.erase key) table (key :: seen) := by
  intro other
  by_cases hkey : other = key
  · rw [hkey, AList.lookup_erase, if_pos List.mem_cons_self]
  · rw [AList.lookup_erase_ne hkey, h other]
    simp [hkey]

/-- A key that was removed can be removed again. -/
theorem left_of_mem {metadata : Metadata} {table : Key → Option ERC20DepositMetadata}
    {seen : List Key} {key : Key} (hkey : key ∈ seen) (h : Left metadata table (key :: seen)) :
    Left metadata table seen := by
  intro other
  rw [h other]
  by_cases hother : other = key
  · rw [hother, if_pos List.mem_cons_self, if_pos hkey]
  · simp [hother]

/-- The entries of deposits over a table of identities. -/
def entriesOf (table : Key → Option ERC20DepositMetadata) (deposits : List Deposit) :
    List BridgeDepositLog :=
  deposits.map fun deposit => deposit.entry (shown (table deposit.key) deposit.data)

/-- The deposits fit a table: the first one of each key its identity, and every repeated
one none. -/
def AllFit (table : Key → Option ERC20DepositMetadata) (seen : List Key)
    (deposits : List Deposit) : Prop :=
  (∀ deposit ∈ firsts seen deposits, Fits (table deposit.key) deposit.data) ∧
    ∀ deposit ∈ repeats seen deposits, deposit.data.token = 0

/-- The third loop runs through deposits that fit, adds their entries and removes their
identities. -/
theorem applyDeposits_eq_ok {deposits : List Deposit} {joining after : Joining}
    {table : Key → Option ERC20DepositMetadata} {seen : List Key}
    (h : Left joining.metadata table seen) :
    deposits.foldlM applyDeposit joining = .ok after →
      AllFit table seen deposits ∧ after.deposits = joining.deposits ++ entriesOf table deposits ∧
        Left after.metadata table ((deposits.map Deposit.key).reverse ++ seen) := by
  induction deposits generalizing joining seen with
  | nil =>
    intro hfold
    rw [List.foldlM_nil, pure_eq_ok] at hfold
    rw [← hfold]
    exact ⟨⟨by simp [firsts], by simp [repeats]⟩, by simp [entriesOf], h⟩
  | cons deposit deposits ih =>
    intro hfold
    rw [List.foldlM_cons, bind_eq_ok] at hfold
    obtain ⟨middle, hstep, hrest⟩ := hfold
    simp only [applyDeposit, bind_eq_ok, pure_eq_ok] at hstep
    obtain ⟨identity, hidentity, hmiddle⟩ := hstep
    obtain ⟨hfits, hshown⟩ := depositIdentity_eq_ok.mp hidentity
    have hleft : Left middle.metadata table (deposit.key :: seen) := by
      rw [← hmiddle]
      exact left_erase h deposit.key
    obtain ⟨hall, hentries, hremoved⟩ := ih hleft hrest
    rw [h deposit.key] at hfits hshown
    have hkeys : ((deposit :: deposits).map Deposit.key).reverse ++ seen =
        (deposits.map Deposit.key).reverse ++ deposit.key :: seen := by
      simp
    have hshown' : identity = shown (table deposit.key) deposit.data := by
      by_cases hseen : deposit.key ∈ seen
      · rw [if_pos hseen] at hfits hshown
        have htoken : deposit.data.token = 0 := hfits
        rw [hshown, shown, shown, if_pos htoken, if_pos htoken]
      · rw [if_neg hseen] at hshown
        exact hshown
    refine ⟨?_, ?_, by rw [hkeys]; exact hremoved⟩
    · by_cases hseen : deposit.key ∈ seen
      · obtain ⟨hall, -, -⟩ := ih (left_of_mem hseen hleft) hrest
        rw [if_pos hseen] at hfits
        rw [AllFit, firsts, if_pos hseen, repeats, if_pos hseen]
        exact ⟨hall.1, List.forall_mem_cons.mpr ⟨hfits, hall.2⟩⟩
      · rw [if_neg hseen] at hfits
        rw [AllFit, firsts, if_neg hseen, repeats, if_neg hseen]
        exact ⟨List.forall_mem_cons.mpr ⟨hfits, hall.1⟩, hall.2⟩
    · rw [hentries, ← hmiddle, hshown', entriesOf, entriesOf, List.map_cons, List.append_assoc]
      rfl

/-- The third loop runs through all deposits that fit. -/
theorem applyDeposits_succeeds {deposits : List Deposit} {metadata : Metadata}
    {table : Key → Option ERC20DepositMetadata} {seen : List Key} (found : List BridgeDepositLog)
    (h : Left metadata table seen) (hall : AllFit table seen deposits) :
    Succeeds (deposits.foldlM applyDeposit ⟨metadata, found⟩) := by
  induction deposits generalizing metadata found seen with
  | nil => exact ⟨⟨metadata, found⟩, rfl⟩
  | cons deposit deposits ih =>
    have hleft := left_erase h deposit.key
    have hstep : ∀ identity, depositIdentity (metadata.lookup deposit.key) deposit.data =
        .ok identity → applyDeposit ⟨metadata, found⟩ deposit = .ok ⟨metadata.erase deposit.key,
          found ++ [deposit.entry identity]⟩ := by
      intro identity hidentity
      exact bind_eq_ok.mpr ⟨identity, hidentity, rfl⟩
    rw [h deposit.key] at hstep
    rw [AllFit, firsts, repeats] at hall
    by_cases hseen : deposit.key ∈ seen
    · rw [if_pos hseen, if_pos hseen] at hall
      have htoken := hall.2 deposit List.mem_cons_self
      rw [if_pos hseen] at hstep
      have hnone := hstep _ (depositIdentity_eq_ok.mpr ⟨htoken, rfl⟩)
      have hrest : AllFit table seen deposits :=
        ⟨hall.1, fun other hother => hall.2 other (List.mem_cons_of_mem deposit hother)⟩
      obtain ⟨after, hafter⟩ := ih _ (left_of_mem hseen hleft) hrest
      exact ⟨after, bind_eq_ok.mpr ⟨_, hnone, hafter⟩⟩
    · rw [if_neg hseen, if_neg hseen] at hall
      have hfits := hall.1 deposit List.mem_cons_self
      rw [if_neg hseen] at hstep
      have hsome := hstep _ (depositIdentity_eq_ok.mpr ⟨hfits, rfl⟩)
      have hrest : AllFit table (deposit.key :: seen) deposits :=
        ⟨fun other hother => hall.1 other (List.mem_cons_of_mem deposit hother), hall.2⟩
      obtain ⟨after, hafter⟩ := ih _ hleft hrest
      exact ⟨after, bind_eq_ok.mpr ⟨_, hsome, hafter⟩⟩

/-- The identities that the first two loops leave for the third. -/
def tableOf (identities : List (Key × ERC20DepositSubmitted))
    (registries : List (Key × ERC20DepositSubmittedV2)) (key : Key) :
    Option ERC20DepositMetadata :=
  ((dataAt identities key).map metadataOf).map (registerOptional (dataAt registries key))

/-- Decoded events that join. -/
structure Joinable (identities : List (Key × ERC20DepositSubmitted))
    (registries : List (Key × ERC20DepositSubmittedV2)) (deposits : List Deposit) : Prop where
  /-- No asset is zero. -/
  assetId : ∀ event ∈ identities, event.2.assetId ≠ 0
  /-- Every identity key comes once. -/
  distinct : (identities.map Prod.fst).Nodup
  /-- Every registry event has the second encoding. -/
  encodingVersion : ∀ event ∈ registries, event.2.encodingVersion = erc20ActionEncodingV2
  /-- No commitment is zero. -/
  recordCommitment : ∀ event ∈ registries, event.2.recordCommitment ≠ 0
  /-- Every registry key comes once. -/
  registryDistinct : (registries.map Prod.fst).Nodup
  /-- Every registry event agrees with its identity. -/
  based : ∀ event ∈ registries, ∃ identity ∈ identities, identity.1 = event.1 ∧
    RegistryAgrees (metadataOf identity.2) event.2
  /-- Every deposit fits the identity under its key. -/
  fit : AllFit (tableOf identities registries) [] deposits
  /-- Every identity has its deposit. -/
  used : ∀ event ∈ identities, ∃ deposit ∈ deposits, deposit.key = event.1

/-- A map without entries holds nothing. -/
theorem entries_eq_nil {metadata : Metadata} :
    metadata.entries = [] ↔ ∀ key, metadata.lookup key = none := by
  constructor
  · intro h key
    have hempty : metadata = ∅ := AList.ext h
    rw [hempty, AList.lookup_empty]
  · intro h
    apply List.eq_nil_iff_forall_not_mem.mpr
    intro entry hentry
    have hkey : entry.1 ∈ metadata := List.mem_map_of_mem hentry
    exact absurd (h entry.1) (by rw [AList.lookup_eq_none]; exact not_not_intro hkey)

/-- Recordable events behind the first loop have an identity event of their key. -/
theorem recordable_iff {identities : List (Key × ERC20DepositSubmitted)} {metadata : Metadata}
    {registries : List (Key × ERC20DepositSubmittedV2)} (hn : (identities.map Prod.fst).Nodup)
    (h : ∀ key, metadata.lookup key = (dataAt identities key).map metadataOf) :
    Recordable metadata registries ↔
      (∀ event ∈ registries, event.2.encodingVersion = erc20ActionEncodingV2) ∧
        (∀ event ∈ registries, event.2.recordCommitment ≠ 0) ∧ (registries.map Prod.fst).Nodup ∧
        ∀ event ∈ registries, ∃ identity ∈ identities, identity.1 = event.1 ∧
          RegistryAgrees (metadataOf identity.2) event.2 := by
  have hbased : ∀ event, Based metadata event ↔ ∃ identity ∈ identities, identity.1 = event.1 ∧
      RegistryAgrees (metadataOf identity.2) event.2 := by
    intro event
    rw [Based, h event.1]
    constructor
    · intro hfound
      obtain ⟨found, hlookup, hagrees, -⟩ := hfound
      obtain ⟨data, hdata, hsame⟩ := Option.map_eq_some_iff.mp hlookup
      rw [← hsame] at hagrees
      exact ⟨_, mem_of_dataAt hdata, rfl, hagrees⟩
    · intro hfound
      obtain ⟨identity, hmem, hkey, hagrees⟩ := hfound
      have hdata : dataAt identities event.1 = some identity.2 := by
        rw [dataAt_eq_some hn, ← hkey]
        exact hmem
      exact ⟨metadataOf identity.2, by rw [hdata]; rfl, hagrees, rfl⟩
  constructor
  · intro hr
    exact ⟨hr.encodingVersion, hr.recordCommitment, hr.distinct,
      fun event hevent => (hbased event).mp (hr.based event hevent)⟩
  · intro hr
    exact ⟨hr.1, hr.2.1, hr.2.2.1, fun event hevent => (hbased event).mpr (hr.2.2.2 event hevent)⟩

/-- All loops on decoded events. -/
def joinEvents (identities : List (Key × ERC20DepositSubmitted))
    (registries : List (Key × ERC20DepositSubmittedV2)) (deposits : List Deposit) :
    Except String (List BridgeDepositLog) := do
  let metadata ← identities.foldlM insertIdentity ∅
  let metadata ← registries.foldlM updateIdentity metadata
  let joining ← deposits.foldlM applyDeposit ⟨metadata, []⟩
  require (joining.metadata.entries = [])
    "ERC20 identity event is missing its BridgeDeposit event"
  pure joining.deposits

/-- Decoded events are joined if they are joinable, into an entry for each deposit. -/
theorem joinEvents_eq_ok {identities : List (Key × ERC20DepositSubmitted)}
    {registries : List (Key × ERC20DepositSubmittedV2)} {deposits : List Deposit}
    {result : List BridgeDepositLog} :
    joinEvents identities registries deposits = .ok result ↔
      Joinable identities registries deposits ∧
        result = entriesOf (tableOf identities registries) deposits := by
  constructor
  · intro h
    simp only [joinEvents, bind_eq_ok, require_eq_ok, exists_const, pure_eq_ok] at h
    obtain ⟨first, hfirst, second, hsecond, joining, hjoining, hempty, hresult⟩ := h
    have hfresh := insertIdentities_succeeds.mp ⟨first, hfirst⟩
    have hlookup : ∀ key, first.lookup key = (dataAt identities key).map metadataOf := by
      intro key
      rw [lookup_insertIdentities hfirst, AList.lookup_empty, Option.none_or]
    have hrecordable := (recordable_iff hfresh.distinct hlookup).mp
      (updateIdentities_succeeds.mp ⟨second, hsecond⟩)
    have htable : Left second (tableOf identities registries) [] := by
      intro key
      rw [lookup_updateIdentities hsecond, hlookup, if_neg List.not_mem_nil, tableOf]
    obtain ⟨hall, hentries, hleft⟩ := applyDeposits_eq_ok htable hjoining
    refine ⟨⟨hfresh.assetId, hfresh.distinct, hrecordable.1, hrecordable.2.1, hrecordable.2.2.1,
      hrecordable.2.2.2, hall, ?_⟩, ?_⟩
    · intro event hevent
      by_contra hunused
      have hkey : event.1 ∉ (deposits.map Deposit.key).reverse ++ [] := by
        simp only [List.append_nil, List.mem_reverse, List.mem_map]
        exact hunused
      have hdata : dataAt identities event.1 = some event.2 := by
        rw [dataAt_eq_some hfresh.distinct]
        exact hevent
      have hnone := entries_eq_nil.mp hempty event.1
      rw [hleft event.1, if_neg hkey, tableOf, hdata] at hnone
      cases hnone
    · rw [← hresult, hentries, List.nil_append]
  · intro h
    obtain ⟨hjoin, hresult⟩ := h
    obtain ⟨first, hfirst⟩ := insertIdentities_succeeds.mpr
      (⟨hjoin.assetId, hjoin.distinct, fun event _ => AList.lookup_empty event.1⟩ :
        Fresh ∅ identities)
    have hlookup : ∀ key, first.lookup key = (dataAt identities key).map metadataOf := by
      intro key
      rw [lookup_insertIdentities hfirst, AList.lookup_empty, Option.none_or]
    obtain ⟨second, hsecond⟩ := updateIdentities_succeeds.mpr
      ((recordable_iff hjoin.distinct hlookup).mpr ⟨hjoin.encodingVersion, hjoin.recordCommitment,
        hjoin.registryDistinct, hjoin.based⟩)
    have htable : Left second (tableOf identities registries) [] := by
      intro key
      rw [lookup_updateIdentities hsecond, hlookup, if_neg List.not_mem_nil, tableOf]
    obtain ⟨joining, hjoining⟩ := applyDeposits_succeeds [] htable hjoin.fit
    obtain ⟨-, hentries, hleft⟩ := applyDeposits_eq_ok htable hjoining
    have hempty : joining.metadata.entries = [] := by
      rw [entries_eq_nil]
      intro key
      rw [hleft key]
      by_cases hkey : key ∈ (deposits.map Deposit.key).reverse ++ []
      · rw [if_pos hkey]
      · rw [if_neg hkey, tableOf, Option.map_eq_none_iff, Option.map_eq_none_iff, dataAt_eq_none]
        intro event hevent heq
        obtain ⟨deposit, hdeposit, hsame⟩ := hjoin.used event hevent
        refine hkey ?_
        rw [List.append_nil, List.mem_reverse, List.mem_map]
        exact ⟨deposit, hdeposit, hsame.trans heq⟩
    simp only [joinEvents, bind_eq_ok, require_eq_ok, exists_const, pure_eq_ok]
    refine ⟨first, hfirst, second, hsecond, joining, hjoining, hempty, ?_⟩
    rw [hresult, hentries, List.nil_append]

/-- The logs of a block are joined if all are deposit events that decode, and the decoded
events are joined. -/
theorem bridgeDepositLogs_eq_ok {logs : List Log} {result : List BridgeDepositLog} :
    bridgeDepositLogs logs = .ok result ↔
      Known logs ∧ ∃ identities registries deposits,
        (ofKind .erc20 logs).mapM decodeIdentity = .ok identities ∧
        (ofKind .erc20V2 logs).mapM decodeRegistry = .ok registries ∧
        (ofKind .bridge logs).mapM decodeDeposit = .ok deposits ∧
        joinEvents identities registries deposits = .ok result := by
  have hidentity : ∀ state log after, recordIdentity state log = .ok after ↔
      ∃ event, decodeIdentity log = .ok event ∧ insertIdentity state event = .ok after := by
    intro state log after
    rw [recordIdentity, bind_eq_ok]
  have hregistry : ∀ state log after, recordRegistry state log = .ok after ↔
      ∃ event, decodeRegistry log = .ok event ∧ updateIdentity state event = .ok after := by
    intro state log after
    rw [recordRegistry, bind_eq_ok]
  simp only [bridgeDepositLogs, joinEvents, bind_eq_ok, require_eq_ok, exists_const, pure_eq_ok,
    foldlM_sortLog, List.nil_append, foldlM_decode hidentity, foldlM_decode hregistry,
    foldlM_decode joinDeposit_eq_ok]
  constructor
  · intro h
    obtain ⟨sorted, ⟨hknown, hsorted⟩, first, ⟨identities, hidentities, hfirst⟩, second,
      ⟨registries, hregistries, hsecond⟩, joining, ⟨deposits, hdeposits, hjoining⟩, hrest⟩ := h
    rw [hsorted] at hidentities hregistries hdeposits
    exact ⟨hknown, identities, registries, deposits, hidentities, hregistries, hdeposits, first,
      hfirst, second, hsecond, joining, hjoining, hrest⟩
  · intro h
    obtain ⟨hknown, identities, registries, deposits, hidentities, hregistries, hdeposits, first,
      hfirst, second, hsecond, joining, hjoining, hrest⟩ := h
    exact ⟨_, ⟨hknown, rfl⟩, first, ⟨identities, hidentities, hfirst⟩, second,
      ⟨registries, hregistries, hsecond⟩, joining, ⟨deposits, hdeposits, hjoining⟩, hrest⟩

/-- Logs whose kinds are in the same orders give the same result. -/
theorem bridgeDepositLogs_congr {logs others : List Log} (hlogs : Known logs) (hothers : Known others)
    (h : ∀ kind, ofKind kind logs = ofKind kind others) :
    bridgeDepositLogs logs = bridgeDepositLogs others := by
  have hsorted : logs.foldlM sortLog ⟨[], [], []⟩ = others.foldlM sortLog ⟨[], [], []⟩ := by
    rw [foldlM_sortLog.mpr ⟨hlogs, rfl⟩, foldlM_sortLog.mpr ⟨hothers, rfl⟩, h .bridge, h .erc20,
      h .erc20V2]
  rw [bridgeDepositLogs, bridgeDepositLogs, hsorted]

/-- Permuted logs decode to permuted events. -/
theorem mapM_perm {α : Type} {decode : Log → Except String α} {logs others : List Log}
    (h : logs.Perm others) {events : List α} (hevents : logs.mapM decode = .ok events) :
    ∃ permuted, others.mapM decode = .ok permuted ∧ events.Perm permuted := by
  rw [mapM_eq_ok] at hevents
  obtain ⟨permuted, hpermuted, hperm⟩ := List.perm_comp_forall₂ h.symm hevents
  exact ⟨permuted, mapM_eq_ok.mpr hpermuted, hperm.symm⟩

/-- Joinability does not depend on the order of the identity events. -/
theorem Joinable.perm {identities others : List (Key × ERC20DepositSubmitted)}
    {registries records : List (Key × ERC20DepositSubmittedV2)} {deposits : List Deposit}
    (h : Joinable identities registries deposits) (hi : identities.Perm others)
    (hr : registries.Perm records) :
    Joinable others records deposits ∧ tableOf identities registries = tableOf others records := by
  have htable : tableOf identities registries = tableOf others records := by
    funext key
    rw [tableOf, tableOf, dataAt_perm hi h.distinct, dataAt_perm hr h.registryDistinct]
  refine ⟨⟨?_, ?_, ?_, ?_, ?_, ?_, ?_, ?_⟩, htable⟩
  · exact fun event hevent => h.assetId event (hi.mem_iff.mpr hevent)
  · exact (hi.map Prod.fst).nodup_iff.mp h.distinct
  · exact fun event hevent => h.encodingVersion event (hr.mem_iff.mpr hevent)
  · exact fun event hevent => h.recordCommitment event (hr.mem_iff.mpr hevent)
  · exact (hr.map Prod.fst).nodup_iff.mp h.registryDistinct
  · intro event hevent
    obtain ⟨identity, hidentity, hbased⟩ := h.based event (hr.mem_iff.mpr hevent)
    exact ⟨identity, hi.mem_iff.mp hidentity, hbased⟩
  · rw [← htable]
    exact h.fit
  · exact fun event hevent => h.used event (hi.mem_iff.mpr hevent)

/-- Permuted logs in which the deposits keep their order are joined into the same entries. -/
theorem bridgeDepositLogs_of_perm {logs others : List Log} (h : logs.Perm others)
    (hdeposits : ofKind .bridge logs = ofKind .bridge others) {result : List BridgeDepositLog}
    (hresult : bridgeDepositLogs logs = .ok result) : bridgeDepositLogs others = .ok result := by
  obtain ⟨hknown, identities, registries, deposits, hi, hr, hd, hjoin⟩ :=
    bridgeDepositLogs_eq_ok.mp hresult
  have hothers : Known others := fun log hlog => hknown log (h.mem_iff.mpr hlog)
  obtain ⟨permuted, hpermuted, hperm⟩ := mapM_perm (h.filter _) hi
  obtain ⟨records, hrecords, hrecordPerm⟩ := mapM_perm (h.filter _) hr
  rw [hdeposits] at hd
  obtain ⟨hjoinable, hentries⟩ := joinEvents_eq_ok.mp hjoin
  obtain ⟨hsame, htable⟩ := hjoinable.perm hperm hrecordPerm
  rw [htable] at hentries
  exact bridgeDepositLogs_eq_ok.mpr ⟨hothers, permuted, records, deposits, hpermuted, hrecords, hd,
    joinEvents_eq_ok.mpr ⟨hsame, hentries⟩⟩

/-- The entry of a deposit log: a native deposit shows no identity, and a token shows that
of the one identity event of its transaction and nonce, which agrees with it, with the
record of the one registry event if there is one. -/
def EntryOf (identities : List (Key × ERC20DepositSubmitted))
    (registries : List (Key × ERC20DepositSubmittedV2)) (log : Log) (entry : BridgeDepositLog) :
    Prop :=
  ∃ deposit, decodeDeposit log = .ok deposit ∧
    ((deposit.data.token = 0 ∧ entry = deposit.entry none) ∨
      (deposit.data.token ≠ 0 ∧ ∃ identity registry,
        (∀ data, (deposit.key, data) ∈ identities ↔ data = identity) ∧
        (∀ data, (deposit.key, data) ∈ registries ↔ some data = registry) ∧
        DepositAgrees (metadataOf identity) deposit.data ∧
        entry = deposit.entry (some (classifyErc20DepositIdentity identity.assetId
          (registry.map registryOf)))))

/-- Every deposit is the first of its key or a repeated one. -/
theorem mem_firsts_or_repeats {deposits : List Deposit} {deposit : Deposit} (seen : List Key) :
    deposit ∈ deposits ↔ deposit ∈ firsts seen deposits ∨ deposit ∈ repeats seen deposits := by
  induction deposits generalizing seen with
  | nil => simp [firsts, repeats]
  | cons head deposits ih =>
    rw [firsts, repeats]
    by_cases hseen : head.key ∈ seen
    · rw [if_pos hseen, if_pos hseen, List.mem_cons, List.mem_cons, ih seen]
      exact or_left_comm
    · rw [if_neg hseen, if_neg hseen, List.mem_cons, List.mem_cons, ih (head.key :: seen),
        or_assoc]

/-- The registry record changes nothing that a deposit is compared with. -/
theorem depositAgrees_register (registry : Option ERC20DepositSubmittedV2)
    (identity : ERC20DepositMetadata) (data : BridgeDeposit) :
    DepositAgrees (registerOptional registry identity) data ↔ DepositAgrees identity data := by
  cases registry <;> rfl

/-- What the table holds for a key. -/
theorem tableOf_eq_some {identities : List (Key × ERC20DepositSubmitted)}
    (registries : List (Key × ERC20DepositSubmittedV2)) {key : Key} {data : ERC20DepositSubmitted}
    (h : dataAt identities key = some data) :
    tableOf identities registries key =
      some (registerOptional (dataAt registries key) (metadataOf data)) := by
  rw [tableOf, h]
  rfl

/-- The table holds nothing for a key without an identity event. -/
theorem tableOf_eq_none {identities : List (Key × ERC20DepositSubmitted)}
    (registries : List (Key × ERC20DepositSubmittedV2)) {key : Key}
    (h : dataAt identities key = none) : tableOf identities registries key = none := by
  rw [tableOf, h]
  rfl

/-- The identity that an entry shows carries the record of the registry event. -/
theorem classify_register (registry : Option ERC20DepositSubmittedV2) (data : ERC20DepositSubmitted) :
    classifyErc20DepositIdentity (registerOptional registry (metadataOf data)).assetId
        (registerOptional registry (metadataOf data)).registryIdentity =
      classifyErc20DepositIdentity data.assetId (registry.map registryOf) := by
  cases registry <;> rfl

/-- The entries of joined events. -/
theorem entryOf_joined {identities : List (Key × ERC20DepositSubmitted)}
    {registries : List (Key × ERC20DepositSubmittedV2)} {deposits : List Deposit}
    (h : Joinable identities registries deposits) {log : Log} {deposit : Deposit}
    (hmem : deposit ∈ deposits) (hdecode : decodeDeposit log = .ok deposit) :
    EntryOf identities registries log
      (deposit.entry (shown (tableOf identities registries deposit.key) deposit.data)) := by
  refine ⟨deposit, hdecode, ?_⟩
  by_cases htoken : deposit.data.token = 0
  · exact Or.inl ⟨htoken, by rw [shown, if_pos htoken]⟩
  · have hfirst : deposit ∈ firsts [] deposits := by
      rcases (mem_firsts_or_repeats []).mp hmem with hfirst | hrepeat
      · exact hfirst
      · exact absurd (h.fit.2 deposit hrepeat) htoken
    have hfits := h.fit.1 deposit hfirst
    refine Or.inr ⟨htoken, ?_⟩
    cases hdata : dataAt identities deposit.key with
    | none =>
      rw [tableOf_eq_none registries hdata] at hfits
      exact absurd hfits htoken
    | some identity =>
      have htable := tableOf_eq_some registries hdata
      rw [htable] at hfits ⊢
      refine ⟨identity, dataAt registries deposit.key, fun data => ?_, fun data => ?_, ?_, ?_⟩
      · rw [← dataAt_eq_some h.distinct, hdata, Option.some.injEq]
        exact eq_comm
      · rw [← dataAt_eq_some h.registryDistinct]
        exact eq_comm
      · exact (depositAgrees_register _ _ _).mp hfits.2
      · rw [shown, if_neg htoken, Option.map_some, classify_register]

/-- Joined logs give one entry for each deposit log, in order. -/
theorem entries_of_joined {logs : List Log} {result : List BridgeDepositLog}
    (h : bridgeDepositLogs logs = .ok result) :
    ∃ identities registries, (ofKind .erc20 logs).mapM decodeIdentity = .ok identities ∧
      (ofKind .erc20V2 logs).mapM decodeRegistry = .ok registries ∧
      List.Forall₂ (EntryOf identities registries) (ofKind .bridge logs) result := by
  obtain ⟨-, identities, registries, deposits, hi, hr, hd, hjoin⟩ := bridgeDepositLogs_eq_ok.mp h
  obtain ⟨hjoinable, hresult⟩ := joinEvents_eq_ok.mp hjoin
  refine ⟨identities, registries, hi, hr, ?_⟩
  have hforall : List.Forall₂ (fun log deposit => deposit ∈ deposits ∧
      decodeDeposit log = .ok deposit) (ofKind .bridge logs) deposits := by
    have hdecoded := mapM_eq_ok.mp hd
    have hmem : ∀ log deposit, (log, deposit) ∈ (ofKind .bridge logs).zip deposits →
        deposit ∈ deposits := fun _ _ hpair => (List.of_mem_zip hpair).2
    rw [List.forall₂_iff_zip] at hdecoded ⊢
    exact ⟨hdecoded.1, fun hpair => ⟨hmem _ _ hpair, hdecoded.2 hpair⟩⟩
  rw [hresult, entriesOf, List.forall₂_map_right_iff]
  refine hforall.imp fun log deposit hdeposit => ?_
  exact entryOf_joined hjoinable hdeposit.1 hdeposit.2

/-- Where a log is in the chain. -/
structure Position where
  /-- Height of the block. -/
  blockNumber : BitVec 64
  /-- Hash of the block. -/
  blockHash : Bytes32
  /-- Hash of the transaction. -/
  transactionHash : Bytes32
  /-- Index of the log in its block. -/
  logIndex : BitVec 64
  deriving DecidableEq

/-- The data of a deposit event. -/
inductive EventData
  | bridgeDeposit (data : BridgeDeposit)
  | erc20DepositSubmitted (data : ERC20DepositSubmitted)
  | erc20DepositSubmittedV2 (data : ERC20DepositSubmittedV2)
  deriving DecidableEq

/-- A deposit event that decodes, with full metadata. -/
structure Event where
  /-- Where the event is. -/
  position : Position
  /-- What it decodes to. -/
  data : EventData
  deriving DecidableEq

/-- The log of an event. -/
def Event.log (event : Event) : Log where
  payload :=
    match event.data with
    | .bridgeDeposit data => .bridgeDeposit (some data)
    | .erc20DepositSubmitted data => .erc20DepositSubmitted (some data)
    | .erc20DepositSubmittedV2 data => .erc20DepositSubmittedV2 (some data)
  blockNumber := some event.position.blockNumber
  blockHash := some event.position.blockHash
  transactionHash := some event.position.transactionHash
  logIndex := some event.position.logIndex

/-- The deposit of an event. -/
def Event.deposit (event : Event) : Option Deposit :=
  match event.data with
  | .bridgeDeposit data => some ⟨event.position.transactionHash, data, event.position.blockNumber,
      event.position.blockHash, event.position.logIndex⟩
  | _ => none

/-- The identity of an event. -/
def Event.identity (event : Event) : Option (Key × ERC20DepositSubmitted) :=
  match event.data with
  | .erc20DepositSubmitted data => some ((event.position.transactionHash, data.nonce), data)
  | _ => none

/-- The registry record of an event. -/
def Event.registry (event : Event) : Option (Key × ERC20DepositSubmittedV2) :=
  match event.data with
  | .erc20DepositSubmittedV2 data => some ((event.position.transactionHash, data.nonce), data)
  | _ => none

/-- Events are deposit events. -/
theorem known_log (events : List Event) : Known (events.map Event.log) := by
  intro log hlog
  obtain ⟨event, -, hevent⟩ := List.mem_map.mp hlog
  rw [← hevent]
  rcases event with ⟨position, data⟩
  cases data <;> simp [Event.log, Log.kind]

/-- One kind of logs decodes to its events if each log of the kind does and no other event
counts. -/
theorem mapM_ofKind {α : Type} {kind : Kind} {decode : Log → Except String α}
    {part : Event → Option α}
    (hsome : ∀ event found, part event = some found →
      event.log.kind = some kind ∧ decode event.log = .ok found)
    (hnone : ∀ event, part event = none → event.log.kind ≠ some kind) (events : List Event) :
    (ofKind kind (events.map Event.log)).mapM decode = .ok (events.filterMap part) := by
  rw [mapM_eq_ok]
  induction events with
  | nil => exact .nil
  | cons event events ih =>
    rw [List.map_cons, ofKind, List.filter_cons]
    cases hpart : part event with
    | none =>
      rw [if_neg (by simpa using hnone event hpart), List.filterMap_cons_none hpart]
      exact ih
    | some found =>
      obtain ⟨hkind, hdecode⟩ := hsome event found hpart
      rw [if_pos (by simpa using hkind), List.filterMap_cons_some hpart]
      exact .cons hdecode ih

/-- The log of an identity event decodes to it, and no other log is of its kind. -/
theorem identity_log (event : Event) :
    (∀ found, event.identity = some found →
      event.log.kind = some .erc20 ∧ decodeIdentity event.log = .ok found) ∧
    (event.identity = none → event.log.kind ≠ some .erc20) := by
  rcases event with ⟨position, data⟩
  cases data <;> simp [Event.identity, Event.log, Log.kind, decodeIdentity, context,
    Log.erc20DepositSubmitted]

/-- The log of a registry event decodes to it, and no other log is of its kind. -/
theorem registry_log (event : Event) :
    (∀ found, event.registry = some found →
      event.log.kind = some .erc20V2 ∧ decodeRegistry event.log = .ok found) ∧
    (event.registry = none → event.log.kind ≠ some .erc20V2) := by
  rcases event with ⟨position, data⟩
  cases data <;> simp [Event.registry, Event.log, Log.kind, decodeRegistry, context,
    Log.erc20DepositSubmittedV2]

/-- The log of a deposit decodes to it, and no other log is of its kind. -/
theorem deposit_log (event : Event) :
    (∀ found, event.deposit = some found →
      event.log.kind = some .bridge ∧ decodeDeposit event.log = .ok found) ∧
    (event.deposit = none → event.log.kind ≠ some .bridge) := by
  rcases event with ⟨position, data⟩
  cases data <;> simp [Event.deposit, Event.log, Log.kind, decodeDeposit, context, Log.bridgeDeposit]

/-- The logs of full events are joined as the events are. -/
theorem bridgeDepositLogs_events {events : List Event} {result : List BridgeDepositLog} :
    bridgeDepositLogs (events.map Event.log) = .ok result ↔
      joinEvents (events.filterMap Event.identity) (events.filterMap Event.registry)
        (events.filterMap Event.deposit) = .ok result := by
  have hidentities := mapM_ofKind (fun event => (identity_log event).1)
    (fun event => (identity_log event).2) events
  have hregistries := mapM_ofKind (fun event => (registry_log event).1)
    (fun event => (registry_log event).2) events
  have hdeposits := mapM_ofKind (fun event => (deposit_log event).1)
    (fun event => (deposit_log event).2) events
  rw [bridgeDepositLogs_eq_ok, hidentities, hregistries, hdeposits]
  constructor
  · intro h
    obtain ⟨-, identities, registries, deposits, hi, hr, hd, hjoin⟩ := h
    rw [Except.ok.inj hi, Except.ok.inj hr, Except.ok.inj hd]
    exact hjoin
  · intro h
    exact ⟨known_log events, _, _, _, rfl, rfl, rfl, h⟩

/-- What makes a join fail: `own` are the deposits that an identity event may belong to,
`late` those whose identity event belongs to another deposit, and `Agrees` says when an
identity and a deposit agree. -/
inductive Defect (own late : List Deposit)
    (Agrees : ERC20DepositMetadata → BridgeDeposit → Prop)
    (identities : List (Key × ERC20DepositSubmitted))
    (registries : List (Key × ERC20DepositSubmittedV2)) (deposits : List Deposit) : Prop
  | missing {deposit : Deposit} (mem : deposit ∈ deposits) (token : deposit.data.token ≠ 0)
      (absent : ∀ event ∈ identities, event.1 ≠ deposit.key)
  | taken {deposit : Deposit} (mem : deposit ∈ late) (token : deposit.data.token ≠ 0)
  | duplicated (twice : ¬ (identities.map Prod.fst).Nodup)
  | registryDuplicated (twice : ¬ (registries.map Prod.fst).Nodup)
  | leftOver {event : Key × ERC20DepositSubmitted} (mem : event ∈ identities)
      (absent : ∀ deposit ∈ deposits, deposit.key ≠ event.1)
  | registryLeftOver {event : Key × ERC20DepositSubmittedV2} (mem : event ∈ registries)
      (absent : ∀ identity ∈ identities, identity.1 ≠ event.1)
  | native {deposit : Deposit} {event : Key × ERC20DepositSubmitted} (mem : deposit ∈ own)
      (attached : event ∈ identities) (key : event.1 = deposit.key)
      (token : deposit.data.token = 0)
  | disagrees {deposit : Deposit} {event : Key × ERC20DepositSubmitted} (mem : deposit ∈ own)
      (attached : event ∈ identities) (key : event.1 = deposit.key)
      (token : deposit.data.token ≠ 0) (fields : ¬ Agrees (metadataOf event.2) deposit.data)
  | registryDisagrees {identity : Key × ERC20DepositSubmitted}
      {event : Key × ERC20DepositSubmittedV2} (mem : identity ∈ identities)
      (attached : event ∈ registries) (key : identity.1 = event.1)
      (fields : ¬ RegistryAgrees (metadataOf identity.2) event.2)
  | assetId {event : Key × ERC20DepositSubmitted} (mem : event ∈ identities)
      (zero : event.2.assetId = 0)
  | recordCommitment {event : Key × ERC20DepositSubmittedV2} (mem : event ∈ registries)
      (zero : event.2.recordCommitment = 0)
  | encodingVersion {event : Key × ERC20DepositSubmittedV2} (mem : event ∈ registries)
      (unsupported : event.2.encodingVersion ≠ erc20ActionEncodingV2)

/-- The failures of the loops: an identity event belongs to the first deposit of its key. -/
def Failing (identities : List (Key × ERC20DepositSubmitted))
    (registries : List (Key × ERC20DepositSubmittedV2)) (deposits : List Deposit) : Prop :=
  Defect (firsts [] deposits) (repeats [] deposits) DepositAgrees identities registries deposits

/-- Joinable events have no defect. -/
theorem Joinable.not_failing {identities : List (Key × ERC20DepositSubmitted)}
    {registries : List (Key × ERC20DepositSubmittedV2)} {deposits : List Deposit}
    (h : Joinable identities registries deposits) : ¬ Failing identities registries deposits := by
  have hfits : ∀ deposit ∈ firsts [] deposits, ∀ event ∈ identities, event.1 = deposit.key →
      deposit.data.token ≠ 0 ∧ DepositAgrees (metadataOf event.2) deposit.data := by
    intro deposit hdeposit event hevent hkey
    have hdata : dataAt identities deposit.key = some event.2 := by
      rw [dataAt_eq_some h.distinct, ← hkey]
      exact hevent
    have hfit := h.fit.1 deposit hdeposit
    rw [tableOf_eq_some registries hdata] at hfit
    exact ⟨hfit.1, (depositAgrees_register _ _ _).mp hfit.2⟩
  intro hfailing
  cases hfailing with
  | missing mem token absent =>
    rcases (mem_firsts_or_repeats []).mp mem with hfirst | hrepeat
    · have hfit := h.fit.1 _ hfirst
      rw [tableOf_eq_none registries (dataAt_eq_none.mpr absent)] at hfit
      exact token hfit
    · exact token (h.fit.2 _ hrepeat)
  | taken mem token => exact token (h.fit.2 _ mem)
  | duplicated twice => exact twice h.distinct
  | registryDuplicated twice => exact twice h.registryDistinct
  | leftOver mem absent =>
    obtain ⟨deposit, hdeposit, hkey⟩ := h.used _ mem
    exact absent deposit hdeposit hkey
  | registryLeftOver mem absent =>
    obtain ⟨identity, hidentity, hkey, -⟩ := h.based _ mem
    exact absent identity hidentity hkey
  | native mem attached key token => exact (hfits _ mem _ attached key).1 token
  | disagrees mem attached key _ fields => exact fields (hfits _ mem _ attached key).2
  | registryDisagrees mem attached key fields =>
    obtain ⟨identity, hidentity, hkey, hagrees⟩ := h.based _ attached
    have hsame := KeyedTables.row_eq_of_key h.distinct hidentity mem (hkey.trans key.symm)
    rw [hsame] at hagrees
    exact fields hagrees
  | assetId mem zero => exact h.assetId _ mem zero
  | recordCommitment mem zero => exact h.recordCommitment _ mem zero
  | encodingVersion mem unsupported => exact unsupported (h.encodingVersion _ mem)

/-- Events without a defect are joinable. -/
theorem joinable_of_not_failing {identities : List (Key × ERC20DepositSubmitted)}
    {registries : List (Key × ERC20DepositSubmittedV2)} {deposits : List Deposit}
    (h : ¬ Failing identities registries deposits) : Joinable identities registries deposits where
  assetId := fun event hevent hzero => h (.assetId hevent hzero)
  distinct := by
    by_contra htwice
    exact h (.duplicated htwice)
  encodingVersion := by
    intro event hevent
    by_contra hversion
    exact h (.encodingVersion hevent hversion)
  recordCommitment := fun event hevent hzero => h (.recordCommitment hevent hzero)
  registryDistinct := by
    by_contra htwice
    exact h (.registryDuplicated htwice)
  based := by
    intro event hevent
    by_contra hbased
    by_cases habsent : ∀ identity ∈ identities, identity.1 ≠ event.1
    · exact h (.registryLeftOver hevent habsent)
    · push Not at habsent
      obtain ⟨identity, hidentity, hkey⟩ := habsent
      refine h (.registryDisagrees hidentity hevent hkey ?_)
      intro hagrees
      exact hbased ⟨identity, hidentity, hkey, hagrees⟩
  fit := by
    constructor
    · intro deposit hdeposit
      have hmem := (mem_firsts_or_repeats []).mpr (Or.inl hdeposit)
      cases hdata : dataAt identities deposit.key with
      | none =>
        rw [tableOf_eq_none registries hdata]
        by_contra htoken
        exact h (.missing hmem htoken (dataAt_eq_none.mp hdata))
      | some identity =>
        have hattached := mem_of_dataAt hdata
        rw [tableOf_eq_some registries hdata]
        have htoken : deposit.data.token ≠ 0 := fun hzero => h (.native hdeposit hattached rfl hzero)
        refine ⟨htoken, (depositAgrees_register _ _ _).mpr ?_⟩
        by_contra hfields
        exact h (.disagrees hdeposit hattached rfl htoken hfields)
    · intro deposit hdeposit
      by_contra htoken
      exact h (.taken hdeposit htoken)
  used := by
    intro event hevent
    by_contra hunused
    refine h (.leftOver hevent ?_)
    intro deposit hdeposit hkey
    exact hunused ⟨deposit, hdeposit, hkey⟩

/-- Full events fail to join exactly when there is a defect. -/
theorem not_succeeds_iff (events : List Event) :
    ¬ Succeeds (bridgeDepositLogs (events.map Event.log)) ↔
      Failing (events.filterMap Event.identity) (events.filterMap Event.registry)
        (events.filterMap Event.deposit) := by
  constructor
  · intro hfails
    by_contra hfailing
    have hjoinable := joinable_of_not_failing hfailing
    exact hfails ⟨_, bridgeDepositLogs_events.mpr (joinEvents_eq_ok.mpr ⟨hjoinable, rfl⟩)⟩
  · intro hfailing hsucceeds
    obtain ⟨result, hresult⟩ := hsucceeds
    have hjoinable := (joinEvents_eq_ok.mp (bridgeDepositLogs_events.mp hresult)).1
    exact hjoinable.not_failing hfailing

/-- The join of the deposit logs of a block. Logs whose kinds are in the same orders give
the same result, and any order of the identity events gives the same entries. There is
one entry for each deposit log, in order, with its identity. Full events fail to join
exactly when there is a defect. -/
theorem bridgeDepositLogs_joined :
    (∀ logs others : List Log, Known logs → Known others →
      (∀ kind, ofKind kind logs = ofKind kind others) →
      bridgeDepositLogs logs = bridgeDepositLogs others) ∧
    (∀ logs others : List Log, logs.Perm others → ofKind .bridge logs = ofKind .bridge others →
      ∀ result, bridgeDepositLogs logs = .ok result ↔ bridgeDepositLogs others = .ok result) ∧
    (∀ (logs : List Log) (result : List BridgeDepositLog), bridgeDepositLogs logs = .ok result →
      ∃ identities registries, (ofKind .erc20 logs).mapM decodeIdentity = .ok identities ∧
        (ofKind .erc20V2 logs).mapM decodeRegistry = .ok registries ∧
        List.Forall₂ (EntryOf identities registries) (ofKind .bridge logs) result) ∧
    ∀ events : List Event, ¬ Succeeds (bridgeDepositLogs (events.map Event.log)) ↔
      Failing (events.filterMap Event.identity) (events.filterMap Event.registry)
        (events.filterMap Event.deposit) := by
  refine ⟨fun logs others => bridgeDepositLogs_congr, ?_, fun logs result => entries_of_joined,
    not_succeeds_iff⟩
  intro logs others hperm hdeposits result
  constructor
  · exact bridgeDepositLogs_of_perm hperm hdeposits
  · exact bridgeDepositLogs_of_perm hperm.symm hdeposits.symm

/-- A position in one transaction. -/
def samplePosition (index : BitVec 64) : Position := ⟨18, 0xb0, 0x7a, index⟩

/-- A deposit of nonce one. -/
def sampleDeposit (token : Address) (zekoAmount : Bytes32) : BridgeDeposit where
  nonce := 1
  depositLeaf := 0x1eaf
  newDepositState := 0x2
  oldDepositState := 0x1
  token := token
  sender := 0x5e
  zekoRecipient := 0x4e
  amount := 5
  zekoAmount := zekoAmount
  timeout := 9

/-- The identity of the deposit of token seven. -/
def sampleIdentity : ERC20DepositSubmitted where
  nonce := 1
  assetId := 0xa5
  depositLeaf := 0x1eaf
  newDepositState := 0x2
  token := 7
  sender := 0x5e
  zekoRecipient := 0x4e
  amount := 5
  timeout := 9

/-- The deposit event of a token. -/
def sampleBridge (index : BitVec 64) (token : Address) (zekoAmount : Bytes32) : Event :=
  ⟨samplePosition index, .bridgeDeposit (sampleDeposit token zekoAmount)⟩

/-- The identity event. -/
def sampleErc20 (index : BitVec 64) : Event :=
  ⟨samplePosition index, .erc20DepositSubmitted sampleIdentity⟩

/-- The registry event. -/
def sampleErc20V2 (index : BitVec 64) : Event :=
  ⟨samplePosition index, .erc20DepositSubmittedV2 { sampleIdentity with
    encodingVersion := 2
    registryIndex := 3
    recordCommitment := 0xc0 }⟩

/-- The three events of a deposit join in any order. -/
theorem bridgeDepositLogs_joined_sample :
    bridgeDepositLogs ([sampleErc20V2 0, sampleBridge 1 7 5, sampleErc20 2].map Event.log) =
      .ok [(Deposit.mk 0x7a (sampleDeposit 7 5) 18 0xb0 1).entry (some (.registryV2 0xa5 3 0xc0))] := by
  have hperm : ([sampleErc20 2, sampleErc20V2 0, sampleBridge 1 7 5].map Event.log).Perm
      ([sampleErc20V2 0, sampleBridge 1 7 5, sampleErc20 2].map Event.log) := by decide
  have hordered : bridgeDepositLogs
      ([sampleErc20 2, sampleErc20V2 0, sampleBridge 1 7 5].map Event.log) =
      .ok [(Deposit.mk 0x7a (sampleDeposit 7 5) 18 0xb0 1).entry
        (some (.registryV2 0xa5 3 0xc0))] := by
    decide
  exact (bridgeDepositLogs_joined.2.1 _ _ hperm (by decide) _).mp hordered

/-- The shared fields of an identity and a deposit agree. -/
def SharedAgrees (identity : ERC20DepositMetadata) (data : BridgeDeposit) : Prop :=
  identity.depositLeaf = data.depositLeaf ∧ identity.newDepositState = data.newDepositState ∧
    identity.token = data.token ∧ identity.sender = data.sender ∧
    identity.zekoRecipient = data.zekoRecipient ∧ identity.amount.setWidth 256 = data.amount ∧
    identity.timeout = data.timeout

instance (identity : ERC20DepositMetadata) (data : BridgeDeposit) :
    Decidable (SharedAgrees identity data) := by
  unfold SharedAgrees
  infer_instance

/-- A defect when every deposit shares the identity events of its key. -/
def SharedDefect (events : List Event) : Prop :=
  Defect (events.filterMap Event.deposit) [] SharedAgrees (events.filterMap Event.identity)
    (events.filterMap Event.registry) (events.filterMap Event.deposit)

/-- One identity event and deposits of its key, all of which agree with it, have no shared
defect. -/
theorem not_sharedDefect {events : List Event}
    (hdeposits : events.filterMap Event.deposit ≠ [])
    (hidentity : events.filterMap Event.identity = [((0x7a, 1), sampleIdentity)])
    (hregistry : events.filterMap Event.registry = [])
    (h : ∀ deposit ∈ events.filterMap Event.deposit, deposit.key = (0x7a, 1) ∧
      deposit.data.token ≠ 0 ∧ SharedAgrees (metadataOf sampleIdentity) deposit.data) :
    ¬ SharedDefect events := by
  obtain ⟨first, hfirst⟩ := List.exists_mem_of_ne_nil _ hdeposits
  rw [SharedDefect, hidentity, hregistry]
  intro hdefect
  cases hdefect with
  | missing mem _ absent => exact absent _ List.mem_cons_self (h _ mem).1.symm
  | taken mem _ => exact List.not_mem_nil mem
  | duplicated twice => exact twice (List.nodup_singleton _)
  | registryDuplicated twice => exact twice List.nodup_nil
  | leftOver mem absent =>
    rw [List.mem_singleton] at mem
    rw [mem] at absent
    exact absent first hfirst (h first hfirst).1
  | registryLeftOver mem _ => exact List.not_mem_nil mem
  | native mem _ _ token => exact (h _ mem).2.1 token
  | disagrees mem attached _ _ fields =>
    rw [List.mem_singleton] at attached
    rw [attached] at fields
    exact fields (h _ mem).2.2
  | registryDisagrees _ attached _ _ => exact List.not_mem_nil attached
  | assetId mem zero =>
    rw [List.mem_singleton] at mem
    rw [mem] at zero
    exact absurd zero (by decide)
  | recordCommitment mem _ => exact List.not_mem_nil mem
  | encodingVersion mem _ => exact List.not_mem_nil mem

/-- Two token deposits of one key and one identity event fail without a shared defect, and
so does a token deposit whose two amounts differ. A native deposit behind a token deposit
of its key joins although an identity event of its key is there. -/
theorem bridgeDepositLogs_unlisted :
    (¬ Succeeds (bridgeDepositLogs
        ([sampleErc20 0, sampleBridge 1 7 5, sampleBridge 2 7 5].map Event.log)) ∧
      ¬ SharedDefect [sampleErc20 0, sampleBridge 1 7 5, sampleBridge 2 7 5]) ∧
    (¬ Succeeds (bridgeDepositLogs ([sampleErc20 0, sampleBridge 1 7 6].map Event.log)) ∧
      ¬ SharedDefect [sampleErc20 0, sampleBridge 1 7 6]) ∧
    Succeeds (bridgeDepositLogs
      ([sampleErc20 0, sampleBridge 1 7 5, sampleBridge 2 0 5].map Event.log)) ∧
    SharedDefect [sampleErc20 0, sampleBridge 1 7 5, sampleBridge 2 0 5] := by
  have hruns : ¬ Succeeds (bridgeDepositLogs
        ([sampleErc20 0, sampleBridge 1 7 5, sampleBridge 2 7 5].map Event.log)) ∧
      ¬ Succeeds (bridgeDepositLogs ([sampleErc20 0, sampleBridge 1 7 6].map Event.log)) ∧
      Succeeds (bridgeDepositLogs
        ([sampleErc20 0, sampleBridge 1 7 5, sampleBridge 2 0 5].map Event.log)) := by
    decide
  refine ⟨⟨hruns.1, ?_⟩, ⟨hruns.2.1, ?_⟩, hruns.2.2, ?_⟩
  · exact not_sharedDefect (by decide) rfl rfl (by decide)
  · exact not_sharedDefect (by decide) rfl rfl (by decide)
  · have hmem : (⟨0x7a, sampleDeposit 0 5, 18, 0xb0, 2⟩ : Deposit) ∈
        [sampleErc20 0, sampleBridge 1 7 5, sampleBridge 2 0 5].filterMap Event.deposit := by
      decide
    have hattached : (((0x7a, 1), sampleIdentity) : Key × ERC20DepositSubmitted) ∈
        [sampleErc20 0, sampleBridge 1 7 5, sampleBridge 2 0 5].filterMap Event.identity := by
      decide
    exact .native hmem hattached rfl rfl

end EthereumSettlement.DepositLogJoin
