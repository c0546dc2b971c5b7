import EthereumSettlement.ChainIndexing

/-!
# The indexed chain is consistent

The canonical blocks are always one window of a hash-linked chain, and the deposit
logs that are not removed are exactly the logs of these blocks. A tick appends one
block of its view at a time, with its logs in the same transaction, and only where
the newest canonical block is the parent; a rollback cuts the window from above. A
tick that fails leaves what it has stored, so the window stays consistent after
every call. With consensus finality a finalized block stays where it is.
-/

namespace EthereumSettlement.IndexerConsistency

open CheckedCalls KeyedTables TransitionRuns PastaPoseidon
open GatewayTables OuterWriter GatewayIndexer GatewayRuns ChainRecords ChainIndexing

/-- The block is indexed and canonical. -/
def Indexed (blocks : List BlockRow) (block : BlockRef) : Prop :=
  ∃ row ∈ blocks, row.canonical = true ∧ row.block = block

/-- The canonical blocks are a window of a hash-linked chain of Ethereum, and the logs that are
not removed are exactly the logs of these blocks. -/
structure Consistent (ethereum : Ethereum) (blocks : List BlockRow)
    (logs : List (BridgeDepositLog × Bool)) : Prop where
  /-- One row a height. -/
  heights : (blocks.map fun row => row.block.number).Nodup
  /-- Every canonical block is the block of its hash. -/
  known : ∀ block, Indexed blocks block → block = ethereum.header block.hash
  /-- No height between two indexed blocks is missing. -/
  contiguous : ∀ low high, Indexed blocks low → Indexed blocks high → ∀ number,
    low.number ≤ number → number ≤ high.number → ∃ block, Indexed blocks block ∧
      block.number = number
  /-- Every indexed block names the one below it. -/
  linked : ∀ parent block, Indexed blocks parent → Indexed blocks block →
    parent.number + 1 = block.number → block.parentHash = parent.hash
  /-- The logs of a canonical block name its height. -/
  located : ∀ block, Indexed blocks block → ∀ log ∈ ethereum.logs block.hash,
    log.blockNumber = block.number
  /-- The logs are those of the indexed blocks. -/
  logs : ∀ log, (log, false) ∈ logs ↔ ∃ block, Indexed blocks block ∧
    log ∈ ethereum.logs block.hash

section Blocks

variable {ethereum : Ethereum} {blocks : List BlockRow} {logs : List (BridgeDepositLog × Bool)}
variable {db : Database}

/-- There is one canonical block at a height. -/
theorem Consistent.unique (h : Consistent ethereum blocks logs) {first second : BlockRef}
    (hfirst : Indexed blocks first) (hsecond : Indexed blocks second)
    (hnumber : first.number = second.number) : first = second := by
  obtain ⟨row, hrow, -, rfl⟩ := hfirst
  obtain ⟨other, hother, -, rfl⟩ := hsecond
  rw [row_eq_of_key h.heights hrow hother hnumber]

/-- A canonical block that is read at a height is indexed there. -/
theorem indexed_of_canonicalBlock {number : ℕ} {row : BlockRow}
    (h : db.canonicalBlock? number = some row) :
    Indexed db.blocks row.block ∧ row.block.number = number := by
  unfold Database.canonicalBlock? at h
  have hmem := List.mem_of_find?_eq_some h
  have hfound := List.find?_some h
  have hrow := of_decide_eq_true hfound
  exact ⟨⟨row, hmem, hrow.2, rfl⟩, hrow.1⟩

/-- Where no canonical block is read, none is indexed. -/
theorem not_indexed_of_canonicalBlock {number : ℕ} (h : db.canonicalBlock? number = none)
    {block : BlockRef} (hblock : Indexed db.blocks block) : block.number ≠ number := by
  obtain ⟨row, hrow, hcanonical, rfl⟩ := hblock
  intro hnumber
  have hnone := List.find?_eq_none.mp h row hrow
  exact hnone (decide_eq_true ⟨hnumber, hcanonical⟩)

/-- The newest canonical block is the highest. -/
theorem indexed_of_latestBlock {row : BlockRow} (h : latestBlock db = some row) :
    Indexed db.blocks row.block ∧
      ∀ block, Indexed db.blocks block → block.number ≤ row.block.number := by
  unfold latestBlock at h
  have hmem := List.mem_filter.mp (List.mem_of_find?_eq_some h)
  have hfound := List.find?_some h
  have hmax := of_decide_eq_true hfound
  refine ⟨⟨row, hmem.1, hmem.2, rfl⟩, ?_⟩
  rintro block ⟨other, hother, hcanonical, rfl⟩
  exact hmax other (List.mem_filter.mpr ⟨hother, hcanonical⟩)

/-- Without a newest canonical block there is none. -/
theorem not_indexed_of_latestBlock (h : latestBlock db = none) (block : BlockRef) :
    ¬ Indexed db.blocks block := by
  rintro ⟨row, hrow, hcanonical, -⟩
  have hfilter : row ∈ db.blocks.filter fun row => row.canonical :=
    List.mem_filter.mpr ⟨hrow, hcanonical⟩
  obtain ⟨top, htop, hmax⟩ := Finset.exists_max_image
    (db.blocks.filter fun row => row.canonical).toFinset (fun row => row.block.number)
    ⟨row, List.mem_toFinset.mpr hfilter⟩
  have hnone := List.find?_eq_none.mp h top (List.mem_toFinset.mp htop)
  exact hnone (decide_eq_true fun other hother => hmax other (List.mem_toFinset.mpr hother))

/-- The blocks after a rollback. -/
def cutBlocks (ancestor : ℕ) (blocks : List BlockRow) : List BlockRow :=
  updateWhere (fun row => row.canonical ∧ ancestor < row.block.number)
    (fun row => { row with canonical := false, finalized := false }) blocks

/-- A rollback keeps the canonical blocks up to the ancestor. -/
theorem indexed_cutBlocks {ancestor : ℕ} {block : BlockRef} :
    Indexed (cutBlocks ancestor blocks) block ↔
      Indexed blocks block ∧ block.number ≤ ancestor := by
  constructor
  · rintro ⟨row, hrow, hcanonical, rfl⟩
    obtain ⟨old, hold, rfl⟩ := mem_updateWhere.mp hrow
    by_cases habove : old.canonical ∧ ancestor < old.block.number
    · rw [if_pos habove] at hcanonical
      exact absurd hcanonical (by simp)
    · rw [if_neg habove] at hcanonical ⊢
      refine ⟨⟨old, hold, hcanonical, rfl⟩, ?_⟩
      by_contra hnumber
      exact habove ⟨hcanonical, by omega⟩
  · rintro ⟨⟨row, hrow, hcanonical, rfl⟩, hnumber⟩
    have hbelow : ¬ (row.canonical ∧ ancestor < row.block.number) := by
      rintro ⟨-, habove⟩
      omega
    refine ⟨row, mem_updateWhere.mpr ⟨row, hrow, if_neg hbelow⟩, hcanonical, rfl⟩

/-- A rollback keeps the logs up to the ancestor. -/
theorem mem_removeLog {ancestor : ℕ} {log : BridgeDepositLog} :
    (log, false) ∈ logs.map (removeLog ancestor) ↔
      (log, false) ∈ logs ∧ log.blockNumber ≤ ancestor := by
  constructor
  · intro h
    obtain ⟨⟨old, removed⟩, hold, heq⟩ := List.mem_map.mp h
    simp only [removeLog, Prod.mk.injEq, Bool.or_eq_false_iff, decide_eq_false_iff_not,
      not_lt] at heq
    obtain ⟨rfl, rfl, hnumber⟩ := heq
    exact ⟨hold, hnumber⟩
  · rintro ⟨hold, hnumber⟩
    refine List.mem_map.mpr ⟨_, hold, ?_⟩
    simp only [removeLog, Bool.false_or, Prod.mk.injEq, decide_eq_false_iff_not, not_lt, true_and]
    exact hnumber

/-- A rollback leaves a consistent chain. -/
theorem Consistent.cut (h : Consistent ethereum blocks logs) (ancestor : ℕ) :
    Consistent ethereum (cutBlocks ancestor blocks) (logs.map (removeLog ancestor)) where
  heights := by
    have hsame : (cutBlocks ancestor blocks).map (fun row => row.block.number) =
        blocks.map fun row => row.block.number := map_updateWhere fun _ _ => rfl
    exact hsame ▸ h.heights
  known := fun block hblock => h.known block (indexed_cutBlocks.mp hblock).1
  contiguous := by
    intro low high hlow hhigh number hfrom hto
    obtain ⟨hlow, -⟩ := indexed_cutBlocks.mp hlow
    obtain ⟨hhigh, hbelow⟩ := indexed_cutBlocks.mp hhigh
    obtain ⟨block, hblock, hnumber⟩ := h.contiguous low high hlow hhigh number hfrom hto
    exact ⟨block, indexed_cutBlocks.mpr ⟨hblock, by omega⟩, hnumber⟩
  linked := fun parent block hparent hblock =>
    h.linked parent block (indexed_cutBlocks.mp hparent).1 (indexed_cutBlocks.mp hblock).1
  located := fun block hblock => h.located block (indexed_cutBlocks.mp hblock).1
  logs := by
    intro log
    rw [mem_removeLog, h.logs]
    constructor
    · rintro ⟨⟨block, hblock, hlog⟩, hnumber⟩
      rw [h.located block hblock log hlog] at hnumber
      exact ⟨block, indexed_cutBlocks.mpr ⟨hblock, hnumber⟩, hlog⟩
    · rintro ⟨block, hblock, hlog⟩
      obtain ⟨hblock, hnumber⟩ := indexed_cutBlocks.mp hblock
      rw [← h.located block hblock log hlog] at hnumber
      exact ⟨⟨block, hblock, hlog⟩, hnumber⟩

/-- The finality flags do not matter to the canonical blocks. -/
theorem indexed_storeFinality {through : Option ℕ} {block : BlockRef} :
    Indexed (storeFinality db through).blocks block ↔ Indexed db.blocks block := by
  constructor
  · rintro ⟨row, hrow, hcanonical, rfl⟩
    obtain ⟨old, hold, rfl⟩ := mem_updateWhere.mp hrow
    exact ⟨old, hold, hcanonical, rfl⟩
  · rintro ⟨row, hrow, hcanonical, rfl⟩
    exact ⟨_, mem_updateWhere.mpr ⟨row, hrow, rfl⟩, hcanonical, rfl⟩

/-- The finality update leaves a consistent chain. -/
theorem Consistent.finality (h : Consistent ethereum db.blocks logs) (through : Option ℕ) :
    Consistent ethereum (storeFinality db through).blocks logs where
  heights := by
    have hsame : (storeFinality db through).blocks.map (fun row => row.block.number) =
        db.blocks.map fun row => row.block.number := map_updateWhere fun _ _ => rfl
    exact hsame ▸ h.heights
  known := fun block hblock => h.known block (indexed_storeFinality.mp hblock)
  contiguous := by
    intro low high hlow hhigh number hfrom hto
    obtain ⟨block, hblock, hnumber⟩ := h.contiguous low high (indexed_storeFinality.mp hlow)
      (indexed_storeFinality.mp hhigh) number hfrom hto
    exact ⟨block, indexed_storeFinality.mpr hblock, hnumber⟩
  linked := fun parent block hparent hblock =>
    h.linked parent block (indexed_storeFinality.mp hparent) (indexed_storeFinality.mp hblock)
  located := fun block hblock => h.located block (indexed_storeFinality.mp hblock)
  logs := by
    intro log
    rw [h.logs]
    simp only [indexed_storeFinality]

end Blocks

/-- The canonical blocks lie below the height and, if there are any, end right below it. -/
structure AtTip (blocks : List BlockRow) (next : ℕ) : Prop where
  /-- Every indexed block lies below. -/
  below : ∀ block, Indexed blocks block → block.number < next
  /-- If there is one, the last lies right below. -/
  adjacent : ∀ block, Indexed blocks block → ∃ tip, Indexed blocks tip ∧ tip.number + 1 = next

/-- The block of the view at the height extends the canonical blocks. -/
structure Extends {ethereum : Ethereum} (view : View ethereum) (blocks : List BlockRow)
    (number : ℕ) : Prop where
  /-- The view has the height. -/
  reached : number ≤ view.head
  /-- The indexed blocks end right below it. -/
  tip : AtTip blocks number
  /-- The block names the last one of them. -/
  parent : ∀ parent, Indexed blocks parent → parent.number + 1 = number →
    parent.hash = (view.block number).parentHash

section Extension

variable {ethereum : Ethereum} {view : View ethereum} {blocks : List BlockRow}
variable {logs : List (BridgeDepositLog × Bool)} {number : ℕ}

/-- The block of a height has the hash and the height. -/
theorem block_hash : (view.block number).hash = view.hashes number :=
  ethereum.hash_header _

/-- The block of a height up to the head has the height. -/
theorem block_number (h : number ≤ view.head) : (view.block number).number = number :=
  view.numbered number h

/-- The canonical blocks that a block of the view extends are blocks of the view. -/
theorem Extends.hashes (hextends : Extends view blocks number)
    (h : Consistent ethereum blocks logs) (distance : ℕ) :
    ∀ old, Indexed blocks old → old.number + distance + 1 = number →
      old.hash = view.hashes old.number := by
  have hreached := hextends.reached
  induction distance with
  | zero =>
    intro old hold hnumber
    have hlinked := view.linked old.number (by omega)
    rw [hextends.parent old hold (by omega), ← hlinked, View.block]
    congr 3
    omega
  | succ distance ih =>
    intro old hold hnumber
    obtain ⟨tip, htip, hnext⟩ := hextends.tip.adjacent old hold
    obtain ⟨child, hchild, hheight⟩ :=
      h.contiguous old tip hold htip (old.number + 1) (by omega) (by omega)
    have hhash := ih child hchild (by omega)
    have hparent := h.linked old child hold hchild hheight.symm
    rw [h.known child hchild, hhash, hheight] at hparent
    rw [← hparent]
    exact view.linked old.number (by omega)

/-- Logs at different heights of a view have different nonces. -/
theorem nonces_disjoint {low high : ℕ} (hhigh : high ≤ view.head) (hlt : low < high)
    {log other : BridgeDepositLog} (hlog : log ∈ ethereum.logs (view.hashes low))
    (hother : other ∈ ethereum.logs (view.hashes high)) : log.nonce ≠ other.nonce := by
  have hpairs := (List.nodup_flatMap.mp view.nonces).2
  have hrange := List.pairwise_iff_getElem.mp hpairs low high
    (by rw [List.length_range]; omega) (by rw [List.length_range]; omega) hlt
  simp only [Function.onFun, List.getElem_range] at hrange
  intro heq
  exact hrange (List.mem_map_of_mem hlog) (heq ▸ List.mem_map_of_mem hother)

/-- Logs of one block of a view have different nonces. -/
theorem nonces_nodup (h : number ≤ view.head) :
    ((ethereum.logs (view.hashes number)).map BridgeDepositLog.nonce).Nodup :=
  (List.nodup_flatMap.mp view.nonces).1 number (List.mem_range.mpr (by omega))

/-- A new block is indexed next to the canonical blocks of other heights. -/
theorem indexed_upsertBlock {block old : BlockRef}
    (hother : ∀ old, Indexed blocks old → old.number ≠ block.number) :
    Indexed (upsertBlock blocks block) old ↔ Indexed blocks old ∨ old = block := by
  unfold upsertBlock
  by_cases hknown : ∃ row ∈ blocks, row.block.number = block.number
  · rw [if_pos hknown]
    constructor
    · rintro ⟨row, hrow, hcanonical, rfl⟩
      obtain ⟨source, hsource, rfl⟩ := mem_updateWhere.mp hrow
      by_cases hnumber : source.block.number = block.number
      · rw [if_pos hnumber]
        exact Or.inr rfl
      · rw [if_neg hnumber] at hcanonical ⊢
        exact Or.inl ⟨source, hsource, hcanonical, rfl⟩
    · rintro (⟨row, hrow, hcanonical, rfl⟩ | rfl)
      · have hnumber := hother row.block ⟨row, hrow, hcanonical, rfl⟩
        exact ⟨row, mem_updateWhere.mpr ⟨row, hrow, if_neg hnumber⟩, hcanonical, rfl⟩
      · obtain ⟨row, hrow, hnumber⟩ := hknown
        exact ⟨_, mem_updateWhere.mpr ⟨row, hrow, if_pos hnumber⟩, rfl, rfl⟩
  · rw [if_neg hknown]
    constructor
    · rintro ⟨row, hrow, hcanonical, rfl⟩
      rcases List.mem_append.mp hrow with hold | hnew
      · exact Or.inl ⟨row, hold, hcanonical, rfl⟩
      · rw [List.mem_singleton.mp hnew]
        exact Or.inr rfl
    · rintro (⟨row, hrow, hcanonical, rfl⟩ | rfl)
      · exact ⟨row, List.mem_append_left _ hrow, hcanonical, rfl⟩
      · exact ⟨_, List.mem_append_right _ List.mem_cons_self, rfl, rfl⟩

/-- An inserted block keeps one row a height. -/
theorem heights_upsertBlock {block : BlockRef}
    (h : (blocks.map fun row => row.block.number).Nodup) :
    ((upsertBlock blocks block).map fun row => row.block.number).Nodup := by
  unfold upsertBlock
  by_cases hknown : ∃ row ∈ blocks, row.block.number = block.number
  · rw [if_pos hknown, map_updateWhere fun row hnumber => hnumber.symm]
    exact h
  · rw [if_neg hknown, List.map_append, List.map_singleton, ← List.concat_eq_append]
    refine h.concat fun hmem => ?_
    obtain ⟨row, hrow, hnumber⟩ := List.mem_map.mp hmem
    exact hknown ⟨row, hrow, hnumber⟩

/-- A log stored under its nonce is kept, with the logs of other nonces. -/
theorem mem_upsertLog {log other : BridgeDepositLog} : (other, false) ∈ upsertLog logs log ↔
    other = log ∨ ((other, false) ∈ logs ∧ other.nonce ≠ log.nonce) := by
  unfold upsertLog
  by_cases hknown : ∃ entry ∈ logs, entry.1.nonce = log.nonce
  · rw [if_pos hknown, mem_updateWhere]
    constructor
    · rintro ⟨entry, hentry, heq⟩
      by_cases hnonce : entry.1.nonce = log.nonce
      · rw [if_pos hnonce, Prod.mk.injEq] at heq
        exact Or.inl heq.1.symm
      · rw [if_neg hnonce] at heq
        subst heq
        exact Or.inr ⟨hentry, hnonce⟩
    · rintro (rfl | ⟨hmem, hnonce⟩)
      · obtain ⟨entry, hentry, hnonce⟩ := hknown
        exact ⟨entry, hentry, if_pos hnonce⟩
      · exact ⟨_, hmem, if_neg hnonce⟩
  · rw [if_neg hknown]
    simp only [List.mem_append, List.mem_singleton, Prod.mk.injEq, and_true]
    constructor
    · rintro (hmem | hsame)
      · exact Or.inr ⟨hmem, fun hnonce => hknown ⟨_, hmem, hnonce⟩⟩
      · exact Or.inl hsame
    · rintro (hsame | ⟨hmem, -⟩)
      · exact Or.inr hsame
      · exact Or.inl hmem

/-- New logs are stored next to the logs that are not removed, if all nonces differ. -/
theorem mem_foldl_upsertLog (added : List BridgeDepositLog)
    (stored : List (BridgeDepositLog × Bool))
    (hdistinct : (added.map BridgeDepositLog.nonce).Nodup)
    (hfresh : ∀ old, (old, false) ∈ stored → ∀ log ∈ added, old.nonce ≠ log.nonce)
    {other : BridgeDepositLog} :
    (other, false) ∈ added.foldl upsertLog stored ↔ other ∈ added ∨ (other, false) ∈ stored := by
  induction added generalizing stored with
  | nil => simp
  | cons log added ih =>
    rw [List.map_cons, List.nodup_cons] at hdistinct
    have hrest : ∀ old, (old, false) ∈ upsertLog stored log → ∀ later ∈ added,
        old.nonce ≠ later.nonce := by
      intro old hold later hlater
      rcases mem_upsertLog.mp hold with rfl | ⟨hstored, -⟩
      · exact fun heq => hdistinct.1 (heq ▸ List.mem_map_of_mem hlater)
      · exact hfresh old hstored later (List.mem_cons_of_mem _ hlater)
    rw [List.foldl_cons, ih _ hdistinct.2 hrest, mem_upsertLog, List.mem_cons]
    constructor
    · rintro (hlater | hsame | ⟨hstored, -⟩)
      · exact Or.inl (Or.inr hlater)
      · exact Or.inl (Or.inl hsame)
      · exact Or.inr hstored
    · rintro ((hsame | hlater) | hstored)
      · exact Or.inr (Or.inl hsame)
      · exact Or.inl hlater
      · exact Or.inr (Or.inr ⟨hstored, hfresh other hstored log List.mem_cons_self⟩)

/-- A block of the view that extends the canonical blocks leaves a consistent chain. -/
theorem Consistent.extend (h : Consistent ethereum blocks logs)
    (hextends : Extends view blocks number)
    (hinside : ∀ log ∈ ethereum.logs (view.hashes number), log.blockNumber = number) :
    Consistent ethereum (upsertBlock blocks (view.block number))
      ((ethereum.logs (view.hashes number)).foldl upsertLog logs) := by
  have hnumber := block_number hextends.reached
  have hindexed : ∀ {old}, Indexed (upsertBlock blocks (view.block number)) old ↔
      Indexed blocks old ∨ old = view.block number := by
    refine fun {old} => indexed_upsertBlock fun old hold => ?_
    have hbelow := hextends.tip.below old hold
    omega
  have hhash : ∀ old, Indexed blocks old → old.hash = view.hashes old.number := by
    intro old hold
    have hbelow := hextends.tip.below old hold
    exact hextends.hashes h (number - old.number - 1) old hold (by omega)
  refine ⟨heights_upsertBlock h.heights, ?_, ?_, ?_, ?_, ?_⟩
  · intro block hblock
    rcases hindexed.mp hblock with hold | rfl
    · exact h.known block hold
    · rw [block_hash, View.block]
  · intro low high hlow hhigh height hfrom hto
    rcases hindexed.mp hlow with hlow | rfl
    · by_cases htop : height = number
      · exact ⟨_, hindexed.mpr (Or.inr rfl), hnumber.trans htop.symm⟩
      · obtain ⟨tip, htip, hnext⟩ := hextends.tip.adjacent low hlow
        have hle : height ≤ tip.number := by
          rcases hindexed.mp hhigh with hhigh | rfl
          · have hbelow := hextends.tip.below high hhigh
            omega
          · omega
        obtain ⟨block, hblock, hheight⟩ := h.contiguous low tip hlow htip height hfrom hle
        exact ⟨block, hindexed.mpr (Or.inl hblock), hheight⟩
    · refine ⟨_, hindexed.mpr (Or.inr rfl), ?_⟩
      rcases hindexed.mp hhigh with hhigh | rfl
      · have hbelow := hextends.tip.below high hhigh
        omega
      · omega
  · intro parent block hparent hblock hadjacent
    rcases hindexed.mp hblock with hblock | rfl
    · rcases hindexed.mp hparent with hparent | rfl
      · exact h.linked parent block hparent hblock hadjacent
      · have hbelow := hextends.tip.below block hblock
        omega
    · rcases hindexed.mp hparent with hparent | rfl
      · exact (hextends.parent parent hparent (by omega)).symm
      · omega
  · intro block hblock log hlog
    rcases hindexed.mp hblock with hold | rfl
    · exact h.located block hold log hlog
    · rw [block_hash] at hlog
      rw [hnumber]
      exact hinside log hlog
  · intro log
    rw [mem_foldl_upsertLog _ _ (nonces_nodup hextends.reached)]
    · constructor
      · rintro (hnew | hold)
        · exact ⟨_, hindexed.mpr (Or.inr rfl), block_hash ▸ hnew⟩
        · obtain ⟨block, hblock, hlog⟩ := (h.logs log).mp hold
          exact ⟨block, hindexed.mpr (Or.inl hblock), hlog⟩
      · rintro ⟨block, hblock, hlog⟩
        rcases hindexed.mp hblock with hold | rfl
        · exact Or.inr ((h.logs log).mpr ⟨block, hold, hlog⟩)
        · exact Or.inl (block_hash ▸ hlog)
    · intro old hold other hother
      obtain ⟨block, hblock, hlog⟩ := (h.logs old).mp hold
      rw [hhash block hblock] at hlog
      exact nonces_disjoint hextends.reached (hextends.tip.below block hblock) hlog hother

end Extension

section Phases

variable {state : AppState} {ethereum : Ethereum} {view : View ethereum} {blocks : List BlockRow}

/-- The height is a common ancestor: its canonical block is the one of the view, or no canonical
block is as low. -/
def Anchored (view : View ethereum) (blocks : List BlockRow) (ancestor : ℕ) : Prop :=
  (∃ block, Indexed blocks block ∧ block.number = ancestor ∧ block.hash = view.hashes ancestor) ∨
    ∀ block, Indexed blocks block → ancestor < block.number

/-- The block whose parent did not match is a block of the view above the height. -/
def ChildAbove (view : View ethereum) (height : ℕ) (child : Option BlockRef) : Prop :=
  ∀ block ∈ child, block.number ≤ view.head ∧ block = view.block block.number ∧
    height < block.number

/-- Consensus finality is not above the height. -/
def FinalizedUpTo (state : AppState) (blocks : List BlockRow) (height : ℕ) : Prop :=
  state.ethereumFinalityMode = .finalized →
    ∀ row ∈ blocks, row.canonical → row.finalized → row.block.number ≤ height

/-- What a phase knows of the canonical blocks. -/
def PhaseSound (state : AppState) (blocks : List BlockRow) : IndexPhase ethereum → Prop
  | .searching tick remote child =>
    remote.number ≤ tick.view.head ∧ remote = tick.view.block remote.number ∧
      (∃ block, Indexed blocks block ∧ remote.number ≤ block.number) ∧
        ChildAbove tick.view remote.number child
  | .guarding tick ancestor child =>
    Anchored tick.view blocks ancestor ∧ ChildAbove tick.view ancestor child
  | .rollingBack tick ancestor child =>
    Anchored tick.view blocks ancestor ∧ ChildAbove tick.view ancestor child ∧
      FinalizedUpTo state blocks ancestor
  | .fetching _ next => AtTip blocks next
  | .storing tick block => block = tick.view.block block.number ∧
      Extends tick.view blocks block.number
  | .finalizing _ through => state.ethereumFinalityMode = .finalized →
      ∃ height ∈ through, FinalizedUpTo state blocks height
  | _ => True

/-- A rollback to a common ancestor leaves the canonical blocks right below the next height. -/
theorem Anchored.atTip {ancestor : ℕ} (h : Anchored view blocks ancestor) :
    AtTip (cutBlocks ancestor blocks) (ancestor + 1) where
  below := by
    intro block hblock
    have hle := (indexed_cutBlocks.mp hblock).2
    omega
  adjacent := by
    intro block hblock
    obtain ⟨hindexed, hle⟩ := indexed_cutBlocks.mp hblock
    rcases h with ⟨tip, htip, hnumber, -⟩ | habove
    · exact ⟨tip, indexed_cutBlocks.mpr ⟨htip, by omega⟩, by omega⟩
    · have hlt := habove block hindexed
      omega

/-- After a rollback to its parent height, the block whose parent did not match extends the
canonical blocks. -/
theorem Anchored.extends {logs : List (BridgeDepositLog × Bool)} {ancestor : ℕ}
    (hconsistent : Consistent ethereum blocks logs) (h : Anchored view blocks ancestor)
    (hreached : ancestor + 1 ≤ view.head) :
    Extends view (cutBlocks ancestor blocks) (ancestor + 1) where
  reached := hreached
  tip := h.atTip
  parent := by
    intro parent hparent hnumber
    obtain ⟨hindexed, -⟩ := indexed_cutBlocks.mp hparent
    rcases h with ⟨tip, htip, hheight, hhash⟩ | habove
    · have hsame := hconsistent.unique hindexed htip (by omega)
      rw [hsame, hhash]
      exact (view.linked ancestor (by omega)).symm
    · have hlt := habove parent hindexed
      omega

end Phases

section Steps

variable {state : AppState} {ethereum : Ethereum} {db after : Database} {now : Timestamp}
variable {phase next : IndexPhase ethereum}

/-- The newest canonical block ends the canonical blocks. -/
theorem atTip_of_latest {row : BlockRow} (h : latestBlock db = some row) :
    AtTip db.blocks (row.block.number + 1) where
  below := by
    intro block hblock
    have hle := (indexed_of_latestBlock h).2 block hblock
    omega
  adjacent := fun _ _ => ⟨row.block, (indexed_of_latestBlock h).1, rfl⟩

/-- The next height to fetch is right above the canonical blocks. -/
theorem atTip_nextBlock (tick : IndexTick ethereum) : AtTip db.blocks (nextBlock tick db) := by
  unfold nextBlock
  split
  · exact atTip_of_latest ‹_›
  · have hnone := not_indexed_of_latestBlock ‹latestBlock db = none›
    exact ⟨fun block hblock => absurd hblock (hnone block),
      fun block hblock => absurd hblock (hnone block)⟩

/-- A search that finds the block of the view has found a common ancestor. -/
theorem anchored_of_match {view : View ethereum} {remote : BlockRef} {row : BlockRow}
    (hread : db.canonicalBlock? remote.number = some row)
    (hremote : remote = view.block remote.number) (hmatch : row.block.hash = remote.hash) :
    Anchored view db.blocks remote.number := by
  obtain ⟨hindexed, hnumber⟩ := indexed_of_canonicalBlock hread
  refine Or.inl ⟨row.block, hindexed, hnumber, ?_⟩
  rw [hmatch, hremote, block_hash]
  rw [← hremote]

/-- A search that finds no canonical block below one is below all of them. -/
theorem anchored_of_none {logs : List (BridgeDepositLog × Bool)} {view : View ethereum} {height : ℕ}
    (hconsistent : Consistent ethereum db.blocks logs) (hread : db.canonicalBlock? height = none)
    (habove : ∃ block, Indexed db.blocks block ∧ height ≤ block.number) :
    Anchored view db.blocks height := by
  refine Or.inr fun block hblock => ?_
  by_contra hle
  obtain ⟨top, htop, hheight⟩ := habove
  obtain ⟨found, hfound, hnumber⟩ :=
    hconsistent.contiguous block top hblock htop height (by omega) hheight
  exact not_indexed_of_canonicalBlock hread hfound hnumber

/-- The finality check keeps consensus finality at or below the height that it flags. -/
theorem finalizedUpTo_of_check {head : ℕ} {headHash : Bytes32} {finalized : BlockRef}
    {through : Option ℕ}
    (h : finalizedThrough state db head headHash (some finalized) = .ok through) :
    ∃ height ∈ through, FinalizedUpTo state db.blocks height := by
  simp only [finalizedThrough, bind_eq_ok, require_eq_ok, exists_const, pure_eq_ok] at h
  obtain ⟨-, -, -, hheight, rfl⟩ := h
  refine ⟨finalized.number, rfl, fun _ row hrow hcanonical hfinalized => ?_⟩
  have hmem : row.block.number ∈ (db.blocks.filter fun row => row.canonical ∧ row.finalized).map
      fun row => row.block.number :=
    List.mem_map_of_mem (List.mem_filter.mpr ⟨hrow, decide_eq_true ⟨hcanonical, hfinalized⟩⟩)
  cases hmax : finalizedHeight db with
  | none =>
    rw [finalizedHeight, List.max?_eq_none_iff] at hmax
    rw [hmax] at hmem
    exact absurd hmem List.not_mem_nil
  | some height =>
    have hle := hheight height hmax
    have hbound := (List.max?_eq_some_iff.mp hmax).2 _ hmem
    omega

/-- What one call of the indexer leaves: a consistent chain, a phase that knows it, and every
block that consensus has finalized. -/
structure Sound (state : AppState) (db after : Database) (next : IndexPhase ethereum) : Prop where
  /-- The chain is consistent. -/
  consistent : Consistent ethereum after.blocks (depositLogs after)
  /-- The phase knows the chain. -/
  phase : PhaseSound state after.blocks next
  /-- Finalized blocks stay. -/
  finalized : state.ethereumFinalityMode = .finalized → ∀ row ∈ db.blocks, row.canonical →
    row.finalized → row ∈ after.blocks

/-- A call that only reads. -/
theorem Sound.of_read (hconsistent : Consistent ethereum db.blocks (depositLogs db))
    (hphase : PhaseSound state db.blocks next) : Sound state db db next :=
  ⟨hconsistent, hphase, fun _ _ hrow _ _ => hrow⟩

/-- A block is fetched up to the head of the view. -/
theorem fetch_eq_ok {view : View ethereum} {number : ℕ} {block : BlockRef} :
    view.fetch number = .ok block ↔ number ≤ view.head ∧ view.block number = block := by
  simp only [View.fetch, bind_eq_ok, require_eq_ok, exists_const, pure_eq_ok]

/-- The comparison of the tip with the view. -/
theorem readingTip_sound {tick : IndexTick ethereum}
    (hconsistent : Consistent ethereum db.blocks (depositLogs db))
    (h : indexStep state db now (.readingTip tick) = .ok (after, next)) :
    Sound state db after next := by
  dsimp only [indexStep] at h
  split at h
  · rename_i row hlatest
    split at h
    · rename_i hhead
      simp only [bind_eq_ok, fetch_eq_ok] at h
      obtain ⟨remote, ⟨hreached, rfl⟩, h⟩ := h
      split at h
      · rw [pure_eq_ok, Prod.mk.injEq] at h
        obtain ⟨rfl, rfl⟩ := h
        have hnumber := block_number hreached
        refine Sound.of_read hconsistent ⟨hnumber.le, by rw [hnumber], ?_, ?_⟩
        · exact ⟨row.block, (indexed_of_latestBlock hlatest).1, by omega⟩
        · exact fun block hblock => absurd hblock (by simp)
      · rw [pure_eq_ok, Prod.mk.injEq] at h
        obtain ⟨rfl, rfl⟩ := h
        exact Sound.of_read hconsistent (atTip_of_latest hlatest)
    · rw [pure_eq_ok, Prod.mk.injEq] at h
      obtain ⟨rfl, rfl⟩ := h
      exact Sound.of_read hconsistent (atTip_of_latest hlatest)
  · rw [pure_eq_ok, Prod.mk.injEq] at h
    obtain ⟨rfl, rfl⟩ := h
    exact Sound.of_read hconsistent (atTip_nextBlock tick)

/-- One iteration of the search for the common ancestor. -/
theorem searching_sound {tick : IndexTick ethereum} {remote : BlockRef} {child : Option BlockRef}
    (hconsistent : Consistent ethereum db.blocks (depositLogs db))
    (hphase : PhaseSound state db.blocks (.searching tick remote child))
    (h : indexStep state db now (.searching tick remote child) = .ok (after, next)) :
    Sound state db after next := by
  obtain ⟨hreached, hremote, habove, hchild⟩ := hphase
  dsimp only [indexStep] at h
  split at h
  · rename_i row hread
    split at h
    · rename_i hmatch
      rw [pure_eq_ok, Prod.mk.injEq] at h
      obtain ⟨rfl, rfl⟩ := h
      exact Sound.of_read hconsistent ⟨anchored_of_match hread hremote hmatch, hchild⟩
    · simp only [bind_eq_ok, require_eq_ok, exists_const, fetch_eq_ok, pure_eq_ok,
        Prod.mk.injEq] at h
      obtain ⟨hpositive, parent, ⟨hparent, rfl⟩, rfl, rfl⟩ := h
      have hnumber := block_number hparent
      refine Sound.of_read hconsistent ⟨by omega, by rw [hnumber], ?_, ?_⟩
      · obtain ⟨top, htop, hheight⟩ := habove
        exact ⟨top, htop, by omega⟩
      · intro block hblock
        obtain ⟨hhead, hsame, hlt⟩ := hchild block hblock
        exact ⟨hhead, hsame, by omega⟩
  · rename_i hread
    rw [pure_eq_ok, Prod.mk.injEq] at h
    obtain ⟨rfl, rfl⟩ := h
    exact Sound.of_read hconsistent ⟨anchored_of_none hconsistent hread habove, hchild⟩

/-- The rollback, and where it leads. -/
theorem rollingBack_sound {tick : IndexTick ethereum} {ancestor : ℕ} {child : Option BlockRef}
    (hconsistent : Consistent ethereum db.blocks (depositLogs db))
    (hphase : PhaseSound state db.blocks (.rollingBack tick ancestor child))
    (h : indexStep state db now (.rollingBack tick ancestor child) = .ok (after, next)) :
    Sound state db after next := by
  obtain ⟨hanchored, hchild, hfinalized⟩ := hphase
  simp only [indexStep, bind_eq_ok, pure_eq_ok, Prod.mk.injEq] at h
  obtain ⟨rolled, hrollback, rfl, rfl⟩ := h
  obtain ⟨hblocks, hlogs⟩ := rollbackAfter_chain hrollback
  refine ⟨?_, ?_, ?_⟩
  · rw [hblocks, hlogs]
    exact hconsistent.cut ancestor
  · rw [hblocks]
    unfold afterRollback
    split
    · exact trivial
    · rename_i block
      obtain ⟨hhead, hsame, -⟩ := hchild block rfl
      split
      · rename_i hnumber
        refine ⟨hsame, ?_⟩
        rw [← hnumber]
        exact hanchored.extends hconsistent (by omega)
      · exact trivial
  · intro hmode row hrow hcanonical hflag
    have hle := hfinalized hmode row hrow hcanonical hflag
    rw [hblocks]
    refine mem_updateWhere.mpr ⟨row, hrow, if_neg ?_⟩
    rintro ⟨-, habove⟩
    omega

/-- The fetch of the next block and the check of its parent. -/
theorem fetching_sound {tick : IndexTick ethereum} {number : ℕ}
    (hconsistent : Consistent ethereum db.blocks (depositLogs db))
    (hphase : PhaseSound state db.blocks (IndexPhase.fetching tick number))
    (h : indexStep state db now (.fetching tick number) = .ok (after, next)) :
    Sound state db after next := by
  have htip : AtTip db.blocks number := hphase
  have hstore : number ≤ tick.view.head → (∀ parent, Indexed db.blocks parent →
      parent.number + 1 = number → parent.hash = (tick.view.block number).parentHash) →
        Sound state db db (.storing tick (tick.view.block number)) := by
    intro hreached hparent
    have hnumber := block_number hreached
    refine Sound.of_read hconsistent ⟨by rw [hnumber], ?_⟩
    rw [hnumber]
    exact ⟨hreached, htip, hparent⟩
  dsimp only [indexStep] at h
  split at h
  · rename_i hreached
    have hnumber := block_number hreached
    simp only [bind_eq_ok, fetch_eq_ok] at h
    obtain ⟨block, ⟨-, rfl⟩, h⟩ := h
    split at h
    · rw [pure_eq_ok, Prod.mk.injEq] at h
      obtain ⟨rfl, rfl⟩ := h
      exact hstore hreached fun parent hparent hadjacent => by omega
    · rename_i hpositive
      rw [hnumber] at h hpositive
      split at h
      · rename_i hread
        rw [pure_eq_ok, Prod.mk.injEq] at h
        obtain ⟨rfl, rfl⟩ := h
        refine hstore hreached fun parent hparent hadjacent => ?_
        exact absurd (by omega) (not_indexed_of_canonicalBlock hread hparent)
      · rename_i row hread
        obtain ⟨hindexed, hheight⟩ := indexed_of_canonicalBlock hread
        split at h
        · rename_i hmatch
          rw [pure_eq_ok, Prod.mk.injEq] at h
          obtain ⟨rfl, rfl⟩ := h
          refine hstore hreached fun parent hparent hadjacent => ?_
          rw [hconsistent.unique hparent hindexed (by omega)]
          exact hmatch
        · simp only [bind_eq_ok, fetch_eq_ok, require_eq_ok, exists_const, pure_eq_ok,
            Prod.mk.injEq] at h
          obtain ⟨parent, ⟨hparent, rfl⟩, -, rfl, rfl⟩ := h
          have hbelow := block_number hparent
          refine Sound.of_read hconsistent ⟨by omega, by rw [hbelow], ?_, ?_⟩
          · exact ⟨row.block, hindexed, by omega⟩
          · intro block hblock
            rw [Option.mem_some_iff] at hblock
            subst hblock
            exact ⟨by omega, by rw [hnumber], by omega⟩
  · rw [pure_eq_ok, Prod.mk.injEq] at h
    obtain ⟨rfl, rfl⟩ := h
    exact Sound.of_read hconsistent trivial

/-- The transaction that stores a block with its logs. -/
theorem storing_sound {tick : IndexTick ethereum} {block : BlockRef}
    (hconsistent : Consistent ethereum db.blocks (depositLogs db))
    (hphase : PhaseSound state db.blocks (.storing tick block))
    (h : indexStep state db now (.storing tick block) = .ok (after, next)) :
    Sound state db after next := by
  obtain ⟨hsame, hextends⟩ := hphase
  simp only [indexStep, bind_eq_ok, pure_eq_ok, Prod.mk.injEq] at h
  obtain ⟨stored, hindex, rfl, rfl⟩ := h
  obtain ⟨hinside, -, hblocks, hlogs⟩ := indexBridgeDeposits_eq_ok hindex
  have hhash : block.hash = tick.view.hashes block.number := by
    rw [hsame, block_hash, ← hsame]
  have hother : ∀ old, Indexed db.blocks old → old.number ≠ block.number := by
    intro old hold
    have hbelow := hextends.tip.below old hold
    omega
  refine ⟨?_, ?_, ?_⟩
  · rw [hblocks, hlogs, hhash]
    have hnext := hconsistent.extend hextends fun log hlog =>
      (hinside log (hhash.symm ▸ hlog)).1
    rw [← hsame] at hnext
    exact hnext
  · rw [hblocks]
    constructor
    · intro old hold
      rcases (indexed_upsertBlock hother).mp hold with hold | rfl
      · have hbelow := hextends.tip.below old hold
        omega
      · omega
    · exact fun _ _ => ⟨block, (indexed_upsertBlock hother).mpr (Or.inr rfl), rfl⟩
  · intro _ row hrow hcanonical _
    have hnumber := hother row.block ⟨row, hrow, hcanonical, rfl⟩
    rw [hblocks, upsertBlock]
    split
    · exact mem_updateWhere.mpr ⟨row, hrow, if_neg hnumber⟩
    · exact List.mem_append_left _ hrow

/-- The finality update. -/
theorem finalizing_sound {tick : IndexTick ethereum} {through : Option ℕ}
    (hconsistent : Consistent ethereum db.blocks (depositLogs db))
    (hphase : PhaseSound state db.blocks (.finalizing tick through))
    (h : indexStep state db now (.finalizing tick through) = .ok (after, next)) :
    Sound state db after next := by
  rw [indexStep, pure_eq_ok, Prod.mk.injEq] at h
  obtain ⟨rfl, rfl⟩ := h
  refine ⟨hconsistent.finality through, trivial, ?_⟩
  intro hmode row hrow hcanonical hflag
  obtain ⟨height, hthrough, hfinalized⟩ := hphase hmode
  have hle := hfinalized hmode row hrow hcanonical hflag
  refine mem_updateWhere.mpr ⟨row, hrow, ?_⟩
  rw [if_pos trivial, Option.mem_def.mp hthrough]
  cases row
  simp_all

/-- Every call of the indexer keeps the chain consistent. -/
theorem indexStep_sound (hconsistent : Consistent ethereum db.blocks (depositLogs db))
    (hphase : PhaseSound state db.blocks phase)
    (h : indexStep state db now phase = .ok (after, next)) : Sound state db after next := by
  cases phase with
  | idle => exact absurd h (by simp [indexStep])
  | readingTip tick => exact readingTip_sound hconsistent h
  | searching tick remote child => exact searching_sound hconsistent hphase h
  | guarding tick ancestor child =>
    simp only [indexStep, bind_eq_ok, require_eq_ok, exists_const, pure_eq_ok, Prod.mk.injEq] at h
    obtain ⟨hallowed, rfl, rfl⟩ := h
    exact Sound.of_read hconsistent ⟨hphase.1, hphase.2, hallowed⟩
  | rollingBack tick ancestor child => exact rollingBack_sound hconsistent hphase h
  | resuming tick =>
    rw [indexStep, pure_eq_ok, Prod.mk.injEq] at h
    obtain ⟨rfl, rfl⟩ := h
    exact Sound.of_read hconsistent (atTip_nextBlock tick)
  | fetching tick number => exact fetching_sound hconsistent hphase h
  | storing tick block => exact storing_sound hconsistent hphase h
  | finishing tick =>
    simp only [indexStep, bind_eq_ok, pure_eq_ok, Prod.mk.injEq] at h
    obtain ⟨head, -, through, hthrough, rfl, rfl⟩ := h
    refine Sound.of_read hconsistent fun hmode => ?_
    rw [if_pos hmode] at hthrough
    exact finalizedUpTo_of_check hthrough
  | finalizing tick through => exact finalizing_sound hconsistent hphase h

end Steps

section Runs

variable {state : AppState} {ethereum : Ethereum} {s next : IndexedGateway ethereum}

/-- The state of a run: a consistent chain and a phase that knows it. -/
structure SoundState (state : AppState) (s : IndexedGateway ethereum) : Prop where
  /-- The chain is consistent. -/
  consistent : Consistent ethereum s.gateway.db.blocks (depositLogs s.gateway.db)
  /-- The phase knows the chain. -/
  phase : PhaseSound state s.gateway.db.blocks s.phase

/-- Every action keeps the chain consistent and, with consensus finality, every finalized block. -/
theorem indexedStep_sound {action : IndexedAction ethereum} (hs : SoundState state s)
    (h : indexedStep state s action = .ok next) :
    SoundState state next ∧ (state.ethereumFinalityMode = .finalized →
      ∀ row ∈ s.gateway.db.blocks, row.canonical → row.finalized →
        row ∈ next.gateway.db.blocks) := by
  cases action with
  | begin tick =>
    simp only [indexedStep, bind_eq_ok, require_eq_ok, exists_const, pure_eq_ok] at h
    obtain ⟨-, rfl⟩ := h
    exact ⟨⟨hs.consistent, trivial⟩, fun _ _ hrow _ _ => hrow⟩
  | proceed now =>
    simp only [indexedStep, bind_eq_ok, pure_eq_ok, Prod.exists] at h
    obtain ⟨db, phase, hstep, rfl⟩ := h
    have hsound := indexStep_sound hs.consistent hs.phase hstep
    exact ⟨⟨hsound.consistent, hsound.phase⟩, hsound.finalized⟩
  | fail =>
    rw [indexedStep, pure_eq_ok] at h
    subst h
    exact ⟨⟨hs.consistent, trivial⟩, fun _ _ hrow _ _ => hrow⟩
  | other action =>
    simp only [indexedStep, bind_eq_ok, require_eq_ok, exists_const, pure_eq_ok] at h
    obtain ⟨hwrites, gateway, hstep, rfl⟩ := h
    have hkept := chainKept_of_step hwrites hstep
    refine ⟨⟨?_, ?_⟩, fun _ row hrow _ _ => ?_⟩
    · rw [hkept.blocks, hkept.logs]
      exact hs.consistent
    · rw [hkept.blocks]
      exact hs.phase
    · rw [hkept.blocks]
      exact hrow

/-- The gateway starts with nothing indexed. -/
theorem soundState_fresh : SoundState state (freshGateway ethereum) := by
  have hnone : ∀ block, ¬ Indexed [] block := by
    rintro block ⟨row, hrow, -⟩
    exact absurd hrow List.not_mem_nil
  refine ⟨⟨List.nodup_nil, fun block hblock => absurd hblock (hnone block),
    fun low _ hlow => absurd hlow (hnone low), fun parent _ hparent => absurd hparent (hnone parent),
    fun block hblock => absurd hblock (hnone block), fun log => ?_⟩, trivial⟩
  constructor
  · exact fun hlog => absurd hlog List.not_mem_nil
  · rintro ⟨block, hblock, -⟩
    exact absurd hblock (hnone block)

/-- The chain is consistent after every run. -/
theorem soundState_run (state : AppState) (actions : List (IndexedAction ethereum)) :
    SoundState state (run (indexedStep state) (freshGateway ethereum) actions) :=
  run_invariant (fun _ _ _ hs h => (indexedStep_sound hs h).1) soundState_fresh actions

/-- With consensus finality a run keeps every finalized block. -/
theorem finalized_run (hmode : state.ethereumFinalityMode = .finalized) (hs : SoundState state s)
    {row : BlockRow} (hrow : row ∈ s.gateway.db.blocks) (hcanonical : row.canonical = true)
    (hfinalized : row.finalized = true) (actions : List (IndexedAction ethereum)) :
    row ∈ (run (indexedStep state) s actions).gateway.db.blocks := by
  have hstep : ∀ (s : IndexedGateway ethereum) action next,
      SoundState state s ∧ row ∈ s.gateway.db.blocks → indexedStep state s action = .ok next →
      SoundState state next ∧ row ∈ next.gateway.db.blocks := by
    intro s action next hs h
    obtain ⟨hnext, hblocks⟩ := indexedStep_sound hs.1 h
    exact ⟨hnext, hblocks hmode row hs.2 hcanonical hfinalized⟩
  exact (run_invariant hstep ⟨hs, hrow⟩ actions).2

end Runs

/-- For every sequence of views that Ethereum presents to the indexer, with failing calls and all
other actions of the gateway in between, the canonical blocks are contiguous and linked by their
hashes, the deposits that are not removed are exactly the ones logged in them, and so every block
up to the newest one was stored with its logs; with consensus finality a finalized block is never
rolled back. -/
theorem indexer_consistent (state : AppState) (ethereum : Ethereum)
    (earlier later : List (IndexedAction ethereum)) :
    let before := (run (indexedStep state) (freshGateway ethereum) earlier).gateway.db
    let after := (run (indexedStep state) (freshGateway ethereum) (earlier ++ later)).gateway.db
    Consistent ethereum after.blocks (depositLogs after) ∧
      (∀ tip ∈ latestBlock after, ∀ block, Indexed after.blocks block →
        block.number ≤ tip.block.number ∧
          ∀ log ∈ ethereum.logs block.hash, (log, false) ∈ depositLogs after) ∧
      (state.ethereumFinalityMode = .finalized → ∀ row ∈ before.blocks, row.canonical →
        row.finalized → row ∈ after.blocks) := by
  have hsound := soundState_run state (earlier ++ later)
  refine ⟨hsound.consistent, fun tip htip block hblock => ⟨?_, fun log hlog => ?_⟩, ?_⟩
  · exact (indexed_of_latestBlock htip).2 block hblock
  · exact (hsound.consistent.logs log).mpr ⟨block, hblock, hlog⟩
  · intro hmode row hrow hcanonical hfinalized
    rw [run_append]
    exact finalized_run hmode (soundState_run state earlier) hrow hcanonical hfinalized later

/-- Two chains over one first block: the last hexadecimal digit of a hash is the height, and the
deposit is logged in the first block of one chain and in the second block of the other. -/
def forkedEthereum : Ethereum where
  header hash := ⟨hash.toNat % 16, hash, if hash.toNat % 16 = 1 then 0 else hash - 1⟩
  logs hash :=
    if hash = 0xa1 then [⟨1, 0xd1, 0, 0xd2, 1, 0xa1, 0x7a, 0⟩]
    else if hash = 0xb2 then [⟨1, 0xd1, 0, 0xd2, 2, 0xb2, 0x7a, 0⟩]
    else []
  hash_header _ := rfl

/-- The chain of two blocks after the first one. -/
def forkA : View forkedEthereum where
  head := 2
  hashes number := if number = 0 then 0 else 0xa0 + BitVec.ofNat 256 number
  finalized := ⟨0, 0, 0⟩
  numbered := by decide
  linked := by decide
  nonces := by decide

/-- The other chain. -/
def forkB : View forkedEthereum where
  head := 2
  hashes number := if number = 0 then 0 else 0xb0 + BitVec.ofNat 256 number
  finalized := ⟨0, 0, 0⟩
  numbered := by decide
  linked := by decide
  nonces := by decide

/-- A tick with a number of calls after it. -/
def tickCalls (view : View forkedEthereum) (calls : ℕ) : List (IndexedAction forkedEthereum) :=
  .begin ⟨view, some 0⟩ :: List.replicate calls (.proceed 0)

example :
    let s := run (indexedStep replica) (freshGateway forkedEthereum)
      (tickCalls forkA 10 ++ tickCalls forkB 13)
    (s.gateway.db.blocks.map fun row => (row.block.hash, row.canonical, row.finalized)) =
        [(0, true, true), (0xb1, true, false), (0xb2, true, false)] ∧
      (depositLogs s.gateway.db).map (fun entry => (entry.1.blockHash, entry.2)) =
        [(0xb2, false)] := by
  decide

end EthereumSettlement.IndexerConsistency
