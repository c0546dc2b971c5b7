import EthereumSettlement.ArchiveListing
import EthereumSettlement.ServedClaims

/-!
# Claiming what the gateway lists

The gateway lists the withdrawals of a recipient in the order of their global indices,
each with its proof. A claim moves the recipient's cursor behind its index, so that
claims in another order lose what they pass over. In the order of the list nothing is
lost: whoever claims everything that is listed as claimable, in that order and not
earlier than it was listed, is paid for all of it, as long as the escrow holds enough.
-/

namespace EthereumSettlement.ListedClaims

open ByteWords CheckedCalls TransitionRuns PastaPoseidon InnerActionCommitment
open SettlementCodec SettlementReceipt ZekoSettlement EthereumZekoBridge BridgeSystem
open StepEffects SettledReceipts InnerActionRows ServedClaims ReferenceHashes ReferenceDeployment

/-- `ListWithdrawalsQuery`, after its recipient has been parsed. -/
structure ListWithdrawalsQuery where
  /-- Only withdrawals to this account. -/
  recipient : Option Address
  /-- Only actions after this index. -/
  after : Option (BitVec 64)
  /-- Most withdrawals on the page. -/
  limit : Option ℤ
  deriving DecidableEq

/-- The status code and the text of a failed request. -/
structure ApiError where
  /-- Status code. -/
  status : ℕ
  /-- Text of the answer. -/
  text : String
  deriving DecidableEq

/-- A failure is answered with a status code and a text of its own. -/
def orRespond {α : Type} (error : ApiError) (result : Except String α) : Except ApiError α :=
  match result with
  | .ok value => pure value
  | .error _ => throw error

/-- The bound of the query as a column's value. -/
def afterBound : Option (BitVec 64) → Except ApiError (Option ℤ)
  | none => pure none
  | some after => some <$> orRespond ⟨400, "after is too large"⟩ (toI64 after.toNat)

/-- The number of rows asked for: twenty unless given, at least one, at most a hundred. -/
def rowLimit (query : ListWithdrawalsQuery) : ℕ := (max 1 (min 100 (query.limit.getD 20))).toNat

/-- The rows that the query of the listings selects. -/
def listedRows (table : List InnerActionLeafRow) (erc20 : Bool) (query : ListWithdrawalsQuery)
    (after : Option ℤ) : List InnerActionLeafRow :=
  ((table.filter fun row => row.recipient.isSome && row.token.isSome == erc20 &&
      query.recipient.all (fun recipient => row.recipient == some recipient) &&
      after.all (fun bound => bound < row.globalActionIndex)).insertionSort
    (byColumn InnerActionLeafRow.globalActionIndex)).take (rowLimit query)

section Listing

variable (H : Hashes) (client : EthereumClient) (table : List InnerActionLeafRow)

/-- The place of a listed row. -/
def location (row : InnerActionLeafRow) : Except String (BitVec 64 × BitVec 32) := do
  let sequence ← ArchiveListing.toU64 row.settlementSequence
  let offset ← toU32 row.actionOffset
  pure (sequence, offset)

/-- The body that both listings share. -/
def listWithdrawals {α : Type} (erc20 : Bool) (locationText buildText : String)
    (load : BitVec 64 → BitVec 32 → BitVec 64 → BitVec 32 → Except String α)
    (query : ListWithdrawalsQuery) : Except ApiError (List α) := do
  let after ← afterBound query.after
  let currentSlot ← orRespond ⟨502, "could not read settlement virtual slot"⟩
    client.currentVirtualSlot
  let delay ← orRespond ⟨502, "could not read withdrawal delay"⟩ client.withdrawalDelaySlots
  (listedRows table erc20 query after).mapM fun row => do
    let place ← orRespond ⟨500, locationText⟩ (location row)
    orRespond ⟨500, buildText⟩ (load place.1 place.2 currentSlot delay)

/-- `list_native_withdrawals`. -/
def listNativeWithdrawals (query : ListWithdrawalsQuery) :
    Except ApiError (List NativeWithdrawalProof) :=
  listWithdrawals client table false "invalid indexed withdrawal location"
    "could not build withdrawal proof" (loadNativeWithdrawalProofAt H client table) query

/-- `list_token_withdrawals`. -/
def listTokenWithdrawals (query : ListWithdrawalsQuery) :
    Except ApiError (List TokenWithdrawalProof) :=
  listWithdrawals client table true "invalid indexed token withdrawal location"
    "could not build token withdrawal proof" (loadTokenWithdrawalProofAt H client table) query

end Listing

/-- An answered request had no failure. -/
@[simp] theorem orRespond_eq_ok {α : Type} {error : ApiError} {result : Except String α}
    {value : α} : orRespond error result = .ok value ↔ result = .ok value := by
  cases result with
  | ok found => simp only [orRespond, pure_eq_ok, Except.ok.injEq]
  | error text => simp only [orRespond, throw_eq_ok, reduceCtorEq]

/-- The place of a row names its sequence and its offset. -/
theorem location_eq_ok {row : InnerActionLeafRow} {place : BitVec 64 × BitVec 32}
    (h : location row = .ok place) :
    row.settlementSequence = place.1.toNat ∧ row.actionOffset = place.2.toNat := by
  simp only [location, ArchiveListing.toU64, bind_eq_ok, require_eq_ok, exists_const, pure_eq_ok,
    toU32_eq_ok] at h
  obtain ⟨sequence, ⟨hrange, hsequence⟩, offset, hoffset, hplace⟩ := h
  rw [← hplace, ← hsequence]
  refine ⟨?_, hoffset⟩
  dsimp only
  rw [BitVec.toNat_ofInt]
  omega

variable {env : Environment} {W : TokenWorld}

/-- A claim stands open for a served proof. -/
structure Open (env : Environment) (c : Chain W) (proof : NativeWithdrawalProof)
    (tx : Transaction) : Prop where
  /-- The transaction claims the withdrawal. -/
  call_eq : tx.call = .claimNativeWithdrawal proof.claim true
  /-- Neither contract sends it. -/
  sender_ne : tx.ctx.sender ≠ env.bridgeAddress ∧ tx.ctx.sender ≠ env.settlementAddress
  /-- The leaf verifies under the root. -/
  verified : ClaimVerified env c proof.claim (computeNativeWithdrawalLeaf env
    proof.globalActionIndex proof.recipient proof.amount proof.actionFieldsHash)
    proof.globalActionIndex
  /-- The batch is past its delay. -/
  claimable : checkClaimable c tx.ctx.timestamp
    (c.settlement.innerActionBatch proof.settlementSequence) = .ok ()
  /-- The recipient is no zero address. -/
  recipient_ne : proof.recipient ≠ 0
  /-- The recipient is not the bridge. -/
  receiver_ne : proof.recipient ≠ env.bridgeAddress
  /-- Something is paid. -/
  amount_ne : proof.amount ≠ 0
  /-- The index has a successor. -/
  index_lt : proof.globalActionIndex.toNat + 1 < 2 ^ 32
  /-- The index is not below the recipient's cursor. -/
  cursor_le : (c.bridge.nextWithdrawalIndex proof.recipient).toNat ≤ proof.globalActionIndex.toNat

/-- The wei that some proofs are worth. -/
def owed (proofs : List NativeWithdrawalProof) : ℕ :=
  (proofs.map fun proof => proof.amount.toNat * gwei).sum

/-- The bridge can pay an amount. -/
structure Funded (c : Chain W) (amount : ℕ) : Prop where
  /-- The bridge is not paused. -/
  unpaused : c.bridge.paused = false
  /-- Both counters of ether are equal. -/
  total_eq : c.bridge.totalDepositedByToken 0 = c.bridge.nativeEscrowLiability
  /-- The liability covers the amount. -/
  liability_le : amount ≤ c.bridge.nativeEscrowLiability.toNat
  /-- The bridge holds the amount. -/
  ether_le : amount ≤ c.etherBalance

/-- What paying an open claim leaves behind. -/
structure Paid (c : Chain W) (proof : NativeWithdrawalProof) (next : Chain W) : Prop where
  /-- The settlement contract is unchanged. -/
  settlement_eq : next.settlement = c.settlement
  /-- The delay is unchanged. -/
  delay_eq : next.bridge.withdrawalDelaySlots = c.bridge.withdrawalDelaySlots
  /-- The recipient's cursor moves past the index. -/
  cursor_eq : (next.bridge.nextWithdrawalIndex proof.recipient).toNat =
    proof.globalActionIndex.toNat + 1
  /-- No other cursor moves. -/
  cursor_other : ∀ recipient, recipient ≠ proof.recipient →
    next.bridge.nextWithdrawalIndex recipient = c.bridge.nextWithdrawalIndex recipient

/-- An open claim is paid while there are funds for it, and the rest of the funds stays. -/
theorem Open.paid {c : Chain W} {proof : NativeWithdrawalProof} {tx : Transaction}
    (h : Open env c proof tx) {rest : ℕ} (hfunds : Funded c (proof.amount.toNat * gwei + rest)) :
    ∃ next, step env c tx = .ok next ∧ Paid c proof next ∧ Funded next rest := by
  have hliability := hfunds.liability_le
  have hether := hfunds.ether_le
  have hcovered : proof.amount.toNat * gwei ≤ c.bridge.nativeEscrowLiability.toNat := by omega
  have hheld : proof.amount.toNat * gwei ≤ c.etherBalance := by omega
  obtain ⟨left, hleft⟩ := ThirdPartyClaims.exists_rest hcovered
  have hnext := nextIndex_toNat h.index_lt
  have htotal : left.toNat + proof.amount.toNat * gwei =
      (c.bridge.totalDepositedByToken 0).toNat := by
    rw [hfunds.total_eq]
    exact hleft
  have hok := (claimNativeWithdrawal_eq_ok env).mpr ⟨proof.globalActionIndex,
    BitVec.ofNat 32 (proof.globalActionIndex.toNat + 1), left, left,
    ⟨h.verified, hfunds.unpaused, h.recipient_ne, h.amount_ne, h.cursor_le, h.claimable, hnext,
      hleft, htotal, hheld, h.receiver_ne, rfl⟩, rfl⟩
  refine ⟨afterNativeClaim c proof.claim proof.globalActionIndex
    (BitVec.ofNat 32 (proof.globalActionIndex.toNat + 1)) left left, ?_, ⟨rfl, rfl, ?_, ?_⟩,
    ⟨hfunds.unpaused, ?_, ?_, ?_⟩⟩
  · rw [step, require_bind_eq_ok, h.call_eq]
    exact ⟨h.sender_ne, hok⟩
  · change (Function.update c.bridge.nextWithdrawalIndex proof.recipient _
      proof.recipient).toNat = _
    rw [Function.update_self]
    exact hnext
  · intro recipient hne
    exact Function.update_of_ne hne _ _
  · change Function.update c.bridge.totalDepositedByToken 0 left 0 = left
    rw [Function.update_self]
  · change rest ≤ left.toNat
    omega
  · change rest ≤ c.etherBalance - proof.amount.toNat * gwei
    omega

/-- A paid claim leaves the claims of later indices open. -/
theorem Open.kept {c next : Chain W} {proof later : NativeWithdrawalProof} {tx : Transaction}
    (h : Open env c later tx) (hpaid : Paid c proof next)
    (hlt : proof.globalActionIndex.toNat < later.globalActionIndex.toNat) :
    Open env next later tx := by
  refine ⟨h.call_eq, h.sender_ne, ⟨?_, ?_, ?_, ?_⟩, ?_, h.recipient_ne, h.receiver_ne, h.amount_ne,
    h.index_lt, ?_⟩
  · rw [hpaid.settlement_eq]
    exact h.verified.valid
  · rw [hpaid.settlement_eq]
    exact h.verified.offset_lt
  · rw [hpaid.settlement_eq]
    exact h.verified.index_eq
  · rw [hpaid.settlement_eq]
    exact h.verified.root_eq
  · rw [checkClaimable_eq_ok, hpaid.settlement_eq, hpaid.delay_eq]
    exact checkClaimable_eq_ok.mp h.claimable
  · by_cases hsame : later.recipient = proof.recipient
    · have hcursor := hpaid.cursor_eq
      rw [hsame]
      omega
    · rw [hpaid.cursor_other _ hsame]
      exact h.cursor_le

/-- Open claims of increasing indices are all paid, one after another, while the funds
cover them together; every cursor then stands behind the claims of its recipient. -/
theorem claims_in_order {proofs : List NativeWithdrawalProof} {claims : List Transaction}
    {c : Chain W} (hopen : List.Forall₂ (Open env c) proofs claims)
    (hordered : proofs.Pairwise fun first second =>
      first.globalActionIndex.toNat < second.globalActionIndex.toNat)
    (hfunds : Funded c (owed proofs)) :
    (accepted (step env) c claims).map Prod.snd = claims ∧
      ∀ proof ∈ proofs, proof.globalActionIndex.toNat <
        ((run (step env) c claims).bridge.nextWithdrawalIndex proof.recipient).toNat := by
  induction proofs generalizing c claims with
  | nil =>
    rw [List.forall₂_nil_left_iff.mp hopen]
    exact ⟨rfl, fun proof hmem => absurd hmem List.not_mem_nil⟩
  | cons proof rest ih =>
    obtain ⟨tx, later, hfirst, hrest, hclaims⟩ := List.forall₂_cons_left_iff.mp hopen
    obtain ⟨hbehind, hordered⟩ := List.pairwise_cons.mp hordered
    rw [owed, List.map_cons, List.sum_cons] at hfunds
    obtain ⟨next, hstep, hpaid, hfunds⟩ := hfirst.paid hfunds
    have hopenNext : List.Forall₂ (Open env next) rest later := by
      refine List.forall₂_iff_get.mpr ⟨hrest.length_eq, ?_⟩
      intro i hproof htx
      have hstands := (List.forall₂_iff_get.mp hrest).2 i hproof htx
      exact hstands.kept hpaid (hbehind _ (List.get_mem rest ⟨i, hproof⟩))
    obtain ⟨haccepted, hcursors⟩ := ih hopenNext hordered hfunds
    have hrun : run (step env) c claims = run (step env) next later := by
      rw [hclaims, run_cons, exec_of_ok hstep]
    rw [hrun]
    constructor
    · rw [hclaims]
      simp only [accepted, hstep, List.map_cons, haccepted]
    · intro served hserved
      by_cases hhead : served = proof
      · have hmono : (next.bridge.nextWithdrawalIndex proof.recipient).toNat ≤
            ((run (step env) next later).bridge.nextWithdrawalIndex proof.recipient).toNat :=
          ThirdPartyClaims.cursor_mono next later none proof.recipient
        have hcursor := hpaid.cursor_eq
        rw [hhead]
        omega
      · exact hcursors served ((List.mem_cons.mp hserved).resolve_left hhead)

/-- A list whose members of one key are related in order, and whose members of different
keys are related, is related in order. -/
theorem pairwise_of_keys {α κ : Type} [DecidableEq κ] {R : α → α → Prop} (key : α → κ)
    {items : List α} (hsame : ∀ item ∈ items,
      (items.filter fun other => key other = key item).Pairwise R)
    (hdifferent : ∀ first ∈ items, ∀ second ∈ items, key first ≠ key second → R first second) :
    items.Pairwise R := by
  induction items with
  | nil => exact .nil
  | cons item items ih =>
    refine List.pairwise_cons.mpr ⟨?_, ih ?_ ?_⟩
    · intro other hother
      by_cases hkey : key other = key item
      · have hhead := hsame item List.mem_cons_self
        rw [List.filter_cons_of_pos (by rw [decide_eq_true_eq])] at hhead
        have hmem : other ∈ items.filter fun found => key found = key item :=
          List.mem_filter.mpr ⟨hother, by rw [decide_eq_true_eq, hkey]⟩
        exact (List.pairwise_cons.mp hhead).1 other hmem
      · exact hdifferent item List.mem_cons_self other (List.mem_cons_of_mem _ hother)
          (fun h => hkey h.symm)
    · intro other hother
      have hwhole := hsame other (List.mem_cons_of_mem _ hother)
      exact hwhole.sublist ((List.sublist_cons_self item items).filter _)
    · intro first hfirst second hsecond
      exact hdifferent first (List.mem_cons_of_mem _ hfirst) second
        (List.mem_cons_of_mem _ hsecond)

/-- Every row of the table was stored for a settled receipt, with the rest of its batch. -/
def IndexedTable (d : Deployment env W) (transactions : List Transaction)
    (table : List InnerActionLeafRow) : Prop :=
  ∀ row ∈ table, ∃ receipt rows, StoredBatch d transactions receipt rows ∧
    row.settlementSequence = receipt.settlement.batchSequence.toNat ∧
    (rowsOf table receipt.settlement.batchSequence.toNat).Perm rows

section Table

variable {d : Deployment env W} {transactions : List Transaction}
  {table : List InnerActionLeafRow}

/-- The ranges of the settled batches are ordered, if every receipt has a batch. -/
theorem reached_ordered
    (hbatches : ∀ entry ∈ d.history transactions, SettlesBatch entry) :
    BatchesOrdered (d.reached transactions).settlement := by
  apply reached_induction d (J := fun _ c => BatchesOrdered c.settlement) (start_batchesOrdered d)
    ?_ hbatches
  intro history c tx next hc hbatch heffect
  exact batchesOrdered_of_effect hc hbatch heffect

/-- Where a row of the table stands in its batch. -/
structure Placed (d : Deployment env W) (transactions : List Transaction)
    (table : List InnerActionLeafRow) (row : InnerActionLeafRow)
    (receipt : SettlementPublicValuesV2) (rows : List InnerActionLeafRow) (k : ℕ) : Prop where
  /-- The rows are those of the receipt. -/
  stored : StoredBatch d transactions receipt rows
  /-- The row belongs to the batch of the receipt. -/
  sequence_eq : row.settlementSequence = receipt.settlement.batchSequence.toNat
  /-- The table holds the whole batch. -/
  whole : (rowsOf table receipt.settlement.batchSequence.toNat).Perm rows
  /-- The row stands at the position. -/
  found : rows[k]? = some row

/-- Every row of an indexed table stands in a batch. -/
theorem IndexedTable.placed (h : IndexedTable d transactions table) {row : InnerActionLeafRow}
    (hrow : row ∈ table) : ∃ receipt rows k, Placed d transactions table row receipt rows k := by
  obtain ⟨receipt, rows, hstored, hsequence, hwhole⟩ := h row hrow
  have hmember : row ∈ rowsOf table receipt.settlement.batchSequence.toNat :=
    List.mem_filter.mpr ⟨hrow, by rw [decide_eq_true_eq, hsequence]⟩
  obtain ⟨k, hk⟩ := List.mem_iff_getElem?.mp (hwhole.mem_iff.mp hmember)
  exact ⟨receipt, rows, k, hstored, hsequence, hwhole, hk⟩

/-- The global index of a row lies in the range of its batch on chain. -/
theorem Placed.index {row : InnerActionLeafRow} {receipt : SettlementPublicValuesV2}
    {rows : List InnerActionLeafRow} {k : ℕ} (h : Placed d transactions table row receipt rows k) :
    ((d.reached transactions).settlement.innerActionBatch
        receipt.settlement.batchSequence).valid = true ∧
      row.globalActionIndex = (((d.reached transactions).settlement.innerActionBatch
        receipt.settlement.batchSequence).startIndex.toNat + k : ℕ) ∧
      k < ((d.reached transactions).settlement.innerActionBatch
        receipt.settlement.batchSequence).count.toNat := by
  have hchain := h.stored.onChain
  obtain ⟨action, hof⟩ := h.stored.storedRow h.found
  obtain ⟨hk, -⟩ := List.getElem?_eq_some_iff.mp h.found
  refine ⟨hchain.valid, ?_, ?_⟩
  · rw [hchain.start_eq]
    exact hof.index_eq
  · rw [hchain.count_eq, ← h.stored.length_eq]
    exact hk

/-- No two rows of an indexed table have one global index. -/
theorem IndexedTable.distinct (h : IndexedTable d transactions table)
    (hordered : BatchesOrdered (d.reached transactions).settlement) :
    table.Pairwise fun first second => first.globalActionIndex ≠ second.globalActionIndex := by
  apply pairwise_of_keys InnerActionLeafRow.settlementSequence
  · intro row hrow
    obtain ⟨receipt, rows, k, hplaced⟩ := h.placed hrow
    have hrows : rows.Pairwise fun first second =>
        first.globalActionIndex ≠ second.globalActionIndex := by
      rw [List.pairwise_iff_getElem]
      intro i j hi hj hlt
      obtain ⟨_, hfirst⟩ := hplaced.stored.storedRow (List.getElem?_eq_getElem hi)
      obtain ⟨_, hsecond⟩ := hplaced.stored.storedRow (List.getElem?_eq_getElem hj)
      have hleft := hfirst.index_eq
      have hright := hsecond.index_eq
      omega
    rw [hplaced.sequence_eq]
    exact (hplaced.whole.pairwise_iff (fun hne => hne.symm)).mpr hrows
  · intro first hfirst second hsecond hsequence
    obtain ⟨receipt, rows, k, hplaced⟩ := h.placed hfirst
    obtain ⟨other, otherRows, l, hother⟩ := h.placed hsecond
    rw [hplaced.sequence_eq, hother.sequence_eq] at hsequence
    obtain ⟨hvalid, hindex, hk⟩ := hplaced.index
    obtain ⟨hotherValid, hotherIndex, hl⟩ := hother.index
    intro hsame
    rcases Nat.lt_trichotomy receipt.settlement.batchSequence.toNat
      other.settlement.batchSequence.toNat with hlt | heq | hgt
    · have hends := hordered.ordered _ _ hvalid hotherValid hlt
      omega
    · omega
    · have hends := hordered.ordered _ _ hotherValid hvalid hgt
      omega

/-- The listed rows are those of the table in the order of their indices. -/
theorem listedRows_ordered (h : IndexedTable d transactions table)
    (hordered : BatchesOrdered (d.reached transactions).settlement) (erc20 : Bool)
    (query : ListWithdrawalsQuery) (after : Option ℤ) :
    (listedRows table erc20 query after).Pairwise
        (fun first second => first.globalActionIndex < second.globalActionIndex) ∧
      ∀ row ∈ listedRows table erc20 query after, row ∈ table := by
  unfold listedRows
  generalize hselected : (table.filter fun row => row.recipient.isSome &&
    row.token.isSome == erc20 &&
    query.recipient.all (fun recipient => row.recipient == some recipient) &&
    after.all (fun bound => bound < row.globalActionIndex)) = selected
  have hsub : selected.Sublist table := by
    rw [← hselected]
    exact List.filter_sublist
  have hperm := List.perm_insertionSort (byColumn InnerActionLeafRow.globalActionIndex) selected
  have hsorted :=
    List.pairwise_insertionSort (byColumn InnerActionLeafRow.globalActionIndex) selected
  have hdistinct := (hperm.pairwise_iff (fun hne => Ne.symm hne)).mpr
    ((h.distinct hordered).sublist hsub)
  have hincreasing := hsorted.and hdistinct
  constructor
  · refine (hincreasing.imp ?_).sublist (List.take_sublist _ _)
    intro first second hboth
    exact lt_of_le_of_ne hboth.1 hboth.2
  · intro row hrow
    exact hsub.subset (hperm.mem_iff.mp (List.mem_of_mem_take hrow))

/-- A proof is the one served for a row of the table. -/
structure Shown (d : Deployment env W) (transactions : List Transaction)
    (table : List InnerActionLeafRow) (timestamp : BitVec 256) (slot : BitVec 64)
    (row : InnerActionLeafRow) (proof : NativeWithdrawalProof) : Prop where
  /-- Some stored batch serves the proof. -/
  served : ∃ receipt rows offset path, StoredBatch d transactions receipt rows ∧
    (rowsOf table receipt.settlement.batchSequence.toNat).Perm rows ∧
    NativeServed env.hashes (answers (d.reached transactions) timestamp) table
      receipt.settlement.batchSequence offset slot
      (d.reached transactions).bridge.withdrawalDelaySlots path proof
  /-- The row has the index of the proof. -/
  index_eq : row.globalActionIndex = proof.globalActionIndex.toNat

/-- What is listed for a row of an indexed table is served for that row. -/
theorem IndexedTable.shown (h : IndexedTable d transactions table) {timestamp : BitVec 256}
    {slot : BitVec 64} {row : InnerActionLeafRow} (hrow : row ∈ table)
    {place : BitVec 64 × BitVec 32} (hplace : location row = .ok place)
    {proof : NativeWithdrawalProof}
    (hload : loadNativeWithdrawalProofAt env.hashes (answers (d.reached transactions) timestamp)
      table place.1 place.2 slot (d.reached transactions).bridge.withdrawalDelaySlots =
        .ok proof) :
    Shown d transactions table timestamp slot row proof := by
  obtain ⟨receipt, rows, k, hplaced⟩ := h.placed hrow
  obtain ⟨hsequence, hoffset⟩ := location_eq_ok hplace
  have hsame : place.1 = receipt.settlement.batchSequence := by
    have hnat := hplaced.sequence_eq
    exact BitVec.eq_of_toNat_eq (by omega)
  have hposition : place.2.toNat = k := by
    have hstands := hplaced.stored.offset_eq k row hplaced.found
    omega
  obtain ⟨path, hserved⟩ := loadNativeWithdrawalProofAt_eq_ok hload
  rw [hsame] at hserved
  obtain ⟨-, hpath, -⟩ := hplaced.stored.loaded hplaced.whole hserved.loaded
  have htarget := hpath.target_eq
  rw [hposition, hplaced.found] at htarget
  obtain ⟨action, hof⟩ := hplaced.stored.storedRow hplaced.found
  have hindex := hof.index_eq
  have hlt := hof.index_lt
  refine ⟨⟨receipt, rows, place.2, path, hplaced.stored, hplaced.whole, hserved⟩, ?_⟩
  rw [hserved.index_eq, hpath.index_eq, BitVec.toNat_add, hposition, Nat.mod_eq_of_lt hlt]
  exact hindex

/-- The listed proofs are those served for the listed rows. -/
theorem listNativeWithdrawals_eq_ok (h : IndexedTable d transactions table)
    (hordered : BatchesOrdered (d.reached transactions).settlement) {timestamp : BitVec 256}
    {query : ListWithdrawalsQuery} {proofs : List NativeWithdrawalProof}
    (hlisted : listNativeWithdrawals env.hashes (answers (d.reached transactions) timestamp) table
      query = .ok proofs) :
    ∃ slot after, currentVirtualSlot (d.reached transactions).settlement timestamp = .ok slot ∧
      List.Forall₂ (Shown d transactions table timestamp slot)
        (listedRows table false query after) proofs := by
  simp only [listNativeWithdrawals, listWithdrawals, bind_eq_ok, orRespond_eq_ok,
    answers_slot] at hlisted
  obtain ⟨after, -, slot, hslot, delay, hdelay, hproofs⟩ := hlisted
  cases hdelay
  refine ⟨slot, after, hslot, ?_⟩
  have hmap := mapM_eq_ok.mp hproofs
  obtain ⟨-, hmembers⟩ := listedRows_ordered h hordered false query after
  refine List.forall₂_iff_get.mpr ⟨hmap.length_eq, ?_⟩
  intro i hrow hproof
  have hread := (List.forall₂_iff_get.mp hmap).2 i hrow hproof
  simp only [bind_eq_ok, orRespond_eq_ok] at hread
  obtain ⟨place, hplace, hload⟩ := hread
  exact h.shown (hmembers _ (List.get_mem _ ⟨i, hrow⟩)) hplace hload

/-- Members that belong to ordered ones are ordered by what they take over. -/
theorem shown_ordered {timestamp : BitVec 256} {slot : BitVec 64} {rows : List InnerActionLeafRow}
    {proofs : List NativeWithdrawalProof}
    (hshown : List.Forall₂ (Shown d transactions table timestamp slot) rows proofs)
    (hordered : rows.Pairwise fun first second =>
      first.globalActionIndex < second.globalActionIndex) :
    proofs.Pairwise fun first second =>
      first.globalActionIndex.toNat < second.globalActionIndex.toNat := by
  rw [List.pairwise_iff_getElem] at hordered ⊢
  obtain ⟨hlength, hall⟩ := List.forall₂_iff_get.mp hshown
  intro i j hi hj hlt
  have hrow : i < rows.length := by omega
  have hlater : j < rows.length := by omega
  have hless := hordered i j hrow hlater hlt
  have hfirst := (hall i hrow hi).index_eq
  have hsecond := (hall j hlater hj).index_eq
  simp only [List.get_eq_getElem] at hfirst hsecond
  omega

/-- A transaction claims what a proof was served for, with its arguments, no earlier than
it was served, and to an account that can be paid. -/
structure Claims (env : Environment) (c : Chain W) (proof : NativeWithdrawalProof)
    (tx : Transaction) : Prop where
  /-- The transaction claims the withdrawal. -/
  call_eq : tx.call = .claimNativeWithdrawal proof.claim true
  /-- Neither contract sends it. -/
  sender_ne : tx.ctx.sender ≠ env.bridgeAddress ∧ tx.ctx.sender ≠ env.settlementAddress
  /-- Its slot is not before the one the proof was served at. -/
  later : ∃ slot, currentVirtualSlot c.settlement tx.ctx.timestamp = .ok slot ∧
    proof.currentVirtualSlot.toNat ≤ slot.toNat
  /-- The recipient is no zero address. -/
  recipient_ne : proof.recipient ≠ 0
  /-- The recipient is not the bridge. -/
  receiver_ne : proof.recipient ≠ env.bridgeAddress
  /-- Something is paid. -/
  amount_ne : proof.amount ≠ 0
  /-- The index has a successor. -/
  index_lt : proof.globalActionIndex.toNat + 1 < 2 ^ 32

/-- A claim of what is shown as claimable stands open. -/
theorem Shown.claim_open {timestamp : BitVec 256} {slot : BitVec 64} {row : InnerActionLeafRow}
    {proof : NativeWithdrawalProof} (h : Shown d transactions table timestamp slot row proof)
    (hslot : currentVirtualSlot (d.reached transactions).settlement timestamp = .ok slot)
    (hready : proof.status = "claimable") {tx : Transaction}
    (hclaims : Claims env (d.reached transactions) proof tx) :
    Open env (d.reached transactions) proof tx := by
  obtain ⟨receipt, rows, offset, path, hstored, hwhole, hserved⟩ := h.served
  have hverified := hserved.verified hstored hwhole
  rw [hserved.leaf_eq hstored hwhole] at hverified
  obtain ⟨hcursor, hclaimable⟩ := (hserved.claimable_iff hstored hwhole hslot).mp hready
  obtain ⟨shownSlot, hshown, hcome⟩ := checkClaimable_eq_ok.mp hclaimable
  obtain ⟨laterSlot, hlaterSlot, hlater⟩ := hclaims.later
  have hsame : slot = shownSlot := Except.ok.inj (hslot.symm.trans hshown)
  rw [hserved.slot_eq, hsame] at hlater
  have hread : (d.reached transactions).bridge.nextWithdrawalIndex proof.recipient =
      proof.recipientCursor := Except.ok.inj hserved.cursor_eq
  refine ⟨hclaims.call_eq, hclaims.sender_ne, hverified, ?_, hclaims.recipient_ne,
    hclaims.receiver_ne, hclaims.amount_ne, hclaims.index_lt, ?_⟩
  · exact checkClaimable_eq_ok.mpr ⟨laterSlot, hlaterSlot, hcome.trans hlater⟩
  · rw [hread]
    exact hcursor

/-- In every state that a deployment reaches whose receipts all had batches: whoever claims
everything that the gateway lists as claimable, in the order of the list and no earlier, is
paid for all of it, while the bridge is not paused and the escrow and the bridge's ether
cover the amounts together. Afterwards nothing of it can be claimed again. -/
theorem listed_claims_paid (d : Deployment env W) (transactions : List Transaction)
    (htable : IndexedTable d transactions table)
    (hbatches : ∀ entry ∈ d.history transactions, SettlesBatch entry)
    (timestamp : BitVec 256) (query : ListWithdrawalsQuery) {proofs : List NativeWithdrawalProof}
    (hlisted : listNativeWithdrawals env.hashes (answers (d.reached transactions) timestamp) table
      query = .ok proofs)
    {claims : List Transaction}
    (hclaims : List.Forall₂ (Claims env (d.reached transactions))
      (proofs.filter fun proof => proof.status = "claimable") claims)
    (hunpaused : (d.reached transactions).bridge.paused = false)
    (hliability : owed (proofs.filter fun proof => proof.status = "claimable") ≤
      (d.reached transactions).bridge.nativeEscrowLiability.toNat)
    (hether : owed (proofs.filter fun proof => proof.status = "claimable") ≤
      (d.reached transactions).etherBalance) :
    (accepted (step env) (d.reached transactions) claims).map Prod.snd = claims ∧
      ∀ proof ∈ proofs, proof.status = "claimable" → proof.globalActionIndex.toNat <
        ((d.reached (transactions ++ claims)).bridge.nextWithdrawalIndex
          proof.recipient).toNat := by
  have hordered := reached_ordered hbatches
  obtain ⟨slot, after, hslot, hshown⟩ := listNativeWithdrawals_eq_ok htable hordered hlisted
  obtain ⟨hrows, -⟩ := listedRows_ordered htable hordered false query after
  have hindices := shown_ordered hshown hrows
  have hall : ∀ proof ∈ proofs, ∃ row, Shown d transactions table timestamp slot row proof := by
    intro proof hproof
    obtain ⟨i, hi, hget⟩ := List.mem_iff_getElem.mp hproof
    have hlength := hshown.length_eq
    have hrow : i < (listedRows table false query after).length := by omega
    have hone := (List.forall₂_iff_get.mp hshown).2 i hrow hi
    simp only [List.get_eq_getElem, hget] at hone
    exact ⟨_, hone⟩
  have hopen : List.Forall₂ (Open env (d.reached transactions))
      (proofs.filter fun proof => proof.status = "claimable") claims := by
    refine List.forall₂_iff_get.mpr ⟨hclaims.length_eq, ?_⟩
    intro i hproof htx
    have hclaim := (List.forall₂_iff_get.mp hclaims).2 i hproof htx
    have hmember := List.get_mem (proofs.filter fun proof => proof.status = "claimable")
      ⟨i, hproof⟩
    obtain ⟨hlistedProof, hready⟩ := List.mem_filter.mp hmember
    obtain ⟨row, hrow⟩ := hall _ hlistedProof
    exact hrow.claim_open hslot (of_decide_eq_true hready) hclaim
  have htotal := (EscrowAccounting.reached_accounted d transactions 0).total
  rw [EscrowAccounting.liabilityOf_zero] at htotal
  obtain ⟨haccepted, hcursors⟩ := claims_in_order hopen (hindices.sublist List.filter_sublist)
    ⟨hunpaused, htotal, hliability, hether⟩
  have hrun : d.reached (transactions ++ claims) =
      run (step env) (d.reached transactions) claims := run_append d.start transactions claims
  refine ⟨haccepted, ?_⟩
  intro proof hproof hready
  rw [hrun]
  exact hcursors proof (List.mem_filter.mpr ⟨hproof, decide_eq_true hready⟩)

end Table

/-- What the gateway lists of them once the delay has passed. -/
def setupListing : Except ApiError (List NativeWithdrawalProof) :=
  listNativeWithdrawals referenceHashes (answers (deployment.reached setup) 1020) setupRows
    ⟨none, none, none⟩

/-- The parts of a proof that a claim's acceptance depends on. -/
def summary (proof : NativeWithdrawalProof) :
    String × Address × BitVec 64 × BitVec 32 × BitVec 64 :=
  (proof.status, proof.recipient, proof.amount, proof.globalActionIndex, proof.currentVirtualSlot)

/-- Both native withdrawals of the setup are listed as claimable, and can be paid. -/
theorem setup_listing :
    (∀ entry ∈ deployment.history setup, SettlesBatch entry) ∧
    setupListing.toOption.map (fun proofs => proofs.map summary) =
      some [("claimable", recipient, 1, 0, 20), ("claimable", recipient, 2, 1, 20)] ∧
    (deployment.reached setup).bridge.paused = false ∧
    3 * gwei ≤ (deployment.reached setup).bridge.nativeEscrowLiability.toNat ∧
    3 * gwei ≤ (deployment.reached setup).etherBalance ∧
    (currentVirtualSlot (deployment.reached setup).settlement 1020).toOption = some 20 := by
  decide +kernel

/-- The stored rows are a table. -/
theorem setupRows_indexed : IndexedTable deployment setup setupRows := by
  intro row hrow
  refine ⟨setupReceipt, setupRows, setupRows_stored,
    (setupRows_stored.sequence_eq hrow).1, ?_⟩
  rw [setupRows_stored.alone]

/-- The transaction that claims a served proof. -/
def claimOf (proof : NativeWithdrawalProof) : Transaction :=
  ⟨claimant, .claimNativeWithdrawal proof.claim true⟩

/-- Both listed withdrawals of the setup are claimed one after the other. -/
theorem listed_claims_paid_setup : ∃ proofs, setupListing = .ok proofs ∧ proofs.length = 2 ∧
    (accepted (step environment) (deployment.reached setup) (proofs.map claimOf)).map Prod.snd =
      proofs.map claimOf := by
  obtain ⟨hbatches, hsummary, hunpaused, hliability, hether, hslot⟩ := setup_listing
  cases hlisted : setupListing with
  | error error =>
    rw [hlisted] at hsummary
    cases hsummary
  | ok proofs =>
    rw [hlisted] at hsummary
    have hmap : proofs.map summary =
        [("claimable", recipient, 1, 0, 20), ("claimable", recipient, 2, 1, 20)] :=
      Option.some.inj hsummary
    have hfacts : ∀ proof ∈ proofs, proof.status = "claimable" ∧ proof.recipient = recipient ∧
        proof.amount ≠ 0 ∧ proof.globalActionIndex.toNat ≤ 1 ∧ proof.currentVirtualSlot = 20 := by
      have hlisted : ∀ entry ∈ proofs.map summary, entry.1 = "claimable" ∧
          entry.2.1 = recipient ∧ entry.2.2.1 ≠ 0 ∧ entry.2.2.2.1.toNat ≤ 1 ∧
          entry.2.2.2.2 = 20 := by
        rw [hmap]
        exact List.forall_iff_forall_mem.mp (by decide)
      intro proof hproof
      exact hlisted (summary proof) (List.mem_map_of_mem hproof)
    have hall : (proofs.filter fun proof => proof.status = "claimable") = proofs := by
      rw [List.filter_eq_self]
      intro proof hproof
      exact decide_eq_true (hfacts proof hproof).1
    have howed : owed proofs = 3 * gwei := by
      have hsum : owed proofs =
          ((proofs.map summary).map fun entry => entry.2.2.1.toNat * gwei).sum := by
        rw [List.map_map]
        rfl
      rw [hsum, hmap]
      decide
    have hread : currentVirtualSlot (deployment.reached setup).settlement claimant.timestamp =
        .ok 20 := eq_ok_of_toOption hslot
    have hsender : claimant.sender ≠ environment.bridgeAddress ∧
        claimant.sender ≠ environment.settlementAddress := by decide
    have hclaims : List.Forall₂ (Claims environment (deployment.reached setup))
        (proofs.filter fun proof => proof.status = "claimable") (proofs.map claimOf) := by
      rw [hall, List.forall₂_map_right_iff, List.forall₂_same]
      intro proof hproof
      obtain ⟨-, hrecipient, hamount, hindex, hshown⟩ := hfacts proof hproof
      refine ⟨rfl, hsender, ⟨20, hread, ?_⟩, ?_, ?_, hamount, by omega⟩
      · rw [hshown]
      · rw [hrecipient]
        decide
      · rw [hrecipient]
        decide
    have hlength := congrArg List.length hmap
    rw [List.length_map] at hlength
    rw [← hall] at howed
    refine ⟨proofs, rfl, hlength, ?_⟩
    exact (listed_claims_paid deployment setup setupRows_indexed hbatches 1020 ⟨none, none, none⟩
      hlisted hclaims hunpaused (howed.le.trans hliability) (howed.le.trans hether)).1

end EthereumSettlement.ListedClaims
