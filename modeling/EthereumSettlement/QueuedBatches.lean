import EthereumSettlement.DepositTable
import EthereumSettlement.PreflightAgreement

/-!
# The deposit batch that the gateway queues

`canonical_deposit_batch` reads the state of both contracts, selects the unbridged
deposits from the index, and checks that they are consecutive, that their accumulators
link, and that they lead from the contract's checkpoint to its current state. The index
may follow another chain than the one the contracts were read on: blocks may be missing,
orphaned or ahead. A batch that is built is nevertheless exactly the contract's unbridged
deposits, so that the guest proves it and the contract accepts it. On one chain it is
built exactly when all of these deposits are final and their amounts fit.
-/

namespace EthereumSettlement.QueuedBatches

open ByteWords CheckedCalls HashCommitments TransitionRuns PastaPoseidon InnerActionCommitment
open UpsertedTables SettlementCodec BridgeCodec BridgeGuest ZekoSettlement EthereumZekoBridge
open BridgeSystem StepEffects RunInvariants SettledReceipts ClaimSoundness DepositChain
open BridgedDeposits OuterActionChain RecordCommitments DepositLiveness DepositTable
open ReferenceDeployment
open ServedClaims (ensureRegistryErc20ActionEncoding)
open GatewayTables (FinalityMode)

/-- `u64::try_from` of an amount. -/
def narrow (amount : Bytes32) : Except String (BitVec 64) := do
  require (amount.toNat < 2 ^ 64) "the amount is too large for the target type"
  pure (amount.setWidth 64)

/-- What a row contributes beside its columns: the identity and the Zeko amount. -/
structure RowIdentity where
  /-- Identifier of the asset. -/
  assetId : Bytes32
  /-- Index of the asset's record in the registry. -/
  registryIndex : BitVec 32
  /-- Poseidon commitment of the asset's record. -/
  recordCommitment : Bytes32
  /-- Amount on Zeko. -/
  zekoAmount : BitVec 64

/-- The checks of a row on the asset it names. -/
def rowIdentity (row : DepositColumns) : Except String RowIdentity :=
  if row.token = 0 then do
    require (row.ethereumAmount = row.zekoAmount * 1000000000)
      "indexed native amount normalization mismatch"
    require (row.actionEncodingVersion = 0)
      "indexed native deposit has an ERC20 action version"
    let zekoAmount ← narrow row.zekoAmount
    pure ⟨0, 0, 0, zekoAmount⟩
  else do
    require (row.ethereumAmount = row.zekoAmount)
      "canonical ERC20 deposit must preserve base units"
    let assetId ← context row.assetId "indexed ERC20 deposit is missing its asset id"
    require (assetId ≠ 0) "indexed ERC20 asset id is zero"
    ensureRegistryErc20ActionEncoding row.actionEncodingVersion
    let registryIndex ← context row.registryIndex "unexpected null registry_index"
    let recordCommitment ← context row.recordCommitment "unexpected null record_commitment"
    require (recordCommitment ≠ 0) "indexed ERC20 record commitment is zero"
    let zekoAmount ← narrow row.zekoAmount
    pure ⟨assetId, registryIndex, recordCommitment, zekoAmount⟩

/-- The variables of the loop over the rows. -/
structure Folding where
  /-- Nonce that the next row must have. -/
  expectedNonce : BitVec 64
  /-- Accumulator that the next row must start from. -/
  expectedState : Bytes32
  /-- Deposits so far. -/
  deposits : List BridgeDeposit

/-- The body of the loop over the rows. -/
def takeRow (folding : Folding) (row : DepositColumns) : Except String Folding := do
  require (row.nonce = folding.expectedNonce) "deposit nonce range is not contiguous"
  require (row.oldDepositState = folding.expectedState) "deposit accumulator is discontinuous"
  require (row.timeout = 4294967295) "deposit does not use the no-cancellation timeout"
  let identity ← rowIdentity row
  pure ⟨folding.expectedNonce + 1, row.newDepositState, folding.deposits ++
    [⟨row.token, identity.assetId, row.actionEncodingVersion, identity.registryIndex,
      identity.recordCommitment, row.ethereumAmount, some identity.zekoAmount, row.zekoRecipient,
      row.timeout⟩]⟩

/-- A row is in a final block of the canonical chain. -/
def Final (t : Tables) (row : DepositRow) : Prop :=
  ∃ block ∈ t.blocks, block.number = row.position.blockNumber ∧
    block.hash = row.position.blockHash ∧ block.canonical = true ∧ block.finalized = true

instance (t : Tables) (row : DepositRow) : Decidable (Final t row) := by
  unfold Final
  infer_instance

/-- The query of `canonical_deposit_batch`. -/
def pendingRows (t : Tables) (bridged last : BitVec 64) : List DepositRow :=
  selectBy DepositRow.nonce (fun row => row.removed = false ∧ Final t row ∧
    bridged.toNat < row.nonce ∧ row.nonce ≤ last.toNat) t.deposits

/-- `canonical_deposit_batch`, with the contracts as they were read. -/
def canonicalDepositBatch (env : Environment) {W : TokenWorld} (c : Chain W) (t : Tables) :
    Except String BridgeTransitionInput := do
  require (c.bridge.paused = false) "bridge contract is paused"
  require (c.bridge.bridgedDepositNonce < c.bridge.depositNonce) "there are no unbridged deposits"
  let historical := c.bridge.depositStateByNonce c.bridge.bridgedDepositNonce
  require (c.bridge.bridgedDepositNonce.toNat < 2 ^ 63 ∧ c.bridge.depositNonce.toNat < 2 ^ 63)
    "out of range integral type conversion attempted"
  let rows := pendingRows t c.bridge.bridgedDepositNonce c.bridge.depositNonce
  require (rows.length = c.bridge.depositNonce.toNat - c.bridge.bridgedDepositNonce.toNat)
    "canonical deposit log range is incomplete"
  let folding ← (rows.map DepositRow.columns).foldlM takeRow
    ⟨c.bridge.bridgedDepositNonce + 1, historical, []⟩
  require (folding.expectedState = c.bridge.currentDepositState)
    "indexed deposit accumulator does not reach bridge state"
  pure ⟨⟨env.chainId.setWidth 64, env.bridgeAddress, c.bridge.bridgedDepositNonce, historical⟩,
    ⟨c.settlement.actionState, c.settlement.outerActionStateLength⟩, folding.deposits⟩

/-- A narrowed amount. -/
theorem narrow_eq_ok {amount : Bytes32} {result : BitVec 64} :
    narrow amount = .ok result ↔ amount.toNat < 2 ^ 64 ∧ amount.setWidth 64 = result := by
  rw [narrow, require_bind_eq_ok, pure_eq_ok]

/-- The row of a submittable deposit names its asset if its amount fits. -/
theorem rowIdentity_submitted {s : Submitted} (h : Submittable s.record) {identity : RowIdentity} :
    rowIdentity s.columns = .ok identity ↔ AmountFits s.record ∧
      identity = ⟨(guestDeposit s.record).assetId, (guestDeposit s.record).registryIndex,
        (guestDeposit s.record).recordCommitment,
        (guestDeposit s.record).zekoAmount.getD 0⟩ := by
  obtain ⟨record, depositLeaf, oldDepositState, newDepositState, sender⟩ := s
  cases record with
  | native zekoRecipient zekoAmount timeout nonce =>
    have hamount : BitVec.ofNat 256 (zekoAmount.toNat * gwei) = zekoAmount * 1000000000 := by
      apply BitVec.eq_of_toNat_eq
      rw [BitVec.toNat_ofNat, BitVec.toNat_mul]
      rfl
    have hrow : rowIdentity (Submitted.columns ⟨.native zekoRecipient zekoAmount timeout nonce,
        depositLeaf, oldDepositState, newDepositState, sender⟩) = (do
          require (BitVec.ofNat 256 (zekoAmount.toNat * gwei) = zekoAmount * 1000000000)
            "indexed native amount normalization mismatch"
          require ((0 : BitVec 32) = 0) "indexed native deposit has an ERC20 action version"
          let zekoAmount ← narrow zekoAmount
          pure ⟨0, 0, 0, zekoAmount⟩) := if_pos rfl
    rw [hrow]
    simp only [bind_eq_ok, require_eq_ok, exists_const, narrow_eq_ok, pure_eq_ok, hamount, true_and]
    constructor
    · intro hfound
      obtain ⟨narrowed, ⟨hlt, hnarrowed⟩, hidentity⟩ := hfound
      rw [← hidentity, ← hnarrowed]
      exact ⟨hlt, rfl⟩
    · intro hfound
      exact ⟨_, ⟨hfound.1, rfl⟩, hfound.2.symm⟩
  | erc20 token registryIndex recordCommitment assetId zekoRecipient amount timeout nonce =>
    obtain ⟨htoken, hcommitment, hasset, -, -⟩ := h
    have hrow : rowIdentity (Submitted.columns ⟨.erc20 token registryIndex recordCommitment assetId
        zekoRecipient amount timeout nonce, depositLeaf, oldDepositState, newDepositState,
        sender⟩) = (do
          require (toWord amount = toWord amount)
            "canonical ERC20 deposit must preserve base units"
          let assetId ← context (some assetId) "indexed ERC20 deposit is missing its asset id"
          require (assetId ≠ 0) "indexed ERC20 asset id is zero"
          ensureRegistryErc20ActionEncoding erc20ActionEncodingV2
          let registryIndex ← context (some registryIndex) "unexpected null registry_index"
          let recordCommitment ← context (some recordCommitment)
            "unexpected null record_commitment"
          require (recordCommitment ≠ 0) "indexed ERC20 record commitment is zero"
          let zekoAmount ← narrow (toWord amount)
          pure ⟨assetId, registryIndex, recordCommitment, zekoAmount⟩) := if_neg htoken
    have hword : (toWord amount).toNat = amount.toNat := toWord_toNat (by decide) amount
    have hnarrow : (toWord amount).setWidth 64 = amount := by
      apply BitVec.eq_of_toNat_eq
      rw [BitVec.toNat_setWidth, hword, Nat.mod_eq_of_lt amount.isLt]
    rw [hrow]
    simp only [ensureRegistryErc20ActionEncoding, bind_eq_ok, require_eq_ok, exists_const,
      narrow_eq_ok, pure_eq_ok, context_eq_ok, Option.some.injEq, true_and, exists_eq_left', hword,
      hnarrow]
    constructor
    · intro hfound
      obtain ⟨-, -, narrowed, ⟨-, hnarrowed⟩, hidentity⟩ := hfound
      rw [← hidentity, ← hnarrowed]
      exact ⟨trivial, rfl⟩
    · intro hfound
      exact ⟨hasset, hcommitment, _, ⟨amount.isLt, rfl⟩, hfound.2.symm⟩

/-- The loop takes the row of a submittable deposit if it is the next one and its amount
fits, and adds the guest's deposit. -/
theorem takeRow_submitted {s : Submitted} (h : Submittable s.record) {folding after : Folding} :
    takeRow folding s.columns = .ok after ↔ s.record.nonce = folding.expectedNonce ∧
      s.oldDepositState = folding.expectedState ∧ AmountFits s.record ∧
      after = ⟨folding.expectedNonce + 1, s.newDepositState,
        folding.deposits ++ [guestDeposit s.record]⟩ := by
  have htimeout : s.columns.timeout = 4294967295 := by
    obtain ⟨record, depositLeaf, oldDepositState, newDepositState, sender⟩ := s
    cases record with
    | native => exact h.2.2
    | erc20 => exact h.2.2.2.2
  have hguest : (⟨s.columns.token, (guestDeposit s.record).assetId, s.columns.actionEncodingVersion,
      (guestDeposit s.record).registryIndex, (guestDeposit s.record).recordCommitment,
      s.columns.ethereumAmount, some ((guestDeposit s.record).zekoAmount.getD 0),
      s.columns.zekoRecipient, s.columns.timeout⟩ : BridgeDeposit) = guestDeposit s.record := by
    obtain ⟨record, depositLeaf, oldDepositState, newDepositState, sender⟩ := s
    cases record <;> rfl
  have hnonce : s.columns.nonce = s.record.nonce := rfl
  have hold : s.columns.oldDepositState = s.oldDepositState := rfl
  have hnew : s.columns.newDepositState = s.newDepositState := rfl
  simp only [takeRow, bind_eq_ok, require_eq_ok, exists_const, pure_eq_ok, rowIdentity_submitted h,
    htimeout, hnonce, hold, hnew, true_and]
  constructor
  · intro hfound
    obtain ⟨hexpected, hlinked, identity, ⟨hfits, hidentity⟩, hafter⟩ := hfound
    rw [htimeout] at hguest
    rw [hidentity, hguest] at hafter
    exact ⟨hexpected, hlinked, hfits, hafter.symm⟩
  · intro hfound
    obtain ⟨hexpected, hlinked, hfits, hafter⟩ := hfound
    rw [htimeout] at hguest
    refine ⟨hexpected, hlinked, _, ⟨hfits, rfl⟩, ?_⟩
    rw [hguest, hafter]

/-- Deposits that link from one state of the accumulator to another. -/
def Linked : Bytes32 → List Submitted → Bytes32 → Prop
  | state, [], last => last = state
  | state, s :: submitted, last =>
    s.oldDepositState = state ∧ Linked s.newDepositState submitted last

/-- Deposits with consecutive nonces. -/
def Consecutive (first : ℕ) (submitted : List Submitted) : Prop :=
  ∀ i s, submitted[i]? = some s → s.record.nonce.toNat = first + i

/-- Consecutive deposits are one deposit and the consecutive ones behind it. -/
theorem consecutive_cons {first : ℕ} {s : Submitted} {submitted : List Submitted} :
    Consecutive first (s :: submitted) ↔
      s.record.nonce.toNat = first ∧ Consecutive (first + 1) submitted := by
  constructor
  · intro h
    refine ⟨h 0 s rfl, fun i other hother => ?_⟩
    have hnonce := h (i + 1) other hother
    omega
  · intro h i other hother
    cases i with
    | zero =>
      rw [← Option.some.inj hother]
      exact h.1
    | succ i =>
      have hnonce := h.2 i other hother
      omega

/-- Links determine both of their ends. -/
theorem Linked.ends {state other last final : Bytes32} {submitted : List Submitted}
    (h : Linked state submitted last) (hother : Linked other submitted final)
    (hne : submitted ≠ []) : state = other ∧ last = final := by
  induction submitted generalizing state other with
  | nil => exact absurd rfl hne
  | cons s submitted ih =>
    refine ⟨h.1.symm.trans hother.1, ?_⟩
    by_cases hnil : submitted = []
    · have hfirst := h.2
      have hsecond := hother.2
      rw [hnil] at hfirst hsecond
      exact hfirst.trans hsecond.symm
    · exact (ih h.2 hother.2 hnil).2

/-- The loop takes the rows of submittable deposits exactly if they are consecutive, link
from the expected state, and have amounts that fit. -/
theorem takeRows_iff {submitted : List Submitted} (h : ∀ s ∈ submitted, Submittable s.record)
    (folding : Folding) (hwidth : folding.expectedNonce.toNat + submitted.length < 2 ^ 64)
    {last : Bytes32} {deposits : List BridgeDeposit} :
    (∃ nonce, (submitted.map Submitted.columns).foldlM takeRow folding =
        .ok ⟨nonce, last, deposits⟩) ↔
      Consecutive folding.expectedNonce.toNat submitted ∧
        Linked folding.expectedState submitted last ∧
        (∀ s ∈ submitted, AmountFits s.record) ∧
        deposits = folding.deposits ++ submitted.map fun s => guestDeposit s.record := by
  induction submitted generalizing folding with
  | nil =>
    rw [List.map_nil, List.foldlM_nil, List.map_nil, List.append_nil]
    constructor
    · intro hfound
      obtain ⟨nonce, hsame⟩ := hfound
      have hfolding : folding = _ := Except.ok.inj hsame
      rw [hfolding]
      exact ⟨fun i s hs => absurd hs (by simp), rfl, fun s hs => absurd hs List.not_mem_nil, rfl⟩
    · intro hfound
      have hlast : last = folding.expectedState := hfound.2.1
      rw [hlast, hfound.2.2.2]
      exact ⟨folding.expectedNonce, rfl⟩
  | cons s submitted ih =>
    rw [List.length_cons] at hwidth
    have hone : (1 : BitVec 64).toNat = 1 := rfl
    have hnext : (folding.expectedNonce + 1).toNat = folding.expectedNonce.toNat + 1 :=
      BitVec.toNat_add_of_lt (by omega)
    have hrest := ih (fun other hother => h other (List.mem_cons_of_mem _ hother))
      ⟨folding.expectedNonce + 1, s.newDepositState, folding.deposits ++ [guestDeposit s.record]⟩
      (by rw [hnext]; omega)
    simp only [List.map_cons, List.foldlM_cons, bind_eq_ok,
      takeRow_submitted (h s List.mem_cons_self)]
    rw [consecutive_cons, List.forall_mem_cons]
    simp only [hnext] at hrest
    constructor
    · intro hfound
      obtain ⟨nonce, middle, ⟨hnonce, hlinked, hfits, hmiddle⟩, hfold⟩ := hfound
      rw [hmiddle] at hfold
      obtain ⟨hconsecutive, hlinks, hothers, hdeposits⟩ := hrest.mp ⟨nonce, hfold⟩
      refine ⟨⟨by rw [hnonce], hconsecutive⟩, ⟨hlinked, hlinks⟩, ⟨hfits, hothers⟩, ?_⟩
      rw [hdeposits, List.append_assoc]
      rfl
    · intro hfound
      obtain ⟨⟨hnonce, hconsecutive⟩, ⟨hlinked, hlinks⟩, ⟨hfits, hothers⟩, hdeposits⟩ := hfound
      obtain ⟨nonce, hfold⟩ := hrest.mpr ⟨hconsecutive, hlinks, hothers, by
        rw [hdeposits, List.append_assoc]
        rfl⟩
      exact ⟨nonce, _, ⟨BitVec.eq_of_toNat_eq hnonce, hlinked, hfits, rfl⟩, hfold⟩

section Index

variable {env : Environment} {W : TokenWorld}

/-- A part of a list of deposits. -/
def slice (submitted : List Submitted) (bridged last : ℕ) : List Submitted :=
  (submitted.take last).drop bridged

/-- The length of a part. -/
theorem length_slice {submitted : List Submitted} {bridged last : ℕ} :
    (slice submitted bridged last).length = min last submitted.length - bridged := by
  rw [slice, List.length_drop, List.length_take]

/-- Deposits of a part are deposits of the list. -/
theorem mem_of_slice {submitted : List Submitted} {bridged last : ℕ} {s : Submitted}
    (h : s ∈ slice submitted bridged last) : s ∈ submitted :=
  List.mem_of_mem_take (List.mem_of_mem_drop h)

/-- Recorded deposits have the nonces of their places. -/
theorem recorded_consecutive {c : Chain W} {submitted : List Submitted}
    (h : Recorded env c submitted) : Consecutive 1 submitted := by
  intro i s hs
  have hrecord : (deposits c.log)[i]? = some s.record := by
    rw [← h.records, List.getElem?_map, hs]
    rfl
  have hnonce := h.folded.nonces i s.record hrecord
  omega

/-- A part of the recorded deposits links the folds before and behind it. -/
theorem recorded_linked {c : Chain W} {submitted : List Submitted} (h : Recorded env c submitted)
    (count : ℕ) {bridged last : ℕ} (hcount : bridged + count = last)
    (hlast : last ≤ submitted.length) :
    Linked (depositFold env ((deposits c.log).take bridged)) (slice submitted bridged last)
      (depositFold env ((deposits c.log).take last)) := by
  induction count generalizing bridged with
  | zero =>
    have hnil : slice submitted bridged last = [] := by
      rw [← List.length_eq_zero_iff, length_slice]
      omega
    have hsame : bridged = last := by omega
    rw [hnil, hsame]
    exact rfl
  | succ count ih =>
    have hlt : bridged < (submitted.take last).length := by
      rw [List.length_take]
      omega
    have hhead : (submitted.take last)[bridged]? = submitted[bridged]? := by
      rw [List.getElem?_take_of_lt (by omega)]
    have hstates := h.states bridged _
      (hhead.symm.trans (List.getElem?_eq_getElem hlt))
    have hcons : slice submitted bridged last =
        (submitted.take last)[bridged] :: slice submitted (bridged + 1) last :=
      List.drop_eq_getElem_cons hlt
    rw [hcons]
    refine ⟨hstates.1, ?_⟩
    rw [hstates.2]
    exact ih (by omega)

/-- Consecutive deposits of a run are a part of its deposits, which reach the end of it. -/
theorem consecutive_slice {submitted part : List Submitted} (h : Consecutive 1 submitted)
    (hpart : ∀ s ∈ part, s ∈ submitted) {bridged last : ℕ} (hlt : bridged < last)
    (hlength : part.length = last - bridged) (hconsecutive : Consecutive (bridged + 1) part) :
    part = slice submitted bridged last ∧ last ≤ submitted.length := by
  have hsame : part = slice submitted bridged last := by
    apply List.ext_getElem?
    intro i
    rw [slice, List.getElem?_drop]
    by_cases hi : i < part.length
    · rw [List.getElem?_take_of_lt (by omega), List.getElem?_eq_getElem hi]
      obtain ⟨j, hj⟩ := List.mem_iff_getElem?.mp (hpart _ (List.getElem_mem hi))
      have hplace := h j _ hj
      have hnonce := hconsecutive i _ (List.getElem?_eq_getElem hi)
      have hindex : j = bridged + i := by omega
      rw [← hindex, hj]
    · rw [List.getElem?_eq_none (by omega),
        List.getElem?_eq_none (by rw [List.length_take]; omega)]
  have hlengths := congrArg List.length hsame
  rw [length_slice] at hlengths
  exact ⟨hsame, by omega⟩

/-- Elements with images among given ones have a list of these. -/
theorem exists_map_eq {α β γ : Type} {f : α → γ} {g : β → γ} {p : β → Prop} {list : List α}
    (h : ∀ a ∈ list, ∃ b, p b ∧ f a = g b) : ∃ others : List β, (∀ b ∈ others, p b) ∧
      list.map f = others.map g := by
  induction list with
  | nil => exact ⟨[], fun _ hb => absurd hb List.not_mem_nil, rfl⟩
  | cons a list ih =>
    obtain ⟨b, hb, hsame⟩ := h a List.mem_cons_self
    obtain ⟨others, hothers, hmap⟩ := ih fun other hother => h other (List.mem_cons_of_mem _ hother)
    exact ⟨b :: others, List.forall_mem_cons.mpr ⟨hb, hothers⟩, by
      rw [List.map_cons, List.map_cons, hsame, hmap]⟩

/-- The selected rows. -/
theorem mem_pendingRows {t : Tables} {bridged last : BitVec 64} {row : DepositRow} :
    row ∈ pendingRows t bridged last ↔ row ∈ t.deposits ∧ row.removed = false ∧ Final t row ∧
      bridged.toNat < row.nonce ∧ row.nonce ≤ last.toNat :=
  mem_selectBy

/-- The selected rows of tables that hold a mined chain are rows of deposits of its run. -/
theorem pendingRows_submitted {d : Deployment env W} {run : List Transaction} {t : Tables}
    {chain : List Block} (hholds : Holds t chain) (hmined : Mined d run chain)
    (bridged last : BitVec 64) :
    ∃ part : List Submitted, (∀ s ∈ part, s ∈ submissions d run) ∧
      (pendingRows t bridged last).map DepositRow.columns = part.map Submitted.columns := by
  apply exists_map_eq
  intro row hrow
  obtain ⟨hmem, hlive, -⟩ := mem_pendingRows.mp hrow
  have hcolumns : row.columns ∈ t.live.map DepositRow.columns :=
    List.mem_map_of_mem (List.mem_filter.mpr ⟨hmem, by rw [hlive]; rfl⟩)
  rw [(live_columns hholds hmined).mem_iff] at hcolumns
  obtain ⟨s, hs, hsame⟩ := List.mem_map.mp hcolumns
  exact ⟨s, hs, hsame.symm⟩

/-- What a batch over tables that hold a mined chain is built from. -/
theorem batch_built {d : Deployment env W} {run : List Transaction} {t : Tables}
    {chain : List Block} (hholds : Holds t chain) (hmined : Mined d run chain) {c : Chain W}
    {input : BridgeTransitionInput} (h : canonicalDepositBatch env c t = .ok input) :
    c.bridge.paused = false ∧ c.bridge.bridgedDepositNonce < c.bridge.depositNonce ∧
      c.bridge.depositNonce.toNat < 2 ^ 63 ∧
      c.bridge.depositNonce.toNat ≤ (submissions d run).length ∧
      (pendingRows t c.bridge.bridgedDepositNonce c.bridge.depositNonce).map DepositRow.columns =
        (slice (submissions d run) c.bridge.bridgedDepositNonce.toNat
          c.bridge.depositNonce.toNat).map Submitted.columns ∧
      Linked (c.bridge.depositStateByNonce c.bridge.bridgedDepositNonce)
        (slice (submissions d run) c.bridge.bridgedDepositNonce.toNat c.bridge.depositNonce.toNat)
        c.bridge.currentDepositState ∧
      (∀ s ∈ slice (submissions d run) c.bridge.bridgedDepositNonce.toNat
        c.bridge.depositNonce.toNat, AmountFits s.record) ∧
      input = { batchInput env c c.bridge.depositNonce with
        deposits := (slice (submissions d run) c.bridge.bridgedDepositNonce.toNat
          c.bridge.depositNonce.toNat).map fun s => guestDeposit s.record } := by
  have hrecorded := submissions_recorded d run
  obtain ⟨part, hpart, hcolumns⟩ := pendingRows_submitted hholds hmined
    c.bridge.bridgedDepositNonce c.bridge.depositNonce
  simp only [canonicalDepositBatch, bind_eq_ok, require_eq_ok, exists_const, pure_eq_ok] at h
  obtain ⟨hunpaused, hbehind, ⟨hbridged, hlast⟩, hlength, folding, hfold, hstate, hinput⟩ := h
  rw [hcolumns] at hfold
  have hone : (1 : BitVec 64).toNat = 1 := rfl
  have hlt : c.bridge.bridgedDepositNonce.toNat < c.bridge.depositNonce.toNat := hbehind
  have hfirst : (c.bridge.bridgedDepositNonce + 1).toNat =
      c.bridge.bridgedDepositNonce.toNat + 1 := BitVec.toNat_add_of_lt (by omega)
  have hcount : part.length =
      c.bridge.depositNonce.toNat - c.bridge.bridgedDepositNonce.toNat := by
    have hlengths := congrArg List.length hcolumns
    rw [List.length_map, List.length_map] at hlengths
    omega
  have htaken := (takeRows_iff (fun s hs => hrecorded.admitted s (hpart s hs))
    ⟨c.bridge.bridgedDepositNonce + 1,
      c.bridge.depositStateByNonce c.bridge.bridgedDepositNonce, []⟩
    (by rw [hfirst]; omega)).mp ⟨folding.expectedNonce, hfold⟩
  simp only [hfirst] at htaken
  obtain ⟨hconsecutive, hlinked, hfits, hdeposits⟩ := htaken
  obtain ⟨hslice, hreach⟩ :=
    consecutive_slice (recorded_consecutive hrecorded) hpart hlt hcount hconsecutive
  rw [hstate] at hlinked
  rw [hslice] at hcolumns hlinked hfits hdeposits
  refine ⟨hunpaused, hbehind, hlast, hreach, hcolumns, hlinked, hfits, ?_⟩
  rw [← hinput, hdeposits]
  rfl

/-- A batch is built over the rows of a part of a run's deposits that links the contract's
checkpoint with its current state. -/
theorem batch_of_slice {d : Deployment env W} {run : List Transaction} {t : Tables} {c : Chain W}
    (hunpaused : c.bridge.paused = false)
    (hbehind : c.bridge.bridgedDepositNonce < c.bridge.depositNonce)
    (hwidth : c.bridge.depositNonce.toNat < 2 ^ 63)
    (hreach : c.bridge.depositNonce.toNat ≤ (submissions d run).length)
    (hcolumns : (pendingRows t c.bridge.bridgedDepositNonce c.bridge.depositNonce).map
        DepositRow.columns =
      (slice (submissions d run) c.bridge.bridgedDepositNonce.toNat
        c.bridge.depositNonce.toNat).map Submitted.columns)
    (hlinked : Linked (c.bridge.depositStateByNonce c.bridge.bridgedDepositNonce)
      (slice (submissions d run) c.bridge.bridgedDepositNonce.toNat c.bridge.depositNonce.toNat)
      c.bridge.currentDepositState)
    (hfits : ∀ s ∈ slice (submissions d run) c.bridge.bridgedDepositNonce.toNat
      c.bridge.depositNonce.toNat, AmountFits s.record) :
    canonicalDepositBatch env c t = .ok { batchInput env c c.bridge.depositNonce with
      deposits := (slice (submissions d run) c.bridge.bridgedDepositNonce.toNat
        c.bridge.depositNonce.toNat).map fun s => guestDeposit s.record } := by
  have hrecorded := submissions_recorded d run
  have hlt : c.bridge.bridgedDepositNonce.toNat < c.bridge.depositNonce.toNat := hbehind
  have hone : (1 : BitVec 64).toNat = 1 := rfl
  have hfirst : (c.bridge.bridgedDepositNonce + 1).toNat =
      c.bridge.bridgedDepositNonce.toNat + 1 := BitVec.toNat_add_of_lt (by omega)
  have hsize : (slice (submissions d run) c.bridge.bridgedDepositNonce.toNat
      c.bridge.depositNonce.toNat).length =
      c.bridge.depositNonce.toNat - c.bridge.bridgedDepositNonce.toNat := by
    rw [length_slice, Nat.min_eq_left hreach]
  have hconsecutive : Consecutive (c.bridge.bridgedDepositNonce + 1).toNat
      (slice (submissions d run) c.bridge.bridgedDepositNonce.toNat
        c.bridge.depositNonce.toNat) := by
    intro i s hs
    have hi := (List.getElem?_eq_some_iff.mp hs).1
    rw [slice, List.getElem?_drop, List.getElem?_take_of_lt (by omega)] at hs
    have hnonce := recorded_consecutive hrecorded _ s hs
    omega
  have hadmitted : ∀ s ∈ slice (submissions d run) c.bridge.bridgedDepositNonce.toNat
      c.bridge.depositNonce.toNat, Submittable s.record :=
    fun s hs => hrecorded.admitted s (mem_of_slice hs)
  obtain ⟨nonce, hfold⟩ := (takeRows_iff hadmitted ⟨c.bridge.bridgedDepositNonce + 1,
      c.bridge.depositStateByNonce c.bridge.bridgedDepositNonce, []⟩
    (by rw [hfirst]; omega)).mpr ⟨hconsecutive, hlinked, hfits, rfl⟩
  rw [← hcolumns] at hfold
  have hrows := congrArg List.length hcolumns
  rw [List.length_map, List.length_map, hsize] at hrows
  simp only [canonicalDepositBatch, bind_eq_ok, require_eq_ok, exists_const, pure_eq_ok]
  exact ⟨hunpaused, hbehind, ⟨by omega, hwidth⟩, hrows, _, hfold, rfl, rfl⟩

/-- A part of the records folds on from the records before it. -/
theorem depositFold_slice (records : List DepositRecord) {bridged last : ℕ} (h : bridged ≤ last) :
    depositFold env (records.take last) = ((records.take last).drop bridged).foldl
      (depositChainStep env.hashes env.chainId env.bridgeAddress)
      (depositFold env (records.take bridged)) := by
  have hsplit := List.take_append_drop bridged (records.take last)
  rw [List.take_take, Nat.min_eq_left h] at hsplit
  rw [depositFold, ← hsplit, List.foldl_append, hsplit]
  rfl

/-- The strings of a part of the records are strings of all of them. -/
theorem slice_strings (records : List DepositRecord) {bridged last : ℕ} (h : bridged ≤ last) :
    depositChainInputs env.hashes env.chainId env.bridgeAddress
        (depositFold env (records.take bridged)) ((records.take last).drop bridged) ⊆
      depositChainInputs env.hashes env.chainId env.bridgeAddress (initialDepositState env)
        records := by
  have hsplit := List.take_append_drop bridged (records.take last)
  rw [List.take_take, Nat.min_eq_left h] at hsplit
  have hall := List.take_append_drop last records
  rw [← hsplit, List.append_assoc] at hall
  intro string hstring
  rw [← hall, depositChainInputs_append, depositChainInputs_append]
  exact List.mem_append_right _ (List.mem_append_left _ hstring)

/-- Two lists of records with one fold agree on every part of them, unless two of their
strings collide. -/
theorem slices_meet {records others : List DepositRecord} {bridged last : ℕ} (h : bridged ≤ last)
    (hrecords : last ≤ records.length) (hothers : last ≤ others.length)
    (hcf : CollisionFree env.hashes.keccak256
      (depositChainInputs env.hashes env.chainId env.bridgeAddress (initialDepositState env)
          records ++
        depositChainInputs env.hashes env.chainId env.bridgeAddress (initialDepositState env)
          others))
    (hmeet : depositFold env (records.take last) = depositFold env (others.take last)) :
    (records.take last).drop bridged = (others.take last).drop bridged := by
  have hstrings : CollisionFree env.hashes.keccak256
      (depositChainInputs env.hashes env.chainId env.bridgeAddress
          (depositFold env (records.take bridged)) ((records.take last).drop bridged) ++
        depositChainInputs env.hashes env.chainId env.bridgeAddress
          (depositFold env (others.take bridged)) ((others.take last).drop bridged)) := by
    apply hcf.mono
    apply List.append_subset.mpr
    exact ⟨List.Subset.trans (slice_strings records h) (List.subset_append_left _ _),
      List.Subset.trans (slice_strings others h) (List.subset_append_right _ _)⟩
  have hlength : ((records.take last).drop bridged).length =
      ((others.take last).drop bridged).length := by
    rw [List.length_drop, List.length_take, List.length_drop, List.length_take]
    omega
  rw [depositFold_slice records h, depositFold_slice others h] at hmeet
  exact (stretch_unique hstrings hlength hmeet).2.1

end Index

section Batches

variable {env : Environment} {W : TokenWorld}

/-- The tables of the indexer hold its chain in every run over mined chains. -/
theorem indexed_holds_mined {d : Deployment env W} {mode : FinalityMode} {steps : List IndexStep}
    (hmined : ∀ first second, steps = first ++ second →
      ∃ earlier, Mined d earlier (indexed mode first).chain) :
    Holds (indexed mode steps).tables (indexed mode steps).chain := by
  apply indexed_holds
  intro first second hsteps
  obtain ⟨earlier, hearlier⟩ := hmined first second hsteps
  exact hearlier.distinct

/-- The records of a part of a run's deposits. -/
theorem slice_records (d : Deployment env W) (run : List Transaction) (bridged last : ℕ) :
    (slice (submissions d run) bridged last).map Submitted.record =
      ((deposits (d.reached run).log).take last).drop bridged := by
  rw [slice, List.map_drop, List.map_take, (submissions_recorded d run).records]

/-- Whatever run of the contracts the index holds, and in whatever other run the contracts
are read, a batch that is built is the contract's own: the deposits that it has not
bridged yet, from its checkpoint to its current state, unless two strings of the deposit
chains collide. -/
theorem batch_is_pending (d : Deployment env W) (mode : FinalityMode) (steps : List IndexStep)
    (hmined : ∀ first second, steps = first ++ second →
      ∃ earlier, Mined d earlier (indexed mode first).chain)
    {run : List Transaction} (hchain : Mined d run (indexed mode steps).chain)
    (transactions : List Transaction)
    (hcf : CollisionFree env.hashes.keccak256 (depositStrings env (d.reached transactions).log ++
      depositStrings env (d.reached run).log))
    {input : BridgeTransitionInput}
    (h : canonicalDepositBatch env (d.reached transactions) (indexed mode steps).tables =
      .ok input) :
    input = batchInput env (d.reached transactions) (d.reached transactions).bridge.depositNonce ∧
      ∀ record ∈ unbridgedDeposits (d.reached transactions)
        (d.reached transactions).bridge.depositNonce, AmountFits record := by
  obtain ⟨-, hbehind, -, hreach, -, hlinked, hfits, hinput⟩ :=
    batch_built (indexed_holds_mined hmined) hchain h
  have hfolded := reached_depositsFolded d transactions
  have hrecorded := submissions_recorded d run
  have hrecords := slice_records d run (d.reached transactions).bridge.bridgedDepositNonce.toNat
    (d.reached transactions).bridge.depositNonce.toNat
  have hlt : (d.reached transactions).bridge.bridgedDepositNonce.toNat <
      (d.reached transactions).bridge.depositNonce.toNat := hbehind
  have hcount := hfolded.count
  have hall : (deposits (d.reached transactions).log).take
      (d.reached transactions).bridge.depositNonce.toNat = deposits (d.reached transactions).log :=
    List.take_of_length_le (by omega)
  have hne : slice (submissions d run) (d.reached transactions).bridge.bridgedDepositNonce.toNat
      (d.reached transactions).bridge.depositNonce.toNat ≠ [] := by
    intro hnil
    rw [← List.length_eq_zero_iff, length_slice] at hnil
    omega
  have hown := recorded_linked hrecorded _ (Nat.add_sub_cancel' (le_of_lt hlt)) hreach
  have hend := (hlinked.ends hown hne).2
  rw [hfolded.current] at hend
  have hmeet : unbridgedDeposits (d.reached transactions)
      (d.reached transactions).bridge.depositNonce =
        ((deposits (d.reached run).log).take
          (d.reached transactions).bridge.depositNonce.toNat).drop
          (d.reached transactions).bridge.bridgedDepositNonce.toNat := by
    have hlength : (deposits (d.reached run).log).length = (submissions d run).length := by
      rw [← hrecorded.records, List.length_map]
    apply slices_meet (le_of_lt hlt) (by omega) (by omega) hcf
    rw [hall]
    exact hend
  rw [hmeet, ← hrecords]
  constructor
  · rw [hinput, batchInput, hmeet, ← hrecords, List.map_map]
    rfl
  · intro record hrecord
    obtain ⟨s, hs, hsame⟩ := List.mem_map.mp hrecord
    rw [← hsame]
    exact hfits s hs

/-- If one log's deposits extend the other's, they agree as far as both go. -/
theorem take_of_comparable {records others : List DepositRecord}
    (h : others <+: records ∨ records <+: others) (hlength : records.length ≤ others.length) :
    others.take records.length = records := by
  rcases h with hprefix | hprefix
  · have hsame := hprefix.eq_of_length_le hlength
    rw [hsame, List.take_length]
  · exact (List.prefix_iff_eq_take.mp hprefix).symm

/-- The selected rows are consecutive if every pending deposit has a final row. -/
theorem pendingRows_consecutive {d : Deployment env W} {run : List Transaction} {t : Tables}
    {chain : List Block} (hholds : Holds t chain) (hmined : Mined d run chain)
    {bridged last : BitVec 64} (hlt : bridged.toNat < last.toNat)
    (hfinal : ∀ nonce, bridged.toNat < nonce → nonce ≤ last.toNat →
      ∃ row ∈ t.deposits, row.removed = false ∧ Final t row ∧ row.nonce = nonce) :
    last.toNat ≤ (submissions d run).length ∧
      (pendingRows t bridged last).map DepositRow.columns =
        (slice (submissions d run) bridged.toNat last.toNat).map Submitted.columns := by
  have hrecorded := recorded_consecutive (submissions_recorded d run)
  have hnonces : (pendingRows t bridged last).map DepositRow.nonce =
      List.range' (bridged.toNat + 1) (last.toNat - bridged.toNat) := by
    apply keys_selectBy hholds.nonces (List.pairwise_lt_range')
    intro nonce
    rw [List.mem_range'_1]
    constructor
    · intro hnonce
      obtain ⟨row, hrow, hlive, hfinalRow, hsame⟩ := hfinal nonce (by omega) (by omega)
      exact ⟨row, hrow, ⟨hlive, hfinalRow, by omega, by omega⟩, hsame⟩
    · intro hnonce
      obtain ⟨row, -, ⟨-, -, hafter, hupTo⟩, hsame⟩ := hnonce
      omega
  obtain ⟨part, hpart, hcolumns⟩ := pendingRows_submitted hholds hmined bridged last
  have hplaces := congrArg (List.map fun columns : DepositColumns => columns.nonce.toNat) hcolumns
  rw [List.map_map, List.map_map] at hplaces
  have hrange : (part.map fun s => s.record.nonce.toNat) =
      List.range' (bridged.toNat + 1) (last.toNat - bridged.toNat) :=
    hplaces.symm.trans hnonces
  have hlength : part.length = last.toNat - bridged.toNat := by
    have hlengths := congrArg List.length hrange
    rw [List.length_map, List.length_range'] at hlengths
    exact hlengths
  have hconsecutive : Consecutive (bridged.toNat + 1) part := by
    intro i s hs
    have hnonce := congrArg (fun list : List ℕ => list[i]?) hrange
    have hi := (List.getElem?_eq_some_iff.mp hs).1
    simp only [List.getElem?_map, hs, Option.map_some] at hnonce
    rw [List.getElem?_range' (by omega), Option.some.injEq] at hnonce
    omega
  obtain ⟨hslice, hreach⟩ := consecutive_slice hrecorded hpart hlt hlength hconsecutive
  rw [hcolumns, ← hslice]
  exact ⟨hreach, rfl⟩

/-- Every nonce that is not bridged yet is that of an unbridged deposit. -/
theorem exists_unbridged {c : Chain W} (h : DepositsFolded env c) {nonce : ℕ}
    (hafter : c.bridge.bridgedDepositNonce.toNat < nonce)
    (hupTo : nonce ≤ c.bridge.depositNonce.toNat) :
    ∃ record ∈ unbridgedDeposits c c.bridge.depositNonce, record.nonce.toNat = nonce := by
  have hcount := h.count
  have hplace : nonce - 1 < (deposits c.log).length := by omega
  have hnonce := h.nonces (nonce - 1) _ (List.getElem?_eq_getElem hplace)
  refine ⟨(deposits c.log)[nonce - 1], ?_, by omega⟩
  apply List.mem_of_getElem? (i := nonce - 1 - c.bridge.bridgedDepositNonce.toNat)
  rw [unbridgedDeposits, List.getElem?_drop, Nat.add_sub_cancel' (by omega),
    List.getElem?_take_of_lt (by omega)]
  exact List.getElem?_eq_getElem hplace

/-- The deposits of a comparable run that are not bridged yet link the checkpoint of a
chain with its accumulator. -/
theorem linked_of_comparable (d : Deployment env W) {run : List Transaction} {c : Chain W}
    (hfolded : DepositsFolded env c)
    (hcomparable : deposits (d.reached run).log <+: deposits c.log ∨
      deposits c.log <+: deposits (d.reached run).log)
    (hreach : c.bridge.depositNonce.toNat ≤ (submissions d run).length) :
    Linked (c.bridge.depositStateByNonce c.bridge.bridgedDepositNonce)
      (slice (submissions d run) c.bridge.bridgedDepositNonce.toNat c.bridge.depositNonce.toNat)
      c.bridge.currentDepositState := by
  have hrecorded := submissions_recorded d run
  have hcount := hfolded.count
  have hlength : (deposits (d.reached run).log).length = (submissions d run).length := by
    rw [← hrecorded.records, List.length_map]
  have hlinked := recorded_linked hrecorded _ (Nat.add_sub_cancel' hfolded.bridged) hreach
  have htake : (deposits (d.reached run).log).take c.bridge.depositNonce.toNat =
      deposits c.log := by
    rw [← hcount]
    exact take_of_comparable hcomparable (by omega)
  have hbefore : (deposits (d.reached run).log).take c.bridge.bridgedDepositNonce.toNat =
      (deposits c.log).take c.bridge.bridgedDepositNonce.toNat := by
    rw [← htake, List.take_take, Nat.min_eq_left hfolded.bridged]
  rwa [htake, hbefore, ← hfolded.current, ← hfolded.states _ hfolded.bridged] at hlinked

/-- Where the index and the contracts are of one chain, one of them possibly behind the
other, a batch is built exactly when the bridge is not paused and every deposit that it
has not bridged yet has a final row and an amount that fits. -/
theorem batch_iff_final (d : Deployment env W) (mode : FinalityMode) (steps : List IndexStep)
    (hmined : ∀ first second, steps = first ++ second →
      ∃ earlier, Mined d earlier (indexed mode first).chain)
    {run : List Transaction} (hchain : Mined d run (indexed mode steps).chain)
    {transactions : List Transaction}
    (hcomparable : deposits (d.reached run).log <+: deposits (d.reached transactions).log ∨
      deposits (d.reached transactions).log <+: deposits (d.reached run).log)
    (input : BridgeTransitionInput) :
    canonicalDepositBatch env (d.reached transactions) (indexed mode steps).tables = .ok input ↔
      (d.reached transactions).bridge.paused = false ∧
      (d.reached transactions).bridge.bridgedDepositNonce <
        (d.reached transactions).bridge.depositNonce ∧
      (d.reached transactions).bridge.depositNonce.toNat < 2 ^ 63 ∧
      (∀ record ∈ unbridgedDeposits (d.reached transactions)
          (d.reached transactions).bridge.depositNonce,
        AmountFits record ∧ ∃ row ∈ (indexed mode steps).tables.deposits, row.removed = false ∧
          Final (indexed mode steps).tables row ∧ row.nonce = record.nonce.toNat) ∧
      input = batchInput env (d.reached transactions)
        (d.reached transactions).bridge.depositNonce := by
  have hholds := indexed_holds_mined hmined
  have hfolded := reached_depositsFolded d transactions
  have hrecorded := submissions_recorded d run
  have hcount := hfolded.count
  have hlength : (deposits (d.reached run).log).length = (submissions d run).length := by
    rw [← hrecorded.records, List.length_map]
  have hpending : (d.reached transactions).bridge.depositNonce.toNat ≤
      (submissions d run).length →
      (slice (submissions d run) (d.reached transactions).bridge.bridgedDepositNonce.toNat
        (d.reached transactions).bridge.depositNonce.toNat).map Submitted.record =
        unbridgedDeposits (d.reached transactions)
          (d.reached transactions).bridge.depositNonce := by
    intro hreach
    rw [slice_records, unbridgedDeposits, ← hcount,
      take_of_comparable hcomparable (by omega), List.take_length]
  constructor
  · intro h
    obtain ⟨hunpaused, hbehind, hwidth, hreach, hcolumns, -, hfits, hinput⟩ :=
      batch_built hholds hchain h
    have hrecords := hpending hreach
    refine ⟨hunpaused, hbehind, hwidth, ?_, ?_⟩
    · intro record hrecord
      rw [← hrecords] at hrecord
      obtain ⟨s, hs, hsame⟩ := List.mem_map.mp hrecord
      have hmem := List.mem_map_of_mem (f := Submitted.columns) hs
      rw [← hcolumns] at hmem
      obtain ⟨row, hrow, hown⟩ := List.mem_map.mp hmem
      obtain ⟨hstored, hlive, hfinal, -, -⟩ := mem_pendingRows.mp hrow
      rw [← hsame]
      refine ⟨hfits s hs, row, hstored, hlive, hfinal, ?_⟩
      rw [DepositRow.nonce, hown]
      rfl
    · rw [hinput, batchInput, ← hrecords, List.map_map]
      rfl
  · intro h
    obtain ⟨hunpaused, hbehind, hwidth, hready, hinput⟩ := h
    have hlt : (d.reached transactions).bridge.bridgedDepositNonce.toNat <
        (d.reached transactions).bridge.depositNonce.toNat := hbehind
    have hfinalRows : ∀ nonce, (d.reached transactions).bridge.bridgedDepositNonce.toNat < nonce →
        nonce ≤ (d.reached transactions).bridge.depositNonce.toNat →
        ∃ row ∈ (indexed mode steps).tables.deposits, row.removed = false ∧
          Final (indexed mode steps).tables row ∧ row.nonce = nonce := by
      intro nonce hafter hupTo
      obtain ⟨record, hrecord, hnonce⟩ := exists_unbridged hfolded hafter hupTo
      obtain ⟨-, row, hrow, hlive, hfinal, hsame⟩ := hready record hrecord
      exact ⟨row, hrow, hlive, hfinal, by omega⟩
    obtain ⟨hreach, hcolumns⟩ := pendingRows_consecutive hholds hchain hlt hfinalRows
    have hrecords := hpending hreach
    have hlinked := linked_of_comparable d hfolded hcomparable hreach
    have hfits : ∀ s ∈ slice (submissions d run)
        (d.reached transactions).bridge.bridgedDepositNonce.toNat
        (d.reached transactions).bridge.depositNonce.toNat, AmountFits s.record := by
      intro s hs
      have hmem := List.mem_map_of_mem (f := Submitted.record) hs
      rw [hrecords] at hmem
      exact (hready _ hmem).1
    rw [batch_of_slice hunpaused hbehind hwidth hreach hcolumns hlinked hfits, hinput, batchInput,
      ← hrecords, List.map_map]
    rfl

/-- The pipeline from the deposit to the bridge. Whatever the indexer stored, rolled back
and declared final on the way, and wherever the contracts are read, the batch that the
gateway builds is proved by the guest, passes the gateway's preflight, and is accepted by
the contract, which then has bridged every deposit. Assumed are guest-emitted receipts,
witness links from the bridge only, hashes without collisions on the strings of both
runs, and counters below their limits. -/
theorem queued_batch_accepted (d : Deployment env W)
    (G : SettlementProver env d.settlement.verifier d.settlement.programVKey)
    (B : BridgeProver env d.bridge.bridgeVerifier d.bridge.bridgeProgramVKey) {start : StepField}
    (hstart : fieldToBytes start = d.settlement.initialOuterActionState)
    (hchainId : env.chainId.toNat < 2 ^ 64) (transactions : List Transaction)
    (mode : FinalityMode) (steps : List IndexStep)
    (hmined : ∀ first second, steps = first ++ second →
      ∃ earlier, Mined d earlier (indexed mode first).chain)
    {run : List Transaction} (hchain : Mined d run (indexed mode steps).chain)
    (hdeposits : CollisionFree env.hashes.keccak256
      (depositStrings env (d.reached transactions).log ++ depositStrings env (d.reached run).log))
    (hdirect : ∀ entry ∈ d.history transactions, appendsDirectly entry.2.call = false)
    (hkeccak : CollisionFreeFrom env.hashes.keccak256 0
      (activationsStrings env (d.history transactions) ++
        G.strings (settledReceipts (d.history transactions))))
    (hposeidon : CollisionFreeFrom
      (fun p : StepField × StepField => merkleActionsAdd env.hashes p.1 p.2) start
      (chainPairs (merkleActionsAdd env.hashes) start
        (outerLinks G B (d.history transactions) ++ depositLinks env.hashes env.bridgeAddress
          (unbridgedDeposits (d.reached transactions)
            (d.reached transactions).bridge.depositNonce))))
    (hrole : (d.reached transactions).settlement.hasRole (bridgeRole env) env.bridgeAddress = true)
    (hlength : (d.reached transactions).settlement.outerActionStateLength.toNat +
      (unbridgedDeposits (d.reached transactions)
        (d.reached transactions).bridge.depositNonce).length < 2 ^ 32)
    (hindex : (d.reached transactions).settlement.currentL2ActionStateIndex.toNat +
      (unbridgedDeposits (d.reached transactions)
        (d.reached transactions).bridge.depositNonce).length < 2 ^ 64)
    {input : BridgeTransitionInput}
    (h : canonicalDepositBatch env (d.reached transactions) (indexed mode steps).tables =
      .ok input) :
    ∃ v encoded next,
      deriveBridgeTransition env.hashes input = .ok v ∧ v.encode = .ok encoded ∧
      validateBridgePreflight env (d.reached transactions)
        (d.reached transactions).bridge.bridgeProgramVKey input v = .ok () ∧
      applyBridgeTransition env (d.reached transactions) encoded = .ok next ∧
      next.bridge.bridgedDepositNonce = (d.reached transactions).bridge.depositNonce := by
  obtain ⟨hinput, hamounts⟩ := batch_is_pending d mode steps hmined hchain transactions hdeposits h
  obtain ⟨hunpaused, hbehind, -⟩ := batch_built (indexed_holds_mined hmined) hchain h
  obtain ⟨v, encoded, hderived, hencode, haccepted, hpreflight⟩ := batch_accepted_iff d G B hstart
    hchainId transactions _ hdirect hkeccak hposeidon hrole hamounts hlength hindex hbehind
    (BitVec.le_refl _) hunpaused
  obtain ⟨next, hnext⟩ := haccepted.mpr rfl
  obtain ⟨decoded, htransitioned⟩ := applyBridgeTransition_eq_ok env hnext
  rw [hinput]
  refine ⟨v, encoded, next, hderived, hencode, hpreflight.mpr rfl, hnext, ?_⟩
  rw [htransitioned.bridge_eq]
  exact htransitioned.checked.nonceAfter

end Batches

/-- The batch of the concrete deployment is built while the index is ahead of the contracts,
and the deposit strings of both runs do not collide. -/
theorem setup_batch :
    Succeeds (canonicalDepositBatch environment (deployment.reached setup)
      (indexed .confirmations setupSteps).tables) ∧
    digestsDistinct environment.hashes.keccak256
      (depositStrings environment (deployment.reached setup).log ++
        depositStrings environment (deployment.reached (setup ++ furtherDeposit)).log)
      [((0 : Bytes32).toNat, none)] = true ∧
    deposits (deployment.reached setup).log <+:
      deposits (deployment.reached (setup ++ furtherDeposit)).log := by
  decide +kernel

/-- The strings of both runs do not collide. -/
theorem setup_strings : CollisionFree environment.hashes.keccak256
    (depositStrings environment (deployment.reached setup).log ++
      depositStrings environment (deployment.reached (setup ++ furtherDeposit)).log) :=
  (collisionFreeFrom_of_digests setup_batch.2.1).1

/-- The batch of the concrete deployment holds its two deposits, and not the one that only the
index knows. -/
theorem batch_is_pending_setup :
    ∃ input, canonicalDepositBatch environment (deployment.reached setup)
        (indexed .confirmations setupSteps).tables = .ok input ∧
      input = batchInput environment (deployment.reached setup)
        (deployment.reached setup).bridge.depositNonce := by
  obtain ⟨input, hinput⟩ := setup_batch.1
  exact ⟨input, hinput, (batch_is_pending deployment .confirmations setupSteps setupSteps_mined.1
    setupSteps_mined.2 setup setup_strings hinput).1⟩

/-- The index of the concrete deployment lets its batch be built. -/
theorem batch_iff_final_setup :
    canonicalDepositBatch environment (deployment.reached setup)
        (indexed .confirmations setupSteps).tables =
      .ok (batchInput environment (deployment.reached setup)
        (deployment.reached setup).bridge.depositNonce) ∧
    ∀ record ∈ unbridgedDeposits (deployment.reached setup)
        (deployment.reached setup).bridge.depositNonce,
      AmountFits record ∧ ∃ row ∈ (indexed .confirmations setupSteps).tables.deposits,
        row.removed = false ∧ Final (indexed .confirmations setupSteps).tables row ∧
        row.nonce = record.nonce.toNat := by
  obtain ⟨input, hinput⟩ := setup_batch.1
  obtain ⟨-, -, -, hfinal, hsame⟩ := (batch_iff_final deployment .confirmations setupSteps
    setupSteps_mined.1 setupSteps_mined.2 (Or.inr setup_batch.2.2) input).mp hinput
  rw [hinput, hsame]
  exact ⟨rfl, hfinal⟩

/-- The batch of the concrete deployment goes through to the bridge. -/
theorem queued_batch_accepted_setup :
    ∃ input v encoded next, canonicalDepositBatch environment (deployment.reached setup)
        (indexed .confirmations setupSteps).tables = .ok input ∧
      deriveBridgeTransition environment.hashes input = .ok v ∧ v.encode = .ok encoded ∧
      applyBridgeTransition environment (deployment.reached setup) encoded = .ok next ∧
      next.bridge.bridgedDepositNonce = (deployment.reached setup).bridge.depositNonce := by
  obtain ⟨hdigests, hposeidon, hdirect, hrole, -, hlength, hindex, -⟩ := setup_ready
  have hcanonical :
      fieldToBytes (1 : StepField) = deployment.settlement.initialOuterActionState := by
    decide
  obtain ⟨input, hinput⟩ := setup_batch.1
  obtain ⟨v, encoded, next, hderived, hencode, -, hnext, hbridged⟩ :=
    queued_batch_accepted deployment settlementProver bridgeProver hcanonical (by decide) setup
      .confirmations setupSteps setupSteps_mined.1 setupSteps_mined.2 setup_strings
      (fun entry hentry => by simpa using List.all_eq_true.mp hdirect entry hentry)
      (collisionFreeFrom_of_digests hdigests) hposeidon hrole hlength hindex hinput
  exact ⟨input, v, encoded, next, hinput, hderived, hencode, hnext, hbridged⟩

end EthereumSettlement.QueuedBatches
