import EthereumSettlement.ClaimSoundness

/-!
# Every inner action is paid at most once

The bridge keeps one cursor for each recipient of ether and one for each token
and recipient. The accepted claims behind one cursor have increasing indices.
Stored batches span disjoint ranges, so an index belongs to one batch and one
offset; a path to one root at one offset carries one leaf; and a leaf names its
asset and its recipient. An index is therefore paid at most once, to anyone and
in any asset.
-/

namespace EthereumSettlement.PayoutOnce

open ByteWords CheckedCalls HashCommitments TransitionRuns PastaPoseidon InnerActionCommitment
open SettlementCodec SettlementReceipt ZekoSettlement EthereumZekoBridge BridgeSystem StepEffects
open RunInvariants SettledReceipts ClaimSoundness ReferenceDeployment

variable {env : Environment} {W : TokenWorld}

/-- An accepted claim. -/
structure Payout where
  /-- The paid token, `none` for ether. -/
  asset : Option Address
  /-- Who is paid. -/
  recipient : Address
  /-- Batch that is claimed from. -/
  settlementSequence : BitVec 64
  /-- Position in its batch. -/
  offset : BitVec 32
  /-- Position among all inner actions. -/
  globalActionIndex : BitVec 32
  deriving DecidableEq

/-- The payout that a claim call asks for in a state. -/
def claimPayout (c : Chain W) : Call → Option Payout
  | .claimNativeWithdrawal claim _ =>
    some ⟨none, claim.recipient, claim.settlementSequence, claim.offset, claimIndex c claim⟩
  | .claimERC20Withdrawal token claim =>
    some ⟨some token, claim.recipient, claim.settlementSequence, claim.offset, claimIndex c claim⟩
  | _ => none

/-- The accepted claims of a history, oldest first. -/
def payouts (history : List (Chain W × Transaction)) : List Payout :=
  history.filterMap fun entry => claimPayout entry.1 entry.2.call

/-- The strings that a claim call hashes in a state. -/
def claimStrings (env : Environment) (c : Chain W) : Call → List Bytes
  | .claimNativeWithdrawal claim _ => nativeClaimStrings env c claim
  | .claimERC20Withdrawal token claim => tokenClaimStrings env c token claim
  | _ => []

/-- The strings hashed by the accepted claims of a history. -/
def claimedStrings (env : Environment) (history : List (Chain W × Transaction)) : List Bytes :=
  history.flatMap fun entry => claimStrings env entry.1 entry.2.call

/-- A history grows by at most one payout. -/
theorem payouts_concat (history : List (Chain W × Transaction)) (c : Chain W) (tx : Transaction) :
    payouts (history ++ [(c, tx)]) = payouts history ++ (claimPayout c tx.call).toList := by
  rw [payouts, List.filterMap_append]
  cases hpayout : claimPayout c tx.call with
  | none =>
    simp only [List.filterMap_cons, hpayout, List.filterMap_nil]
    rfl
  | some paid =>
    simp only [List.filterMap_cons, hpayout, List.filterMap_nil]
    rfl

/-- A history's strings grow by those of its last call. -/
theorem claimedStrings_concat (history : List (Chain W × Transaction)) (c : Chain W)
    (tx : Transaction) :
    claimedStrings env (history ++ [(c, tx)]) =
      claimedStrings env history ++ claimStrings env c tx.call := by
  rw [claimedStrings, List.flatMap_append, List.flatMap_singleton]
  rfl

/-- The cursor of an asset and a recipient. -/
def cursorOf (s : BridgeStorage) (asset : Option Address) (recipient : Address) : BitVec 32 :=
  match asset with
  | none => s.nextWithdrawalIndex recipient
  | some token => s.nextTokenWithdrawalIndex token recipient

/-- A leaf string of a withdrawal of an asset to a recipient. -/
def LeafOf (env : Environment) (leafInput : Bytes) (asset : Option Address) (recipient : Address) :
    Prop :=
  match asset with
  | none => ∃ index amount fieldsHash,
      leafInput = nativeWithdrawalLeafInput env index recipient amount fieldsHash
  | some token => ∃ index registryIndex recordCommitment assetId amount fieldsHash,
      leafInput = erc20WithdrawalLeafInput env index token registryIndex recordCommitment assetId
        recipient amount fieldsHash

/-- A leaf string has one asset and one recipient. -/
theorem LeafOf.unique {leafInput : Bytes} {asset other : Option Address}
    {recipient otherRecipient : Address} (h : LeafOf env leafInput asset recipient)
    (hother : LeafOf env leafInput other otherRecipient) :
    asset = other ∧ recipient = otherRecipient := by
  cases asset with
  | none =>
    obtain ⟨_, _, _, hinput⟩ := h
    cases other with
    | none =>
      obtain ⟨_, _, _, hotherInput⟩ := hother
      have hwords := abiEncode_injective (hinput.symm.trans hotherInput)
      simp only [List.cons.injEq, and_true, true_and] at hwords
      exact ⟨rfl, toWord_injective (by decide) hwords.2.1⟩
    | some token =>
      obtain ⟨_, _, _, _, _, _, hotherInput⟩ := hother
      have hwords := abiEncode_injective (hinput.symm.trans hotherInput)
      simp only [List.cons.injEq, reduceCtorEq, and_false] at hwords
  | some token =>
    obtain ⟨_, _, _, _, _, _, hinput⟩ := h
    cases other with
    | none =>
      obtain ⟨_, _, _, hotherInput⟩ := hother
      have hwords := abiEncode_injective (hinput.symm.trans hotherInput)
      simp only [List.cons.injEq, reduceCtorEq, and_false] at hwords
    | some otherToken =>
      obtain ⟨_, _, _, _, _, _, hotherInput⟩ := hother
      have hwords := abiEncode_injective (hinput.symm.trans hotherInput)
      simp only [List.cons.injEq, and_true, true_and] at hwords
      obtain ⟨-, htoken, -, -, -, hrecipient, -⟩ := hwords
      rw [toWord_injective (by decide) htoken, toWord_injective (by decide) hrecipient]
      exact ⟨rfl, rfl⟩

/-- A payout addresses a stored batch, and a path from a leaf of its asset and
recipient reaches the batch's root at its offset. -/
def PayoutVerified (env : Environment) (s : SettlementStorage) (strings : List Bytes)
    (paid : Payout) : Prop :=
  (s.innerActionBatch paid.settlementSequence).valid = true ∧
  paid.offset.toNat < (s.innerActionBatch paid.settlementSequence).count.toNat ∧
  paid.globalActionIndex.toNat =
    (s.innerActionBatch paid.settlementSequence).startIndex.toNat + paid.offset.toNat ∧
  ∃ leafInput siblings, LeafOf env leafInput paid.asset paid.recipient ∧
    pathStrings env.hashes leafInput paid.offset.toNat siblings ⊆ strings ∧
    pathRoot (hashNode env.hashes) (env.hashes.keccak256 leafInput) paid.offset.toNat
      (List.ofFn siblings) = (s.innerActionBatch paid.settlementSequence).root

/-- What an accepted claim does to the cursors. -/
structure ClaimPaid (env : Environment) (c : Chain W) (call : Call) (next : Chain W)
    (paid : Payout) : Prop where
  /-- The leaf is in the claimed batch. -/
  verified : PayoutVerified env c.settlement (claimStrings env c call) paid
  /-- The settlement contract is unchanged. -/
  settlement_eq : next.settlement = c.settlement
  /-- The index is not below the recipient's cursor. -/
  cursor_le : (cursorOf c.bridge paid.asset paid.recipient).toNat ≤ paid.globalActionIndex.toNat
  /-- The cursor moves past the index. -/
  cursor_next : (cursorOf next.bridge paid.asset paid.recipient).toNat =
    paid.globalActionIndex.toNat + 1
  /-- No other cursor moves. -/
  cursor_other : ∀ asset recipient, ¬(asset = paid.asset ∧ recipient = paid.recipient) →
    cursorOf next.bridge asset recipient = cursorOf c.bridge asset recipient

/-- Administration and activation ask for no payout. -/
theorem claimPayout_of_kind {c : Chain W} {call : Call}
    (kind : call.isAdministration = true ∨ call.isActivation = true) : claimPayout c call = none := by
  rcases kind with kind | kind
  · cases call <;> cases kind <;> rfl
  · cases call <;> cases kind <;> rfl

/-- A transaction either pays no claim and keeps every cursor, or pays the claim
that it asks for. -/
theorem payout_of_effect {c next : Chain W} {ctx : CallContext} {call : Call}
    (h : Effect env c ctx call next) :
    (claimPayout c call = none ∧ ∀ asset recipient,
      cursorOf next.bridge asset recipient = cursorOf c.bridge asset recipient) ∨
    ∃ paid, claimPayout c call = some paid ∧ ClaimPaid env c call next paid := by
  have hkept : next.bridge.nextWithdrawalIndex = c.bridge.nextWithdrawalIndex →
      next.bridge.nextTokenWithdrawalIndex = c.bridge.nextTokenWithdrawalIndex →
      ∀ asset recipient,
        cursorOf next.bridge asset recipient = cursorOf c.bridge asset recipient := by
    intro hnative htoken asset recipient
    cases asset with
    | none => exact congrFun hnative recipient
    | some token => exact congrFun (congrFun htoken token) recipient
  cases h with
  | administer kind administered =>
    obtain ⟨_, _, _, hbridge⟩ := administered.bridge_eq
    exact Or.inl ⟨claimPayout_of_kind (.inl kind), hkept (by rw [hbridge]) (by rw [hbridge])⟩
  | settle => exact Or.inl ⟨rfl, hkept rfl rfl⟩
  | append => exact Or.inl ⟨rfl, hkept rfl rfl⟩
  | transition _ transitioned =>
    have hbridge := transitioned.bridge_eq
    exact Or.inl ⟨rfl, hkept (by rw [hbridge]; rfl) (by rw [hbridge]; rfl)⟩
  | nativeDeposit => exact Or.inl ⟨rfl, hkept rfl rfl⟩
  | tokenDeposit => exact Or.inl ⟨rfl, hkept rfl rfl⟩
  | @nativeClaim claim accepts index nextIndex _ _ claimed =>
    have hverified := claimed.verified
    have hindex := ClaimVerified.index hverified
    have hcursor := claimed.cursor_le
    have hnext := claimed.nextIndex_eq
    subst hindex
    refine Or.inr ⟨_, rfl, ⟨⟨hverified.valid, hverified.offset_lt, hverified.index_eq, _, _,
      ⟨_, _, _, rfl⟩, List.Subset.refl _, hverified.root_eq⟩, rfl, hcursor, ?_, ?_⟩⟩
    · change (Function.update c.bridge.nextWithdrawalIndex claim.recipient nextIndex
        claim.recipient).toNat = _
      rw [Function.update_self]
      exact hnext
    · intro asset recipient hother
      cases asset with
      | none => exact Function.update_of_ne (fun hsame => hother ⟨rfl, hsame⟩) _ _
      | some token => rfl
  | @tokenClaim token claim index nextIndex _ _ _ claimed =>
    have hverified := claimed.verified
    have hindex := ClaimVerified.index hverified
    have hcursor := claimed.cursor_le
    have hnext := claimed.nextIndex_eq
    subst hindex
    refine Or.inr ⟨_, rfl, ⟨⟨hverified.valid, hverified.offset_lt, hverified.index_eq, _, _,
      ⟨_, _, _, _, _, _, rfl⟩, List.Subset.refl _, hverified.root_eq⟩, rfl, hcursor, ?_, ?_⟩⟩
    · change (Function.update c.bridge.nextTokenWithdrawalIndex token (Function.update
        (c.bridge.nextTokenWithdrawalIndex token) claim.recipient nextIndex) token
        claim.recipient).toNat = _
      rw [Function.update_self, Function.update_self]
      exact hnext
    · intro asset recipient hother
      cases asset with
      | none => rfl
      | some otherToken =>
        change Function.update c.bridge.nextTokenWithdrawalIndex token (Function.update
          (c.bridge.nextTokenWithdrawalIndex token) claim.recipient nextIndex) otherToken
          recipient = c.bridge.nextTokenWithdrawalIndex otherToken recipient
        by_cases htoken : otherToken = token
        · subst htoken
          rw [Function.update_self]
          exact Function.update_of_ne (fun hsame => hother ⟨rfl, hsame⟩) _ _
        · rw [Function.update_of_ne htoken]
  | etherRescue => exact Or.inl ⟨rfl, hkept rfl rfl⟩
  | tokenRescue => exact Or.inl ⟨rfl, hkept rfl rfl⟩
  | propose proposed =>
    have hbridge := proposed.bridge_eq
    exact Or.inl ⟨rfl, hkept (by rw [hbridge]) (by rw [hbridge])⟩
  | cancel cancelled =>
    have hbridge := cancelled.bridge_eq
    exact Or.inl ⟨rfl, hkept (by rw [hbridge]) (by rw [hbridge])⟩
  | activate kind activated =>
    have hbridge := activated.bridge_eq
    exact Or.inl ⟨claimPayout_of_kind (.inr kind),
      hkept (by rw [hbridge]; rfl) (by rw [hbridge]; rfl)⟩
  | status changed =>
    obtain ⟨_, hbridge⟩ := changed.bridge_eq
    exact Or.inl ⟨rfl, hkept (by rw [hbridge]) (by rw [hbridge])⟩
  | tokenTransfer => exact Or.inl ⟨rfl, hkept rfl rfl⟩
  | etherForced => exact Or.inl ⟨rfl, hkept rfl rfl⟩

/-- Two payouts behind one cursor have increasing indices. -/
def Increasing (first second : Payout) : Prop :=
  first.asset = second.asset → first.recipient = second.recipient →
    first.globalActionIndex.toNat < second.globalActionIndex.toNat

/-- The payouts of a history lie below their cursors and increase. -/
structure CursorsAhead (paid : List Payout) (s : BridgeStorage) : Prop where
  /-- Every payout lies below its cursor. -/
  below : ∀ payout ∈ paid,
    payout.globalActionIndex.toNat < (cursorOf s payout.asset payout.recipient).toNat
  /-- Payouts of one cursor increase. -/
  increasing : paid.Pairwise Increasing

/-- One more accepted claim lies above all payouts behind its cursor. -/
theorem CursorsAhead.pay {paid : List Payout} {c next : Chain W} {call : Call} {payout : Payout}
    (h : CursorsAhead paid c.bridge) (hpaid : ClaimPaid env c call next payout) :
    CursorsAhead (paid ++ [payout]) next.bridge := by
  have hle := hpaid.cursor_le
  have hnext := hpaid.cursor_next
  constructor
  · intro other hother
    rcases List.mem_append.mp hother with hold | hlast
    · have hbelow := h.below other hold
      by_cases hsame : other.asset = payout.asset ∧ other.recipient = payout.recipient
      · rw [hsame.1, hsame.2] at hbelow ⊢
        omega
      · rw [hpaid.cursor_other other.asset other.recipient hsame]
        exact hbelow
    · rw [List.mem_singleton.mp hlast]
      omega
  · rw [List.pairwise_append]
    refine ⟨h.increasing, List.pairwise_singleton _ _, ?_⟩
    intro other hother last hlast hasset hrecipient
    rw [List.mem_singleton.mp hlast] at hasset hrecipient ⊢
    have hbelow := h.below other hother
    rw [hasset, hrecipient] at hbelow
    omega

/-- Cursors stay ahead of the accepted claims in every reachable state. -/
theorem reached_cursors (d : Deployment env W) (transactions : List Transaction) :
    CursorsAhead (payouts (d.history transactions)) (d.reached transactions).bridge := by
  apply reached_induction d (Q := fun _ => True)
    (J := fun history c => CursorsAhead (payouts history) c.bridge)
    ⟨by simp [payouts], List.Pairwise.nil⟩ ?_ (fun _ _ => trivial)
  intro history c tx next hc _ heffect
  rw [payouts_concat]
  rcases payout_of_effect heffect with ⟨hnone, hcursors⟩ | ⟨payout, hsome, hpaid⟩
  · rw [hnone, Option.toList_none, List.append_nil]
    refine ⟨?_, hc.increasing⟩
    intro payout hpayout
    rw [hcursors]
    exact hc.below payout hpayout
  · rw [hsome]
    exact hc.pay hpaid

/-- A verified payout stays verified while its batch is kept. -/
theorem PayoutVerified.mono {s next : SettlementStorage} {strings more : List Bytes}
    {payout : Payout} (h : PayoutVerified env s strings payout)
    (hbatch : next.innerActionBatch payout.settlementSequence =
      s.innerActionBatch payout.settlementSequence) (hstrings : strings ⊆ more) :
    PayoutVerified env next more payout := by
  obtain ⟨hvalid, hoffset, hindex, leafInput, siblings, hleaf, hpath, hroot⟩ := h
  unfold PayoutVerified
  rw [hbatch]
  exact ⟨hvalid, hoffset, hindex, leafInput, siblings, hleaf, fun string hstring =>
    hstrings (hpath hstring), hroot⟩

/-- Every accepted claim is still verified by the batches of the state reached. -/
theorem reached_verified (d : Deployment env W) {transactions : List Transaction}
    (hbatches : ∀ entry ∈ d.history transactions, SettlesBatch entry) :
    BatchesOrdered (d.reached transactions).settlement ∧
      ∀ payout ∈ payouts (d.history transactions),
        PayoutVerified env (d.reached transactions).settlement
          (claimedStrings env (d.history transactions)) payout := by
  apply reached_induction d (J := fun history c => BatchesOrdered c.settlement ∧
      ∀ payout ∈ payouts history,
        PayoutVerified env c.settlement (claimedStrings env history) payout)
    ⟨start_batchesOrdered d, by simp [payouts]⟩ ?_ hbatches
  intro history c tx next hc hbatch heffect
  obtain ⟨hordered, hverified⟩ := hc
  refine ⟨batchesOrdered_of_effect hordered hbatch heffect, ?_⟩
  rw [payouts_concat, claimedStrings_concat]
  intro payout hpayout
  rcases List.mem_append.mp hpayout with hold | hlast
  · have hpaid := hverified payout hold
    exact hpaid.mono (batch_kept_of_effect hordered heffect hpaid.1) (List.subset_append_left _ _)
  · rcases payout_of_effect heffect with ⟨hnone, -⟩ | ⟨claimed, hsome, hclaimed⟩
    · rw [hnone] at hlast
      cases hlast
    · rw [hsome, Option.toList_some, List.mem_singleton] at hlast
      rw [hlast]
      exact hclaimed.verified.mono (by rw [hclaimed.settlement_eq]) (List.subset_append_right _ _)

/-- Verified payouts of one index have one asset and one recipient. -/
theorem PayoutVerified.unique {s : SettlementStorage} {strings : List Bytes} {first second : Payout}
    (hordered : BatchesOrdered s) (hcf : CollisionFree env.hashes.keccak256 strings)
    (hfirst : PayoutVerified env s strings first) (hsecond : PayoutVerified env s strings second)
    (hindex : first.globalActionIndex = second.globalActionIndex) :
    first.asset = second.asset ∧ first.recipient = second.recipient := by
  obtain ⟨hvalid, hoffset, hfirstIndex, leafInput, siblings, hleaf, hpath, hroot⟩ := hfirst
  obtain ⟨hotherValid, hotherOffset, hotherIndex, otherInput, otherSiblings, hotherLeaf, hotherPath,
    hotherRoot⟩ := hsecond
  have hindexNat := congrArg BitVec.toNat hindex
  have hsequence : first.settlementSequence = second.settlementSequence := by
    apply BitVec.eq_of_toNat_eq
    by_contra hne
    rcases Nat.lt_or_gt_of_ne hne with hlt | hlt
    · have hrange := hordered.ordered _ _ hvalid hotherValid hlt
      omega
    · have hrange := hordered.ordered _ _ hotherValid hvalid hlt
      omega
  rw [← hsequence] at hotherIndex hotherRoot
  have hoffsets : second.offset.toNat = first.offset.toNat := by omega
  rw [hoffsets] at hotherPath hotherRoot
  have hpairs : CollisionFree (fun p : Bytes32 × Bytes32 => hashNode env.hashes p.1 p.2)
      (pathPairs (hashNode env.hashes) (env.hashes.keccak256 leafInput) first.offset.toNat
          (List.ofFn siblings) ++
        pathPairs (hashNode env.hashes) (env.hashes.keccak256 otherInput) first.offset.toNat
          (List.ofFn otherSiblings)) := by
    apply hashNode_collisionFree env.hashes hcf
    rw [List.map_append]
    intro string hstring
    rcases List.mem_append.mp hstring with hpathString | hpathString
    · exact hpath (List.mem_cons_of_mem _ hpathString)
    · exact hotherPath (List.mem_cons_of_mem _ hpathString)
  have hleaves : env.hashes.keccak256 leafInput = env.hashes.keccak256 otherInput :=
    path_unique hpairs (by simp) (hroot.trans hotherRoot.symm)
  have hinputs : leafInput = otherInput :=
    hcf _ (hpath List.mem_cons_self) _ (hotherPath List.mem_cons_self) hleaves
  rw [← hinputs] at hotherLeaf
  exact hleaf.unique hotherLeaf

/-- Exactly-once payout. Over every run the accepted claims of one asset and
recipient have strictly increasing indices. When every settled receipt has a
batch and the strings hashed by the accepted claims do not collide, no index is
paid twice, to any recipients and in any assets. -/
theorem payouts_once (d : Deployment env W) (transactions : List Transaction) :
    (payouts (d.history transactions)).Pairwise (fun first second =>
      first.asset = second.asset → first.recipient = second.recipient →
        first.globalActionIndex.toNat < second.globalActionIndex.toNat) ∧
    ((∀ entry ∈ d.history transactions, SettlesBatch entry) →
      CollisionFree env.hashes.keccak256 (claimedStrings env (d.history transactions)) →
      (payouts (d.history transactions)).Pairwise (fun first second =>
        first.globalActionIndex ≠ second.globalActionIndex)) := by
  have hincreasing := (reached_cursors d transactions).increasing
  refine ⟨hincreasing, ?_⟩
  intro hbatches hcf
  obtain ⟨hordered, hverified⟩ := reached_verified d hbatches
  apply hincreasing.imp_of_mem
  intro first second hfirst hsecond hlt hindex
  obtain ⟨hasset, hrecipient⟩ := PayoutVerified.unique hordered hcf (hverified first hfirst)
    (hverified second hsecond) hindex
  have habove := hlt hasset hrecipient
  rw [hindex] at habove
  exact absurd habove (Nat.lt_irrefl _)

/-- The concrete run with all three claims behind it. -/
def allClaimed : List Transaction :=
  setup ++ [⟨claimant, .claimNativeWithdrawal firstClaim true⟩,
    ⟨claimant, .claimERC20Withdrawal token tokenClaim⟩,
    ⟨claimant, .claimNativeWithdrawal secondClaim true⟩]

/-- All three claims are paid, each index once. -/
theorem payouts_once_allClaimed :
    (payouts (deployment.history allClaimed)).map (·.globalActionIndex) = [0, 2, 1] ∧
    (payouts (deployment.history allClaimed)).Pairwise (fun first second =>
      first.globalActionIndex ≠ second.globalActionIndex) := by
  have hrun : (payouts (deployment.history allClaimed)).map (·.globalActionIndex) = [0, 2, 1] ∧
      (∀ entry ∈ deployment.history allClaimed, SettlesBatch entry) ∧
      digestsDistinct environment.hashes.keccak256
        (claimedStrings environment (deployment.history allClaimed)) [] = true := by
    decide +kernel
  exact ⟨hrun.1, (payouts_once deployment allClaimed).2 hrun.2.1 (collisionFree_of_digests hrun.2.2)⟩

end EthereumSettlement.PayoutOnce
