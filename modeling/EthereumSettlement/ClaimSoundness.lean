import EthereumSettlement.ReferenceDeployment
import EthereumSettlement.SettledReceipts

/-!
# Claims against guest-emitted batches

A claim recomputes one Keccak leaf and folds sixteen siblings chosen by anyone.
When the verifier accepts only receipts that the settlement guest emits, and no
two strings hashed on either side collide, an accepted claim names an action of
the accepted batch at exactly its offset, of its own kind and with its own
recipient and amount. Leaves of other kinds, padding and inner nodes have
different preimages.
-/

namespace EthereumSettlement.ClaimSoundness

open ByteWords CheckedCalls HashCommitments TransitionRuns PastaPoseidon InnerActionCommitment
open SettlementCodec SettlementReceipt ZekoSettlement EthereumZekoBridge BridgeSystem StepEffects
open RunInvariants SettledReceipts ReferenceDeployment

/-- A verifier that accepts only what the settlement guest emits: an input of
the guest for each accepted receipt. -/
structure SettlementProver (env : Environment) (verifier : Address) (programVKey : Bytes32) where
  /-- The Pickles verifier of the guest. -/
  V : PicklesVerdict
  /-- The verification-key hash that the guest reports. -/
  vkHash : Bytes32
  /-- The input from which the guest emitted a receipt. -/
  emitter : Bytes → SettlementGuestInput V
  /-- Accepted receipts were emitted. -/
  emits : ∀ publicValues proofBytes,
    env.verifyProof verifier programVKey publicValues proofBytes = true →
    settlementGuest env.hashes V vkHash (emitter publicValues) = .ok publicValues

variable {env : Environment} {W : TokenWorld} {verifier : Address} {programVKey : Bytes32}

/-- Every leaf, node and record string that the guest hashed for some receipts. -/
def SettlementProver.strings (G : SettlementProver env verifier programVKey)
    (receipts : List Bytes) : List Bytes :=
  receipts.flatMap fun publicValues =>
    settlementGuestInputs env.hashes G.V G.vkHash (G.emitter publicValues)

/-- The strings hashed while a leaf is recomputed and its path is folded. -/
def pathStrings (H : Hashes) (leafInput : Bytes) (offset : ℕ) (siblings : Fin 16 → Bytes32) :
    List Bytes :=
  leafInput :: (pathPairs (hashNode H) (H.keccak256 leafInput) offset
    (List.ofFn siblings)).map (nodeInput H)

/-- The global index that a claim addresses. -/
def claimIndex (c : Chain W) (claim : ClaimArguments) : BitVec 32 :=
  (c.settlement.innerActionBatch claim.settlementSequence).startIndex + claim.offset

/-- The strings hashed by a native claim. -/
def nativeClaimStrings (env : Environment) (c : Chain W) (claim : ClaimArguments) : List Bytes :=
  pathStrings env.hashes (nativeWithdrawalLeafInput env (claimIndex c claim) claim.recipient
    claim.amount claim.actionFieldsHash) claim.offset.toNat claim.merkleProof

/-- The strings hashed by a token claim. -/
def tokenClaimStrings (env : Environment) (c : Chain W) (token : Address) (claim : ClaimArguments) :
    List Bytes :=
  pathStrings env.hashes (erc20WithdrawalLeafInput env (claimIndex c claim) token
    (c.bridge.registryIndexByToken token) (c.bridge.recordCommitmentByToken token)
    (c.bridge.assetIdByToken token) claim.recipient claim.amount claim.actionFieldsHash)
    claim.offset.toNat claim.merkleProof

/-- The index of a verified claim is that of its batch and offset. -/
theorem ClaimVerified.index {c : Chain W} {claim : ClaimArguments} {leaf : Bytes32}
    {globalActionIndex : BitVec 32} (h : ClaimVerified env c claim leaf globalActionIndex) :
    globalActionIndex = claimIndex c claim := by
  have hindex := h.index_eq
  have hlt := globalActionIndex.isLt
  apply BitVec.eq_of_toNat_eq
  rw [claimIndex, BitVec.toNat_add, ← hindex, Nat.mod_eq_of_lt hlt]

/-- The witness of the accepted receipt with a given sequence has an action at
an offset, and the guest's checks of its metadata passed. -/
def CommittedAction (G : SettlementProver env verifier programVKey) (receipts : List Bytes)
    (sequence : BitVec 64) (offset : ℕ) (action : InnerActionWitnessV2) : Prop :=
  ∃ publicValues ∈ receipts, ∃ decoded witness batch,
    decodePublicValues publicValues = .ok decoded ∧ 2 ≤ decoded.version ∧
    decoded.batchSequence = sequence ∧
    (∀ other ∈ receipts, ∀ otherDecoded, decodePublicValues other = .ok otherDecoded →
      otherDecoded.batchSequence = sequence → other = publicValues) ∧
    (G.emitter publicValues).settlement = some witness ∧
    witness.innerActionBatch = some batch ∧
    batch.actions.length = decoded.innerActionCount.toNat ∧ batch.actions[offset]? = some action ∧
    ActionChecked env.hashes action

/-- A receipt with a batch decodes to the batch's range and root. -/
theorem decoded_batch {values : SettlementPublicValues} {receipt : SettlementPublicValuesV2}
    (h : values.innerActionBatch = some receipt) :
    values.decoded.innerActionRoot = receipt.innerActionRoot ∧
      values.decoded.innerActionCount = receipt.innerActionCount ∧
      values.decoded.innerActionStartIndex = receipt.innerActionStartIndex := by
  cases values with
  | v1 => cases h
  | v2 => cases h; exact ⟨rfl, rfl, rfl⟩
  | v3 => cases h; exact ⟨rfl, rfl, rfl⟩
  | v4 => cases h; exact ⟨rfl, rfl, rfl⟩

/-- From the second version on a receipt has a batch. -/
theorem batch_of_version {values : SettlementPublicValues} (h : 2 ≤ values.decoded.version) :
    ∃ receipt, values.innerActionBatch = some receipt := by
  cases values with
  | v1 => exact absurd h (by change ¬ (2 : BitVec 16) ≤ 1; decide)
  | v2 values => exact ⟨_, rfl⟩
  | v3 values => exact ⟨_, rfl⟩
  | v4 values => exact ⟨_, rfl⟩

/-- The guest hashed every leaf and node string of an accepted batch. -/
theorem batchInputs_subset {H : Hashes} {V : PicklesVerdict} {vkHash : Bytes32}
    {input : SettlementGuestInput V} {witness : SettlementWitnessV1}
    {settlement : SettlementPublicValuesV1} {batch : InnerActionBatchWitnessV2}
    (hwitness : input.settlement = some witness)
    (hreceipt : deriveReceiptForAppState H (V.appState input.proof) witness vkHash = .ok settlement)
    (hbatch : witness.innerActionBatch = some batch) :
    batchInputs H settlement batch ⊆ settlementGuestInputs H V vkHash input := by
  intro string hstring
  rw [settlementGuestInputs, hwitness]
  dsimp only
  rw [hreceipt, hbatch]
  exact List.mem_append_left _ (List.mem_append_left _ hstring)

/-- An accepted path to the root of an accepted batch starts at the leaf string
of the action at its index. -/
theorem path_of_batch {H : Hashes} {settlement : SettlementPublicValuesV1}
    {batch : InnerActionBatchWitnessV2} {receipt : SettlementPublicValuesV2} {leafInput : Bytes}
    {offset : ℕ} {siblings : Fin 16 → Bytes32} (haccepted : BatchAccepted H settlement batch receipt)
    (hoffset : offset < batch.actions.length)
    (hcf : CollisionFree H.keccak256
      (pathStrings H leafInput offset siblings ++ batchInputs H settlement batch))
    (hroot : pathRoot (hashNode H) (H.keccak256 leafInput) offset (List.ofFn siblings) =
      receipt.innerActionRoot) :
    leafInput = innerActionInput H settlement.chainId batch.bridgeAddress
      (receipt.innerActionStartIndex + BitVec.ofNat 32 offset) batch.actions[offset] := by
  have hstart := haccepted.startIndex_eq
  have hcapacity := haccepted.capacity
  have hlength : (List.ofFn siblings).length = treeDepth := List.length_ofFn
  have hleafInput := innerActionInputs_getElem H settlement.chainId batch.bridgeAddress
    receipt.innerActionStartIndex 0 batch.actions offset hoffset
  rw [Nat.zero_add] at hleafInput
  have hleaf : padded 0 ((innerActionInputs H settlement.chainId batch.bridgeAddress
      receipt.innerActionStartIndex 0 batch.actions).map H.keccak256) offset =
      H.keccak256 (innerActionInput H settlement.chainId batch.bridgeAddress
        (receipt.innerActionStartIndex + BitVec.ofNat 32 offset) batch.actions[offset]) := by
    rw [padded, List.getD_eq_getElem?_getD, List.getElem?_map, hleafInput]
    rfl
  have hpresent : offset < ((innerActionInputs H settlement.chainId batch.bridgeAddress
      receipt.innerActionStartIndex 0 batch.actions).map H.keccak256).length := by
    rw [List.length_map, innerActionInputs_length]
    exact hoffset
  have hpairs : CollisionFree (fun p : Bytes32 × Bytes32 => hashNode H p.1 p.2)
      (pathPairs (hashNode H) (H.keccak256 leafInput) offset (List.ofFn siblings) ++
        treePairs (hashNode H) (List.ofFn siblings).length
          (padded 0 ((innerActionInputs H settlement.chainId batch.bridgeAddress
            receipt.innerActionStartIndex 0 batch.actions).map H.keccak256)) offset) := by
    apply hashNode_collisionFree H hcf
    intro string hstring
    rw [List.map_append] at hstring
    rcases List.mem_append.mp hstring with hpath | htree
    · exact List.mem_append_left _ (List.mem_cons_of_mem _ hpath)
    · rw [hlength] at htree
      apply List.mem_append_right
      rw [batchInputs, ← hstart]
      exact List.mem_append_right _ (treePairs_subset_rootInputs H _ offset hpresent htree)
  have hbound : offset < 2 ^ (List.ofFn siblings).length := by
    rw [hlength]
    exact lt_of_lt_of_le hoffset hcapacity
  have htree := haccepted.root_eq
  rw [← hlength] at htree
  have hsame := (path_binding hpairs hbound (hroot.trans htree)).1
  rw [hleaf] at hsame
  refine hcf leafInput ?_ _ ?_ hsame
  · exact List.mem_append_left _ List.mem_cons_self
  · apply List.mem_append_right
    rw [batchInputs, ← hstart]
    exact List.mem_append_left _ (List.mem_of_getElem? hleafInput)

/-- A verified claim of a deployment names an action of the accepted receipt's
witness, whose leaf string is the one the claim hashed. -/
theorem claim_committed (d : Deployment env W)
    (G : SettlementProver env d.settlement.verifier d.settlement.programVKey)
    (transactions : List Transaction) {claim : ClaimArguments} {leafInput : Bytes}
    {globalActionIndex : BitVec 32}
    (hcf : CollisionFree env.hashes.keccak256
      (pathStrings env.hashes leafInput claim.offset.toNat claim.merkleProof ++
        G.strings (settledReceipts (d.history transactions))))
    (hverified : ClaimVerified env (d.reached transactions) claim (env.hashes.keccak256 leafInput)
      globalActionIndex) :
    ∃ action chainId bridgeAddress index,
      CommittedAction G (settledReceipts (d.history transactions)) claim.settlementSequence
        claim.offset.toNat action ∧
      leafInput = innerActionInput env.hashes chainId bridgeAddress index action := by
  have hrecorded := reached_receipts d transactions
  obtain ⟨publicValues, hreceipt, decoded, hdecode, hversion, hsequence, hbatch⟩ :=
    hrecorded.batches claim.settlementSequence hverified.valid
  obtain ⟨proofBytes, hproved⟩ := hrecorded.proved publicValues hreceipt
  have hemitted := G.emits publicValues proofBytes hproved
  obtain ⟨witness, values, hwitness, hvalues, -, hdecoded⟩ :=
    settlementGuest_decoded env.hashes hemitted hdecode
  rw [hdecoded] at hversion
  obtain ⟨receipt, hreceiptBatch⟩ := batch_of_version hversion
  obtain ⟨hsettlement, hbatches⟩ := deriveReceiptValues_eq_ok env.hashes hvalues
  obtain ⟨batch, hwitnessBatch, haccepted⟩ := hbatches receipt hreceiptBatch
  obtain ⟨hrootEq, hcountEq, -⟩ := decoded_batch hreceiptBatch
  have hcount : decoded.innerActionCount.toNat = batch.actions.length := by
    rw [hdecoded, hcountEq]
    exact haccepted.count_eq
  have hoffset : claim.offset.toNat < batch.actions.length := by
    have hlt := hverified.offset_lt
    rw [hbatch] at hlt
    rw [← hcount]
    exact hlt
  have hroot : pathRoot (hashNode env.hashes) (env.hashes.keccak256 leafInput) claim.offset.toNat
      (List.ofFn claim.merkleProof) = receipt.innerActionRoot := by
    have hpath := hverified.root_eq
    rw [hbatch] at hpath
    rw [hpath, ← hrootEq, ← hdecoded]
    rfl
  have hsubset : batchInputs env.hashes values.settlement batch ⊆
      G.strings (settledReceipts (d.history transactions)) := by
    intro string hstring
    exact List.mem_flatMap.mpr ⟨publicValues, hreceipt,
      batchInputs_subset hwitness hsettlement hwitnessBatch hstring⟩
  have hleaf := path_of_batch haccepted hoffset (hcf.mono (by
    intro string hstring
    rcases List.mem_append.mp hstring with hpath | hguest
    · exact List.mem_append_left _ hpath
    · exact List.mem_append_right _ (hsubset hguest))) hroot
  refine ⟨batch.actions[claim.offset.toNat], _, _, _, ⟨publicValues, hreceipt, decoded, witness,
    batch, hdecode, ?_, hsequence, ?_, hwitness, hwitnessBatch, hcount.symm,
    List.getElem?_eq_getElem hoffset, haccepted.checked _ (List.getElem_mem hoffset)⟩, hleaf⟩
  · rw [hdecoded]
    exact hversion
  · intro other hother otherDecoded hotherDecode hotherSequence
    exact hrecorded.unique other hother publicValues hreceipt otherDecoded decoded hotherDecode
      hdecode (hotherSequence.trans hsequence.symm)

/-- A native leaf string is the leaf string of a native withdrawal only. -/
theorem native_of_input {chainId : BitVec 64} {bridgeAddress recipient : Address}
    {globalActionIndex index : BitVec 32} {amount : BitVec 64} {fieldsHash : Bytes32}
    {action : InnerActionWitnessV2}
    (h : nativeWithdrawalLeafInput env globalActionIndex recipient amount fieldsHash =
      innerActionInput env.hashes chainId bridgeAddress index action) :
    action.withdrawal = some ⟨recipient, amount⟩ ∧ action.tokenWithdrawal = none := by
  have hwords := h
  unfold innerActionInput at hwords
  cases hwithdrawal : action.withdrawal with
  | some withdrawal =>
    cases htoken : action.tokenWithdrawal with
    | some token =>
      rw [hwithdrawal, htoken] at hwords
      have hlist := abiEncode_injective hwords
      simp only [List.cons.injEq, reduceCtorEq, and_false] at hlist
    | none =>
      rw [hwithdrawal, htoken] at hwords
      have hlist := abiEncode_injective hwords
      simp only [List.cons.injEq, and_true, true_and] at hlist
      obtain ⟨-, -, -, hrecipient, hamount, -⟩ := hlist
      refine ⟨?_, rfl⟩
      rw [toWord_injective (by decide) hrecipient, toWord_injective (by decide) hamount]
  | none =>
    cases htoken : action.tokenWithdrawal with
    | some token =>
      rw [hwithdrawal, htoken] at hwords
      have hlist := abiEncode_injective hwords
      simp only [List.cons.injEq, reduceCtorEq, and_false] at hlist
    | none =>
      rw [hwithdrawal, htoken] at hwords
      have hlist := abiEncode_injective hwords
      simp only [List.cons.injEq, reduceCtorEq, and_false] at hlist

/-- A token leaf string is the leaf string of a token withdrawal only. -/
theorem token_of_input {chainId : BitVec 64} {bridgeAddress token recipient : Address}
    {globalActionIndex index registryIndex : BitVec 32} {recordCommitment assetId : Bytes32}
    {amount : BitVec 64} {fieldsHash : Bytes32} {action : InnerActionWitnessV2}
    (h : erc20WithdrawalLeafInput env globalActionIndex token registryIndex recordCommitment assetId
      recipient amount fieldsHash =
        innerActionInput env.hashes chainId bridgeAddress index action) :
    action.withdrawal = none ∧ ∃ withdrawal, action.tokenWithdrawal = some withdrawal ∧
      withdrawal.token = token ∧ withdrawal.registryIndex = registryIndex ∧
      withdrawal.recordCommitment = recordCommitment ∧ withdrawal.assetId = assetId ∧
      withdrawal.recipient = recipient ∧ withdrawal.amount = amount := by
  have hwords := h
  unfold innerActionInput at hwords
  cases hwithdrawal : action.withdrawal with
  | some withdrawal =>
    cases htoken : action.tokenWithdrawal with
    | some token =>
      rw [hwithdrawal, htoken] at hwords
      have hlist := abiEncode_injective hwords
      simp only [List.cons.injEq, reduceCtorEq, and_false] at hlist
    | none =>
      rw [hwithdrawal, htoken] at hwords
      have hlist := abiEncode_injective hwords
      simp only [List.cons.injEq, reduceCtorEq, and_false] at hlist
  | none =>
    cases htoken : action.tokenWithdrawal with
    | some withdrawal =>
      rw [hwithdrawal, htoken] at hwords
      have hlist := abiEncode_injective hwords
      simp only [List.cons.injEq, and_true, true_and] at hlist
      obtain ⟨-, -, -, htokenEq, -, hindex, hcommitment, hasset, hrecipient, hamount, -⟩ := hlist
      exact ⟨rfl, withdrawal, rfl, toWord_injective (by decide) htokenEq.symm,
        toWord_injective (by decide) hindex.symm, hcommitment.symm, hasset.symm,
        toWord_injective (by decide) hrecipient.symm, toWord_injective (by decide) hamount.symm⟩
    | none =>
      rw [hwithdrawal, htoken] at hwords
      have hlist := abiEncode_injective hwords
      simp only [List.cons.injEq, reduceCtorEq, and_false] at hlist

/-- Claim soundness. In every reachable state, for every claim with any siblings,
an accepted native claim names a native withdrawal to its recipient of its
amount at its offset in the witness of the accepted receipt with its sequence,
and an accepted token claim names a token withdrawal there with exactly the
token, the registry entry that the bridge holds for it, the recipient and the
amount. -/
theorem claims_sound (d : Deployment env W)
    (G : SettlementProver env d.settlement.verifier d.settlement.programVKey)
    (transactions : List Transaction) :
    (∀ ctx claim accepts next,
      CollisionFree env.hashes.keccak256 (nativeClaimStrings env (d.reached transactions) claim ++
        G.strings (settledReceipts (d.history transactions))) →
      claimNativeWithdrawal env (d.reached transactions) ctx claim accepts = .ok next →
      ∃ action, CommittedAction G (settledReceipts (d.history transactions))
          claim.settlementSequence claim.offset.toNat action ∧
        action.withdrawal = some ⟨claim.recipient, claim.amount⟩ ∧
        action.tokenWithdrawal = none) ∧
    (∀ ctx token claim next,
      CollisionFree env.hashes.keccak256
        (tokenClaimStrings env (d.reached transactions) token claim ++
          G.strings (settledReceipts (d.history transactions))) →
      claimERC20Withdrawal env (d.reached transactions) ctx token claim = .ok next →
      ∃ action withdrawal, CommittedAction G (settledReceipts (d.history transactions))
          claim.settlementSequence claim.offset.toNat action ∧
        action.withdrawal = none ∧ action.tokenWithdrawal = some withdrawal ∧
        withdrawal.token = token ∧
        withdrawal.registryIndex = (d.reached transactions).bridge.registryIndexByToken token ∧
        withdrawal.recordCommitment =
          (d.reached transactions).bridge.recordCommitmentByToken token ∧
        withdrawal.assetId = (d.reached transactions).bridge.assetIdByToken token ∧
        withdrawal.recipient = claim.recipient ∧ withdrawal.amount = claim.amount) := by
  constructor
  · intro ctx claim accepts next hcf hclaim
    obtain ⟨index, nextIndex, liability, total, hclaimed, -⟩ :=
      (claimNativeWithdrawal_eq_ok env).mp hclaim
    have hverified := hclaimed.verified
    have hindex := ClaimVerified.index hverified
    rw [hindex] at hverified
    obtain ⟨action, _, _, _, hcommitted, hinput⟩ :=
      claim_committed d G transactions hcf hverified
    obtain ⟨hwithdrawal, htoken⟩ := native_of_input hinput
    exact ⟨action, hcommitted, hwithdrawal, htoken⟩
  · intro ctx token claim next hcf hclaim
    obtain ⟨index, nextIndex, liability, total, tokens, hclaimed, -⟩ :=
      (claimERC20Withdrawal_eq_ok env).mp hclaim
    have hverified := hclaimed.verified
    have hindex := ClaimVerified.index hverified
    rw [hindex] at hverified
    obtain ⟨action, _, _, _, hcommitted, hinput⟩ :=
      claim_committed d G transactions hcf hverified
    obtain ⟨hnone, withdrawal, hsome, hrest⟩ := token_of_input hinput
    exact ⟨action, withdrawal, hcommitted, hnone, hsome, hrest⟩

/-- The verifier of the concrete deployment accepts only what the guest emits. -/
def settlementProver :
    SettlementProver environment deployment.settlement.verifier deployment.settlement.programVKey where
  V := picklesVerdict
  vkHash := vkHash
  emitter := fun _ => settlementInput
  emits := by
    intro publicValues proofBytes h
    have haccepted : (settlementVKey = settlementVKey ∧ publicValues = settlementReceipt) ∨
        (settlementVKey = bridgeVKey ∧ publicValues = bridgeReceipt) := of_decide_eq_true h
    rcases haccepted with ⟨-, rfl⟩ | ⟨hkey, -⟩
    · exact settlementGuest_emits
    · exact absurd hkey (by decide)

/-- The strings of the concrete native and token claims and of the guest do not
collide. -/
theorem claims_collisionFree :
    CollisionFree environment.hashes.keccak256
      (nativeClaimStrings environment (deployment.reached setup) firstClaim ++
        (tokenClaimStrings environment (deployment.reached setup) token tokenClaim ++
          settlementProver.strings (settledReceipts (deployment.history setup)))) :=
  collisionFree_of_digests (by decide +kernel)

/-- The concrete claims are accepted and name the withdrawals of the batch. -/
theorem claims_sound_setup :
    (∃ next, claimNativeWithdrawal environment (deployment.reached setup) claimant firstClaim true =
      .ok next) ∧
    (∃ action, CommittedAction settlementProver (settledReceipts (deployment.history setup)) 1 0
      action ∧ action.withdrawal = some ⟨recipient, 1⟩ ∧ action.tokenWithdrawal = none) ∧
    (∃ next, claimERC20Withdrawal environment (deployment.reached setup) claimant token tokenClaim =
      .ok next) ∧
    ∃ action withdrawal, CommittedAction settlementProver
        (settledReceipts (deployment.history setup)) 1 2 action ∧
      action.tokenWithdrawal = some withdrawal ∧ withdrawal.token = token ∧
      withdrawal.recipient = recipient ∧ withdrawal.amount = 3 := by
  have hsound := claims_sound deployment settlementProver setup
  have hnative := eq_ok_get firstClaim_open
  have htoken := eq_ok_get tokenClaim_open
  have hnativeStrings : CollisionFree environment.hashes.keccak256
      (nativeClaimStrings environment (deployment.reached setup) firstClaim ++
        settlementProver.strings (settledReceipts (deployment.history setup))) := by
    apply claims_collisionFree.mono
    intro string hstring
    rcases List.mem_append.mp hstring with hclaim | hguest
    · exact List.mem_append_left _ hclaim
    · exact List.mem_append_right _ (List.mem_append_right _ hguest)
  have htokenStrings := claims_collisionFree.mono (List.subset_append_right _ _)
  obtain ⟨action, withdrawal, hcommitted, -, hsome, htokenEq, -, -, -, hrecipient, hamount⟩ :=
    hsound.2 claimant token tokenClaim _ htokenStrings htoken
  exact ⟨⟨_, hnative⟩, hsound.1 claimant firstClaim true _ hnativeStrings hnative, ⟨_, htoken⟩,
    action, withdrawal, hcommitted, hsome, htokenEq, hrecipient, hamount⟩

end EthereumSettlement.ClaimSoundness
