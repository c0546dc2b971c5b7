import EthereumSettlement.ClaimSoundness

/-!
# Commitments of registered records

An activated token stores the Poseidon commitment of its record. The commitment
comes out of a settled receipt, either directly or through a leaf of a settled
record tree that the administrator opens. When the verifier accepts only receipts
of the settlement guest and no two strings hashed on either side collide, every
stored commitment is the canonical encoding of a field element. The zero slots of
a record tree count as the digest of no string.
-/

namespace EthereumSettlement.RecordCommitments

open ByteWords CheckedCalls HashCommitments TransitionRuns PastaPoseidon InnerActionCommitment
open RegistryCheckpoint SettlementCodec SettlementReceipt ZekoSettlement EthereumZekoBridge
open ZekoAssetRegistry BridgeSystem StepEffects RunInvariants SettledReceipts ClaimSoundness

section RecordTrees

variable {H : Hashes}

/-- Every slot of a placed level holds its old value or the leaf of a record with the
slot's index. -/
theorem placeRecords_getD {level placed : List Bytes32} {identities : List RecordIdentity}
    (h : placeRecords H level identities = .ok placed) (i : ℕ) :
    placed.getD i 0 = level.getD i 0 ∨ ∃ identity ∈ identities, identity.index.toNat = i ∧
      placed.getD i 0 = assetRecordBatchLeaf H identity.recordHash identity.recordCommitment := by
  induction identities generalizing level with
  | nil =>
    rw [placeRecords, pure_eq_ok] at h
    rw [h]
    exact Or.inl rfl
  | cons identity identities ih =>
    simp only [placeRecords, bind_eq_ok, require_eq_ok, exists_const] at h
    obtain ⟨hindex, hempty, hrest⟩ := h
    rcases ih hrest with hkept | ⟨other, hother, hslot, hleaf⟩
    · by_cases hi : identity.index.toNat = i
      · by_cases hlt : i < level.length
        · refine Or.inr ⟨identity, List.mem_cons_self, hi, ?_⟩
          rw [hkept, hi, List.getD_eq_getElem?_getD, List.getElem?_set_self hlt]
          rfl
        · have hout : level.set identity.index.toNat
              (assetRecordBatchLeaf H identity.recordHash identity.recordCommitment) = level := by
            apply List.set_eq_of_length_le
            omega
          rw [hout] at hkept
          exact Or.inl hkept
      · refine Or.inl ?_
        rw [hkept, List.getD_eq_getElem?_getD, List.getElem?_set_ne hi,
          ← List.getD_eq_getElem?_getD]
    · exact Or.inr ⟨other, List.mem_cons_of_mem _ hother, hslot, hleaf⟩

/-- Placing records keeps the width of the level. -/
theorem placeRecords_length {level placed : List Bytes32} {identities : List RecordIdentity}
    (h : placeRecords H level identities = .ok placed) : placed.length = level.length := by
  induction identities generalizing level with
  | nil =>
    rw [placeRecords, pure_eq_ok] at h
    rw [h]
  | cons identity identities ih =>
    simp only [placeRecords, bind_eq_ok, require_eq_ok, exists_const] at h
    rw [ih h.2.2, List.length_set]

/-- Every replayed append has a canonical commitment. -/
theorem validateRegistryAppends_canonical {checkpoint : AssetRegistryBatchCheckpointV4}
    {chainId : BitVec 64} {bridgeAddress : Address} {offset : ℕ} {runningRoot : Bytes32}
    {appends : List AssetRegistryAppendV1} {result : Bytes32 × List RecordIdentity}
    (h : validateRegistryAppends H checkpoint chainId bridgeAddress offset runningRoot appends =
      .ok result) : ∀ identity ∈ result.2, Canonical identity.recordCommitment := by
  induction appends generalizing offset runningRoot result with
  | nil =>
    rw [validateRegistryAppends, pure_eq_ok] at h
    rw [← h]
    exact fun identity hidentity => absurd hidentity List.not_mem_nil
  | cons append appends ih =>
    simp only [validateRegistryAppends, bind_eq_ok, require_eq_ok, exists_const, pure_eq_ok] at h
    obtain ⟨-, index, -, nextRoot, -, commitment, -, rest, hrest, rfl⟩ := h
    intro identity hidentity
    rcases List.mem_cons.mp hidentity with rfl | hlater
    · exact ⟨commitment, rfl⟩
    · exact ih hrest identity hlater

/-- What a receipt of the fourth version says about its record tree. -/
structure RecordTree (H : Hashes) (witness : SettlementWitnessV1) (root : Bytes32)
    (count : BitVec 32) (identities : List RecordIdentity) (level : List Bytes32) : Prop where
  /-- The records were replayed by the guest. -/
  validated : ∃ batch checkpoint, witness.innerActionBatch = some batch ∧
    witness.assetRegistryBatch = some checkpoint ∧
    validateRegistryBatch H checkpoint witness.context.chainId batch.bridgeAddress = .ok identities
  /-- The count does not exceed the slots. -/
  capacity : count.toNat ≤ maxAssetRecords
  /-- Their commitments are canonical. -/
  canonical : ∀ identity ∈ identities, Canonical identity.recordCommitment
  /-- Their leaves were placed into zero slots. -/
  placed : placeRecords H (List.replicate maxAssetRecords 0) identities = .ok level
  /-- The root is that of the complete tree over the slots. -/
  root_eq : root = treeRoot (assetRecordBatchNode H) assetRegistryTreeDepth (padded 0 level)

/-- A record root is the root of the complete tree over the placed leaves. -/
theorem assetRecordBatchRoot_eq_ok {identities : List RecordIdentity} {root : Bytes32}
    (h : assetRecordBatchRoot H identities = .ok root) :
    ∃ level, placeRecords H (List.replicate maxAssetRecords 0) identities = .ok level ∧
      root = treeRoot (assetRecordBatchNode H) assetRegistryTreeDepth (padded 0 level) := by
  simp only [assetRecordBatchRoot, bind_eq_ok, pure_eq_ok] at h
  obtain ⟨level, hplaced, hroot⟩ := h
  have hwidth := placeRecords_length hplaced
  rw [List.length_replicate] at hwidth
  have hlength : (climb (assetRecordBatchNode H) assetRegistryTreeDepth 0 level).length = 1 := by
    apply climb_length
    · rw [hwidth]
      decide
    · exact le_of_eq hwidth
  have htree := climb_root (assetRecordBatchNode H) assetRegistryTreeDepth 0 level
  obtain ⟨node, hnode⟩ := List.length_eq_one_iff.mp hlength
  refine ⟨level, hplaced, ?_⟩
  rw [← hroot, ← htree, hnode]
  rfl

/-- The guest's receipts of the third version carry a canonical commitment, those
of the fourth version a record tree of canonical commitments. -/
theorem deriveReceiptValues_records {appState : List StepField} {witness : SettlementWitnessV1}
    {vkHash : Bytes32} {values : SettlementPublicValues}
    (h : deriveReceiptValues H appState witness vkHash = .ok values) :
    (values.decoded.version = 3 → Canonical values.decoded.assetRecordCommitment) ∧
    (values.decoded.version = 4 → ∃ identities level,
      RecordTree H witness values.decoded.assetRecordBatchRoot values.decoded.assetRegistryCount
        identities level) := by
  rw [deriveReceiptValues, bind_eq_ok] at h
  obtain ⟨v1, -, hmatch⟩ := h
  dsimp only at hmatch
  split at hmatch
  · rw [pure_eq_ok] at hmatch
    subst hmatch
    exact ⟨fun h3 => absurd h3 (by change (1 : BitVec 16) ≠ 3; decide),
      fun h4 => absurd h4 (by change (1 : BitVec 16) ≠ 4; decide)⟩
  · simp only [bind_eq_ok, pure_eq_ok] at hmatch
    obtain ⟨v2, -, rfl⟩ := hmatch
    exact ⟨fun h3 => absurd h3 (by change (2 : BitVec 16) ≠ 3; decide),
      fun h4 => absurd h4 (by change (2 : BitVec 16) ≠ 4; decide)⟩
  · simp only [bind_eq_ok, require_eq_ok, exists_const, pure_eq_ok] at hmatch
    obtain ⟨u, -, -, -, -, -, v2, -, commitment, -, rfl⟩ := hmatch
    exact ⟨fun _ => ⟨commitment, rfl⟩,
      fun h4 => absurd h4 (by change (3 : BitVec 16) ≠ 4; decide)⟩
  · rename_i batch checkpoint hbatch _ hcheckpoint
    simp only [bind_eq_ok, pure_eq_ok] at hmatch
    obtain ⟨identities, hidentities, batchRoot, hroot, v2, -, rfl⟩ := hmatch
    refine ⟨fun h3 => absurd h3 (by change (4 : BitVec 16) ≠ 3; decide), fun _ => ?_⟩
    obtain ⟨level, hplaced, hrootEq⟩ := assetRecordBatchRoot_eq_ok hroot
    have happends := hidentities
    simp only [validateRegistryBatch, bind_eq_ok, require_eq_ok, exists_const, pure_eq_ok] at happends
    obtain ⟨-, -, -, -, count, -, -, hcapacity, result, hresult, -, rfl⟩ := happends
    exact ⟨result.2, level, ⟨batch, checkpoint, hbatch, hcheckpoint, hidentities⟩, hcapacity,
      validateRegistryAppends_canonical hresult, hplaced, hrootEq⟩
  all_goals exact absurd hmatch (by simp [throw_eq_ok])

/-- The strings hashed while a record is opened against a record root. -/
def openingStrings (H : Hashes) (recordHash recordCommitment : Bytes32) (index : ℕ)
    (siblings : Fin 8 → Bytes32) : List Bytes :=
  assetRecordBatchLeafInput H recordHash recordCommitment ::
    (pathPairs (assetRecordBatchNode H) (assetRecordBatchLeaf H recordHash recordCommitment) index
      (List.ofFn siblings)).map (assetRecordBatchNodeInput H)

/-- Node strings of a record tree determine both children. -/
theorem assetRecordBatchNodeInput_injective {p q : Bytes32 × Bytes32}
    (h : assetRecordBatchNodeInput H p = assetRecordBatchNodeInput H q) : p = q := by
  have hw := abiEncode_injective h
  simp only [List.cons.injEq, and_true, true_and] at hw
  exact Prod.ext hw.1 hw.2

/-- Leaf strings of a record tree determine the record and its commitment. -/
theorem assetRecordBatchLeafInput_injective {a b c d : Bytes32}
    (h : assetRecordBatchLeafInput H a b = assetRecordBatchLeafInput H c d) : a = c ∧ b = d := by
  have hw := abiEncode_injective h
  simpa only [List.cons.injEq, and_true, true_and] using hw

/-- The guest hashed every string of the record batch of its witness. -/
theorem recordBatchInputs_hashed {witness : SettlementWitnessV1} {batch : InnerActionBatchWitnessV2}
    {checkpoint : AssetRegistryBatchCheckpointV4} {V : PicklesVerdict} {vkHash : Bytes32}
    {input : SettlementGuestInput V} {v1 : SettlementPublicValuesV1}
    (hwitness : input.settlement = some witness)
    (hreceipt : deriveReceiptForAppState H (V.appState input.proof) witness vkHash = .ok v1)
    (hbatch : witness.innerActionBatch = some batch)
    (hcheckpoint : witness.assetRegistryBatch = some checkpoint) :
    ∀ string ∈ recordBatchInputs H checkpoint witness.context.chainId batch.bridgeAddress,
      string ∈ settlementGuestInputs H V vkHash input := by
  intro string hstring
  rw [settlementGuestInputs, hwitness]
  dsimp only
  rw [hreceipt, hbatch, hcheckpoint]
  exact List.mem_append_right _ hstring

/-- The guest hashed every leaf and every node string of a record tree. -/
theorem RecordTree.strings {witness : SettlementWitnessV1} {root : Bytes32} {count : BitVec 32}
    {identities : List RecordIdentity} {level : List Bytes32}
    (h : RecordTree H witness root count identities level) {V : PicklesVerdict} {vkHash : Bytes32}
    {input : SettlementGuestInput V} {v1 : SettlementPublicValuesV1}
    (hwitness : input.settlement = some witness)
    (hreceipt : deriveReceiptForAppState H (V.appState input.proof) witness vkHash = .ok v1) :
    (∀ identity ∈ identities, assetRecordBatchLeafInput H identity.recordHash
      identity.recordCommitment ∈ settlementGuestInputs H V vkHash input) ∧
    ∀ pair ∈ climbPairs (assetRecordBatchNode H) assetRegistryTreeDepth 0 level,
      assetRecordBatchNodeInput H pair ∈ settlementGuestInputs H V vkHash input := by
  obtain ⟨batch, checkpoint, hbatch, hcheckpoint, hvalidated⟩ := h.validated
  have hinputs := recordBatchInputs_hashed hwitness hreceipt hbatch hcheckpoint
  have hrecords : recordBatchInputs H checkpoint witness.context.chainId batch.bridgeAddress =
      checkpoint.appends.map (fun append => canonicalAssetRecordInput H append.record) ++
      (identities.map (fun identity =>
        assetRecordBatchLeafInput H identity.recordHash identity.recordCommitment) ++
      (climbPairs (assetRecordBatchNode H) assetRegistryTreeDepth 0 level).map
        (assetRecordBatchNodeInput H)) := by
    rw [recordBatchInputs, hvalidated]
    dsimp only
    rw [h.placed]
  rw [hrecords] at hinputs
  constructor
  · intro identity hidentity
    apply hinputs
    exact List.mem_append_right _ (List.mem_append_left _ (List.mem_map_of_mem hidentity))
  · intro pair hpair
    apply hinputs
    exact List.mem_append_right _ (List.mem_append_right _ (List.mem_map_of_mem hpair))

/-- A record opened against a guest's record root is one of the replayed records, at
its own index, unless strings collide or hash to the zero slot. -/
theorem opened_identity {witness : SettlementWitnessV1} {root : Bytes32} {count : BitVec 32}
    {identities : List RecordIdentity} {level : List Bytes32} {strings : List Bytes}
    {recordHash recordCommitment : Bytes32} {index : ℕ} {siblings : Fin 8 → Bytes32}
    (htree : RecordTree H witness root count identities level)
    (hleaves : ∀ identity ∈ identities,
      assetRecordBatchLeafInput H identity.recordHash identity.recordCommitment ∈ strings)
    (hnodes : ∀ pair ∈ climbPairs (assetRecordBatchNode H) assetRegistryTreeDepth 0 level,
      assetRecordBatchNodeInput H pair ∈ strings)
    (hcf : CollisionFreeFrom H.keccak256 0
      (openingStrings H recordHash recordCommitment index siblings ++ strings))
    (hindex : index < count.toNat)
    (hroot : pathRoot (assetRecordBatchNode H) (assetRecordBatchLeaf H recordHash recordCommitment)
      index (List.ofFn siblings) = root) :
    ∃ identity ∈ identities, identity.index.toNat = index ∧ identity.recordHash = recordHash ∧
      identity.recordCommitment = recordCommitment := by
  have hlength : (List.ofFn siblings).length = assetRegistryTreeDepth := List.length_ofFn
  have hslot : index < maxAssetRecords := lt_of_lt_of_le hindex htree.capacity
  have hwidth := placeRecords_length htree.placed
  rw [List.length_replicate] at hwidth
  have hpairs : CollisionFree (fun p : Bytes32 × Bytes32 => assetRecordBatchNode H p.1 p.2)
      (pathPairs (assetRecordBatchNode H) (assetRecordBatchLeaf H recordHash recordCommitment) index
        (List.ofFn siblings) ++
      treePairs (assetRecordBatchNode H) (List.ofFn siblings).length (padded 0 level) index) := by
    have hmem : ∀ pair ∈ pathPairs (assetRecordBatchNode H)
        (assetRecordBatchLeaf H recordHash recordCommitment) index (List.ofFn siblings) ++
        treePairs (assetRecordBatchNode H) (List.ofFn siblings).length (padded 0 level) index,
        assetRecordBatchNodeInput H pair ∈
          openingStrings H recordHash recordCommitment index siblings ++ strings := by
      intro pair hpair
      rcases List.mem_append.mp hpair with hpath | htreePair
      · exact List.mem_append_left _ (List.mem_cons_of_mem _ (List.mem_map_of_mem hpath))
      · rw [hlength] at htreePair
        apply List.mem_append_right
        exact hnodes pair (treePairs_subset_climbPairs _ _ 0 level index
          (by rw [hwidth]; exact hslot) htreePair)
    intro p hp q hq hsame
    exact assetRecordBatchNodeInput_injective (hcf.1 _ (hmem p hp) _ (hmem q hq) hsame)
  have hroots := hroot.trans htree.root_eq
  rw [← hlength] at hroots
  have hleaf := (path_binding hpairs (by rw [hlength]; exact hslot) hroots).1
  have hown : assetRecordBatchLeafInput H recordHash recordCommitment ∈
      openingStrings H recordHash recordCommitment index siblings ++ strings :=
    List.mem_append_left _ List.mem_cons_self
  rcases placeRecords_getD htree.placed index with hzero | ⟨identity, hidentity, hsame, hplaced⟩
  · have hempty : (List.replicate maxAssetRecords (0 : Bytes32)).getD index 0 = 0 := by
      rw [List.getD_eq_getElem?_getD, List.getElem?_replicate_of_lt hslot]
      rfl
    rw [hempty] at hzero
    exact absurd (hleaf.trans hzero) (hcf.2 _ hown)
  · have hinput := hcf.1 _ hown _ (List.mem_append_right _ (hleaves identity hidentity))
      (hleaf.trans hplaced)
    obtain ⟨hhash, hcommitment⟩ := assetRecordBatchLeafInput_injective hinput
    exact ⟨identity, hidentity, hsame, hhash.symm, hcommitment.symm⟩

end RecordTrees

variable {env : Environment} {W : TokenWorld}

/-- The strings hashed by the activation of a record from a batch. -/
def activationStrings (env : Environment) (entry : Chain W × Transaction) : List Bytes :=
  match entry.2.call with
  | .activateAssetFromBatch token _ recordCommitment siblings =>
    openingStrings env.hashes (hashAssetRecord env (entry.1.registry.assetRecordByToken token))
      recordCommitment (entry.1.registry.assetRecordByToken token).registryIndex.toNat siblings
  | _ => []

/-- Every registered token stores a canonical commitment. -/
def CommitmentsCanonical (c : Chain W) : Prop :=
  ∀ token, c.bridge.canonicalTokenRegistered token = true →
    Canonical (c.bridge.recordCommitmentByToken token)

/-- The commitment of an activated record is canonical. -/
theorem activated_canonical {verifier : Address} {programVKey : Bytes32}
    (G : SettlementProver env verifier programVKey) (tx : Transaction) {receipts : List Bytes}
    {c next : Chain W} {token : Address} {recordCommitment : Bytes32}
    (hrecorded : ReceiptsRecorded env verifier programVKey receipts c.settlement)
    (hcf : CollisionFreeFrom env.hashes.keccak256 0
      (activationStrings env (c, tx) ++ G.strings receipts))
    (hactivated : AssetActivated env c tx.call token recordCommitment next) :
    Canonical recordCommitment := by
  have hcommitted := hactivated.committed
  generalize hcall : tx.call = call at hcommitted
  cases hcommitted with
  | single settled commitment_eq =>
    obtain ⟨publicValues, hreceipt, decoded, hdecode, hversion, -, hstored⟩ :=
      hrecorded.records _ settled
    obtain ⟨proofBytes, hproved⟩ := hrecorded.proved publicValues hreceipt
    obtain ⟨witness, values, -, hvalues, -, hdecoded⟩ :=
      settlementGuest_decoded env.hashes (G.emits publicValues proofBytes hproved) hdecode
    rw [hdecoded] at hversion hstored
    rw [commitment_eq, hstored]
    exact (deriveReceiptValues_records hvalues).1 hversion
  | @batch settlementSequence siblings valid index_lt root_eq =>
    obtain ⟨publicValues, hreceipt, decoded, hdecode, hversion, -, hbatch⟩ :=
      hrecorded.recordBatches _ valid
    obtain ⟨proofBytes, hproved⟩ := hrecorded.proved publicValues hreceipt
    obtain ⟨witness, values, hwitness, hvalues, -, hdecoded⟩ :=
      settlementGuest_decoded env.hashes (G.emits publicValues proofBytes hproved) hdecode
    have hv1 := (deriveReceiptValues_eq_ok env.hashes hvalues).1
    rw [hdecoded] at hversion hbatch
    obtain ⟨identities, level, htree⟩ := (deriveReceiptValues_records hvalues).2 hversion
    obtain ⟨hleaves, hnodes⟩ := htree.strings hwitness hv1
    have hguest : ∀ string ∈ settlementGuestInputs env.hashes G.V G.vkHash (G.emitter publicValues),
        string ∈ G.strings receipts := fun string hstring =>
      List.mem_flatMap.mpr ⟨publicValues, hreceipt, hstring⟩
    have hopening : activationStrings env (c, tx) = openingStrings env.hashes
        (hashAssetRecord env (c.registry.assetRecordByToken token)) recordCommitment
        (c.registry.assetRecordByToken token).registryIndex.toNat siblings := by
      rw [activationStrings, hcall]
    rw [hopening] at hcf
    rw [hbatch] at index_lt root_eq
    obtain ⟨identity, hidentity, -, -, hopened⟩ := opened_identity htree
      (fun identity hidentity => hguest _ (hleaves identity hidentity))
      (fun pair hpair => hguest _ (hnodes pair hpair)) hcf index_lt root_eq
    rw [← hopened]
    exact htree.canonical identity hidentity

/-- A transaction that keeps the registered tokens keeps their commitments. -/
theorem CommitmentsCanonical.of_eq {c next : Chain W} (h : CommitmentsCanonical c)
    (hregistered : next.bridge.canonicalTokenRegistered = c.bridge.canonicalTokenRegistered)
    (hcommitments : next.bridge.recordCommitmentByToken = c.bridge.recordCommitmentByToken) :
    CommitmentsCanonical next := by
  rw [CommitmentsCanonical, hregistered, hcommitments]
  exact h

/-- One transaction keeps the commitments canonical, if the commitment that it
activates is. -/
theorem commitmentsCanonical_of_effect {c next : Chain W} {ctx : CallContext} {call : Call}
    (hc : CommitmentsCanonical c) (hactivated : ∀ token recordCommitment,
      AssetActivated env c call token recordCommitment next → Canonical recordCommitment)
    (h : Effect env c ctx call next) : CommitmentsCanonical next := by
  cases h with
  | administer _ administered =>
    obtain ⟨_, _, _, hbridge⟩ := administered.bridge_eq
    apply hc.of_eq <;> rw [hbridge]
  | settle => exact hc.of_eq rfl rfl
  | append => exact hc.of_eq rfl rfl
  | transition _ transitioned =>
    apply hc.of_eq <;> simp only [transitioned.bridge_eq, afterTransition]
  | nativeDeposit => exact hc.of_eq rfl rfl
  | tokenDeposit => exact hc.of_eq rfl rfl
  | nativeClaim => exact hc.of_eq rfl rfl
  | tokenClaim => exact hc.of_eq rfl rfl
  | etherRescue => exact hc.of_eq rfl rfl
  | tokenRescue => exact hc.of_eq rfl rfl
  | propose proposed => apply hc.of_eq <;> rw [proposed.bridge_eq]
  | cancel cancelled => apply hc.of_eq <;> rw [cancelled.bridge_eq]
  | @activate _ token recordCommitment _ _ activated =>
    have hcommitment := hactivated token recordCommitment activated
    intro other hregistered
    rw [activated.bridge_eq] at hregistered ⊢
    simp only [afterActivation] at hregistered ⊢
    by_cases hother : other = (c.registry.assetRecordByToken token).ethereumToken
    · rw [hother, Function.update_self]
      exact hcommitment
    · rw [Function.update_of_ne hother] at hregistered ⊢
      exact hc other hregistered
  | status changed =>
    obtain ⟨_, hbridge⟩ := changed.bridge_eq
    apply hc.of_eq <;> rw [hbridge]
  | tokenTransfer => exact hc.of_eq rfl rfl
  | etherForced => exact hc.of_eq rfl rfl

/-- The strings hashed by the activations of a history. -/
def activationsStrings (env : Environment) (history : List (Chain W × Transaction)) : List Bytes :=
  history.flatMap (activationStrings env)

/-- Every stored commitment of a run is canonical. -/
theorem reached_commitmentsCanonical (d : Deployment env W)
    (G : SettlementProver env d.settlement.verifier d.settlement.programVKey)
    (transactions : List Transaction)
    (hcf : CollisionFreeFrom env.hashes.keccak256 0
      (activationsStrings env (d.history transactions) ++
        G.strings (settledReceipts (d.history transactions)))) :
    CommitmentsCanonical (d.reached transactions) := by
  have hQ : ∀ entry ∈ d.history transactions, ∀ next token recordCommitment,
      AssetActivated env entry.1 entry.2.call token recordCommitment next →
        Canonical recordCommitment := by
    intro entry hentry next token recordCommitment hactivated
    obtain ⟨before, hreached, hsubset⟩ := history_split d hentry
    have hrecorded := reached_receipts d before
    rw [← hreached] at hrecorded
    refine activated_canonical G entry.2 hrecorded (hcf.mono ?_) hactivated
    intro string hstring
    rcases List.mem_append.mp hstring with hown | hguest
    · exact List.mem_append_left _ (List.mem_flatMap.mpr ⟨entry, hentry, hown⟩)
    · obtain ⟨publicValues, hreceipt, hinput⟩ := List.mem_flatMap.mp hguest
      obtain ⟨earlier, hearlier, hcall⟩ := List.mem_filterMap.mp hreceipt
      exact List.mem_append_right _ (List.mem_flatMap.mpr ⟨publicValues,
        List.mem_filterMap.mpr ⟨earlier, hsubset hearlier, hcall⟩, hinput⟩)
  apply reached_induction d (J := fun _ c => CommitmentsCanonical c) ?_ ?_ hQ
  · obtain ⟨_, _, hbridge⟩ := d.initialized.bridge_eq
    intro token hregistered
    rw [hbridge] at hregistered
    cases hregistered
  · intro history c tx next hc hactivated heffect
    exact commitmentsCanonical_of_effect hc (fun token recordCommitment =>
      hactivated next token recordCommitment) heffect

end EthereumSettlement.RecordCommitments
