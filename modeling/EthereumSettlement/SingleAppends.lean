import EthereumSettlement.ReferenceDeployment

/-!
# One append under either checkpoint version

A third-version checkpoint carries one record with the Keccak hash of it, a
fourth-version one carries a list of records. Both validators are read here as one
relation between a checkpoint and the commitment of its record, so a checkpoint of
the third version is accepted exactly when the batch of its one append is, with the
same root, count and commitment in the receipt.
-/

namespace EthereumSettlement.SingleAppends

open ByteWords CheckedCalls HashCommitments PastaPoseidon InnerActionCommitment
open RegistryCheckpoint SettlementCodec SettlementReceipt ReferenceHashes ReferenceDeployment

/-- The batch of the one append of a checkpoint. -/
def singleBatch (checkpoint : AssetRegistryCheckpointV3) : AssetRegistryBatchCheckpointV4 where
  checkpointVersion := checkpoint.checkpointVersion
  registryPublicKey := checkpoint.registryPublicKey
  root := checkpoint.root
  count := checkpoint.count
  schemaVersion := checkpoint.schemaVersion
  oldRoot := checkpoint.oldRoot
  oldCount := checkpoint.oldCount
  appends := [⟨checkpoint.record, checkpoint.appendPath⟩]

/-- The same witness with the batch in place of the checkpoint. -/
def batchWitness (witness : SettlementWitnessV1) (checkpoint : AssetRegistryCheckpointV3) :
    SettlementWitnessV1 :=
  { witness with
    assetRegistryCheckpoint := none
    assetRegistryBatch := some (singleBatch checkpoint) }

/-- The registry part of a third-version receipt in `derive_receipt_bytes`: the
transition with the assertions around it, up to the record commitment. -/
def acceptCheckpoint (H : Hashes) (checkpoint : AssetRegistryCheckpointV3) (chainId : BitVec 64)
    (bridgeAddress : Address) : Except String Bytes32 := do
  validateRegistryTransition H checkpoint chainId bridgeAddress
  require (checkpoint.root ≠ 0) "asset registry root is zero"
  require (0 < checkpoint.count) "asset registry count is zero"
  require (checkpoint.schemaVersion = 1) "unsupported asset registry schema"
  require (checkpoint.recordHash ≠ 0) "asset registry record hash is zero"
  let commitment ← hashRegistryRecordLeaf H checkpoint.record
  pure (fieldToBytes commitment)

/-- What either validator asks of one append, with the commitment of its record. -/
structure AppendAccepted (H : Hashes) (checkpoint : AssetRegistryCheckpointV3) (chainId : BitVec 64)
    (bridgeAddress : Address) (commitment : Bytes32) : Prop where
  /-- The path has eight levels. -/
  depth : checkpoint.appendPath.length = 8
  /-- The checkpoint has the first schema. -/
  schema : checkpoint.schemaVersion = 1
  /-- So has the record. -/
  recordSchema : checkpoint.record.schemaVersion = checkpoint.schemaVersion
  /-- It stands at the old count. -/
  indexed : checkpoint.record.registryIndex = checkpoint.oldCount
  /-- The count grows by one. -/
  counted : checkpoint.count.toNat = checkpoint.oldCount.toNat + 1
  /-- It stays within the tree. -/
  capacity : checkpoint.count.toNat ≤ maxAssetRecords
  /-- The record is canonical. -/
  canonical : validateCanonicalAssetRecord H checkpoint.record chainId bridgeAddress = .ok ()
  /-- The new root is set. -/
  root_ne : checkpoint.root ≠ 0
  /-- The path opens an empty slot of the old root, and the leaf in it gives the new one. -/
  replayed : ∃ oldRoot leaf newRoot,
    registryImpliedRoot H 0 checkpoint.oldCount.toNat checkpoint.appendPath = .ok oldRoot ∧
    fieldToBytes oldRoot = checkpoint.oldRoot ∧
    hashRegistryRecordLeaf H checkpoint.record = .ok leaf ∧
    registryImpliedRoot H leaf checkpoint.oldCount.toNat checkpoint.appendPath = .ok newRoot ∧
    fieldToBytes newRoot = checkpoint.root ∧ fieldToBytes leaf = commitment

section Validators

variable {H : Hashes} {checkpoint : AssetRegistryCheckpointV3} {chainId : BitVec 64}
variable {bridgeAddress : Address}

/-- A count is one more than another without overflow. -/
theorem counted_iff {text : String} {count oldCount : BitVec 32} :
    checkedAddU32 text oldCount 1 = .ok count ↔ count.toNat = oldCount.toNat + 1 :=
  checkedAdd_eq_ok

/-- The third-version path accepts exactly the appends that carry the hash of their record. -/
theorem acceptCheckpoint_eq_ok {commitment : Bytes32} :
    acceptCheckpoint H checkpoint chainId bridgeAddress = .ok commitment ↔
      AppendAccepted H checkpoint chainId bridgeAddress commitment ∧
        hashCanonicalAssetRecord H checkpoint.record = checkpoint.recordHash ∧
        checkpoint.recordHash ≠ 0 := by
  simp only [acceptCheckpoint, validateRegistryTransition, bind_eq_ok, require_eq_ok, exists_const,
    pure_eq_ok]
  constructor
  · rintro ⟨⟨hdepth, hone, hschema, hindexed, next, hnext, hcount, hcapacity, u, hcanonical, hhash,
      oldRoot, hold, hsame, leaf, hleaf, newRoot, hnew, hroot⟩, hroot_ne, -, hfirst, hhash_ne, again,
      hagain, hcommitment⟩
    rw [hindexed] at hold hnew
    have heq : leaf = again := Except.ok.inj (hleaf.symm.trans hagain)
    subst heq
    exact ⟨⟨hdepth, hfirst, hschema, hindexed, hcount ▸ counted_iff.mp hnext, hcapacity, hcanonical,
      hroot_ne, oldRoot, leaf, newRoot, hold, hsame, hleaf, hnew, hroot, hcommitment⟩, hhash, hhash_ne⟩
  · rintro ⟨h, hhash, hhash_ne⟩
    obtain ⟨oldRoot, leaf, newRoot, hold, hsame, hleaf, hnew, hroot, hcommitment⟩ := h.replayed
    have hpositive : 0 < checkpoint.count := by
      have hcounted := h.counted
      have hlt : (0 : BitVec 32).toNat < checkpoint.count.toNat := by
        rw [hcounted]
        exact Nat.succ_pos _
      exact BitVec.lt_def.mpr hlt
    rw [← h.indexed] at hold hnew
    exact ⟨⟨h.depth, h.recordSchema.trans h.schema, h.recordSchema, h.indexed, checkpoint.count,
      counted_iff.mpr h.counted, rfl, h.capacity, (), h.canonical, hhash, oldRoot, hold, hsame, leaf,
      hleaf, newRoot, hnew, hroot⟩, h.root_ne, hpositive, h.schema, hhash_ne, leaf, hleaf, hcommitment⟩

/-- The fourth-version path accepts exactly these appends, and identifies their one record. -/
theorem validateRegistryBatch_single {identities : List RecordIdentity} :
    validateRegistryBatch H (singleBatch checkpoint) chainId bridgeAddress = .ok identities ↔
      ∃ commitment, AppendAccepted H checkpoint chainId bridgeAddress commitment ∧
        identities = [⟨checkpoint.oldCount, hashCanonicalAssetRecord H checkpoint.record,
          commitment⟩] := by
  have hstart : ∀ index, checkedAddU32 "asset registry index overflow" checkpoint.oldCount
      (BitVec.ofNat 32 0) = .ok index ↔ index = checkpoint.oldCount := by
    intro index
    rw [checkedAddU32, checkedAdd_eq_ok, BitVec.toNat_ofNat, Nat.zero_mod, Nat.add_zero]
    exact BitVec.toNat_inj
  simp only [validateRegistryBatch, bind_eq_ok, require_eq_ok, exists_const, pure_eq_ok]
  simp only [singleBatch, validateRegistryAppends, validateRegistryAppend, bind_eq_ok, require_eq_ok,
    exists_const, pure_eq_ok, hstart]
  constructor
  · rintro ⟨hschema, hroot_ne, -, -, next, hnext, hcount, hcapacity, _, ⟨-, _, rfl, _, ⟨hdepth,
      hrecordSchema, hindexed, u, hcanonical, oldRoot, hold, hsame, leaf, hleaf, newRoot, hnew, rfl⟩,
      again, hagain, _, rfl, rfl⟩, hroot, rfl⟩
    have heq : leaf = again := Except.ok.inj (hleaf.symm.trans hagain)
    subst heq
    exact ⟨_, ⟨hdepth, hschema, hrecordSchema, hindexed, hcount ▸ counted_iff.mp hnext, hcapacity,
      hcanonical, hroot_ne, oldRoot, leaf, newRoot, hold, hsame, hleaf, hnew, hroot, rfl⟩, rfl⟩
  · rintro ⟨commitment, h, rfl⟩
    obtain ⟨oldRoot, leaf, newRoot, hold, hsame, hleaf, hnew, hroot, rfl⟩ := h.replayed
    have hone : 1 ≤ maxAssetRecords := by decide
    exact ⟨h.schema, h.root_ne, List.cons_ne_nil _ _, hone, checkpoint.count,
      counted_iff.mpr h.counted, rfl, h.capacity, _, ⟨by decide, _, rfl, _, ⟨h.depth, h.recordSchema,
      h.indexed, (), h.canonical, oldRoot, hold, hsame, leaf, hleaf, newRoot, hnew, rfl⟩, leaf, hleaf,
      _, rfl, rfl⟩, hroot, rfl⟩

/-- A registry checkpoint and its batch ask the same of the authenticated child calls. -/
theorem checkRegistryBinding_batch {witness : SettlementWitnessV1} {calls : StepField} {u : Unit}
    (hcheckpoint : witness.assetRegistryCheckpoint = some checkpoint)
    (hbatch : witness.assetRegistryBatch = none) :
    checkRegistryBinding H (batchWitness witness checkpoint) calls = .ok u ↔
      checkRegistryBinding H witness calls = .ok u := by
  have hchecked : witness.assetRegistryCheckpoint.isSome ∨ witness.assetRegistryBatch.isSome :=
    Or.inl (by rw [hcheckpoint]; rfl)
  have hbatched : (batchWitness witness checkpoint).assetRegistryCheckpoint.isSome ∨
      (batchWitness witness checkpoint).assetRegistryBatch.isSome := Or.inr rfl
  unfold checkRegistryBinding
  rw [if_pos hchecked, if_pos hbatched, hcheckpoint, hbatch]
  simp only [batchWitness, singleBatch, bind_eq_ok, require_eq_ok, exists_const, pure_eq_ok, and_true]

/-- The settlement part of the receipt does not depend on the version. -/
theorem deriveReceiptForAppState_batch {appState : List StepField} {witness : SettlementWitnessV1}
    {vkHash : Bytes32} {values : SettlementPublicValuesV1}
    (hcheckpoint : witness.assetRegistryCheckpoint = some checkpoint)
    (hbatch : witness.assetRegistryBatch = none) :
    deriveReceiptForAppState H appState (batchWitness witness checkpoint) vkHash = .ok values ↔
      deriveReceiptForAppState H appState witness vkHash = .ok values := by
  unfold deriveReceiptForAppState
  simp only [bind_eq_ok, checkRegistryBinding_batch hcheckpoint hbatch]
  exact Iff.rfl

/-- One record of the tree has a batch root. -/
theorem assetRecordBatchRoot_single {identity : RecordIdentity}
    (h : identity.index.toNat < maxAssetRecords) : Succeeds (assetRecordBatchRoot H [identity]) := by
  have hslot : (List.replicate maxAssetRecords (0 : Bytes32)).getD identity.index.toNat 0 = 0 := by
    rw [List.getD_eq_getElem?_getD, List.getElem?_replicate, if_pos h, Option.getD_some]
  simp only [assetRecordBatchRoot, placeRecords, succeeds_bind, bind_eq_ok, require_eq_ok,
    exists_const, pure_eq_ok, succeeds_pure, and_true]
  exact ⟨_, h, hslot, rfl⟩

/-- A third-version receipt is the settlement with its inner actions and an accepted checkpoint. -/
theorem deriveReceiptValues_checkpoint {appState : List StepField} {witness : SettlementWitnessV1}
    {vkHash : Bytes32} {values : SettlementPublicValues}
    (hcheckpoint : witness.assetRegistryCheckpoint = some checkpoint)
    (hbatch : witness.assetRegistryBatch = none) :
    deriveReceiptValues H appState witness vkHash = .ok values ↔
      ∃ v1 batch v2 commitment, deriveReceiptForAppState H appState witness vkHash = .ok v1 ∧
        witness.innerActionBatch = some batch ∧
        acceptCheckpoint H checkpoint witness.context.chainId batch.bridgeAddress = .ok commitment ∧
        deriveV2Receipt H v1 batch = .ok v2 ∧
        values = .v3 ⟨v2, checkpoint.root, checkpoint.count, checkpoint.schemaVersion,
          checkpoint.recordHash, commitment⟩ := by
  rw [deriveReceiptValues, bind_eq_ok, hcheckpoint, hbatch]
  cases hinner : witness.innerActionBatch with
  | none => simp [throw_eq_ok]
  | some batch =>
    simp only [acceptCheckpoint, bind_eq_ok, require_eq_ok, exists_const, pure_eq_ok,
      Option.some.injEq, exists_and_left, exists_eq_left']
    constructor
    · rintro ⟨v1, hv1, u, htransition, hroot, hcount, hschema, hhash, v2, hv2, leaf, hleaf, rfl⟩
      exact ⟨v1, hv1, v2, _, ⟨u, htransition, hroot, hcount, hschema, hhash, leaf, hleaf, rfl⟩, hv2,
        rfl⟩
    · rintro ⟨v1, hv1, v2, commitment, ⟨u, htransition, hroot, hcount, hschema, hhash, leaf, hleaf,
        rfl⟩, hv2, rfl⟩
      exact ⟨v1, hv1, u, htransition, hroot, hcount, hschema, hhash, v2, hv2, leaf, hleaf, rfl⟩

/-- A fourth-version receipt of the batch is the same settlement with an accepted batch. -/
theorem deriveReceiptValues_batch {appState : List StepField} {witness : SettlementWitnessV1}
    {vkHash : Bytes32} {values : SettlementPublicValues}
    (hcheckpoint : witness.assetRegistryCheckpoint = some checkpoint)
    (hbatch : witness.assetRegistryBatch = none) :
    deriveReceiptValues H appState (batchWitness witness checkpoint) vkHash = .ok values ↔
      ∃ v1 batch v2 identities batchRoot,
        deriveReceiptForAppState H appState witness vkHash = .ok v1 ∧
        witness.innerActionBatch = some batch ∧
        validateRegistryBatch H (singleBatch checkpoint) witness.context.chainId
          batch.bridgeAddress = .ok identities ∧
        assetRecordBatchRoot H identities = .ok batchRoot ∧ deriveV2Receipt H v1 batch = .ok v2 ∧
        values = .v4 ⟨v2, checkpoint.root, checkpoint.count, checkpoint.schemaVersion, batchRoot,
          BitVec.ofNat 32 identities.length⟩ := by
  have hinner : (batchWitness witness checkpoint).innerActionBatch = witness.innerActionBatch := rfl
  have hnone : (batchWitness witness checkpoint).assetRegistryCheckpoint = none := rfl
  have hsome : (batchWitness witness checkpoint).assetRegistryBatch = some (singleBatch checkpoint) :=
    rfl
  have hchain : (batchWitness witness checkpoint).context.chainId = witness.context.chainId := rfl
  rw [deriveReceiptValues, bind_eq_ok, hinner, hnone, hsome, hchain]
  simp only [deriveReceiptForAppState_batch hcheckpoint hbatch]
  cases hinner : witness.innerActionBatch with
  | none => simp [throw_eq_ok]
  | some batch =>
    simp only [bind_eq_ok, pure_eq_ok, Option.some.injEq, exists_and_left, exists_eq_left']
    constructor
    · rintro ⟨v1, hv1, identities, hidentities, batchRoot, hroot, v2, hv2, rfl⟩
      exact ⟨v1, hv1, v2, identities, hidentities, batchRoot, hroot, hv2, rfl⟩
    · rintro ⟨v1, hv1, v2, identities, hidentities, batchRoot, hroot, hv2, rfl⟩
      exact ⟨v1, hv1, identities, hidentities, batchRoot, hroot, v2, hv2, rfl⟩

/-- Under the non-zero hash of its record, a checkpoint is accepted exactly when the batch of its
one append is, with the same record commitment. -/
theorem acceptCheckpoint_iff (hhash : checkpoint.recordHash = hashCanonicalAssetRecord H checkpoint.record)
    (hnonzero : checkpoint.recordHash ≠ 0) {identities : List RecordIdentity} :
    validateRegistryBatch H (singleBatch checkpoint) chainId bridgeAddress = .ok identities ↔
      ∃ commitment, acceptCheckpoint H checkpoint chainId bridgeAddress = .ok commitment ∧
        identities = [⟨checkpoint.oldCount, checkpoint.recordHash, commitment⟩] := by
  rw [validateRegistryBatch_single, ← hhash]
  simp only [acceptCheckpoint_eq_ok, ← hhash, hnonzero, ne_eq, not_false_eq_true, and_true]

end Validators

/-- For every witness with a registry checkpoint that carries the non-zero hash of its record: the
third-version path accepts the checkpoint exactly when the fourth-version path accepts the batch of
its one append, whose only identity has the same hash and commitment, and the guest emits a receipt
for the one witness exactly when it does for the other, with the same settlement, registry root and
count, and the batch root of that one record. -/
theorem single_append_agrees (H : Hashes) (appState : List StepField)
    (witness : SettlementWitnessV1) (vkHash : Bytes32) (checkpoint : AssetRegistryCheckpointV3)
    (hcheckpoint : witness.assetRegistryCheckpoint = some checkpoint)
    (hbatch : witness.assetRegistryBatch = none)
    (hhash : checkpoint.recordHash = hashCanonicalAssetRecord H checkpoint.record)
    (hnonzero : checkpoint.recordHash ≠ 0) :
    (∀ chainId bridgeAddress identities,
      validateRegistryBatch H (singleBatch checkpoint) chainId bridgeAddress = .ok identities ↔
        ∃ commitment, acceptCheckpoint H checkpoint chainId bridgeAddress = .ok commitment ∧
          identities = [⟨checkpoint.oldCount, checkpoint.recordHash, commitment⟩]) ∧
    (Succeeds (deriveReceiptValues H appState witness vkHash) ↔
      Succeeds (deriveReceiptValues H appState (batchWitness witness checkpoint) vkHash)) ∧
    ∀ values, deriveReceiptValues H appState witness vkHash = .ok values →
      ∃ settlement commitment batchRoot,
        values = .v3 ⟨settlement, checkpoint.root, checkpoint.count, checkpoint.schemaVersion,
          checkpoint.recordHash, commitment⟩ ∧
        assetRecordBatchRoot H [⟨checkpoint.oldCount, checkpoint.recordHash, commitment⟩] =
          .ok batchRoot ∧
        deriveReceiptValues H appState (batchWitness witness checkpoint) vkHash =
          .ok (.v4 ⟨settlement, checkpoint.root, checkpoint.count, checkpoint.schemaVersion,
            batchRoot, 1⟩) := by
  have hboth : ∀ values, deriveReceiptValues H appState witness vkHash = .ok values →
      ∃ settlement commitment batchRoot,
        values = .v3 ⟨settlement, checkpoint.root, checkpoint.count, checkpoint.schemaVersion,
          checkpoint.recordHash, commitment⟩ ∧
        assetRecordBatchRoot H [⟨checkpoint.oldCount, checkpoint.recordHash, commitment⟩] =
          .ok batchRoot ∧
        deriveReceiptValues H appState (batchWitness witness checkpoint) vkHash =
          .ok (.v4 ⟨settlement, checkpoint.root, checkpoint.count, checkpoint.schemaVersion,
            batchRoot, 1⟩) := by
    intro values h
    obtain ⟨v1, batch, v2, commitment, hv1, hinner, haccept, hv2, rfl⟩ :=
      (deriveReceiptValues_checkpoint hcheckpoint hbatch).mp h
    obtain ⟨haccepted, -⟩ := acceptCheckpoint_eq_ok.mp haccept
    have hindex : checkpoint.oldCount.toNat < maxAssetRecords := by
      have hcounted := haccepted.counted
      have hcapacity := haccepted.capacity
      omega
    have hplaced : Succeeds (assetRecordBatchRoot H
        [⟨checkpoint.oldCount, checkpoint.recordHash, commitment⟩]) :=
      assetRecordBatchRoot_single hindex
    obtain ⟨batchRoot, hroot⟩ := hplaced
    refine ⟨v2, commitment, batchRoot, rfl, hroot, ?_⟩
    have hidentities := (acceptCheckpoint_iff hhash hnonzero).mpr ⟨commitment, haccept, rfl⟩
    exact (deriveReceiptValues_batch hcheckpoint hbatch).mpr
      ⟨v1, batch, v2, _, batchRoot, hv1, hinner, hidentities, hroot, hv2, rfl⟩
  refine ⟨fun chainId bridgeAddress identities => acceptCheckpoint_iff hhash hnonzero, ?_, hboth⟩
  constructor
  · rintro ⟨values, h⟩
    obtain ⟨_, _, _, _, _, hbatched⟩ := hboth values h
    exact ⟨_, hbatched⟩
  · rintro ⟨values, h⟩
    obtain ⟨v1, batch, v2, identities, batchRoot, hv1, hinner, hidentities, -, hv2, -⟩ :=
      (deriveReceiptValues_batch hcheckpoint hbatch).mp h
    obtain ⟨commitment, haccept, -⟩ := (acceptCheckpoint_iff hhash hnonzero).mp hidentities
    exact ⟨_, (deriveReceiptValues_checkpoint hcheckpoint hbatch).mpr
      ⟨v1, batch, v2, commitment, hv1, hinner, haccept, hv2, rfl⟩⟩

/-- The checkpoint of the settled receipt has the hash of its record. -/
theorem checkpoint_recordHash :
    checkpoint.recordHash = hashCanonicalAssetRecord referenceHashes checkpoint.record := by
  decide +kernel

/-- The settled receipt could have been a batch of one append. -/
theorem single_append_agrees_settled :
    Succeeds (deriveReceiptValues referenceHashes appState settlementWitness vkHash) ↔
      Succeeds (deriveReceiptValues referenceHashes appState
        (batchWitness settlementWitness checkpoint) vkHash) :=
  (single_append_agrees referenceHashes appState settlementWitness vkHash checkpoint rfl rfl
    checkpoint_recordHash (by decide)).2.1

end EthereumSettlement.SingleAppends
