import EthereumSettlement.RecordCommitments
import EthereumSettlement.RegistryContinuity
import EthereumSettlement.ReceiptBinding

/-!
# Activation from a record batch

The registry facet hashes a proposed record with `abi.encode`, the guest by
appending byte slices to a buffer. Both give the same bytes for every record. The
guest commits the records of a batch to a Keccak tree by their registry index, and
an activation opens one slot of it. When no hashed strings collide, and none hashes
to the zero of an unused slot, an activated record is one of those that the guest
appended in the named batch, at its own index and with its own commitment.
-/

namespace EthereumSettlement.AssetActivations

open ByteWords CheckedCalls HashCommitments TransitionRuns PastaPoseidon InnerActionCommitment
open RegistryCheckpoint SettlementCodec SettlementReceipt ZekoSettlement EthereumZekoBridge
open ZekoAssetRegistry BridgeSystem StepEffects RunInvariants SettledReceipts ClaimSoundness
open RecordCommitments ReferenceHashes ReferenceDeployment InnerActionRanges RegistryContinuity
open ReceiptBinding OpenZeppelin

section Encodings

/-- A value's big-endian bytes behind as many zeros as fill a word. -/
def paddedWord {w : ℕ} (value : BitVec w) : Bytes := List.replicate (32 - w / 8) 0 ++ bytesOf value

/-- `u64_word`. -/
def u64Word (value : BitVec 64) : Bytes := paddedWord value

/-- `u32_word`. -/
def u32Word (value : BitVec 32) : Bytes := paddedWord value

/-- `address_word`. -/
def addressWord (value : Address) : Bytes := paddedWord value

variable (H : Hashes)

/-- The buffer of `compute_asset_id`. -/
def assetIdBytes (record : CanonicalAssetRecordV1) (chainId : BitVec 64) (bridgeAddress : Address) :
    Bytes :=
  bytesOf (domainHash H "ZEKO_ERC20_ASSET_V1") ++ u64Word chainId ++ addressWord bridgeAddress ++
    addressWord record.ethereumToken ++ bytesOf record.tokenOwnerL2 ++ bytesOf record.tokenIdL2 ++
    u64Word (record.decimals.setWidth 64)

/-- The buffer of `hash_canonical_asset_record`. -/
def canonicalAssetRecordBytes (record : CanonicalAssetRecordV1) : Bytes :=
  bytesOf (domainHash H "ZEKO_ERC20_ASSET_RECORD_V1") ++ u32Word record.schemaVersion ++
    u32Word record.registryIndex ++ bytesOf record.assetId ++ addressWord record.ethereumToken ++
    bytesOf record.tokenOwnerL2 ++ bytesOf record.tokenIdL2 ++ u64Word (record.decimals.setWidth 64) ++
    u64Word record.inventoryCap ++ bytesOf record.mftStandardVkId ++ bytesOf record.vaultPublicKey ++
    bytesOf record.universalBridgeVkId

/-- The buffer of `asset_record_batch_leaf`. -/
def assetRecordBatchLeafBytes (recordHash recordCommitment : Bytes32) : Bytes :=
  bytesOf (domainHash H "ZEKO_ASSET_RECORD_BATCH_LEAF_V2") ++ bytesOf recordHash ++
    bytesOf recordCommitment

variable {H}

/-- Leading zeros do not change a big-endian value. -/
theorem bigEndianValue_zeros (n : ℕ) (bytes : Bytes) :
    bigEndianValue (List.replicate n 0 ++ bytes) = bigEndianValue bytes := by
  induction n with
  | zero => rfl
  | succ n ih =>
    rw [List.replicate_succ, List.cons_append, bigEndianValue_cons, ih]
    have hzero : (0 : Byte).toNat = 0 := rfl
    rw [hzero, Nat.zero_mul, Nat.zero_add]

/-- A padded value is the encoding of its word. -/
theorem paddedWord_eq {w : ℕ} (hw : 8 ∣ w) (hle : w ≤ 256) (value : BitVec w) :
    paddedWord value = bytesOf (toWord value) := by
  have hlength : (paddedWord value).length = 256 / 8 := by
    rw [paddedWord, List.length_append, List.length_replicate, bytesOf_length]
    omega
  have hbytes := bytesOf_wordOf (by decide) hlength
  have hvalue : bigEndianValue (bytesOf value) = value.toNat := by
    have hpow : 256 ^ (w / 8) = 2 ^ w := by
      rw [show (256 : ℕ) = 2 ^ 8 by rfl, ← pow_mul, Nat.mul_div_cancel' hw]
    rw [bytesOf, bigEndianValue_bigEndian, hpow, Nat.mod_eq_of_lt value.isLt]
  rw [← hbytes, wordOf, paddedWord, bigEndianValue_zeros, hvalue, toWord]

/-- A byte has the same word as its extension to 64 bits. -/
theorem toWord_setWidth (value : BitVec 8) : toWord (value.setWidth 64) = toWord value := by
  have hlt := value.isLt
  rw [toWord, toWord, BitVec.toNat_setWidth, Nat.mod_eq_of_lt (by omega)]

/-- The guest hashes the words of an asset identifier. -/
theorem assetIdBytes_eq (record : CanonicalAssetRecordV1) (chainId : BitVec 64)
    (bridgeAddress : Address) : assetIdBytes H record chainId bridgeAddress =
      assetIdInput H (toWord chainId) (toWord bridgeAddress) (toWord record.ethereumToken)
        record.tokenOwnerL2 record.tokenIdL2 (toWord record.decimals) := by
  simp only [assetIdBytes, assetIdInput, u64Word, addressWord, paddedWord_eq (by decide : 8 ∣ 64),
    paddedWord_eq (by decide : 8 ∣ 160), Nat.reduceLeDiff, toWord_setWidth, abiEncode,
    List.flatMap_cons, List.flatMap_nil, List.append_assoc, List.append_nil]

/-- The guest hashes the words of a record. -/
theorem canonicalAssetRecordBytes_eq (record : CanonicalAssetRecordV1) :
    canonicalAssetRecordBytes H record = canonicalAssetRecordInput H record := by
  simp only [canonicalAssetRecordBytes, canonicalAssetRecordInput, u32Word, u64Word, addressWord,
    paddedWord_eq (by decide : 8 ∣ 32), paddedWord_eq (by decide : 8 ∣ 64),
    paddedWord_eq (by decide : 8 ∣ 160), Nat.reduceLeDiff, toWord_setWidth, abiEncode,
    List.flatMap_cons, List.flatMap_nil, List.append_assoc, List.append_nil]

/-- The guest hashes the words of a leaf. -/
theorem assetRecordBatchLeafBytes_eq (recordHash recordCommitment : Bytes32) :
    assetRecordBatchLeafBytes H recordHash recordCommitment =
      assetRecordBatchLeafInput H recordHash recordCommitment := by
  simp only [assetRecordBatchLeafBytes, assetRecordBatchLeafInput, abiEncode, List.flatMap_cons,
    List.flatMap_nil, List.append_assoc, List.append_nil]

/-- Record strings determine the record. -/
theorem canonicalAssetRecordInput_injective {first second : CanonicalAssetRecordV1}
    (h : canonicalAssetRecordInput H first = canonicalAssetRecordInput H second) : first = second := by
  have hwords := abiEncode_injective h
  simp only [List.cons.injEq, and_true, true_and] at hwords
  obtain ⟨hschema, hindex, hasset, htoken, howner, hid, hdecimals, hcap, hstandard, hvault, hbridge⟩ :=
    hwords
  cases first
  cases second
  simp only [CanonicalAssetRecordV1.mk.injEq]
  exact ⟨toWord_injective (by decide) hschema, toWord_injective (by decide) hindex, hasset,
    toWord_injective (by decide) htoken, howner, hid, toWord_injective (by decide) hdecimals,
    toWord_injective (by decide) hcap, hstandard, hvault, hbridge⟩

end Encodings

/-- The guest's and the contract's computations agree. -/
structure EncodingsAgree (env : Environment) : Prop where
  /-- Record hashes. -/
  recordHash_eq : ∀ record : AssetRecord,
    env.hashes.keccak256 (canonicalAssetRecordBytes env.hashes record) = hashAssetRecord env record
  /-- Asset identifiers, on one chain and for one bridge. -/
  assetId_eq : ∀ (record : AssetRecord) (chainId : BitVec 64), toWord chainId = env.chainId →
    env.hashes.keccak256 (assetIdBytes env.hashes record chainId env.bridgeAddress) =
      computeERC20AssetId env record.ethereumToken record.tokenOwnerL2 record.tokenIdL2
        record.decimals
  /-- Leaves of the record tree. -/
  batchLeaf_eq : ∀ recordHash recordCommitment,
    env.hashes.keccak256 (assetRecordBatchLeafBytes env.hashes recordHash recordCommitment) =
      assetRecordBatchLeaf env.hashes recordHash recordCommitment

/-- Both languages hash the same bytes of every record. -/
theorem encodingsAgree (env : Environment) : EncodingsAgree env := by
  refine ⟨?_, ?_, ?_⟩
  · intro record
    rw [canonicalAssetRecordBytes_eq, hashAssetRecord, hashCanonicalAssetRecord]
  · intro record chainId hchain
    rw [assetIdBytes_eq, hchain, computeERC20AssetId]
  · intro recordHash recordCommitment
    rw [assetRecordBatchLeafBytes_eq, assetRecordBatchLeaf]

section Batches

variable {H : Hashes}

/-- Every replayed append is a record of the batch at its own index, which is past
the appends before it. -/
theorem validateRegistryAppends_identity {checkpoint : AssetRegistryBatchCheckpointV4}
    {chainId : BitVec 64} {bridgeAddress : Address} {offset : ℕ} {runningRoot : Bytes32}
    {appends : List AssetRegistryAppendV1} {result : Bytes32 × List RecordIdentity}
    (h : validateRegistryAppends H checkpoint chainId bridgeAddress offset runningRoot appends =
      .ok result) : ∀ identity ∈ result.2,
        checkpoint.oldCount.toNat + offset ≤ identity.index.toNat ∧
        identity.index.toNat < checkpoint.oldCount.toNat + offset + appends.length ∧
        ∃ append ∈ appends, append.record.registryIndex = identity.index ∧
          hashCanonicalAssetRecord H append.record = identity.recordHash := by
  obtain ⟨hchecked, hidentities⟩ := validateRegistryAppends_checked h
  intro identity hidentity
  rw [hidentities] at hidentity
  obtain ⟨append, happend, rfl⟩ := List.mem_map.mp hidentity
  obtain ⟨i, hi, rfl⟩ := List.getElem_of_mem happend
  have hindex := (hchecked i hi).indexed
  refine ⟨?_, ?_, _, happend, rfl, rfl⟩
  · rw [recordIdentity, hindex]
    omega
  · rw [recordIdentity, hindex]
    omega

/-- Every identity of a validated batch is that of an appended record, between the
counts of the checkpoint. -/
theorem validateRegistryBatch_identity {checkpoint : AssetRegistryBatchCheckpointV4}
    {chainId : BitVec 64} {bridgeAddress : Address} {identities : List RecordIdentity}
    (h : validateRegistryBatch H checkpoint chainId bridgeAddress = .ok identities) :
    ∀ identity ∈ identities, checkpoint.oldCount.toNat ≤ identity.index.toNat ∧
      identity.index.toNat < checkpoint.count.toNat ∧
      ∃ append ∈ checkpoint.appends, append.record.registryIndex = identity.index ∧
        hashCanonicalAssetRecord H append.record = identity.recordHash := by
  simp only [validateRegistryBatch, bind_eq_ok, require_eq_ok, exists_const, pure_eq_ok] at h
  obtain ⟨-, -, -, hlength, count, hadded, hcount, -, result, hresult, -, rfl⟩ := h
  have hsum := checkedAdd_eq_ok.mp hadded
  have hsmall : checkpoint.appends.length < 2 ^ 32 := lt_of_le_of_lt hlength (by decide)
  rw [BitVec.toNat_ofNat, Nat.mod_eq_of_lt hsmall, ← hcount] at hsum
  intro identity hidentity
  obtain ⟨hge, hlt, hrecord⟩ := validateRegistryAppends_identity hresult identity hidentity
  exact ⟨by omega, by omega, hrecord⟩

/-- The guest validated and appended a record in the batch of a witness. -/
structure RecordAppended (H : Hashes) (witness : SettlementWitnessV1) (record : AssetRecord)
    (recordCommitment : Bytes32) (batch : InnerActionBatchWitnessV2)
    (checkpoint : AssetRegistryBatchCheckpointV4) (identities : List RecordIdentity) : Prop where
  /-- The witness has the batch. -/
  batch_eq : witness.innerActionBatch = some batch
  /-- The witness has the registry checkpoint. -/
  checkpoint_eq : witness.assetRegistryBatch = some checkpoint
  /-- The guest replayed the appends of the checkpoint. -/
  validated : validateRegistryBatch H checkpoint witness.context.chainId batch.bridgeAddress =
    .ok identities
  /-- The record is one of them. -/
  record_mem : record ∈ checkpoint.appends.map (·.record)
  /-- Its index, hash and commitment are among those committed to. -/
  identity_mem : ⟨record.registryIndex, hashCanonicalAssetRecord H record, recordCommitment⟩ ∈
    identities
  /-- Its index is new in this batch. -/
  index_new : checkpoint.oldCount.toNat ≤ record.registryIndex.toNat
  /-- Its index is below the count that the batch reaches. -/
  index_lt : record.registryIndex.toNat < checkpoint.count.toNat

end Batches

section Activations

variable {env : Environment} {W : TokenWorld}

/-- The receipt of a batch appended the record. -/
structure ActivatedFromReceipt {verifier : Address} {programVKey : Bytes32}
    (G : SettlementProver env verifier programVKey) (receipts : List Bytes)
    (settlementSequence : BitVec 64) (record : AssetRecord) (recordCommitment : Bytes32)
    (publicValues : Bytes) : Prop where
  /-- The receipt was settled. -/
  settled : publicValues ∈ receipts
  /-- It is a registry batch with the named sequence. -/
  decoded : ∃ decoded, decodePublicValues publicValues = .ok decoded ∧ decoded.version = 4 ∧
    decoded.batchSequence = settlementSequence
  /-- The guest appended the record in it. -/
  appended : ∃ witness batch checkpoint identities, (G.emitter publicValues).settlement = some witness ∧
    RecordAppended env.hashes witness record recordCommitment batch checkpoint identities

/-- The strings hashed by the contract for an activation. -/
def contractStrings (H : Hashes) (record : AssetRecord) (recordCommitment : Bytes32)
    (siblings : Fin 8 → Bytes32) : List Bytes :=
  canonicalAssetRecordInput H record ::
    openingStrings H (hashCanonicalAssetRecord H record) recordCommitment record.registryIndex.toNat
      siblings

/-- An opened identity of a batch is that of the opened record. -/
theorem recordAppended_of_identity {H : Hashes} {witness : SettlementWitnessV1} {record : AssetRecord}
    {recordCommitment : Bytes32} {batch : InnerActionBatchWitnessV2}
    {checkpoint : AssetRegistryBatchCheckpointV4} {identities : List RecordIdentity}
    {strings : List Bytes} (hbatch : witness.innerActionBatch = some batch)
    (hcheckpoint : witness.assetRegistryBatch = some checkpoint)
    (hvalidated : validateRegistryBatch H checkpoint witness.context.chainId batch.bridgeAddress =
      .ok identities) {identity : RecordIdentity} (hidentity : identity ∈ identities)
    (hindex : identity.index.toNat = record.registryIndex.toNat)
    (hhash : identity.recordHash = hashCanonicalAssetRecord H record)
    (hcommitment : identity.recordCommitment = recordCommitment)
    (hcf : CollisionFree H.keccak256 strings)
    (hown : canonicalAssetRecordInput H record ∈ strings)
    (hrecords : ∀ append ∈ checkpoint.appends, canonicalAssetRecordInput H append.record ∈ strings) :
    RecordAppended H witness record recordCommitment batch checkpoint identities := by
  obtain ⟨hge, hlt, append, happend, -, hsame⟩ :=
    validateRegistryBatch_identity hvalidated identity hidentity
  have hrecord : append.record = record :=
    canonicalAssetRecordInput_injective (hcf _ (hrecords append happend) _ hown (hsame.trans hhash))
  have heq : identity =
      ⟨record.registryIndex, hashCanonicalAssetRecord H record, recordCommitment⟩ := by
    cases identity
    simp only [RecordIdentity.mk.injEq]
    exact ⟨BitVec.eq_of_toNat_eq hindex, hhash, hcommitment⟩
  rw [hindex] at hge hlt
  rw [heq] at hidentity
  exact ⟨hbatch, hcheckpoint, hvalidated, List.mem_map.mpr ⟨append, happend, hrecord⟩, hidentity,
    hge, hlt⟩

/-- A record opened against a recorded batch was appended by the guest in the
receipt of that batch. -/
theorem opened_activatedFromReceipt {verifier : Address} {programVKey : Bytes32}
    (G : SettlementProver env verifier programVKey) {receipts : List Bytes} {s : SettlementStorage}
    {record : AssetRecord} {recordCommitment : Bytes32} {settlementSequence : BitVec 64}
    {siblings : Fin 8 → Bytes32}
    (hrecorded : ReceiptsRecorded env verifier programVKey receipts s)
    (hcf : CollisionFreeFrom env.hashes.keccak256 0
      (contractStrings env.hashes record recordCommitment siblings ++ G.strings receipts))
    (hvalid : (s.assetRegistryRecordBatch settlementSequence).valid = true)
    (hindex : record.registryIndex.toNat <
      (s.assetRegistryRecordBatch settlementSequence).registryCount.toNat)
    (hroot : pathRoot (assetRecordBatchNode env.hashes)
      (assetRecordBatchLeaf env.hashes (hashCanonicalAssetRecord env.hashes record) recordCommitment)
      record.registryIndex.toNat (List.ofFn siblings) =
        (s.assetRegistryRecordBatch settlementSequence).recordBatchRoot) :
    ∃ publicValues, ActivatedFromReceipt G receipts settlementSequence record recordCommitment
      publicValues := by
  obtain ⟨publicValues, hreceipt, decoded, hdecode, hversion, hsequence, hbatchEq⟩ :=
    hrecorded.recordBatches _ hvalid
  obtain ⟨proofBytes, hproved⟩ := hrecorded.proved publicValues hreceipt
  obtain ⟨witness, values, hwitness, hvalues, -, hdecoded⟩ :=
    settlementGuest_decoded env.hashes (G.emits publicValues proofBytes hproved) hdecode
  have hv1 := (deriveReceiptValues_eq_ok env.hashes hvalues).1
  refine ⟨publicValues, hreceipt, ⟨decoded, hdecode, hversion, hsequence⟩, ?_⟩
  rw [hdecoded] at hversion hbatchEq
  obtain ⟨identities, level, htree⟩ := (deriveReceiptValues_records hvalues).2 hversion
  obtain ⟨batch, checkpoint, hbatch, hcheckpoint, hvalidated⟩ := htree.validated
  obtain ⟨hleaves, hnodes⟩ := htree.strings hwitness hv1
  have hguest : ∀ string ∈ settlementGuestInputs env.hashes G.V G.vkHash (G.emitter publicValues),
      string ∈ G.strings receipts := fun string hstring =>
    List.mem_flatMap.mpr ⟨publicValues, hreceipt, hstring⟩
  have hsubset : openingStrings env.hashes (hashCanonicalAssetRecord env.hashes record)
      recordCommitment record.registryIndex.toNat siblings ++ G.strings receipts ⊆
        contractStrings env.hashes record recordCommitment siblings ++ G.strings receipts :=
    List.subset_cons_self _ _
  have hopening := hcf.mono hsubset
  rw [hbatchEq] at hindex hroot
  obtain ⟨identity, hidentity, hsame, hhash, hcommitment⟩ := opened_identity htree
    (fun identity hidentity => hguest _ (hleaves identity hidentity))
    (fun pair hpair => hguest _ (hnodes pair hpair)) hopening hindex hroot
  refine ⟨witness, batch, checkpoint, identities, hwitness, ?_⟩
  apply recordAppended_of_identity hbatch hcheckpoint hvalidated hidentity hsame hhash hcommitment
    hcf.1 (List.mem_append_left _ List.mem_cons_self)
  intro append happend
  apply List.mem_append_right
  apply hguest
  apply recordBatchInputs_hashed hwitness hv1 hbatch hcheckpoint
  exact List.mem_append_left _ (List.mem_map_of_mem happend)

/-- Asset activation is sound: the two languages agree on every record, and in every
reachable state an activation from a batch that succeeds opens a record that the
guest validated and appended in the receipt of that batch, with its own hash, index
and commitment. -/
theorem assetActivation_sound (d : Deployment env W)
    (G : SettlementProver env d.settlement.verifier d.settlement.programVKey) :
    EncodingsAgree env ∧ ∀ (transactions : List Transaction) (ctx : CallContext) (token : Address)
      (settlementSequence : BitVec 64) (recordCommitment : Bytes32) (siblings : Fin 8 → Bytes32)
      (next : Chain W),
      activateAssetFromBatch env (d.reached transactions) ctx token settlementSequence
        recordCommitment siblings = .ok next →
      CollisionFreeFrom env.hashes.keccak256 0
        (contractStrings env.hashes ((d.reached transactions).registry.assetRecordByToken token)
          recordCommitment siblings ++ G.strings (settledReceipts (d.history transactions))) →
      ∃ publicValues, ActivatedFromReceipt G (settledReceipts (d.history transactions))
        settlementSequence ((d.reached transactions).registry.assetRecordByToken token)
        recordCommitment publicValues := by
  refine ⟨encodingsAgree env, ?_⟩
  intro transactions ctx token settlementSequence recordCommitment siblings next hactivated hcf
  have hcommitted := (activateAssetFromBatch_eq_ok env hactivated).committed
  cases hcommitted with
  | batch valid index_lt root_eq =>
    exact opened_activatedFromReceipt G (reached_receipts d transactions) hcf valid index_lt root_eq

end Activations

/-- The checkpoint that appends one record to the empty registry. -/
def batchCheckpoint : AssetRegistryBatchCheckpointV4 :=
  ⟨2, 10, firstRegistryRoot, 1, 1, emptyRegistryRoot, 0, [⟨assetRecord, emptySubtrees⟩]⟩

/-- The commit of the batch. -/
def batchWitness : SettlementWitnessV1 :=
  { registryWitness 1 1 0 0x238688f8a3773cd1a3fb64446e8e41514cc64fdd4e525f50575c07bdb59b414e
      firstAppend with
    assetRegistryCheckpoint := none
    assetRegistryBatch := some batchCheckpoint }

/-- The input of the guest for the commit. -/
def batchCommit : SettlementGuestInput anyStatement :=
  batchInput [firstStatement.toNat,
    (0x136e029cdcbfa9e27da8c4ba45208c7573889149de1076b09ec818477326f8a9 : ℕ)] batchWitness

/-- The root of the record tree of the batch. -/
def recordBatchRoot : Bytes32 := 0x846da7b7a4d05dedc4d0d1e1677f8363d42b75db888666c8e18b4d52ddb802e3

/-- The receipt of the commit. -/
def batchReceipt : Bytes :=
  SettlementPublicValues.encode (.v4 {
    settlement := {
      settlement := {
        daMode := .multisig
        chainId := 1
        settlementContract := settlementAddress
        batchSequence := 1
        vkHash := vkHash
        appStatement := firstStatement
        minaTransactionHash := 0
        stateBefore := ⟨fun _ => 0⟩
        stateAfter := ⟨fun _ => 0⟩
        outerActionStateBefore := 1
        outerActionStateAfter := firstOuterState
        outerActionStateLengthBefore := 0
        outerActionStateLengthAfter := 1
        synchronizedOuterActionState := 1
        synchronizedOuterActionStateLength := 0
        slotLower := 0
        slotUpper := 0 }
      bridgeAddress := bridgeAddress
      innerActionRoot := 0x54872e16c669188a5b11bfe25c18e68a03c7beeb85e135eb10edcd57fa85ed11
      innerActionStartIndex := 0
      innerActionCount := 0 }
    assetRegistryRoot := firstRegistryRoot
    assetRegistryCount := 1
    assetRegistrySchemaVersion := 1
    assetRecordBatchRoot := recordBatchRoot
    assetRecordBatchCount := 1 })

/-- The guest emits the receipt. -/
theorem batchCommit_emits :
    settlementGuest referenceHashes anyStatement vkHash batchCommit = .ok batchReceipt := by
  decide +kernel

/-- The surroundings: real hashes, and a verifier that accepts the receipt. -/
def batchEnvironment : Environment where
  hashes := referenceHashes
  chainId := 1
  settlementAddress := settlementAddress
  bridgeAddress := bridgeAddress
  accessControl := tableAccessControl
  pausable := flagPausable
  verifyProof := fun _ programVKey publicValues _ =>
    decide (programVKey = settlementVKey ∧ publicValues = batchReceipt)

/-- The deployment in these surroundings. -/
def batchDeployment : Deployment batchEnvironment ledgerWorld :=
  deployed ⟨admin, 1000⟩ settlementParameters ⟨admin, verifier, bridgeVKey⟩
    (fun _ => singleHolder depositor 10) 0 (by decide +kernel)

/-- The verifier accepts only what the guest emits. -/
def batchProver : SettlementProver batchEnvironment batchDeployment.settlement.verifier
    batchDeployment.settlement.programVKey where
  V := anyStatement
  vkHash := vkHash
  emitter := fun _ => batchCommit
  emits := by
    intro publicValues proofBytes h
    have haccepted : settlementVKey = settlementVKey ∧ publicValues = batchReceipt := of_decide_eq_true h
    rw [haccepted.2]
    exact batchCommit_emits

/-- Settle the batch and propose its record. -/
def batchSetup : List Transaction :=
  [⟨⟨admin, 1000⟩, .setBridgeContract bridgeAddress⟩,
   ⟨⟨admin, 1000⟩, .verifyAndUpdateRoot batchReceipt []⟩,
   ⟨⟨admin, 1000⟩, .proposeAsset assetRecord⟩]

/-- The siblings of the first slot: the roots of empty subtrees. -/
def emptyRecordSubtrees (level : Fin 8) : Bytes32 :=
  [0,
   0x5c84b37af70c53224344e816642c89be37d39b0dc471d61438f023afff2bf7d6,
   0x1b2e447764008efae33486db8dc760ca0261f3666e9bc4e8082362bab1183512,
   0x4af30dd968d58572cf53111784a4fc98b9c3bf2f24761b1ad61b458894790654,
   0x1e4cbbe0c23923105f18452fc46a259ec7a0acc0bd051fc1f23f10af0c87f0b1,
   0x4218cc959fc6bdc5f43269a5c89175f9a7bdaecb35f240addac6d00ee36130c0,
   0x3aa40f1af14be9fe0a574237566811600c0b79e3b242c4b49d5edaa02f433aad,
   0xac1b90a66b4603c974f13528fcdeb9303923c04e8cca2148b27416b072bb8586].getD level 0

/-- The strings of the activation and of the guest do not collide. -/
theorem batch_collisionFree : CollisionFreeFrom batchEnvironment.hashes.keccak256 0
    (contractStrings batchEnvironment.hashes
      ((batchDeployment.reached batchSetup).registry.assetRecordByToken token) recordCommitment
      emptyRecordSubtrees ++
        batchProver.strings (settledReceipts (batchDeployment.history batchSetup))) :=
  collisionFreeFrom_of_digests (by decide +kernel)

/-- The record is activated from its batch, in which the guest appended it. -/
theorem assetActivation_sound_batch :
    (∃ next, activateAssetFromBatch batchEnvironment (batchDeployment.reached batchSetup)
      ⟨admin, 1000⟩ token 1 recordCommitment emptyRecordSubtrees = .ok next) ∧
    ∃ publicValues, ActivatedFromReceipt batchProver
      (settledReceipts (batchDeployment.history batchSetup)) 1
      ((batchDeployment.reached batchSetup).registry.assetRecordByToken token) recordCommitment
      publicValues := by
  have haccepted : (activateAssetFromBatch batchEnvironment (batchDeployment.reached batchSetup)
      ⟨admin, 1000⟩ token 1 recordCommitment emptyRecordSubtrees).toOption.isSome = true := by
    decide +kernel
  have hnext := eq_ok_get haccepted
  exact ⟨⟨_, hnext⟩, (assetActivation_sound batchDeployment batchProver).2 batchSetup _ token 1
    recordCommitment emptyRecordSubtrees _ hnext batch_collisionFree⟩

end EthereumSettlement.AssetActivations
