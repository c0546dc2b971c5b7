import EthereumSettlement.RegistryContinuity

/-!
# Registry appends write their slots and nothing else

The guest accepts a batch of registry appends from an old root to a new one. For
every tree behind the old root, an accepted batch opens the next empty slots one
after the other and writes the records' leaves there; and a batch that does so is
accepted when its records belong to the first schema and have leaves at all.
-/

namespace EthereumSettlement.RegistryAppends

open ByteWords CheckedCalls HashCommitments MerkleAppends PastaPoseidon
open RegistryCheckpoint RegistryContinuity ReferenceHashes ReferenceDeployment

section Leaves

variable {H : Hashes} {record : CanonicalAssetRecordV1}

/-- The coordinate of a packed public key, below its parity bit. -/
def keyCoordinate (packed : Bytes32) : Bytes32 := packed &&& BitVec.ofNat 256 (2 ^ 255 - 1)

/-- The parts of a record that live on L2 are encodings of Mina field elements. -/
structure FieldsCanonical (record : CanonicalAssetRecordV1) : Prop where
  /-- The token owner's coordinate is canonical. -/
  owner : Canonical (keyCoordinate record.tokenOwnerL2)
  /-- The vault's coordinate is canonical. -/
  vault : Canonical (keyCoordinate record.vaultPublicKey)
  /-- The token identifier is canonical. -/
  tokenId : Canonical record.tokenIdL2
  /-- The token contract's key is canonical. -/
  mftStandard : Canonical record.mftStandardVkId
  /-- The bridge contract's key is canonical. -/
  universalBridge : Canonical record.universalBridgeVkId

/-- A short word is canonical. -/
theorem canonical_toWord {w : ℕ} (hw : w ≤ 160) (value : BitVec w) : Canonical (toWord value) := by
  rw [canonical_iff_lt, toWord, BitVec.toNat_ofNat]
  have hvalue : value.toNat < 2 ^ 160 := lt_of_lt_of_le value.isLt (Nat.pow_le_pow_right (by omega) hw)
  exact lt_of_le_of_lt (Nat.mod_le _ _) (lt_trans hvalue (by decide))

/-- A record has a leaf exactly when its L2 parts are canonical. -/
theorem hashRegistryRecordLeaf_isOk :
    Succeeds (hashRegistryRecordLeaf H record) ↔ FieldsCanonical record := by
  have hhigh : Canonical (highLimb record.assetId) := canonical_toWord (by decide) _
  have hlow : Canonical (lowLimb record.assetId) := canonical_toWord (by decide) _
  have htoken : Canonical (toWord record.ethereumToken) := canonical_toWord (le_refl 160) _
  simp only [hashRegistryRecordLeaf, unpackPublicKey, fieldFromAddress, succeeds_bind, bind_eq_ok,
    pure_eq_ok, succeeds_pure, and_true]
  constructor
  · rintro ⟨_, ⟨owner, howner, -⟩, _, ⟨vault, hvault, -⟩, -, -, -, -, -, -, tokenId, htokenId, mft, hmft,
      bridge, hbridge⟩
    exact ⟨fieldFromBytes_isOk.mp ⟨_, howner⟩, fieldFromBytes_isOk.mp ⟨_, hvault⟩,
      fieldFromBytes_isOk.mp ⟨_, htokenId⟩, fieldFromBytes_isOk.mp ⟨_, hmft⟩,
      fieldFromBytes_isOk.mp ⟨_, hbridge⟩⟩
  · intro h
    obtain ⟨owner, howner⟩ := fieldFromBytes_isOk.mpr h.owner
    obtain ⟨vault, hvault⟩ := fieldFromBytes_isOk.mpr h.vault
    obtain ⟨_, hhigh⟩ := fieldFromBytes_isOk.mpr hhigh
    obtain ⟨_, hlow⟩ := fieldFromBytes_isOk.mpr hlow
    obtain ⟨_, htoken⟩ := fieldFromBytes_isOk.mpr htoken
    obtain ⟨_, htokenId⟩ := fieldFromBytes_isOk.mpr h.tokenId
    obtain ⟨_, hmft⟩ := fieldFromBytes_isOk.mpr h.mftStandard
    obtain ⟨_, hbridge⟩ := fieldFromBytes_isOk.mpr h.universalBridge
    exact ⟨_, ⟨owner, howner, rfl⟩, _, ⟨vault, hvault, rfl⟩, _, hhigh, _, hlow, _, htoken, _,
      htokenId, _, hmft, _, hbridge⟩

end Leaves

section Paths

/-- A path of encoded siblings has these siblings. -/
theorem pathSiblings_encoded (siblings : List StepField) :
    pathSiblings (siblings.map fieldToBytes) = siblings := by
  rw [pathSiblings, mapM_fieldToBytes]
  rfl

/-- A readable path encodes its siblings. -/
theorem encoded_pathSiblings {path : List Bytes32}
    (h : path.mapM fieldFromBytes = .ok (pathSiblings path)) :
    (pathSiblings path).map fieldToBytes = path :=
  mapM_fieldFromBytes_eq_ok.mp h

end Paths

section Batches

/-- The leaves of the appended records, in their order. -/
def commitments (H : Hashes) (appends : List AssetRegistryAppendV1) : List StepField :=
  appends.map fun append => recordLeaf H append.record

/-- The pairs of the registry tree on the supplied paths and above the opened
slots. -/
def replayedPairs (H : Hashes) (leaf : ℕ → StepField) (checkpoint : AssetRegistryBatchCheckpointV4) :
    List (StepField × StepField) :=
  writePairs (registryNode H) 0 assetRegistryTreeDepth leaf checkpoint.oldCount.toNat
    (checkpoint.appends.map fun append => registryAppend H append.record append.appendPath)

/-- A batch writes records that pass validation into the next slots of the tree
with the given leaves: the slots are empty, each path is the slot's own in the
tree so far, and the new root is that of the tree with the records' leaves
written there and every other leaf as before. -/
structure WritesRecords (H : Hashes) (chainId : BitVec 64) (bridgeAddress : Address)
    (leaf : ℕ → StepField) (checkpoint : AssetRegistryBatchCheckpointV4) : Prop where
  /-- There is something to append. -/
  nonempty : checkpoint.appends ≠ []
  /-- The count grows by the number of appends. -/
  counted : checkpoint.count.toNat = checkpoint.oldCount.toNat + checkpoint.appends.length
  /-- The records fit the tree. -/
  capacity : checkpoint.oldCount.toNat + checkpoint.appends.length ≤ maxAssetRecords
  /-- Their indices are consecutive. -/
  consecutive : ∀ i (h : i < checkpoint.appends.length),
    checkpoint.appends[i].record.registryIndex.toNat = checkpoint.oldCount.toNat + i
  /-- They are canonical records of the bridge. -/
  valid : ∀ append ∈ checkpoint.appends,
    validateCanonicalAssetRecord H append.record chainId bridgeAddress = .ok ()
  /-- Each slot is empty. -/
  empty : ∀ i < checkpoint.appends.length, leaf (checkpoint.oldCount.toNat + i) = 0
  /-- Each path is the slot's own in the tree with the records before it. -/
  truePath : ∀ i (h : i < checkpoint.appends.length), checkpoint.appends[i].appendPath =
    (treeSiblings (registryNode H) assetRegistryTreeDepth
      (written leaf checkpoint.oldCount.toNat ((commitments H checkpoint.appends).take i))
      (checkpoint.oldCount.toNat + i)).map fieldToBytes
  /-- The new root is that of the tree with the leaves written. -/
  root_eq : checkpoint.root = fieldToBytes (treeRoot (registryNode H) assetRegistryTreeDepth
    (written leaf checkpoint.oldCount.toNat (commitments H checkpoint.appends)))
  /-- It is not zero. -/
  root_ne : checkpoint.root ≠ 0

/-- The checkpoint and its records have the first schema, and the records have
leaves. -/
structure SchemaSupported (checkpoint : AssetRegistryBatchCheckpointV4) : Prop where
  /-- The checkpoint has the first schema. -/
  schema : checkpoint.schemaVersion = 1
  /-- So has every record, and it has a leaf. -/
  records : ∀ append ∈ checkpoint.appends,
    append.record.schemaVersion = 1 ∧ FieldsCanonical append.record

variable {H : Hashes} {chainId : BitVec 64} {bridgeAddress : Address}
variable {checkpoint : AssetRegistryBatchCheckpointV4} {leaf : ℕ → StepField}

/-- The append loop runs along appends that it checks one by one. -/
theorem validateRegistryAppends_of_checked {offset : ℕ} {root final : StepField}
    {appends : List AssetRegistryAppendV1}
    (hroom : checkpoint.oldCount.toNat + offset + appends.length < 2 ^ 32)
    (hchecked : ∀ i (hi : i < appends.length), AppendChecked H checkpoint.schemaVersion chainId
      bridgeAddress appends[i] (checkpoint.oldCount.toNat + offset + i))
    (h : AppendsFrom (registryNode H) 0 (checkpoint.oldCount.toNat + offset) root
      (appends.map fun append => registryAppend H append.record append.appendPath) final) :
    ∃ identities, validateRegistryAppends H checkpoint chainId bridgeAddress offset
      (fieldToBytes root) appends = .ok (fieldToBytes final, identities) := by
  induction appends generalizing offset root with
  | nil =>
    rw [List.map_nil, AppendsFrom] at h
    subst h
    exact ⟨[], rfl⟩
  | cons append appends ih =>
    rw [List.length_cons] at hroom
    have hoffset : offset < 2 ^ 32 := by omega
    have hfirst := hchecked 0 (Nat.succ_pos _)
    rw [List.getElem_cons_zero, Nat.add_zero] at hfirst
    obtain ⟨hdepth, hsiblings, hschema, hindex, hvalid, hleaf⟩ := hfirst
    have hadded : checkedAddU32 "asset registry index overflow" checkpoint.oldCount
        (BitVec.ofNat 32 offset) = .ok append.record.registryIndex := by
      rw [checkedAddU32, checkedAdd_eq_ok, BitVec.toNat_ofNat, Nat.mod_eq_of_lt hoffset, hindex]
    rw [List.map_cons, AppendsFrom] at h
    obtain ⟨hopened, hrest⟩ := h
    have hlaterRoom : checkpoint.oldCount.toNat + (offset + 1) + appends.length < 2 ^ 32 := by omega
    obtain ⟨identities, hlater⟩ := ih hlaterRoom (fun i hi => by
      have hplace : checkpoint.oldCount.toNat + (offset + 1) + i =
          checkpoint.oldCount.toNat + offset + (i + 1) := by omega
      rw [hplace]
      exact hchecked (i + 1) (Nat.succ_lt_succ hi)) hrest
    refine ⟨recordIdentity H append.record :: identities, ?_⟩
    simp only [validateRegistryAppends, validateRegistryAppend, bind_eq_ok, require_eq_ok,
      exists_const, pure_eq_ok]
    rw [← hindex] at hopened hlater
    exact ⟨hoffset, append.record.registryIndex, hadded, _,
      ⟨hdepth, hschema, rfl, (), hvalid, root,
        registryImpliedRoot_iff.mpr ⟨_, hsiblings, hopened⟩, rfl, _, hleaf, _,
        registryImpliedRoot_iff.mpr ⟨_, hsiblings, rfl⟩, rfl⟩, _, hleaf, _, hlater, rfl⟩

/-- The appends of a batch have the leaves of its records. -/
theorem map_registryAppend (appends : List AssetRegistryAppendV1) :
    (appends.map fun append => registryAppend H append.record append.appendPath).map (·.1) =
      commitments H appends := by
  rw [List.map_map]
  rfl

/-- An accepted batch has the first schema, and its records have leaves. -/
theorem supported_of_accepted
    (haccepted : Succeeds (validateRegistryBatch H checkpoint chainId bridgeAddress)) :
    SchemaSupported checkpoint := by
  obtain ⟨identities, h⟩ := haccepted
  simp only [validateRegistryBatch, bind_eq_ok, require_eq_ok, exists_const, pure_eq_ok] at h
  obtain ⟨hschema, -, -, -, count, -, -, -, result, hresult, -, -⟩ := h
  obtain ⟨hchecked, -⟩ := validateRegistryAppends_checked hresult
  refine ⟨hschema, ?_⟩
  intro append happend
  obtain ⟨i, hi, rfl⟩ := List.getElem_of_mem happend
  have hone := hchecked i hi
  exact ⟨hone.schema.trans hschema, hashRegistryRecordLeaf_isOk.mp ⟨_, hone.leaf⟩⟩

/-- An accepted batch writes its records into the next slots of the tree behind the
old root, unless a pair on a supplied path collides with a pair of the tree. -/
theorem writes_of_accepted
    (hroot : fieldToBytes (treeRoot (registryNode H) assetRegistryTreeDepth leaf) =
      checkpoint.oldRoot)
    (hcf : CollisionFree (fun p : StepField × StepField => registryNode H p.1 p.2)
      (replayedPairs H leaf checkpoint))
    (haccepted : Succeeds (validateRegistryBatch H checkpoint chainId bridgeAddress)) :
    WritesRecords H chainId bridgeAddress leaf checkpoint := by
  obtain ⟨identities, h⟩ := haccepted
  simp only [validateRegistryBatch, bind_eq_ok, require_eq_ok, exists_const, pure_eq_ok] at h
  obtain ⟨-, hnonzero, hnonempty, hcapacity, count, hcount, hsame, hfits, result, hresult,
    hlast, -⟩ := h
  have hsmall : checkpoint.appends.length < 2 ^ 32 := lt_of_le_of_lt hcapacity (by decide)
  have hcounted : checkpoint.count.toNat =
      checkpoint.oldCount.toNat + checkpoint.appends.length := by
    rw [hsame, checkedAdd_eq_ok.mp hcount, BitVec.toNat_ofNat, Nat.mod_eq_of_lt hsmall]
  obtain ⟨hreplayed, hdepths, -⟩ := validateRegistryAppends_replayed hresult
  obtain ⟨hchecked, -⟩ := validateRegistryAppends_checked hresult
  obtain ⟨final, hfinal, hbytes⟩ := hreplayed _ hroot
  have hroom : checkpoint.oldCount.toNat + checkpoint.appends.length ≤
      2 ^ assetRegistryTreeDepth := hcounted ▸ hfits
  obtain ⟨hopens, hwritten⟩ := appends_written hcf hdepths (by rwa [List.length_map]) hfinal
  rw [map_registryAppend] at hwritten
  have hslot : ∀ i (h : i < checkpoint.appends.length),
      leaf (checkpoint.oldCount.toNat + i) = 0 ∧
        pathSiblings checkpoint.appends[i].appendPath =
          treeSiblings (registryNode H) assetRegistryTreeDepth
            (written leaf checkpoint.oldCount.toNat ((commitments H checkpoint.appends).take i))
            (checkpoint.oldCount.toNat + i) := by
    intro i hi
    have hopened := hopens i (by rwa [List.length_map])
    rw [List.getElem_map, map_registryAppend] at hopened
    exact hopened
  refine ⟨hnonempty, hcounted, hroom, ?_, ?_, ?_, ?_, ?_, hnonzero⟩
  · intro i hi
    exact (hchecked i hi).indexed
  · intro append happend
    obtain ⟨i, hi, rfl⟩ := List.getElem_of_mem happend
    exact (hchecked i hi).canonical
  · exact fun i hi => (hslot i hi).1
  · intro i hi
    rw [← (hslot i hi).2, encoded_pathSiblings (hchecked i hi).siblings]
  · rw [← hlast, ← hbytes, hwritten]

/-- A batch of supported records that writes them into the next slots of the tree
behind the old root is accepted. -/
theorem accepted_of_writes
    (hroot : fieldToBytes (treeRoot (registryNode H) assetRegistryTreeDepth leaf) =
      checkpoint.oldRoot)
    (hwrites : WritesRecords H chainId bridgeAddress leaf checkpoint)
    (hsupported : SchemaSupported checkpoint) :
    Succeeds (validateRegistryBatch H checkpoint chainId bridgeAddress) := by
  have hcapacity := hwrites.capacity
  have hlength : checkpoint.appends.length ≤ maxAssetRecords := by omega
  have hlimit : maxAssetRecords < 2 ^ 32 := by decide
  have hsiblings : ∀ i (h : i < checkpoint.appends.length),
      pathSiblings checkpoint.appends[i].appendPath =
        treeSiblings (registryNode H) assetRegistryTreeDepth
          (written leaf checkpoint.oldCount.toNat ((commitments H checkpoint.appends).take i))
          (checkpoint.oldCount.toNat + i) := by
    intro i hi
    rw [hwrites.truePath i hi, pathSiblings_encoded]
  have hopens : OpensEmpty (registryNode H) 0 assetRegistryTreeDepth leaf
      checkpoint.oldCount.toNat
      (checkpoint.appends.map fun append => registryAppend H append.record append.appendPath) := by
    intro i hi
    rw [List.length_map] at hi
    rw [List.getElem_map, map_registryAppend]
    exact ⟨hwrites.empty i hi, hsiblings i hi⟩
  have hchecked : ∀ i (hi : i < checkpoint.appends.length),
      AppendChecked H checkpoint.schemaVersion chainId bridgeAddress checkpoint.appends[i]
        (checkpoint.oldCount.toNat + 0 + i) := by
    intro i hi
    have hmem := List.getElem_mem hi
    obtain ⟨hschema, hfields⟩ := hsupported.records _ hmem
    obtain ⟨recordLeaf, hleaf⟩ := hashRegistryRecordLeaf_isOk (H := H).mpr hfields
    have hpath := hwrites.truePath i hi
    refine ⟨?_, ?_, hschema.trans hsupported.schema.symm, hwrites.consecutive i hi,
      hwrites.valid _ hmem, ?_⟩
    · rw [hpath, List.length_map, treeSiblings_eq_map, List.length_map, List.length_range]
    · rw [hpath, mapM_fieldToBytes, pathSiblings_encoded]
    · rw [recordLeaf_eq hleaf, hleaf]
  obtain ⟨identities, hloop⟩ := validateRegistryAppends_of_checked (by omega) hchecked
    (appends_of_opensEmpty (by rw [List.length_map]; exact hcapacity) hopens)
  rw [hroot, map_registryAppend, Nat.add_zero, ← hwrites.root_eq] at hloop
  have hcount : checkedAddU32 "asset registry count overflow" checkpoint.oldCount
      (BitVec.ofNat 32 checkpoint.appends.length) = .ok checkpoint.count := by
    rw [checkedAddU32, checkedAdd_eq_ok, BitVec.toNat_ofNat, Nat.mod_eq_of_lt (by omega),
      hwrites.counted]
  refine ⟨identities, ?_⟩
  simp only [validateRegistryBatch, bind_eq_ok, require_eq_ok, exists_const, pure_eq_ok]
  exact ⟨hsupported.schema, hwrites.root_ne, hwrites.nonempty, hlength, checkpoint.count, hcount,
    rfl, hwrites.counted ▸ hcapacity, _, hloop, rfl, rfl⟩

/-- For every tree behind the old root: a batch that the guest accepts writes the
leaves of its records into the next slots, all empty before, and changes no other
leaf, unless a pair on a supplied path collides with a pair of the tree; and the
guest accepts every batch of supported records that does so. -/
theorem registry_append_correct (H : Hashes) (chainId : BitVec 64) (bridgeAddress : Address)
    (checkpoint : AssetRegistryBatchCheckpointV4) (leaf : ℕ → StepField)
    (hroot : fieldToBytes (treeRoot (registryNode H) assetRegistryTreeDepth leaf) =
      checkpoint.oldRoot) :
    (CollisionFree (fun p : StepField × StepField => registryNode H p.1 p.2)
        (replayedPairs H leaf checkpoint) →
      Succeeds (validateRegistryBatch H checkpoint chainId bridgeAddress) →
      WritesRecords H chainId bridgeAddress leaf checkpoint ∧ SchemaSupported checkpoint) ∧
    (WritesRecords H chainId bridgeAddress leaf checkpoint → SchemaSupported checkpoint →
      Succeeds (validateRegistryBatch H checkpoint chainId bridgeAddress)) :=
  ⟨fun hcf haccepted =>
    ⟨writes_of_accepted hroot hcf haccepted, supported_of_accepted haccepted⟩,
    accepted_of_writes hroot⟩

end Batches

/-- The registry without records. -/
def noRecords : ℕ → StepField := padded 0 []

/-- Both records appended to the empty registry. -/
def twoRecords : AssetRegistryBatchCheckpointV4 :=
  ⟨4, 10, nextAppend.root, 2, 1, emptyRegistryRoot, 0,
    [⟨assetRecord, emptySubtrees⟩, ⟨secondRecord, recordCommitment :: emptySubtrees.tail⟩]⟩

/-- The root of the tree without records. -/
theorem treeRoot_noRecords :
    fieldToBytes (treeRoot (registryNode referenceHashes) assetRegistryTreeDepth noRecords) =
      emptyRegistryRoot := registryRootOf_nil

/-- No pair of the two appends collides with another one. -/
theorem twoRecords_collisionFree :
    CollisionFree (fun p : StepField × StepField => registryNode referenceHashes p.1 p.2)
      (replayedPairs referenceHashes noRecords twoRecords) := by
  have happends : twoRecords.appends.map (fun append =>
      registryAppend referenceHashes append.record append.appendPath) = continuedAppends := by
    decide +kernel
  have hpairs := writePairs_padded (registryNode referenceHashes) 0 assetRegistryTreeDepth []
    continuedAppends
  have hcf := continuedAppends_collisionFree
  rw [← hpairs, ← happends] at hcf
  exact hcf

/-- The guest accepts both records. -/
theorem twoRecords_accepted :
    Succeeds (validateRegistryBatch referenceHashes twoRecords 1 bridgeAddress) := by
  decide +kernel

/-- Both directions hold of the two records. -/
theorem registry_append_correct_two :
    WritesRecords referenceHashes 1 bridgeAddress noRecords twoRecords ∧
      Succeeds (validateRegistryBatch referenceHashes twoRecords 1 bridgeAddress) := by
  obtain ⟨hwrites, haccepts⟩ := registry_append_correct referenceHashes 1 bridgeAddress twoRecords
    noRecords treeRoot_noRecords
  obtain ⟨hwritten, hsupported⟩ := hwrites twoRecords_collisionFree twoRecords_accepted
  exact ⟨hwritten, haccepts hwritten hsupported⟩

/-- The first record under the second schema. -/
def laterRecord : CanonicalAssetRecordV1 := { assetRecord with schemaVersion := 2 }

/-- The record of the second schema appended to the empty registry. -/
def laterSchema : AssetRegistryBatchCheckpointV4 :=
  ⟨4, 10, 0x0e8053a98d2b4077c4c895897fea79743a2b1e0ce6525c0f00f3fac70fc06c43, 1, 1,
    emptyRegistryRoot, 0, [⟨laterRecord, emptySubtrees⟩]⟩

/-- A record whose token ID is no field element. -/
def unwritable : CanonicalAssetRecordV1 :=
  { assetRecord with
    tokenIdL2 := BitVec.allOnes 256
    assetId := 0xdba387fcae6eaf6dd899218bf7db7ae6f74f77f945bcf009613e75ffad54cca9 }

/-- The first slot's path in the empty registry. -/
theorem emptySubtrees_path :
    emptySubtrees = (treeSiblings (registryNode referenceHashes) assetRegistryTreeDepth
      noRecords 0).map fieldToBytes := by
  have hpath := (writes_of_accepted treeRoot_noRecords twoRecords_collisionFree
    twoRecords_accepted).truePath 0 (by decide)
  rw [List.take_zero, written_nil] at hpath
  exact hpath

/-- The record of the second schema is written into the first slot. -/
theorem laterSchema_writes :
    WritesRecords referenceHashes 1 bridgeAddress noRecords laterSchema := by
  have hvalid : validateCanonicalAssetRecord referenceHashes laterRecord 1 bridgeAddress =
      .ok () := by decide +kernel
  have hwritten : written noRecords 0 (commitments referenceHashes laterSchema.appends) =
      padded 0 (commitments referenceHashes laterSchema.appends) := (padded_append 0 [] _).symm
  have hroot : laterSchema.root =
      registryRootOf referenceHashes (commitments referenceHashes laterSchema.appends) := by
    rw [registryRootOf, ← climb_root]
    decide +kernel
  refine ⟨by decide, rfl, by decide, ?_, ?_, ?_, ?_, ?_, by decide⟩
  · intro i hi
    obtain rfl : i = 0 := Nat.lt_one_iff.mp hi
    rfl
  · intro append happend
    obtain rfl := List.mem_singleton.mp happend
    exact hvalid
  · intro i hi
    rfl
  · intro i hi
    obtain rfl : i = 0 := Nat.lt_one_iff.mp hi
    rw [List.take_zero, written_nil]
    exact emptySubtrees_path
  · rw [hroot, registryRootOf, ← hwritten]
    rfl

/-- A record of the second schema passes validation and is written into the first
slot along its own path, and the guest refuses it; so it does with a record that
passes validation but has no leaf, whatever the new root. -/
theorem unsupported_append_refused :
    fieldToBytes (treeRoot (registryNode referenceHashes) assetRegistryTreeDepth noRecords) =
      laterSchema.oldRoot ∧
    WritesRecords referenceHashes 1 bridgeAddress noRecords laterSchema ∧
    ¬ Succeeds (validateRegistryBatch referenceHashes laterSchema 1 bridgeAddress) ∧
    validateCanonicalAssetRecord referenceHashes unwritable 1 bridgeAddress = .ok () ∧
    ∀ root : Bytes32, ¬ Succeeds (validateRegistryBatch referenceHashes
      { laterSchema with root := root, appends := [⟨unwritable, emptySubtrees⟩] } 1
      bridgeAddress) := by
  refine ⟨treeRoot_noRecords, laterSchema_writes, ?_, by decide +kernel, ?_⟩
  · intro haccepted
    have hrecord := (supported_of_accepted haccepted).records _ (List.mem_singleton_self _)
    exact absurd hrecord.1 (by decide)
  · intro root haccepted
    have hrecord := (supported_of_accepted haccepted).records _ (List.mem_singleton_self _)
    exact absurd (canonical_iff_lt.mp hrecord.2.tokenId) (by decide)

end EthereumSettlement.RegistryAppends
