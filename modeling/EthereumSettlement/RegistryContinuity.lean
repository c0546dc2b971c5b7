import EthereumSettlement.MerkleAppends
import EthereumSettlement.InnerActionRanges

/-!
# Continuity of the asset registry root

The settlement guest replays registry appends from an old root of the prover's
choice, and the receipt carries the new root and count only. The contract
compares counts. The stored root is therefore the root of all settled records in
the runs whose registry receipts start at the stored root, and a concrete run of
two receipts of the guest shows that the contract does not ask for that.
-/

namespace EthereumSettlement.RegistryContinuity

open ByteWords CheckedCalls HashCommitments MerkleAppends TransitionRuns PastaPoseidon
open InnerActionCommitment RegistryCheckpoint SettlementCodec SettlementReceipt ZekoSettlement
open EthereumZekoBridge BridgeSystem ReferenceHashes ReferenceDeployment SettlementRuns
open InnerActionRanges OpenZeppelin

section Guest

variable (H : Hashes)

/-- A node of the registry tree. -/
def registryNode (left right : StepField) : StepField :=
  hashWithPrefix H "Ethereum asset registry node V1" [left, right]

/-- The root of the registry tree with the given record leaves in its first slots
and empty slots behind them. -/
def registryRootOf (leaves : List StepField) : Bytes32 :=
  fieldToBytes (treeRoot (registryNode H) assetRegistryTreeDepth (padded 0 leaves))

/-- The leaf of a record, zero if the record has none. -/
def recordLeaf (record : CanonicalAssetRecordV1) : StepField :=
  (hashRegistryRecordLeaf H record).toOption.getD 0

/-- The siblings of a path, none if one of them is not canonical. -/
def pathSiblings (path : List Bytes32) : List StepField :=
  (path.mapM fieldFromBytes).toOption.getD []

/-- A record with its path, as leaf and siblings. -/
def registryAppend (record : CanonicalAssetRecordV1) (path : List Bytes32) :
    StepField × List StepField := (recordLeaf H record, pathSiblings path)

/-- What a witness says about the registry: where it starts and what it appends. -/
structure RegistryClaim where
  /-- Root before the appends. -/
  oldRoot : Bytes32
  /-- Number of records before the appends. -/
  oldCount : BitVec 32
  /-- The appended leaves with the siblings of their slots. -/
  appends : List (StepField × List StepField)

/-- The registry part of a witness. -/
def registryClaim (witness : SettlementWitnessV1) : Option RegistryClaim :=
  match witness.assetRegistryCheckpoint, witness.assetRegistryBatch with
  | some checkpoint, none => some ⟨checkpoint.oldRoot, checkpoint.oldCount,
      [registryAppend H checkpoint.record checkpoint.appendPath]⟩
  | none, some checkpoint => some ⟨checkpoint.oldRoot, checkpoint.oldCount,
      checkpoint.appends.map fun append => registryAppend H append.record append.appendPath⟩
  | _, _ => none

/-- The guest replayed the claimed appends to the given root and count. -/
structure RegistryReplayed (claim : RegistryClaim) (newRoot : Bytes32) (newCount : BitVec 32) :
    Prop where
  /-- From the field element behind the old root, the appends reach the new root. -/
  replayed : ∀ root, fieldToBytes root = claim.oldRoot → ∃ final,
    AppendsFrom (registryNode H) 0 claim.oldCount.toNat root claim.appends final ∧
      fieldToBytes final = newRoot
  /-- Every path has the depth of the tree. -/
  depth : ∀ append ∈ claim.appends, append.2.length = assetRegistryTreeDepth
  /-- The count grows by the number of appends. -/
  counted : newCount.toNat = claim.oldCount.toNat + claim.appends.length
  /-- There is something to append. -/
  nonempty : claim.appends ≠ []

variable {H}

/-- A root is recomputed exactly from a path whose siblings are canonical, along
these siblings. -/
theorem registryImpliedRoot_iff {current root : StepField} {index : ℕ} {path : List Bytes32} :
    registryImpliedRoot H current index path = .ok root ↔
      ∃ siblings, path.mapM fieldFromBytes = .ok siblings ∧
        pathRoot (registryNode H) current index siblings = root := by
  induction path generalizing current index with
  | nil =>
    rw [registryImpliedRoot, pure_eq_ok]
    constructor
    · intro h
      exact ⟨[], rfl, h⟩
    · rintro ⟨siblings, hread, hroot⟩
      rw [List.mapM_nil, pure_eq_ok] at hread
      subst hread
      exact hroot
  | cons sibling path ih =>
    have hnode : ∀ first, hashWithPrefix H "Ethereum asset registry node V1"
        (if index % 2 = 0 then [current, first] else [first, current]) =
          registryNode H (pathPair current index first).1 (pathPair current index first).2 := by
      intro first
      rw [pathPair, registryNode]
      by_cases hparity : index % 2 = 0
      · rw [if_pos hparity, if_pos hparity]
      · rw [if_neg hparity, if_neg hparity]
    simp only [registryImpliedRoot, bind_eq_ok, List.mapM_cons, pure_eq_ok, hnode, ih]
    constructor
    · rintro ⟨first, hfirst, siblings, hread, hroot⟩
      exact ⟨first :: siblings, ⟨first, hfirst, siblings, hread, rfl⟩, hroot⟩
    · rintro ⟨_, ⟨first, hfirst, siblings, hread, rfl⟩, hroot⟩
      exact ⟨first, hfirst, siblings, hread, hroot⟩

/-- A recomputed root is the root along the path's siblings. -/
theorem registryImpliedRoot_eq_ok {current root : StepField} {index : ℕ} {path : List Bytes32}
    (h : registryImpliedRoot H current index path = .ok root) :
    path.mapM fieldFromBytes = .ok (pathSiblings path) ∧
      pathRoot (registryNode H) current index (pathSiblings path) = root := by
  obtain ⟨siblings, hread, hroot⟩ := registryImpliedRoot_iff.mp h
  have hsiblings : pathSiblings path = siblings := by
    rw [pathSiblings, hread]
    rfl
  rw [hsiblings]
  exact ⟨hread, hroot⟩

/-- A path of readable siblings has as many of them as it has words. -/
theorem pathSiblings_length {path : List Bytes32}
    (h : path.mapM fieldFromBytes = .ok (pathSiblings path)) :
    (pathSiblings path).length = path.length :=
  (mapM_eq_ok.mp h).length_eq.symm

/-- A computed leaf is the record's leaf. -/
theorem recordLeaf_eq {record : CanonicalAssetRecordV1} {leaf : StepField}
    (h : hashRegistryRecordLeaf H record = .ok leaf) : recordLeaf H record = leaf := by
  rw [recordLeaf, h]
  rfl

/-- One replayed append: the old root opens an empty slot, and the leaf in its
place gives the new one. -/
theorem append_replayed {record : CanonicalAssetRecordV1} {path : List Bytes32}
    {index : ℕ} {oldRoot newRoot leaf : StepField}
    (hpath : path.length = assetRegistryTreeDepth)
    (hold : registryImpliedRoot H 0 index path = .ok oldRoot)
    (hleaf : hashRegistryRecordLeaf H record = .ok leaf)
    (hnew : registryImpliedRoot H leaf index path = .ok newRoot) :
    pathRoot (registryNode H) 0 index (registryAppend H record path).2 = oldRoot ∧
      pathRoot (registryNode H) (registryAppend H record path).1 index
        (registryAppend H record path).2 = newRoot ∧
      (registryAppend H record path).2.length = assetRegistryTreeDepth := by
  obtain ⟨hread, hopened⟩ := registryImpliedRoot_eq_ok hold
  obtain ⟨-, hput⟩ := registryImpliedRoot_eq_ok hnew
  rw [registryAppend, recordLeaf_eq hleaf]
  refine ⟨hopened, hput, ?_⟩
  rw [pathSiblings_length hread, hpath]

/-- What the append loop checks of one append by itself. -/
structure AppendChecked (H : Hashes) (schemaVersion : BitVec 32) (chainId : BitVec 64)
    (bridgeAddress : Address) (append : AssetRegistryAppendV1) (index : ℕ) : Prop where
  /-- The path has the depth of the tree. -/
  depth : append.appendPath.length = assetRegistryTreeDepth
  /-- Its siblings are canonical. -/
  siblings : append.appendPath.mapM fieldFromBytes = .ok (pathSiblings append.appendPath)
  /-- The record has the schema of the checkpoint. -/
  schema : append.record.schemaVersion = schemaVersion
  /-- It stands at the expected index. -/
  indexed : append.record.registryIndex.toNat = index
  /-- It is a canonical record of the bridge. -/
  canonical : validateCanonicalAssetRecord H append.record chainId bridgeAddress = .ok ()
  /-- It has a leaf. -/
  leaf : hashRegistryRecordLeaf H append.record = .ok (recordLeaf H append.record)

/-- A record's index with its two commitments. -/
def recordIdentity (H : Hashes) (record : CanonicalAssetRecordV1) : RecordIdentity :=
  ⟨record.registryIndex, hashCanonicalAssetRecord H record, fieldToBytes (recordLeaf H record)⟩

/-- The append loop checks every append at its place and returns the identities of
the records. -/
theorem validateRegistryAppends_checked {checkpoint : AssetRegistryBatchCheckpointV4}
    {chainId : BitVec 64} {bridgeAddress : Address} {offset : ℕ} {runningRoot : Bytes32}
    {appends : List AssetRegistryAppendV1} {result : Bytes32 × List RecordIdentity}
    (h : validateRegistryAppends H checkpoint chainId bridgeAddress offset runningRoot appends =
      .ok result) :
    (∀ i (hi : i < appends.length), AppendChecked H checkpoint.schemaVersion chainId bridgeAddress
      appends[i] (checkpoint.oldCount.toNat + offset + i)) ∧
    result.2 = appends.map (recordIdentity H ·.record) := by
  induction appends generalizing offset runningRoot result with
  | nil =>
    rw [validateRegistryAppends, pure_eq_ok] at h
    rw [← h]
    exact ⟨fun i hi => absurd hi (Nat.not_lt_zero i), rfl⟩
  | cons append appends ih =>
    simp only [validateRegistryAppends, validateRegistryAppend, bind_eq_ok, require_eq_ok,
      exists_const, pure_eq_ok] at h
    obtain ⟨hoffset, index, hadded, next, ⟨hpath, hschema, hindex, u, hvalid, oldRoot, hold, -, leaf,
      hleaf, -⟩, commitment, hcommitment, rest, hrest, rfl⟩ := h
    have hsum := checkedAdd_eq_ok.mp hadded
    rw [BitVec.toNat_ofNat, Nat.mod_eq_of_lt hoffset] at hsum
    have hrecord := recordLeaf_eq hcommitment
    obtain ⟨hchecked, hidentities⟩ := ih hrest
    refine ⟨?_, ?_⟩
    · intro i hi
      cases i with
      | zero =>
        exact ⟨hpath, (registryImpliedRoot_eq_ok hold).1, hschema, by
          rw [List.getElem_cons_zero, hindex, hsum, Nat.add_zero], hvalid, by
          rw [List.getElem_cons_zero, hrecord, hcommitment]⟩
      | succ i =>
        have hplace : checkpoint.oldCount.toNat + offset + (i + 1) =
            checkpoint.oldCount.toNat + (offset + 1) + i := by omega
        rw [hplace]
        exact hchecked i (Nat.lt_of_succ_lt_succ hi)
    · rw [List.map_cons, recordIdentity, hrecord, hindex, hidentities]

/-- The append loop replays its appends from the running root on. -/
theorem validateRegistryAppends_replayed {checkpoint : AssetRegistryBatchCheckpointV4}
    {chainId : BitVec 64} {bridgeAddress : Address} {offset : ℕ} {runningRoot : Bytes32}
    {appends : List AssetRegistryAppendV1} {result : Bytes32 × List RecordIdentity}
    (h : validateRegistryAppends H checkpoint chainId bridgeAddress offset runningRoot appends =
      .ok result) :
    (∀ root, fieldToBytes root = runningRoot → ∃ final,
      AppendsFrom (registryNode H) 0 (checkpoint.oldCount.toNat + offset) root
        (appends.map fun append => registryAppend H append.record append.appendPath) final ∧
        fieldToBytes final = result.1) ∧
    (∀ append ∈ appends.map fun append => registryAppend H append.record append.appendPath,
      append.2.length = assetRegistryTreeDepth) ∧
    result.2.length = appends.length := by
  induction appends generalizing offset runningRoot result with
  | nil =>
    rw [validateRegistryAppends, pure_eq_ok] at h
    rw [← h]
    refine ⟨?_, by simp, rfl⟩
    intro root hroot
    exact ⟨root, rfl, hroot⟩
  | cons append appends ih =>
    simp only [validateRegistryAppends, validateRegistryAppend, bind_eq_ok, require_eq_ok,
      exists_const, pure_eq_ok] at h
    obtain ⟨hoffset, index, hindex, next, ⟨hpath, -, -, u, -, oldRoot, hold, hsame, leaf, hleaf,
      newRoot, hnew, rfl⟩, commitment, -, rest, hrest, rfl⟩ := h
    have hnat : index.toNat = checkpoint.oldCount.toNat + offset := by
      rw [checkedAdd_eq_ok.mp hindex, BitVec.toNat_ofNat, Nat.mod_eq_of_lt hoffset]
    rw [hnat] at hold hnew
    obtain ⟨hopened, hput, hdepth⟩ := append_replayed hpath hold hleaf hnew
    obtain ⟨hreplayed, hdepths, hcount⟩ := ih hrest
    refine ⟨?_, ?_, by rw [List.length_cons, List.length_cons, hcount]⟩
    · intro root hroot
      obtain ⟨final, hfinal, hlast⟩ := hreplayed newRoot rfl
      refine ⟨final, ?_, hlast⟩
      rw [List.map_cons, AppendsFrom, hopened, hput]
      exact ⟨fieldToBytes_injective (hsame.trans hroot.symm), hfinal⟩
    · intro other hother
      rw [List.map_cons] at hother
      rcases List.mem_cons.mp hother with rfl | hlater
      · exact hdepth
      · exact hdepths other hlater

/-- A receipt of the guest belongs to a registry claim exactly when it is of the
third or fourth version, and then the guest replayed the claim. -/
theorem deriveReceiptValues_registry {appState : List StepField} {witness : SettlementWitnessV1}
    {vkHash : Bytes32} {values : SettlementPublicValues}
    (h : deriveReceiptValues H appState witness vkHash = .ok values) :
    (registryClaim H witness = none ∧ values.decoded.version ≠ 3 ∧ values.decoded.version ≠ 4) ∨
    ∃ claim, registryClaim H witness = some claim ∧
      (values.decoded.version = 3 ∨ values.decoded.version = 4) ∧
      RegistryReplayed H claim values.decoded.assetRegistryRoot
        values.decoded.assetRegistryCount ∧
      claim.appends.length = appendedRecords values.decoded := by
  rw [deriveReceiptValues, bind_eq_ok] at h
  obtain ⟨v1, -, hmatch⟩ := h
  dsimp only at hmatch
  split at hmatch
  · rename_i hcheckpoint hbatch
    rw [pure_eq_ok] at hmatch
    subst hmatch
    refine Or.inl ⟨by rw [registryClaim, hcheckpoint, hbatch], ?_, ?_⟩
    · change (1 : BitVec 16) ≠ 3
      decide
    · change (1 : BitVec 16) ≠ 4
      decide
  · rename_i hcheckpoint hbatch
    simp only [bind_eq_ok, pure_eq_ok] at hmatch
    obtain ⟨v2, -, rfl⟩ := hmatch
    refine Or.inl ⟨by rw [registryClaim, hcheckpoint, hbatch], ?_, ?_⟩
    · change (2 : BitVec 16) ≠ 3
      decide
    · change (2 : BitVec 16) ≠ 4
      decide
  · rename_i batch checkpoint _ hcheckpoint hbatch
    simp only [validateRegistryTransition, bind_eq_ok, require_eq_ok, exists_const,
      pure_eq_ok] at hmatch
    obtain ⟨⟨hpath, -, -, hindex, next, hnext, hcount, -, u, -, -, oldRoot, hold, hsame, leaf,
      hleaf, newRoot, hnew, hroot⟩, -, -, -, -, v2, -, commitment, -, rfl⟩ := hmatch
    refine Or.inr ⟨_, by rw [registryClaim, hcheckpoint, hbatch], Or.inl rfl, ?_, rfl⟩
    rw [hindex] at hold hnew
    obtain ⟨hopened, hput, hdepth⟩ := append_replayed hpath hold hleaf hnew
    refine ⟨?_, ?_, ?_, List.cons_ne_nil _ _⟩
    · intro root hstart
      refine ⟨newRoot, ?_, hroot⟩
      rw [AppendsFrom, hopened, hput]
      exact ⟨fieldToBytes_injective (hsame.trans hstart.symm), rfl⟩
    · intro append happend
      rw [List.mem_singleton.mp happend]
      exact hdepth
    · change checkpoint.count.toNat = _
      rw [hcount, checkedAdd_eq_ok.mp hnext]
      rfl
  · rename_i batch checkpoint _ hcheckpoint hbatch
    simp only [validateRegistryBatch, bind_eq_ok, require_eq_ok, exists_const,
      pure_eq_ok] at hmatch
    obtain ⟨identities, ⟨-, -, hnonempty, hcapacity, count, hcount, hsame, -, result, hresult, hroot, rfl⟩,
      batchRoot, -, v2, -, rfl⟩ := hmatch
    obtain ⟨hreplayed, hdepths, hlength⟩ := validateRegistryAppends_replayed hresult
    have hsmall : checkpoint.appends.length < 2 ^ 32 := lt_of_le_of_lt hcapacity (by decide)
    refine Or.inr ⟨_, by rw [registryClaim, hcheckpoint, hbatch], Or.inr rfl,
      ⟨?_, hdepths, ?_, ?_⟩, ?_⟩
    · intro root hstart
      obtain ⟨final, hfinal, hlast⟩ := hreplayed root hstart
      exact ⟨final, hfinal, hlast.trans hroot⟩
    · change checkpoint.count.toNat = _
      rw [hsame, checkedAdd_eq_ok.mp hcount, BitVec.toNat_ofNat, Nat.mod_eq_of_lt hsmall,
        List.length_map]
    · intro hempty
      exact hnonempty (List.map_eq_nil_iff.mp hempty)
    · change _ = (BitVec.ofNat 32 result.2.length).toNat
      rw [List.length_map, BitVec.toNat_ofNat, hlength, Nat.mod_eq_of_lt hsmall]
  all_goals exact absurd hmatch (by simp [throw_eq_ok])

end Guest

/-- The receipt that an action submits. -/
def submitted : SettlementAction → Option Bytes
  | .verifyAndUpdateRoot _ publicValues _ => some publicValues
  | _ => none

section Runs

variable {V : PicklesVerdict} (H : Hashes) (vkHash : Bytes32)
  (inputOf : Bytes → SettlementGuestInput V)

/-- The registry claim of a guest input. -/
def inputClaim (input : SettlementGuestInput V) : Option RegistryClaim :=
  input.settlement.bind (registryClaim H)

/-- The registry claim behind an accepted action, for a choice of the guest input
behind each receipt. -/
def entryClaim (entry : SettlementStorage × SettlementAction) : Option RegistryClaim :=
  (submitted entry.2).bind fun publicValues => inputClaim H (inputOf publicValues)

/-- The leaves appended in a history with their paths, oldest first. -/
def settledAppends (history : List (SettlementStorage × SettlementAction)) :
    List (StepField × List StepField) :=
  history.flatMap fun entry => (entryClaim H inputOf entry).elim [] (·.appends)

/-- The leaves of all records settled in a history, oldest first. -/
def settledLeaves (history : List (SettlementStorage × SettlementAction)) : List StepField :=
  (settledAppends H inputOf history).map (·.1)

/-- The receipt of an accepted action is what the guest commits on its input. -/
def GuestEmitted (entry : SettlementStorage × SettlementAction) : Prop :=
  ∀ publicValues, submitted entry.2 = some publicValues →
    settlementGuest H V vkHash (inputOf publicValues) = .ok publicValues

/-- The root that the next registry receipt is to start from: the stored one, or
that of the empty registry before the first receipt. -/
def currentRegistryRoot (s : SettlementStorage) : Bytes32 :=
  if s.assetRegistryCount = 0 then registryRootOf H [] else s.assetRegistryRoot

/-- The witness of a registry receipt starts at the stored root. -/
def StartsAtStoredRoot (entry : SettlementStorage × SettlementAction) : Prop :=
  ∀ claim, entryClaim H inputOf entry = some claim →
    claim.oldRoot = currentRegistryRoot H entry.1

/-- The stored registry is that of the given record leaves. -/
structure RegistrySettled (leaves : List StepField) (s : SettlementStorage) : Prop where
  /-- The count is the number of records. -/
  counted : s.assetRegistryCount.toNat = leaves.length
  /-- They fit the tree. -/
  capacity : leaves.length ≤ maxAssetRecords
  /-- The root is that of the tree of the records. -/
  root_eq : currentRegistryRoot H s = registryRootOf H leaves

/-- The pairs of the registry's paths and trees in a history. -/
def registryPairs (history : List (SettlementStorage × SettlementAction)) :
    List (StepField × StepField) :=
  appendPairs (registryNode H) 0 assetRegistryTreeDepth [] (settledAppends H inputOf history)

variable {H vkHash inputOf} {env : Environment}

/-- The appends of a history that grew by an action. -/
theorem settledAppends_concat {history : List (SettlementStorage × SettlementAction)}
    {entry : SettlementStorage × SettlementAction} :
    settledAppends H inputOf (history ++ [entry]) =
      settledAppends H inputOf history ++ (entryClaim H inputOf entry).elim [] (·.appends) := by
  rw [settledAppends, List.flatMap_append, List.flatMap_singleton]
  rfl

/-- An action without a registry claim leaves the settled leaves as they are. -/
theorem settledLeaves_concat_none {history : List (SettlementStorage × SettlementAction)}
    {entry : SettlementStorage × SettlementAction} (h : entryClaim H inputOf entry = none) :
    settledLeaves H inputOf (history ++ [entry]) = settledLeaves H inputOf history := by
  rw [settledLeaves, settledAppends_concat, h, Option.elim_none, List.append_nil, settledLeaves]

/-- A registry claim adds its leaves. -/
theorem settledLeaves_concat_some {history : List (SettlementStorage × SettlementAction)}
    {entry : SettlementStorage × SettlementAction} {claim : RegistryClaim}
    (h : entryClaim H inputOf entry = some claim) :
    settledLeaves H inputOf (history ++ [entry]) =
      settledLeaves H inputOf history ++ claim.appends.map (·.1) := by
  rw [settledLeaves, settledAppends_concat, h, Option.elim_some, List.map_append, settledLeaves]

/-- A settled registry receipt of the guest that starts at the stored root moves
it to the root of the records with its own behind them. -/
theorem receipt_continues {leaves : List StepField} {s next : SettlementStorage}
    {decoded : DecodedPublicValues} {claim : RegistryClaim}
    (h : RegistrySettled H leaves s) (hsettled : ReceiptSettled env s decoded next)
    (hversion : decoded.version = 3 ∨ decoded.version = 4)
    (hreplayed : RegistryReplayed H claim decoded.assetRegistryRoot decoded.assetRegistryCount)
    (hrecords : claim.appends.length = appendedRecords decoded)
    (hstart : claim.oldRoot = currentRegistryRoot H s)
    (hcf : CollisionFree (fun p : StepField × StepField => registryNode H p.1 p.2)
      (appendPairs (registryNode H) 0 assetRegistryTreeDepth leaves claim.appends)) :
    decoded.assetRegistryRoot = registryRootOf H (leaves ++ claim.appends.map (·.1)) ∧
      decoded.assetRegistryCount.toNat = leaves.length + claim.appends.length ∧
      leaves.length + claim.appends.length ≤ maxAssetRecords := by
  obtain ⟨hcount, hcapacity⟩ := hsettled.appended hversion
  have hcounted := hreplayed.counted
  have hsofar := h.counted
  have holdCount : claim.oldCount.toNat = leaves.length := by omega
  have hlimit : assetRegistryCapacity = maxAssetRecords := by decide
  have hroom : leaves.length + claim.appends.length ≤ maxAssetRecords := by omega
  obtain ⟨final, hfinal, hroot⟩ := hreplayed.replayed
    (treeRoot (registryNode H) assetRegistryTreeDepth (padded 0 leaves))
    (by rw [hstart, h.root_eq, registryRootOf])
  rw [holdCount] at hfinal
  refine ⟨?_, by omega, hroom⟩
  rw [← hroot, registryRootOf, ← appends_root hcf hreplayed.depth hroom hfinal]

/-- A registry receipt keeps the stored registry that of all settled records. -/
theorem RegistrySettled.settled {leaves appended : List StepField} {s next : SettlementStorage}
    {decoded : DecodedPublicValues} (hsettled : ReceiptSettled env s decoded next)
    (hversion : decoded.version = 3 ∨ decoded.version = 4)
    (hsome : appended ≠ [])
    (hroot : decoded.assetRegistryRoot = registryRootOf H (leaves ++ appended))
    (hcount : decoded.assetRegistryCount.toNat = leaves.length + appended.length)
    (hroom : leaves.length + appended.length ≤ maxAssetRecords) :
    RegistrySettled H (leaves ++ appended) next := by
  have hstoredCount : next.assetRegistryCount = decoded.assetRegistryCount := by
    rw [hsettled.assetRegistryCount_eq, settledRegistryCount]
    rcases hversion with hthree | hfour
    · rw [hthree]
      rfl
    · rw [if_pos hfour]
  have hstoredRoot : next.assetRegistryRoot = decoded.assetRegistryRoot := by
    rw [hsettled.assetRegistryRoot_eq, settledRegistryRoot]
    rcases hversion with hthree | hfour
    · rw [hthree]
      rfl
    · rw [if_pos hfour]
  have hpositive : 0 < appended.length := List.length_pos_iff.mpr hsome
  have hnonzero : next.assetRegistryCount ≠ 0 := by
    intro hzero
    rw [hstoredCount] at hzero
    rw [hzero] at hcount
    have hnone : (0 : BitVec 32).toNat = 0 := rfl
    omega
  refine ⟨?_, ?_, ?_⟩
  · rw [hstoredCount, hcount, List.length_append]
  · rw [List.length_append]
    exact hroom
  · rw [currentRegistryRoot, if_neg hnonzero, hstoredRoot, hroot]

/-- A storage with the same registry has the same records. -/
theorem RegistrySettled.kept {leaves : List StepField} {s next : SettlementStorage}
    (h : RegistrySettled H leaves s) (hroot : next.assetRegistryRoot = s.assetRegistryRoot)
    (hcount : next.assetRegistryCount = s.assetRegistryCount) : RegistrySettled H leaves next := by
  refine ⟨by rw [hcount, h.counted], h.capacity, ?_⟩
  rw [currentRegistryRoot, hroot, hcount]
  exact h.root_eq

/-- A decoded receipt of the guest belongs to a registry claim exactly when it is
of the third or fourth version, and then the guest replayed the claim. -/
theorem guest_registry {input : SettlementGuestInput V} {publicValues : Bytes}
    {decoded : DecodedPublicValues}
    (hguest : settlementGuest H V vkHash input = .ok publicValues)
    (hdecode : decodePublicValues publicValues = .ok decoded) :
    (inputClaim H input = none ∧ decoded.version ≠ 3 ∧ decoded.version ≠ 4) ∨
    ∃ claim, inputClaim H input = some claim ∧ (decoded.version = 3 ∨ decoded.version = 4) ∧
      RegistryReplayed H claim decoded.assetRegistryRoot decoded.assetRegistryCount ∧
      claim.appends.length = appendedRecords decoded := by
  obtain ⟨witness, values, hwitness, hvalues, -, rfl⟩ := settlementGuest_decoded H hguest hdecode
  have hclaim : inputClaim H input = registryClaim H witness := by
    rw [inputClaim, hwitness]
    rfl
  rw [hclaim]
  exact deriveReceiptValues_registry hvalues

/-- A receipt that the guest emits for a registry claim can be decoded. -/
theorem claim_decodes {input : SettlementGuestInput V} {publicValues : Bytes}
    {claim : RegistryClaim} (hguest : settlementGuest H V vkHash input = .ok publicValues)
    (hclaim : inputClaim H input = some claim) :
    ∃ decoded, decodePublicValues publicValues = .ok decoded := by
  rw [inputClaim, Option.bind_eq_some_iff] at hclaim
  obtain ⟨witness, hwitness, -⟩ := hclaim
  rw [settlementGuest, require_bind_eq_ok, hwitness] at hguest
  simp only [deriveReceiptBytes, bind_eq_ok, pure_eq_ok] at hguest
  obtain ⟨-, values, -, rfl⟩ := hguest
  exact ⟨values.decoded, decodePublicValues_encode values⟩

/-- A registry receipt of the guest that starts at the stored root appends exactly
its records. -/
structure RecordsAppended (H : Hashes) (leaves : List StepField) (s : SettlementStorage)
    (claim : RegistryClaim) (decoded : DecodedPublicValues) : Prop where
  /-- The stored registry is that of the records so far. -/
  before : RegistrySettled H leaves s
  /-- The receipt's root is that of the records with its own in the next slots. -/
  root_eq : decoded.assetRegistryRoot = registryRootOf H (leaves ++ claim.appends.map (·.1))
  /-- It appends as many records as it says. -/
  records : claim.appends.length = appendedRecords decoded
  /-- Its count is theirs. -/
  counted : decoded.assetRegistryCount.toNat = leaves.length + claim.appends.length
  /-- All of them fit the tree. -/
  capacity : leaves.length + claim.appends.length ≤ maxAssetRecords
  /-- There is at least one. -/
  nonempty : claim.appends ≠ []

section Step

variable {history : List (SettlementStorage × SettlementAction)} {s next : SettlementStorage}
  {action : SettlementAction}

/-- The pairs of a history that grew by a registry claim. -/
theorem registryPairs_concat {claim : RegistryClaim}
    (hclaim : entryClaim H inputOf (s, action) = some claim) :
    registryPairs H inputOf (history ++ [(s, action)]) = registryPairs H inputOf history ++
      appendPairs (registryNode H) 0 assetRegistryTreeDepth (settledLeaves H inputOf history)
        claim.appends := by
  rw [registryPairs, settledAppends_concat, hclaim, Option.elim_some, appendPairs_append,
    List.nil_append]
  rfl

/-- The pairs of a history are among those of a longer one. -/
theorem registryPairs_subset (history later : List (SettlementStorage × SettlementAction)) :
    registryPairs H inputOf history ⊆ registryPairs H inputOf (history ++ later) := by
  rw [registryPairs, registryPairs, settledAppends, settledAppends, List.flatMap_append,
    appendPairs_append]
  exact List.subset_append_left _ _

/-- A settled receipt with a registry claim appends exactly its records. -/
theorem records_appended {ctx : CallContext} {publicValues proofBytes : Bytes}
    {decoded : DecodedPublicValues} {claim : RegistryClaim}
    (h : RegistrySettled H (settledLeaves H inputOf history) s)
    (hguest : settlementGuest H V vkHash (inputOf publicValues) = .ok publicValues)
    (hdecode : decodePublicValues publicValues = .ok decoded)
    (hsettled : ReceiptSettled env s decoded next)
    (hclaim : inputClaim H (inputOf publicValues) = some claim)
    (hstart : claim.oldRoot = currentRegistryRoot H s)
    (hcf : CollisionFree (fun p : StepField × StepField => registryNode H p.1 p.2)
      (registryPairs H inputOf
        (history ++ [(s, .verifyAndUpdateRoot ctx publicValues proofBytes)]))) :
    (decoded.version = 3 ∨ decoded.version = 4) ∧
      RecordsAppended H (settledLeaves H inputOf history) s claim decoded := by
  rcases guest_registry hguest hdecode with ⟨hnone, -⟩ | ⟨other, hother, hversion, hreplayed, hrecords⟩
  · rw [hclaim] at hnone
    cases hnone
  · rw [hclaim] at hother
    obtain rfl := Option.some.inj hother
    have hentry : entryClaim H inputOf (s, .verifyAndUpdateRoot ctx publicValues proofBytes) =
        some claim := hclaim
    rw [registryPairs_concat hentry] at hcf
    obtain ⟨hroot, hcount, hroom⟩ := receipt_continues h hsettled hversion hreplayed hrecords hstart
      (hcf.mono (List.subset_append_right _ _))
    exact ⟨hversion, h, hroot, hrecords, hcount, hroom, hreplayed.nonempty⟩

/-- An accepted action whose receipt the guest emitted from the stored root keeps
the stored registry that of all settled records. -/
theorem RegistrySettled.effect (h : RegistrySettled H (settledLeaves H inputOf history) s)
    (hguest : GuestEmitted H vkHash inputOf (s, action))
    (hstart : StartsAtStoredRoot H inputOf (s, action))
    (hcf : CollisionFree (fun p : StepField × StepField => registryNode H p.1 p.2)
      (registryPairs H inputOf (history ++ [(s, action)])))
    (heffect : ActionEffect env s action next) :
    RegistrySettled H (settledLeaves H inputOf (history ++ [(s, action)])) next := by
  cases heffect with
  | administer kind administered =>
    obtain ⟨_, _, _, rfl⟩ := administered
    have hnone : entryClaim H inputOf (s, action) = none := by
      cases hsubmitted : submitted action with
      | none =>
        rw [entryClaim, hsubmitted]
        rfl
      | some publicValues =>
        rw [entryClaim, hsubmitted, Option.bind_some, Option.eq_none_iff_forall_ne_some]
        intro claim hclaim
        obtain ⟨decoded, hdecode⟩ := claim_decodes (hguest publicValues hsubmitted) hclaim
        cases action <;> cases hsubmitted
        rw [SettlementAction.receipt, hdecode] at kind
        cases kind
    rw [settledLeaves_concat_none hnone]
    exact h.kept rfl rfl
  | append appended =>
    rw [settledLeaves_concat_none rfl]
    exact h.kept appended.assetRegistryRoot_eq appended.assetRegistryCount_eq
  | @settle ctx publicValues proofBytes decoded _ decode settled =>
    have hemitted := hguest publicValues rfl
    rcases guest_registry hemitted decode with ⟨hnone, hthree, hfour⟩ | ⟨claim, hclaim, -⟩
    · have hentry : entryClaim H inputOf (s, .verifyAndUpdateRoot ctx publicValues proofBytes) =
          none := hnone
      rw [settledLeaves_concat_none hentry]
      apply h.kept
      · rw [settled.assetRegistryRoot_eq, settledRegistryRoot, if_neg hfour, if_neg hthree]
      · rw [settled.assetRegistryCount_eq, settledRegistryCount, if_neg hfour, if_neg hthree]
    · obtain ⟨hversion, happended⟩ := records_appended h hemitted decode settled hclaim
        (hstart claim hclaim) hcf
      have hleaves : claim.appends.map (·.1) ≠ [] := fun hempty =>
        happended.nonempty (List.map_eq_nil_iff.mp hempty)
      have hlength : (claim.appends.map (·.1)).length = claim.appends.length := List.length_map _
      have hentry : entryClaim H inputOf (s, .verifyAndUpdateRoot ctx publicValues proofBytes) =
          some claim := hclaim
      rw [settledLeaves_concat_some hentry]
      exact RegistrySettled.settled settled hversion hleaves happended.root_eq
        (by rw [hlength]; exact happended.counted) (by rw [hlength]; exact happended.capacity)

end Step

/-- A freshly initialized contract has no record. -/
theorem start_registrySettled (d : SettlementDeployment env) : RegistrySettled H [] d.start := by
  have hcounted : d.start.assetRegistryCount.toNat = 0 := (start_sound d).counted
  have hzero : d.start.assetRegistryCount = 0 := BitVec.eq_of_toNat_eq hcounted
  refine ⟨hcounted, Nat.zero_le _, ?_⟩
  rw [currentRegistryRoot, if_pos hzero]

/-- The stored registry is that of all settled records, after every run with
receipts of the guest that start at the stored root. -/
theorem reached_registrySettled (d : SettlementDeployment env) (actions : List SettlementAction)
    (hguest : ∀ entry ∈ d.history actions, GuestEmitted H vkHash inputOf entry)
    (hstart : ∀ entry ∈ d.history actions, StartsAtStoredRoot H inputOf entry)
    (hcf : CollisionFree (fun p : StepField × StepField => registryNode H p.1 p.2)
      (registryPairs H inputOf (d.history actions))) :
    RegistrySettled H (settledLeaves H inputOf (d.history actions)) (d.reached actions) := by
  have hall : CollisionFree (fun p : StepField × StepField => registryNode H p.1 p.2)
        (registryPairs H inputOf (d.history actions)) →
      RegistrySettled H (settledLeaves H inputOf (d.history actions)) (d.reached actions) :=
    history_invariant (J := fun history s =>
        CollisionFree (fun p : StepField × StepField => registryNode H p.1 p.2)
          (registryPairs H inputOf history) →
        RegistrySettled H (settledLeaves H inputOf history) s)
      (Q := fun entry => GuestEmitted H vkHash inputOf entry ∧ StartsAtStoredRoot H inputOf entry)
      (fun history s action next hs hentry hnext hpairs =>
        (hs (hpairs.mono (registryPairs_subset history [(s, action)]))).effect hentry.1 hentry.2
          hpairs (act_effect hnext))
      actions [] (fun _ => start_registrySettled d)
      (fun entry hentry => ⟨hguest entry hentry, hstart entry hentry⟩)
  exact hall hcf

/-- Over every run of the settlement contract whose accepted receipts the guest
emitted, with any witnesses, and in which the witness of every registry receipt
starts at the stored root: every registry receipt moves the stored root of the
records so far to the root with exactly its own records in the next slots, and
the stored root is that of all settled records. -/
theorem registry_continuity (d : SettlementDeployment env) (actions : List SettlementAction)
    (hguest : ∀ entry ∈ d.history actions, GuestEmitted H vkHash inputOf entry)
    (hstart : ∀ entry ∈ d.history actions, StartsAtStoredRoot H inputOf entry)
    (hcf : CollisionFree (fun p : StepField × StepField => registryNode H p.1 p.2)
      (registryPairs H inputOf (d.history actions))) :
    (∀ earlier s action later decoded,
      d.history actions = earlier ++ (s, action) :: later → action.receipt = some decoded →
      decoded.version = 3 ∨ decoded.version = 4 →
      ∃ claim, entryClaim H inputOf (s, action) = some claim ∧
        RecordsAppended H (settledLeaves H inputOf earlier) s claim decoded) ∧
    RegistrySettled H (settledLeaves H inputOf (d.history actions)) (d.reached actions) := by
  refine ⟨?_, reached_registrySettled d actions hguest hstart hcf⟩
  intro earlier s action later decoded hhistory hreceipt hversion
  obtain ⟨before, after, -, hearlier, hreached, next, hnext⟩ := accepted_before hhistory
  have hmem : ∀ entry ∈ earlier, entry ∈ d.history actions := by
    intro entry hentry
    rw [hhistory]
    exact List.mem_append_left _ hentry
  have hself : (s, action) ∈ d.history actions := by
    rw [hhistory]
    exact List.mem_append_right _ List.mem_cons_self
  have hsplit : d.history actions = earlier ++ [(s, action)] ++ later := by
    rw [hhistory, List.append_assoc, List.singleton_append]
  have hupto : CollisionFree (fun p : StepField × StepField => registryNode H p.1 p.2)
      (registryPairs H inputOf (earlier ++ [(s, action)])) := by
    rw [hsplit] at hcf
    exact hcf.mono (registryPairs_subset _ _)
  have hsettled : RegistrySettled H (settledLeaves H inputOf earlier) s := by
    have hbeforeHistory : d.history before = earlier := hearlier
    have hreach : d.reached before = s := hreached
    have hemitted : ∀ entry ∈ d.history before, GuestEmitted H vkHash inputOf entry := by
      rw [hbeforeHistory]
      exact fun entry hentry => hguest entry (hmem entry hentry)
    have hstarted : ∀ entry ∈ d.history before, StartsAtStoredRoot H inputOf entry := by
      rw [hbeforeHistory]
      exact fun entry hentry => hstart entry (hmem entry hentry)
    have hpairs : CollisionFree (fun p : StepField × StepField => registryNode H p.1 p.2)
        (registryPairs H inputOf (d.history before)) := by
      rw [hbeforeHistory]
      exact hupto.mono (registryPairs_subset _ _)
    have hbefore := reached_registrySettled d before hemitted hstarted hpairs
    rw [hbeforeHistory, hreach] at hbefore
    exact hbefore
  have heffect := act_effect hnext
  cases heffect with
  | administer kind _ =>
    rw [kind] at hreceipt
    cases hreceipt
  | append appended => cases hreceipt
  | @settle ctx publicValues proofBytes other _ decode settled =>
    rw [SettlementAction.receipt, decode] at hreceipt
    obtain rfl := Option.some.inj hreceipt
    have hemitted := hguest _ hself publicValues rfl
    rcases guest_registry hemitted decode with ⟨-, hthree, hfour⟩ | ⟨claim, hclaim, -⟩
    · exact absurd hversion (not_or.mpr ⟨hthree, hfour⟩)
    · exact ⟨claim, hclaim, (records_appended hsettled hemitted decode settled hclaim
        (hstart _ hself claim hclaim) hupto).2⟩

end Runs

/-- The roots of the empty subtrees below each level of the registry. -/
def emptySubtrees : List Bytes32 :=
  [0,
   0x0c2685eeb6fe3d201d2fbb109ab0e06a938bab086daa22064d26515acc6ee3e5,
   0x02eb0b3212398f6a0593222084e18eeb4aa30c385304a5cfe91f86b0fbe6ed74,
   0x213a1b03b5031b037ac8dc5c09c00df82889b687bb7a231a7b38d147969b234f,
   0x06136862c819821ee5432bda5a7504c25263fa410f4b5989507da0429b52f4ca,
   0x371d18fef6708d6b7a8eeb051c10b84f19a967dbb5b252f7e37bf5ab5f8108fd,
   0x2c56993da3307d3ea98295dd5fb9cb7f26fa243e81be22f21aa4dee610a14abf,
   0x3a816c9e13089667861ad93244b317daaf9d2fe5b17b4e1c7ab316d292d89e78]

/-- The root of the empty registry. -/
def emptyRegistryRoot : Bytes32 := 0x053ddb2b7fff7dfab3c8083ab7074a877dacb774ec05b6d7c30fb477c7de4fb6

/-- The root behind the first record. -/
def firstRegistryRoot : Bytes32 := 0x0763fbc59c9dbdbe8025fd56c7fb4265edadc491705a6c7ac4b9e1527936ea0c

/-- A second record, for the second slot. -/
def secondRecord : CanonicalAssetRecordV1 := { assetRecord with registryIndex := 1 }

/-- The Keccak hash of the second record. -/
def secondRecordHash : Bytes32 := 0x67e5dc5cc35feefabc7337a5da13daef0345650401ef6bffb8695cfbc7177f7c

/-- The registry leaf of the second record. -/
def secondCommitment : Bytes32 := 0x2e1141b88f2ff2fed85180feb2987c6bfd98b2999ae8f97c819775559f4fc76a

/-- The first append, to the empty registry. -/
def firstAppend : AssetRegistryCheckpointV3 :=
  ⟨2, 10, firstRegistryRoot, 1, 1, checkpoint.recordHash, assetRecord, emptySubtrees,
    emptyRegistryRoot, 0⟩

/-- The second append, beside the first record. -/
def nextAppend : AssetRegistryCheckpointV3 :=
  ⟨2, 10, 0x0a4eb33635c61e3b517a2c51ed7112df717d51b2aa25026dbc5ccff3da6bd02d, 2, 1,
    secondRecordHash, secondRecord, recordCommitment :: emptySubtrees.tail, firstRegistryRoot, 1⟩

/-- The second record appended to a registry that never held the first. -/
def staleAppend : AssetRegistryCheckpointV3 :=
  ⟨2, 10, 0x09501792f52f58f5288081475044ca955d881b9f5c6f7ff7669289ce017e4e4e, 2, 1,
    secondRecordHash, secondRecord, emptySubtrees, emptyRegistryRoot, 1⟩

/-- A commit that changes nothing but the registry: its place in the outer chain,
the call data of its checkpoint and the checkpoint. -/
def registryWitness (sequence : BitVec 64) (outerState : Bytes32) (outerLength : BitVec 32)
    (callData : Bytes32) (checkpoint : AssetRegistryCheckpointV3) : SettlementWitnessV1 where
  binding := {
    minaSignatureKind := .testnet
    accountUpdateBody := ⟨List.replicate 15 0 ++
      [0x0289fe0cd4043d7a57ca84ba3fc1a81b65ff39bebd5152c612dc83ad843ba820] ++
      List.replicate 20 0 ++ [outerState], []⟩
    actions := [[0, 0, 0, 0, 1, 0, 0, 0]]
    stateBefore := ⟨fun _ => 0⟩
    callForest := [.node ⟨List.replicate 16 0 ++ [callData], []⟩ []] }
  context := ⟨1, settlementAddress, sequence, 0, outerLength⟩
  innerActionBatch := some ⟨bridgeAddress, []⟩
  assetRegistryCheckpoint := some checkpoint
  assetRegistryBatch := none

/-- The receipt of such a commit. -/
def registryReceipt (sequence : BitVec 64) (statement outerBefore outerAfter : Bytes32)
    (outerLength : BitVec 32) (checkpoint : AssetRegistryCheckpointV3) (commitment : Bytes32) :
    Bytes :=
  SettlementPublicValues.encode (.v3 {
    settlement := {
      settlement := {
        daMode := .multisig
        chainId := 1
        settlementContract := settlementAddress
        batchSequence := sequence
        vkHash := vkHash
        appStatement := statement
        minaTransactionHash := 0
        stateBefore := ⟨fun _ => 0⟩
        stateAfter := ⟨fun _ => 0⟩
        outerActionStateBefore := outerBefore
        outerActionStateAfter := outerAfter
        outerActionStateLengthBefore := outerLength
        outerActionStateLengthAfter := outerLength + 1
        synchronizedOuterActionState := 1
        synchronizedOuterActionStateLength := 0
        slotLower := 0
        slotUpper := 0 }
      bridgeAddress := bridgeAddress
      innerActionRoot := 0x54872e16c669188a5b11bfe25c18e68a03c7beeb85e135eb10edcd57fa85ed11
      innerActionStartIndex := 0
      innerActionCount := 0 }
    assetRegistryRoot := checkpoint.root
    assetRegistryCount := checkpoint.count
    assetRegistrySchemaVersion := 1
    assetRecordHash := checkpoint.recordHash
    assetRecordCommitment := commitment })

/-- The outer action state behind the first receipt. -/
def firstOuterState : Bytes32 := 0x3203de8c74267da73113e5c50719c163b583e54cbbd2a0e57a02f00cfa6ea090

/-- The outer action state behind the second receipt. -/
def secondOuterState : Bytes32 := 0x19b67a68b05467706d421501e30c69b3cbcaf15bb80171003dc7a5548570ef58

/-- The body digest of the first commit. -/
def firstStatement : Bytes32 := 0x061c71df4b9997d5d6892217ffc02769b4947415f5588af1ba3799b349554564

/-- The body digest of the second commit. -/
def secondStatement : Bytes32 := 0x3daec7f714df0072f4b89faeaee1af583a40c8d52f0d48ea933ba54556928a53

/-- The first receipt. -/
def firstReceipt : Bytes :=
  registryReceipt 1 firstStatement 1 firstOuterState 0 firstAppend recordCommitment

/-- The receipt that continues it. -/
def nextReceipt : Bytes :=
  registryReceipt 2 secondStatement firstOuterState secondOuterState 1 nextAppend secondCommitment

/-- The receipt that does not. -/
def staleReceipt : Bytes :=
  registryReceipt 2 secondStatement firstOuterState secondOuterState 1 staleAppend secondCommitment

/-- The guest input behind each of the three receipts. -/
def registryInput (publicValues : Bytes) : SettlementGuestInput anyStatement :=
  if publicValues = firstReceipt then
    ⟨[firstStatement.toNat, 0x136e029cdcbfa9e27da8c4ba45208c7573889149de1076b09ec818477326f8a9],
      some (registryWitness 1 1 0
        0x238688f8a3773cd1a3fb64446e8e41514cc64fdd4e525f50575c07bdb59b414e firstAppend)⟩
  else if publicValues = nextReceipt then
    ⟨[secondStatement.toNat, 0x16d3a759c8de597f98b0f914a5ab7b0ee9df7f42688115e95213bb111c759826],
      some (registryWitness 2 firstOuterState 1
        0x0be3294634325273e6fb267befa344262d1cc4d3a0974144be63f39c6a97e584 nextAppend)⟩
  else
    ⟨[secondStatement.toNat, 0x346edc60473800aea60d54ce39fdf8ab231b35c8bc35cffd7c4b88d26dcc856e],
      some (registryWitness 2 firstOuterState 1
        0x38704b7130803ba3bd236a7ef4dcc8d457ee2fe3ef882700e833db8876f19301 staleAppend)⟩

/-- The guest emits the three receipts. -/
theorem registryInput_emits : ∀ publicValues ∈ [firstReceipt, nextReceipt, staleReceipt],
    settlementGuest referenceHashes anyStatement vkHash (registryInput publicValues) =
      .ok publicValues := by
  have hfirst : settlementGuest referenceHashes anyStatement vkHash (registryInput firstReceipt) =
      .ok firstReceipt := by decide +kernel
  have hnext : settlementGuest referenceHashes anyStatement vkHash (registryInput nextReceipt) =
      .ok nextReceipt := by decide +kernel
  have hstale : settlementGuest referenceHashes anyStatement vkHash (registryInput staleReceipt) =
      .ok staleReceipt := by decide +kernel
  intro publicValues hmem
  rw [List.mem_cons, List.mem_cons, List.mem_singleton] at hmem
  rcases hmem with rfl | rfl | rfl
  · exact hfirst
  · exact hnext
  · exact hstale

/-- The surroundings: real hashes, and a verifier that accepts the three
receipts. -/
def registryEnvironment : Environment where
  hashes := referenceHashes
  chainId := 1
  settlementAddress := settlementAddress
  bridgeAddress := bridgeAddress
  accessControl := tableAccessControl
  pausable := flagPausable
  verifyProof := fun _ programVKey publicValues _ =>
    decide (programVKey = settlementVKey ∧
      publicValues ∈ [firstReceipt, nextReceipt, staleReceipt])

/-- The settlement contract in these surroundings. -/
def registryContract : SettlementDeployment registryEnvironment where
  ctx := ⟨admin, 1000⟩
  parameters := settlementParameters
  start := ((initializeSettlement registryEnvironment ⟨admin, 1000⟩
    settlementParameters).toOption.get (by decide +kernel)).1
  events := ((initializeSettlement registryEnvironment ⟨admin, 1000⟩
    settlementParameters).toOption.get (by decide +kernel)).2
  deployed := eq_ok_get (by decide +kernel)

/-- Name the bridge and submit the first receipt and another one. -/
def registryRun (second : Bytes) : List SettlementAction :=
  [.setBridgeContract ⟨admin, 1000⟩ bridgeAddress,
   .verifyAndUpdateRoot ⟨admin, 1000⟩ firstReceipt [],
   .verifyAndUpdateRoot ⟨admin, 1000⟩ second []]

/-- The field element of a digest. -/
def digestField (digest : Bytes32) : StepField := digest.toNat

/-- The leaves of both records. -/
def bothLeaves : List StepField := [recordCommitment, secondCommitment].map digestField

/-- Both runs consist of receipts of the guest. -/
theorem registryRun_emitted {second : Bytes} (hsecond : second ∈ [nextReceipt, staleReceipt]) :
    ∀ entry ∈ registryContract.history (registryRun second),
      GuestEmitted referenceHashes vkHash registryInput entry := by
  intro entry hentry publicValues hsubmitted
  obtain ⟨before, after, hcalls, -⟩ := accepted_split hentry
  have haction : entry.2 ∈ registryRun second := by
    rw [hcalls]
    exact List.mem_append_right _ List.mem_cons_self
  apply registryInput_emits
  rw [registryRun, List.mem_cons, List.mem_cons, List.mem_singleton] at haction
  rcases haction with hnamed | hfirst | hother
  · rw [hnamed] at hsubmitted
    cases hsubmitted
  · rw [hfirst] at hsubmitted
    rw [← Option.some.inj hsubmitted]
    exact List.mem_cons_self
  · rw [hother] at hsubmitted
    rw [← Option.some.inj hsubmitted]
    exact List.mem_cons_of_mem _ hsecond

/-- The root of both records is the one that the continuing receipt carries. -/
theorem registryRootOf_bothLeaves :
    registryRootOf referenceHashes bothLeaves = nextAppend.root := by
  rw [registryRootOf, ← climb_root]
  decide +kernel

/-- Two receipts of the guest are accepted one after the other, and the stored
root is not that of the two settled records. -/
theorem stale_registry_accepted :
    (∀ entry ∈ registryContract.history (registryRun staleReceipt),
      GuestEmitted referenceHashes vkHash registryInput entry) ∧
    (registryContract.receipts (registryRun staleReceipt)).map (·.version) = [3, 3] ∧
    (registryContract.reached (registryRun staleReceipt)).assetRegistryRoot ≠
      registryRootOf referenceHashes (settledLeaves referenceHashes registryInput
        (registryContract.history (registryRun staleReceipt))) := by
  have hrun : (registryContract.receipts (registryRun staleReceipt)).map (·.version) = [3, 3] ∧
      settledLeaves referenceHashes registryInput
        (registryContract.history (registryRun staleReceipt)) = bothLeaves ∧
      (registryContract.reached (registryRun staleReceipt)).assetRegistryRoot =
        staleAppend.root := by decide +kernel
  refine ⟨registryRun_emitted (List.mem_cons_of_mem _ List.mem_cons_self), hrun.1, ?_⟩
  rw [hrun.2.1, hrun.2.2, registryRootOf_bothLeaves]
  decide

/-- The roots of the subtrees that hold the first record. -/
def firstSubtrees : List Bytes32 :=
  [recordCommitment,
   0x158baf92d0fdb7e73bb3b4f27a754db3e768d474215e2fb9368d29e56d05b0a1,
   0x10766ef632d538307f3150f3090cebcd6c2dd0798d88ed04b5bd24d746211831,
   0x243c730e002197a653d05002273542ce6c86bd8e6d762b823085d19b93d8fc34,
   0x297edd11f60e7ffd136283ec9130065a52c5d97d5df16959c8e2ea085d8e2a4b,
   0x29d3bedbeb9f323a270af876183c2ed18e7fe7067523a4016e94341ab5b24a7d,
   0x331dc82ac9b306b1db75885ef9981bb9e5721bc0602c933f2a3108bad15e71d6,
   0x1ee82bf05c0529ff04a5000caa8ffd80289e8313e91013d9cb396e9a48ada64a]

/-- The pairs of the continuing run: those above the first slot of the empty tree,
and those above the second slot beside the first record. -/
def continuedPairs : List (StepField × StepField) :=
  (emptySubtrees.zip emptySubtrees ++ firstSubtrees.zip emptySubtrees).map
    fun pair => (digestField pair.1, digestField pair.2)

/-- Their digests. -/
def continuedDigests : List StepField :=
  (emptySubtrees.tail ++ [emptyRegistryRoot] ++ firstSubtrees.tail ++ [firstRegistryRoot]).map
    digestField

/-- They do not collide. -/
theorem continuedPairs_collisionFree :
    CollisionFree (fun p : StepField × StepField => registryNode referenceHashes p.1 p.2)
      continuedPairs := by
  have hdigests : continuedPairs.map (fun p => registryNode referenceHashes p.1 p.2) =
      continuedDigests ∧ continuedDigests.Nodup := by decide +kernel
  have hnodup : (continuedPairs.map fun p => registryNode referenceHashes p.1 p.2).Nodup := by
    rw [hdigests.1]
    exact hdigests.2
  exact fun x hx y hy hsame => List.inj_on_of_nodup_map hnodup hx hy hsame

/-- The appends of the continuing run. -/
def continuedAppends : List (StepField × List StepField) :=
  [(digestField recordCommitment, emptySubtrees.map digestField),
   (digestField secondCommitment, (recordCommitment :: emptySubtrees.tail).map digestField)]

/-- The continuing run appends both records, and each receipt claims the root
stored before it. -/
theorem continued_run :
    settledAppends referenceHashes registryInput
        (registryContract.history (registryRun nextReceipt)) = continuedAppends ∧
    ((registryContract.history (registryRun nextReceipt)).map fun entry =>
      ((entryClaim referenceHashes registryInput entry).map (·.oldRoot),
        entry.1.assetRegistryCount, entry.1.assetRegistryRoot)) =
      [(none, 0, 0), (some emptyRegistryRoot, 0, 0),
        (some firstRegistryRoot, 1, firstRegistryRoot)] := by
  decide +kernel

/-- The root of no records. -/
theorem registryRootOf_nil : registryRootOf referenceHashes [] = emptyRegistryRoot := by
  rw [registryRootOf, ← climb_root]
  decide +kernel

/-- Every receipt of the continuing run starts at the stored root. -/
theorem continued_starts : ∀ entry ∈ registryContract.history (registryRun nextReceipt),
    StartsAtStoredRoot referenceHashes registryInput entry := by
  intro entry hentry claim hclaim
  have hmapped := List.mem_map_of_mem (f := fun entry : SettlementStorage × SettlementAction =>
    ((entryClaim referenceHashes registryInput entry).map (·.oldRoot),
      entry.1.assetRegistryCount, entry.1.assetRegistryRoot)) hentry
  rw [continued_run.2, hclaim, Option.map_some] at hmapped
  rw [currentRegistryRoot, registryRootOf_nil]
  simp only [List.mem_cons, Prod.mk.injEq, reduceCtorEq, false_and, Option.some.injEq, false_or,
    List.not_mem_nil, or_false] at hmapped
  rcases hmapped with ⟨hroot, hcount, -⟩ | ⟨hroot, hcount, hstored⟩
  · rw [if_pos hcount, hroot]
  · rw [if_neg (by rw [hcount]; decide), hroot, hstored]

/-- The pairs of both appends do not collide. -/
theorem continuedAppends_collisionFree :
    CollisionFree (fun p : StepField × StepField => registryNode referenceHashes p.1 p.2)
      (appendPairs (registryNode referenceHashes) 0 assetRegistryTreeDepth []
        continuedAppends) := by
  have hpairs : (appendPairs (registryNode referenceHashes) 0 assetRegistryTreeDepth []
      continuedAppends).all (fun pair => decide (pair ∈ continuedPairs)) = true := by
    simp only [continuedAppends, appendPairs, treePairs_eq_sparsePairs]
    decide +kernel
  exact continuedPairs_collisionFree.mono fun pair hpair =>
    of_decide_eq_true (List.all_eq_true.mp hpairs pair hpair)

/-- The pairs of the continuing run do not collide. -/
theorem continued_collisionFree :
    CollisionFree (fun p : StepField × StepField => registryNode referenceHashes p.1 p.2)
      (registryPairs referenceHashes registryInput
        (registryContract.history (registryRun nextReceipt))) := by
  rw [registryPairs, continued_run.1]
  exact continuedAppends_collisionFree

/-- The continuing run meets every assumption, and its stored root is that of both
records. -/
theorem registry_continuity_second :
    RegistrySettled referenceHashes bothLeaves
      (registryContract.reached (registryRun nextReceipt)) := by
  have hsettled := (registry_continuity registryContract (registryRun nextReceipt)
    (registryRun_emitted List.mem_cons_self) continued_starts continued_collisionFree).2
  have hleaves : settledLeaves referenceHashes registryInput
      (registryContract.history (registryRun nextReceipt)) = bothLeaves := by
    rw [settledLeaves, continued_run.1]
    rfl
  rw [hleaves] at hsettled
  exact hsettled

end EthereumSettlement.RegistryContinuity
