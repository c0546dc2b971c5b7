import Mathlib.Data.Set.Function
import EthereumSettlement.RunInvariants

/-!
# The representation of the asset registry

The registry facet keeps six mappings and the bridge two more. Proposals and their
cancellation write the six, activations and status changes the other two and the
status. In every reachable state the mappings describe one set of live tokens: the
registry indices below the count enumerate it, and so do the used record hashes,
asset identifiers and L2 identities. No call leaves an entry behind.
-/

namespace EthereumSettlement.RegistryInvariant

open CheckedCalls TransitionRuns PastaPoseidon RegistryCheckpoint ZekoSettlement EthereumZekoBridge
open ZekoAssetRegistry BridgeSystem StepEffects

section Enumerations

variable {α β : Type*} [DecidableEq α]

/-- An enumeration is extended by a new argument with a new value. -/
theorem bijOn_update_insert {f : α → β} {s : Set α} {t : Set β} (h : Set.BijOn f s t) {a : α} {b : β}
    (ha : a ∉ s) (hb : b ∉ t) : Set.BijOn (Function.update f a b) (insert a s) (insert b t) := by
  have hkept : Set.EqOn f (Function.update f a b) s := by
    intro x hx
    have hne : x ≠ a := fun heq => ha (heq ▸ hx)
    rw [Function.update_of_ne hne]
  have hs := h.congr hkept
  have hnew := hs.insert (a := a) (by rw [Function.update_self]; exact hb)
  rw [Function.update_self] at hnew
  exact hnew

/-- An enumeration loses an argument with its value. -/
theorem bijOn_update_erase {f : α → β} {s : Set α} {t : Set β} (h : Set.BijOn f s t) {a : α}
    (ha : a ∈ s) (b : β) : Set.BijOn (Function.update f a b) (s \ {a}) (t \ {f a}) := by
  have hs := h.sdiff_singleton ha
  apply hs.congr
  intro x hx
  rw [Function.update_of_ne hx.2]

/-- The set flags after setting one. -/
theorem flags_insert (used : α → Bool) (k : α) :
    {x | Function.update used k true x = true} = insert k {x | used x = true} := by
  ext x
  by_cases hx : x = k
  · simp [hx]
  · simp [hx]

/-- The set flags after clearing one. -/
theorem flags_erase (used : α → Bool) (k : α) :
    {x | Function.update used k false x = true} = {x | used x = true} \ {k} := by
  ext x
  by_cases hx : x = k
  · simp [hx]
  · simp [hx]

end Enumerations

section Invariant

variable (env : Environment) {W : TokenWorld}

/-- The tokens with a proposal or a registration. -/
def liveTokens (registry : RegistryLayout) : Set Address :=
  {token | registry.assetStatusByToken token ≠ .none}

/-- The registry indices handed out. -/
def usedIndices (registry : RegistryLayout) : Set (BitVec 32) :=
  {index | index.toNat < registry.proposedAssetCount.toNat}

/-- The mappings of the registry describe one set of live tokens. -/
structure LayoutRepresented (registry : RegistryLayout) : Prop where
  /-- The indices below the count enumerate the live tokens. -/
  indices : Set.BijOn registry.assetTokenByRegistryIndex (usedIndices registry) (liveTokens registry)
  /-- The record of a token carries its index. -/
  index_eq : ∀ index ∈ usedIndices registry,
    (registry.assetRecordByToken (registry.assetTokenByRegistryIndex index)).registryIndex = index
  /-- The zero address is not live. -/
  zero_none : registry.assetStatusByToken 0 = .none
  /-- The record of a live token carries the token. -/
  token_eq : ∀ token ∈ liveTokens registry, (registry.assetRecordByToken token).ethereumToken = token
  /-- The used record hashes are those of the live records, one for each. -/
  recordHashes : Set.BijOn (fun token => hashAssetRecord env (registry.assetRecordByToken token))
    (liveTokens registry) {recordHash | registry.proposedAssetRecord recordHash = true}
  /-- The used asset identifiers are those of the live records, one for each. -/
  assetIds : Set.BijOn (fun token => (registry.assetRecordByToken token).assetId)
    (liveTokens registry) {assetId | registry.proposedAssetId assetId = true}
  /-- The used L2 identities are those of the live records, one for each. -/
  identities : Set.BijOn (fun token => l2Identity env (registry.assetRecordByToken token))
    (liveTokens registry) {identity | registry.proposedL2TokenIdentity identity = true}

/-- The bridge's view of a token follows its status. -/
structure PolicyRepresented (c : Chain W) : Prop where
  /-- Registered tokens were activated. -/
  registered_iff : ∀ token, token ≠ 0 → (c.bridge.canonicalTokenRegistered token = true ↔
    c.registry.assetStatusByToken token ≠ .none ∧ c.registry.assetStatusByToken token ≠ .pending)
  /-- Deposits are open for active tokens. -/
  allowed_iff : ∀ token, token ≠ 0 → ((c.bridge.allowedToken token).allowed = true ↔
    c.registry.assetStatusByToken token = .active)

/-- The representation invariant of the registry and the bridge. -/
structure RegistryRepresented (c : Chain W) : Prop where
  /-- The mappings describe one set of tokens. -/
  layout : LayoutRepresented env c.registry
  /-- The bridge follows the statuses. -/
  policy : PolicyRepresented c

variable {env}

/-- What an accepted proposal checks and writes. -/
structure ProposalRecorded (env : Environment) (c : Chain W) (record : AssetRecord) (next : Chain W) :
    Prop where
  /-- The record is well formed. -/
  wellFormed : WellFormedProposal c record
  /-- The token has no status. -/
  fresh : c.registry.assetStatusByToken record.ethereumToken = .none
  /-- The record is not proposed. -/
  recordHash_fresh : c.registry.proposedAssetRecord (hashAssetRecord env record) = false
  /-- The asset is not proposed. -/
  assetId_fresh : c.registry.proposedAssetId record.assetId = false
  /-- The Mina identity is not proposed. -/
  identity_fresh : c.registry.proposedL2TokenIdentity (l2Identity env record) = false
  /-- The token is not registered. -/
  unregistered : c.bridge.canonicalTokenRegistered record.ethereumToken = false
  /-- The bridge takes no deposits of the token. -/
  disallowed : (c.bridge.allowedToken record.ethereumToken).allowed = false
  /-- Every mapping takes the record. -/
  registry_eq : ∃ nextCount : BitVec 32, nextCount.toNat = record.registryIndex.toNat + 1 ∧
    next.registry = {
      assetRecordByToken :=
        Function.update c.registry.assetRecordByToken record.ethereumToken record
      assetTokenByRegistryIndex := Function.update c.registry.assetTokenByRegistryIndex
        record.registryIndex record.ethereumToken
      assetStatusByToken :=
        Function.update c.registry.assetStatusByToken record.ethereumToken .pending
      proposedAssetRecord :=
        Function.update c.registry.proposedAssetRecord (hashAssetRecord env record) true
      proposedAssetId := Function.update c.registry.proposedAssetId record.assetId true
      proposedL2TokenIdentity :=
        Function.update c.registry.proposedL2TokenIdentity (l2Identity env record) true
      proposedAssetCount := nextCount }
  /-- The bridge's storage is unchanged. -/
  bridge_eq : next.bridge = c.bridge

/-- An accepted proposal is recorded. -/
theorem proposeAsset_recorded {c next : Chain W} {ctx : CallContext} {record : AssetRecord}
    (h : proposeAsset env c ctx record = .ok next) : ProposalRecorded env c record next := by
  simp only [proposeAsset, onlyBridgeAdmin, bind_eq_ok, require_eq_ok, exists_const, pure_eq_ok] at h
  obtain ⟨-, hwell, ⟨hregistered, hfresh, hallowed⟩, decimals, -, -, -, hhash, hasset, hidentity,
    nextCount, hcount, rfl⟩ := h
  exact ⟨hwell, hfresh, hhash, hasset, hidentity, hregistered, hallowed,
    ⟨nextCount, checkedAdd_eq_ok.mp hcount, rfl⟩, rfl⟩

/-- What an accepted cancellation checks and writes. -/
structure CancellationRecorded (env : Environment) (c : Chain W) (token : Address) (next : Chain W) :
    Prop where
  /-- The token is pending. -/
  pending : c.registry.assetStatusByToken token = .pending
  /-- Its record has the last index. -/
  tail : (c.registry.assetRecordByToken token).registryIndex.toNat + 1 =
    c.registry.proposedAssetCount.toNat
  /-- The index points to the token. -/
  slot : c.registry.assetTokenByRegistryIndex
    (c.registry.assetRecordByToken token).registryIndex = token
  /-- Every mapping drops the record. -/
  registry_eq : next.registry = {
    assetRecordByToken := Function.update c.registry.assetRecordByToken token zeroRecord
    assetTokenByRegistryIndex := Function.update c.registry.assetTokenByRegistryIndex
      (c.registry.assetRecordByToken token).registryIndex 0
    assetStatusByToken := Function.update c.registry.assetStatusByToken token .none
    proposedAssetRecord := Function.update c.registry.proposedAssetRecord
      (hashAssetRecord env (c.registry.assetRecordByToken token)) false
    proposedAssetId := Function.update c.registry.proposedAssetId
      (c.registry.assetRecordByToken token).assetId false
    proposedL2TokenIdentity := Function.update c.registry.proposedL2TokenIdentity
      (l2Identity env (c.registry.assetRecordByToken token)) false
    proposedAssetCount := (c.registry.assetRecordByToken token).registryIndex }
  /-- The bridge's storage is unchanged. -/
  bridge_eq : next.bridge = c.bridge

/-- An accepted cancellation is recorded. -/
theorem cancelLastPendingAsset_recorded {c next : Chain W} {ctx : CallContext} {token : Address}
    (h : cancelLastPendingAsset env c ctx token = .ok next) :
    CancellationRecorded env c token next := by
  simp only [cancelLastPendingAsset, onlyBridgeAdmin, bind_eq_ok, require_eq_ok, exists_const, pure_eq_ok] at h
  obtain ⟨-, hpending, -, nextIndex, hnext, ⟨htail, hslot⟩, -, rfl⟩ := h
  have hsum := checkedAdd_eq_ok.mp hnext
  rw [htail] at hsum
  exact ⟨hpending, hsum.symm, hslot, rfl, rfl⟩

/-- What an accepted activation or status change writes for a token. -/
structure StatusRecorded (c : Chain W) (token : Address) (newStatus : AssetStatus) (next : Chain W) :
    Prop where
  /-- The token has a status. -/
  live : c.registry.assetStatusByToken token ≠ .none
  /-- The token was activated before or is now. -/
  registered : next.bridge.canonicalTokenRegistered =
    Function.update c.bridge.canonicalTokenRegistered token true
  /-- The new status is neither of those before an activation. -/
  newStatus_ne : newStatus ≠ .none ∧ newStatus ≠ .pending
  /-- Only the status changes. -/
  registry_eq : next.registry = { c.registry with
    assetStatusByToken := Function.update c.registry.assetStatusByToken token newStatus }
  /-- Deposits follow the new status. -/
  allowed_eq : ∃ config : TokenConfig, config.allowed = decide (newStatus = .active) ∧
    next.bridge.allowedToken = Function.update c.bridge.allowedToken token config

/-- The shared end of both activations records the status. -/
theorem activate_recorded {c next : Chain W} {token : Address}
    {recordHash recordCommitment registryRoot : Bytes32} {registryCount registrySchema : BitVec 32}
    (hpending : c.registry.assetStatusByToken token = .pending)
    (htoken : (c.registry.assetRecordByToken token).ethereumToken = token)
    (h : activate c (c.registry.assetRecordByToken token) recordHash recordCommitment registryRoot
      registryCount registrySchema = .ok next) : StatusRecorded c token .active next := by
  simp only [activate, activateAssetRecordFromRegistry, bind_eq_ok, require_eq_ok, exists_const,
    pure_eq_ok, htoken] at h
  obtain ⟨activated, ⟨-, -, rfl⟩, rfl⟩ := h
  refine ⟨?_, rfl, ⟨by decide, by decide⟩, rfl, _, ?_, rfl⟩
  · rw [hpending]
    decide
  · rfl

/-- An accepted activation records the status. -/
theorem activateAsset_recorded {c next : Chain W} {ctx : CallContext} {token : Address}
    {expectedRegistryRoot : Bytes32} {expectedRegistryCount : BitVec 32}
    (hc : LayoutRepresented env c.registry)
    (h : activateAsset env c ctx token expectedRegistryRoot expectedRegistryCount = .ok next) :
    StatusRecorded c token .active next := by
  simp only [activateAsset, pendingRecord, onlyBridgeAdmin, bind_eq_ok, require_eq_ok, exists_const,
    pure_eq_ok] at h
  obtain ⟨-, pending, ⟨hpending, rfl⟩, -, -, -, hactivate⟩ := h
  have hlive : token ∈ liveTokens c.registry := by
    rw [liveTokens, Set.mem_ofPred_eq, hpending]
    decide
  exact activate_recorded hpending (hc.token_eq token hlive) hactivate

/-- An accepted activation from a batch records the status. -/
theorem activateAssetFromBatch_recorded {c next : Chain W} {ctx : CallContext} {token : Address}
    {settlementSequence : BitVec 64} {recordCommitment : Bytes32} {siblings : Fin 8 → Bytes32}
    (hc : LayoutRepresented env c.registry)
    (h : activateAssetFromBatch env c ctx token settlementSequence recordCommitment siblings =
      .ok next) : StatusRecorded c token .active next := by
  simp only [activateAssetFromBatch, pendingRecord, onlyBridgeAdmin, bind_eq_ok, require_eq_ok,
    exists_const, pure_eq_ok] at h
  obtain ⟨-, pending, ⟨hpending, rfl⟩, -, -, hactivate⟩ := h
  have hlive : token ∈ liveTokens c.registry := by
    rw [liveTokens, Set.mem_ofPred_eq, hpending]
    decide
  exact activate_recorded hpending (hc.token_eq token hlive) hactivate

/-- An accepted status change records the status. -/
theorem setAssetStatus_recorded {c next : Chain W} {ctx : CallContext} {token : Address}
    {newStatus : AssetStatus} (hc : RegistryRepresented env c)
    (h : setAssetStatus env c ctx token newStatus = .ok next) :
    StatusRecorded c token newStatus next := by
  simp only [setAssetStatus, onlyBridgeAdmin, bind_eq_ok, require_eq_ok, exists_const, pure_eq_ok] at h
  obtain ⟨-, ⟨hnone, hpending, hnewNone, hnewPending⟩, rfl⟩ := h
  have hne : token ≠ 0 := by
    intro hzero
    rw [hzero] at hnone
    exact hnone hc.layout.zero_none
  have hregistered := (hc.policy.registered_iff token hne).mpr ⟨hnone, hpending⟩
  refine ⟨hnone, ?_, ⟨hnewNone, hnewPending⟩, rfl, _, ?_, rfl⟩
  · rw [← hregistered]
    exact (Function.update_eq_self token _).symm
  · rfl

/-- Giving a token a status other than none makes it live. -/
theorem live_insert (status : Address → AssetStatus) (token : Address) {newStatus : AssetStatus}
    (h : newStatus ≠ .none) : {t | Function.update status token newStatus t ≠ .none} =
      insert token {t | status t ≠ .none} := by
  ext t
  by_cases ht : t = token
  · simp [ht, h]
  · simp [ht]

/-- Clearing the status of a token removes it. -/
theorem live_erase (status : Address → AssetStatus) (token : Address) :
    {t | Function.update status token .none t ≠ .none} = {t | status t ≠ .none} \ {token} := by
  ext t
  by_cases ht : t = token
  · simp [ht]
  · simp [ht]

/-- Counting one more index adds it. -/
theorem indices_insert {count nextCount : BitVec 32} (h : nextCount.toNat = count.toNat + 1) :
    {index : BitVec 32 | index.toNat < nextCount.toNat} =
      insert count {index | index.toNat < count.toNat} := by
  ext index
  rw [Set.mem_ofPred_eq, Set.mem_insert_iff, Set.mem_ofPred_eq]
  constructor
  · intro hlt
    by_cases heq : index = count
    · exact Or.inl heq
    · have hne : index.toNat ≠ count.toNat := fun hnat => heq (BitVec.eq_of_toNat_eq hnat)
      exact Or.inr (by omega)
  · intro hor
    rcases hor with rfl | hlt
    · omega
    · omega

/-- Counting one index less removes it. -/
theorem indices_erase {count index : BitVec 32} (h : index.toNat + 1 = count.toNat) :
    {i : BitVec 32 | i.toNat < index.toNat} = {i | i.toNat < count.toNat} \ {index} := by
  rw [indices_insert h.symm, Set.insert_sdiff_of_mem _ (Set.mem_singleton _),
    Set.sdiff_singleton_eq_self]
  exact Nat.lt_irrefl _

/-- A key of the records, after the record of a token is replaced. -/
theorem key_update {κ : Type*} (key : AssetRecord → κ) (records : Address → AssetRecord)
    (token : Address) (record : AssetRecord) :
    (fun t => key (Function.update records token record t)) =
      Function.update (fun t => key (records t)) token (key record) := by
  funext t
  by_cases ht : t = token
  · rw [ht, Function.update_self, Function.update_self]
  · rw [Function.update_of_ne ht, Function.update_of_ne ht]

/-- A proposal uses its keys for its token. -/
theorem keys_proposed {key : AssetRecord → Bytes32} {records : Address → AssetRecord}
    {used : Bytes32 → Bool} {status : Address → AssetStatus} {token : Address} {record : AssetRecord}
    (h : Set.BijOn (fun t => key (records t)) {t | status t ≠ .none} {k | used k = true})
    (hfresh : status token = .none) (hunused : used (key record) = false) :
    Set.BijOn (fun t => key (Function.update records token record t))
      {t | Function.update status token .pending t ≠ .none}
      {k | Function.update used (key record) true k = true} := by
  rw [key_update, live_insert _ _ (by decide), flags_insert]
  apply bijOn_update_insert h
  · exact fun hlive => hlive hfresh
  · intro hused
    rw [Set.mem_ofPred_eq, hunused] at hused
    cases hused

/-- A cancellation frees the keys of its token. -/
theorem keys_cancelled {key : AssetRecord → Bytes32} {records : Address → AssetRecord}
    {used : Bytes32 → Bool} {status : Address → AssetStatus} {token : Address} {record : AssetRecord}
    (h : Set.BijOn (fun t => key (records t)) {t | status t ≠ .none} {k | used k = true})
    (hlive : status token ≠ .none) :
    Set.BijOn (fun t => key (Function.update records token record t))
      {t | Function.update status token .none t ≠ .none}
      {k | Function.update used (key (records token)) false k = true} := by
  rw [key_update, live_erase, flags_erase]
  exact bijOn_update_erase h hlive _

/-- A proposal keeps the mappings of the registry in line. -/
theorem LayoutRepresented.proposed {c next : Chain W} {record : AssetRecord}
    (hc : LayoutRepresented env c.registry) (h : ProposalRecorded env c record next) :
    LayoutRepresented env next.registry := by
  obtain ⟨nextCount, hcount, hregistry⟩ := h.registry_eq
  obtain ⟨-, hindex, -, htoken, -⟩ := h.wellFormed
  have hfresh := h.fresh
  have hnew : record.registryIndex ∉ usedIndices c.registry := by
    rw [hindex]
    exact Nat.lt_irrefl _
  have hdead : record.ethereumToken ∉ liveTokens c.registry := fun hlive => hlive hfresh
  rw [hregistry]
  refine ⟨?_, ?_, ?_, ?_, ?_, ?_, ?_⟩
  · rw [liveTokens, usedIndices, live_insert _ _ (by decide), indices_insert hcount, hindex]
    rw [hindex] at hnew
    exact bijOn_update_insert hc.indices hnew hdead
  · intro index hmem
    rw [usedIndices, indices_insert hcount, Set.mem_insert_iff] at hmem
    dsimp only
    by_cases hsame : index = record.registryIndex
    · rw [hsame, Function.update_self, Function.update_self]
    · have hold : index ∈ usedIndices c.registry := by
        rw [usedIndices, ← hindex]
        exact hmem.resolve_left hsame
      have hother : c.registry.assetTokenByRegistryIndex index ≠ record.ethereumToken :=
        fun heq => hdead (heq ▸ hc.indices.mapsTo hold)
      rw [Function.update_of_ne hsame, Function.update_of_ne hother]
      exact hc.index_eq index hold
  · dsimp only
    rw [Function.update_of_ne (Ne.symm htoken)]
    exact hc.zero_none
  · intro token hlive
    rw [liveTokens, live_insert _ _ (by decide), Set.mem_insert_iff] at hlive
    dsimp only
    by_cases hsame : token = record.ethereumToken
    · rw [hsame, Function.update_self]
    · rw [Function.update_of_ne hsame]
      exact hc.token_eq token (hlive.resolve_left hsame)
  · exact keys_proposed hc.recordHashes hfresh h.recordHash_fresh
  · exact keys_proposed hc.assetIds hfresh h.assetId_fresh
  · exact keys_proposed hc.identities hfresh h.identity_fresh

/-- A cancellation keeps the mappings of the registry in line. -/
theorem LayoutRepresented.cancelled {c next : Chain W} {token : Address}
    (hc : LayoutRepresented env c.registry) (h : CancellationRecorded env c token next) :
    LayoutRepresented env next.registry := by
  have hlive : token ∈ liveTokens c.registry := by
    rw [liveTokens, Set.mem_ofPred_eq, h.pending]
    decide
  have hindices := indices_erase h.tail
  have hused : (c.registry.assetRecordByToken token).registryIndex ∈ usedIndices c.registry := by
    rw [usedIndices, Set.mem_ofPred_eq, ← h.tail]
    exact Nat.lt_succ_self _
  rw [h.registry_eq]
  refine ⟨?_, ?_, ?_, ?_, ?_, ?_, ?_⟩
  · rw [liveTokens, usedIndices, live_erase, hindices]
    have herased := bijOn_update_erase hc.indices hused 0
    rw [h.slot] at herased
    exact herased
  · intro index hmem
    rw [usedIndices, hindices] at hmem
    obtain ⟨hold, hne⟩ := hmem
    have hother : c.registry.assetTokenByRegistryIndex index ≠ token := by
      intro heq
      have hsame := hc.index_eq index hold
      rw [heq] at hsame
      exact hne hsame.symm
    have hindex : index ≠ (c.registry.assetRecordByToken token).registryIndex := hne
    dsimp only
    rw [Function.update_of_ne hindex, Function.update_of_ne hother]
    exact hc.index_eq index hold
  · dsimp only
    by_cases hzero : 0 = token
    · rw [hzero, Function.update_self]
    · rw [Function.update_of_ne hzero]
      exact hc.zero_none
  · intro other hmem
    rw [liveTokens, live_erase] at hmem
    obtain ⟨hother, hne⟩ := hmem
    have hne' : other ≠ token := hne
    dsimp only
    rw [Function.update_of_ne hne']
    exact hc.token_eq other hother
  · exact keys_cancelled hc.recordHashes hlive
  · exact keys_cancelled hc.assetIds hlive
  · exact keys_cancelled hc.identities hlive

/-- A change of status among live tokens keeps the mappings of the registry in
line. -/
theorem LayoutRepresented.statusRecorded {c next : Chain W} {token : Address}
    {newStatus : AssetStatus} (hc : LayoutRepresented env c.registry)
    (h : StatusRecorded c token newStatus next) : LayoutRepresented env next.registry := by
  have hlive : {t | Function.update c.registry.assetStatusByToken token newStatus t ≠ .none} =
      liveTokens c.registry := by
    rw [live_insert _ _ h.newStatus_ne.1]
    exact Set.insert_eq_of_mem h.live
  rw [h.registry_eq]
  refine ⟨?_, hc.index_eq, ?_, ?_, ?_, ?_, ?_⟩
  · rw [liveTokens, hlive]
    exact hc.indices
  · have hne : 0 ≠ token := fun hzero => h.live (hzero ▸ hc.zero_none)
    dsimp only
    rw [Function.update_of_ne hne]
    exact hc.zero_none
  · rw [liveTokens, hlive]
    exact hc.token_eq
  · rw [liveTokens, hlive]
    exact hc.recordHashes
  · rw [liveTokens, hlive]
    exact hc.assetIds
  · rw [liveTokens, hlive]
    exact hc.identities

/-- A proposal keeps the bridge's view: its token is neither registered nor allowed. -/
theorem PolicyRepresented.proposed {c next : Chain W} {record : AssetRecord}
    (hc : PolicyRepresented c) (h : ProposalRecorded env c record next) : PolicyRepresented next := by
  obtain ⟨nextCount, -, hregistry⟩ := h.registry_eq
  constructor
  · intro token hne
    rw [h.bridge_eq, hregistry]
    dsimp only
    by_cases hsame : token = record.ethereumToken
    · rw [hsame, Function.update_self, h.unregistered]
      decide
    · rw [Function.update_of_ne hsame]
      exact hc.registered_iff token hne
  · intro token hne
    rw [h.bridge_eq, hregistry]
    dsimp only
    by_cases hsame : token = record.ethereumToken
    · rw [hsame, Function.update_self, h.disallowed]
      decide
    · rw [Function.update_of_ne hsame]
      exact hc.allowed_iff token hne

/-- A cancellation keeps the bridge's view: its token was pending. -/
theorem PolicyRepresented.cancelled {c next : Chain W} {token : Address}
    (hc : PolicyRepresented c) (h : CancellationRecorded env c token next) :
    PolicyRepresented next := by
  constructor
  · intro other hne
    rw [h.bridge_eq, h.registry_eq]
    dsimp only
    by_cases hsame : other = token
    · have hold := hc.registered_iff token (hsame ▸ hne)
      rw [hsame, Function.update_self, hold, h.pending]
      decide
    · rw [Function.update_of_ne hsame]
      exact hc.registered_iff other hne
  · intro other hne
    rw [h.bridge_eq, h.registry_eq]
    dsimp only
    by_cases hsame : other = token
    · have hold := hc.allowed_iff token (hsame ▸ hne)
      rw [hsame, Function.update_self, hold, h.pending]
      decide
    · rw [Function.update_of_ne hsame]
      exact hc.allowed_iff other hne

/-- An activation or a status change updates the bridge's view with the status. -/
theorem PolicyRepresented.statusRecorded {c next : Chain W} {token : Address}
    {newStatus : AssetStatus} (hc : PolicyRepresented c)
    (h : StatusRecorded c token newStatus next) : PolicyRepresented next := by
  obtain ⟨config, hconfig, hallowed⟩ := h.allowed_eq
  constructor
  · intro other hne
    rw [h.registered, h.registry_eq]
    dsimp only
    by_cases hsame : other = token
    · rw [hsame, Function.update_self, Function.update_self]
      exact iff_of_true rfl h.newStatus_ne
    · rw [Function.update_of_ne hsame, Function.update_of_ne hsame]
      exact hc.registered_iff other hne
  · intro other hne
    rw [hallowed, h.registry_eq]
    dsimp only
    by_cases hsame : other = token
    · rw [hsame, Function.update_self, Function.update_self, hconfig, decide_eq_true_eq]
    · rw [Function.update_of_ne hsame, Function.update_of_ne hsame]
      exact hc.allowed_iff other hne

/-- Calls that do not reach the registry keep it and the bridge's view of tokens. -/
structure RegistryKept (c next : Chain W) : Prop where
  /-- The registry is unchanged. -/
  registry_eq : next.registry = c.registry
  /-- The registered tokens are the same. -/
  registered_eq : next.bridge.canonicalTokenRegistered = c.bridge.canonicalTokenRegistered
  /-- The configurations of tokens are the same. -/
  allowed_eq : next.bridge.allowedToken = c.bridge.allowedToken

/-- Kept mappings keep the invariant. -/
theorem RegistryRepresented.kept {c next : Chain W} (hc : RegistryRepresented env c)
    (h : RegistryKept c next) : RegistryRepresented env next := by
  refine ⟨?_, ?_, ?_⟩
  · rw [h.registry_eq]
    exact hc.layout
  · rw [h.registered_eq, h.registry_eq]
    exact hc.policy.registered_iff
  · rw [h.allowed_eq, h.registry_eq]
    exact hc.policy.allowed_iff

/-- The calls of the registry facet. -/
def isRegistryCall : Call → Bool
  | .proposeAsset _ | .cancelLastPendingAsset _ | .activateAsset _ _ _ => true
  | .activateAssetFromBatch _ _ _ _ | .setAssetStatus _ _ => true
  | _ => false

/-- Every other accepted call keeps the mappings. -/
theorem registryKept_of_effect {c next : Chain W} {ctx : CallContext} {call : Call}
    (hcall : isRegistryCall call = false) (h : Effect env c ctx call next) : RegistryKept c next := by
  cases h with
  | administer _ administered =>
    obtain ⟨_, _, _, hbridge⟩ := administered.bridge_eq
    refine ⟨administered.registry_eq, ?_, ?_⟩
    · rw [hbridge]
    · rw [hbridge]
  | settle => exact ⟨rfl, rfl, rfl⟩
  | append => exact ⟨rfl, rfl, rfl⟩
  | transition _ transitioned =>
    refine ⟨transitioned.registry_eq, ?_, ?_⟩
    · rw [transitioned.bridge_eq, afterTransition]
    · rw [transitioned.bridge_eq, afterTransition]
  | nativeDeposit => exact ⟨rfl, rfl, rfl⟩
  | tokenDeposit => exact ⟨rfl, rfl, rfl⟩
  | nativeClaim => exact ⟨rfl, rfl, rfl⟩
  | tokenClaim => exact ⟨rfl, rfl, rfl⟩
  | etherRescue => exact ⟨rfl, rfl, rfl⟩
  | tokenRescue => exact ⟨rfl, rfl, rfl⟩
  | propose => cases hcall
  | cancel => cases hcall
  | activate kind =>
    cases call with
    | activateAsset => cases hcall
    | activateAssetFromBatch => cases hcall
    | _ => cases kind
  | status => cases hcall
  | tokenTransfer => exact ⟨rfl, rfl, rfl⟩
  | etherForced => exact ⟨rfl, rfl, rfl⟩

/-- What a transaction does to the registry and to the bridge's view of tokens. -/
inductive RegistryStep (env : Environment) (c next : Chain W) : Prop
  | kept (h : RegistryKept c next)
  | proposed {record : AssetRecord} (h : ProposalRecorded env c record next)
  | cancelled {token : Address} (h : CancellationRecorded env c token next)
  | status {token : Address} {newStatus : AssetStatus} (h : StatusRecorded c token newStatus next)

/-- Every accepted transaction keeps the registry, proposes, cancels or changes a
status. -/
theorem registry_of_step {c next : Chain W} {tx : Transaction} (hc : RegistryRepresented env c)
    (h : step env c tx = .ok next) : RegistryStep env c next := by
  have heffect := step_effect env h
  rw [step, require_bind_eq_ok] at h
  have hexecuted := h.2
  obtain ⟨ctx, call⟩ := tx
  by_cases hcall : isRegistryCall call = false
  · exact .kept (registryKept_of_effect hcall heffect)
  · cases call with
    | proposeAsset record => exact .proposed (proposeAsset_recorded hexecuted)
    | cancelLastPendingAsset token => exact .cancelled (cancelLastPendingAsset_recorded hexecuted)
    | activateAsset token root count => exact .status (activateAsset_recorded hc.layout hexecuted)
    | activateAssetFromBatch token sequence commitment siblings =>
      exact .status (activateAssetFromBatch_recorded hc.layout hexecuted)
    | setAssetStatus token newStatus => exact .status (setAssetStatus_recorded hc hexecuted)
    | _ => exact absurd rfl hcall

/-- One transaction keeps the invariant. -/
theorem registryRepresented_of_step {c next : Chain W} {tx : Transaction}
    (hc : RegistryRepresented env c) (h : step env c tx = .ok next) :
    RegistryRepresented env next := by
  cases registry_of_step hc h with
  | kept hkept => exact hc.kept hkept
  | proposed hrecorded => exact ⟨hc.layout.proposed hrecorded, hc.policy.proposed hrecorded⟩
  | cancelled hrecorded => exact ⟨hc.layout.cancelled hrecorded, hc.policy.cancelled hrecorded⟩
  | status hrecorded =>
    exact ⟨hc.layout.statusRecorded hrecorded, hc.policy.statusRecorded hrecorded⟩

/-- The empty registry enumerates no tokens. -/
theorem layoutRepresented_zero : LayoutRepresented env RegistryLayout.zero := by
  have hlive : liveTokens RegistryLayout.zero = ∅ := by
    apply Set.eq_empty_of_forall_notMem
    exact fun token hmem => hmem rfl
  have hindices : usedIndices RegistryLayout.zero = ∅ := by
    apply Set.eq_empty_of_forall_notMem
    exact fun index hmem => absurd hmem (Nat.not_lt_zero _)
  have hused : {k : Bytes32 | false = true} = ∅ := by
    apply Set.eq_empty_of_forall_notMem
    exact fun k hmem => absurd hmem Bool.false_ne_true
  refine ⟨?_, ?_, rfl, ?_, ?_, ?_, ?_⟩
  · rw [hlive, hindices]
    exact Set.bijOn_empty _
  · rw [hindices]
    exact fun index hmem => absurd hmem (Set.notMem_empty _)
  · rw [hlive]
    exact fun token hmem => absurd hmem (Set.notMem_empty _)
  · rw [hlive]
    exact hused ▸ Set.bijOn_empty _
  · rw [hlive]
    exact hused ▸ Set.bijOn_empty _
  · rw [hlive]
    exact hused ▸ Set.bijOn_empty _

/-- A fresh deployment has an empty registry, and allows no token but ether. -/
theorem start_registryRepresented (d : Deployment env W) : RegistryRepresented env d.start := by
  have hregistry := d.initialized.registry_eq
  have h := d.deployed
  simp only [deploy, initializeBridge, bind_eq_ok, require_eq_ok, exists_const, pure_eq_ok] at h
  obtain ⟨settled, -, bridged, ⟨-, -, -, rfl⟩, hstart⟩ := h
  refine ⟨?_, ?_, ?_⟩
  · rw [hregistry]
    exact layoutRepresented_zero
  · intro token hne
    rw [← hstart]
    exact iff_of_false Bool.false_ne_true (fun hstatus => hstatus.1 rfl)
  · intro token hne
    rw [← hstart]
    dsimp only
    rw [Function.update_of_ne hne]
    exact iff_of_false Bool.false_ne_true (fun hstatus => by cases hstatus)

/-- The representation invariant holds in every reachable state: the mappings of the
registry enumerate the live tokens and their identities, and the bridge's view of a
token is its status. -/
theorem reached_registryRepresented (d : Deployment env W) (transactions : List Transaction) :
    RegistryRepresented env (d.reached transactions) :=
  run_invariant (fun _ _ _ hc h => registryRepresented_of_step hc h) (start_registryRepresented d)
    transactions

end Invariant

end EthereumSettlement.RegistryInvariant
