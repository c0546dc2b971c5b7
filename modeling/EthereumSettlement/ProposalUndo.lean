import EthereumSettlement.RegistryInvariant

/-!
# Cancelling undoes proposing

A proposal writes six mappings and a counter, a cancellation clears them again. In
every reachable state a token without a status has no record and an index from the
count on has no token, so the cancellation of a proposal restores the registry
exactly. Proposals form a stack: as long as no other registry call comes between
them, cancelling them in reverse order leads back to the registry below the first,
and the same records can be proposed again.
-/

namespace EthereumSettlement.ProposalUndo

open CheckedCalls TransitionRuns PastaPoseidon RegistryCheckpoint ZekoSettlement EthereumZekoBridge
open ZekoAssetRegistry BridgeSystem StepEffects RegistryInvariant

variable {env : Environment} {W : TokenWorld}

/-- No entry is left behind: a token without a status has no record, and an index from the count
on has no token. -/
structure Vacant (registry : RegistryLayout) : Prop where
  /-- A token without a status has no record. -/
  records : ∀ token, registry.assetStatusByToken token = .none →
    registry.assetRecordByToken token = zeroRecord
  /-- An index from the count on has no token. -/
  indices : ∀ index : BitVec 32, registry.proposedAssetCount.toNat ≤ index.toNat →
    registry.assetTokenByRegistryIndex index = 0

/-- One transaction leaves no entry behind. -/
theorem vacant_of_step {c next : Chain W} (hc : Vacant c.registry) (h : RegistryStep env c next) :
    Vacant next.registry := by
  cases h with
  | kept hkept =>
    rw [hkept.registry_eq]
    exact hc
  | @proposed record hrecorded =>
    obtain ⟨nextCount, hcount, hregistry⟩ := hrecorded.registry_eq
    have hindex := hrecorded.wellFormed.2.1
    rw [hregistry]
    refine ⟨?_, ?_⟩
    · intro token hnone
      by_cases htoken : token = record.ethereumToken
      · rw [htoken] at hnone
        dsimp only at hnone
        rw [Function.update_self] at hnone
        cases hnone
      · dsimp only at hnone ⊢
        rw [Function.update_of_ne htoken] at hnone ⊢
        exact hc.records token hnone
    · intro index hle
      dsimp only at hle ⊢
      have hne : index ≠ record.registryIndex := by
        intro heq
        rw [heq] at hle
        omega
      rw [Function.update_of_ne hne]
      apply hc.indices index
      rw [← hindex]
      omega
  | @cancelled token hrecorded =>
    have htail := hrecorded.tail
    rw [hrecorded.registry_eq]
    refine ⟨?_, ?_⟩
    · intro other hnone
      dsimp only at hnone ⊢
      by_cases hother : other = token
      · rw [hother, Function.update_self]
      · rw [Function.update_of_ne hother] at hnone ⊢
        exact hc.records other hnone
    · intro index hle
      dsimp only at hle ⊢
      by_cases hsame : index = (c.registry.assetRecordByToken token).registryIndex
      · rw [hsame, Function.update_self]
      · have hne : index.toNat ≠ (c.registry.assetRecordByToken token).registryIndex.toNat :=
          fun hnat => hsame (BitVec.eq_of_toNat_eq hnat)
        rw [Function.update_of_ne hsame]
        apply hc.indices index
        omega
  | @status token newStatus hrecorded =>
    rw [hrecorded.registry_eq]
    refine ⟨?_, hc.indices⟩
    intro other hnone
    dsimp only at hnone ⊢
    by_cases hother : other = token
    · rw [hother, Function.update_self] at hnone
      exact absurd hnone hrecorded.newStatus_ne.1
    · rw [Function.update_of_ne hother] at hnone
      exact hc.records other hnone

/-- No reachable state has an entry left behind. -/
theorem reached_vacant (d : Deployment env W) (transactions : List Transaction) :
    Vacant (d.reached transactions).registry := by
  have hboth : RegistryRepresented env (d.reached transactions) ∧
      Vacant (d.reached transactions).registry := by
    apply run_invariant (I := fun c : Chain W => RegistryRepresented env c ∧ Vacant c.registry)
    · intro c tx next hc h
      exact ⟨registryRepresented_of_step hc.1 h, vacant_of_step hc.2 (registry_of_step hc.1 h)⟩
    · refine ⟨start_registryRepresented d, ?_⟩
      rw [d.initialized.registry_eq]
      exact ⟨fun _ _ => rfl, fun _ _ => rfl⟩
  exact hboth.2

/-- The registry after a proposal. -/
def proposedRegistry (env : Environment) (registry : RegistryLayout) (record : AssetRecord) :
    RegistryLayout where
  assetRecordByToken := Function.update registry.assetRecordByToken record.ethereumToken record
  assetTokenByRegistryIndex :=
    Function.update registry.assetTokenByRegistryIndex record.registryIndex record.ethereumToken
  assetStatusByToken := Function.update registry.assetStatusByToken record.ethereumToken .pending
  proposedAssetRecord :=
    Function.update registry.proposedAssetRecord (hashAssetRecord env record) true
  proposedAssetId := Function.update registry.proposedAssetId record.assetId true
  proposedL2TokenIdentity :=
    Function.update registry.proposedL2TokenIdentity (l2Identity env record) true
  proposedAssetCount := record.registryIndex + 1

/-- The registry after the cancellation of a token's record. -/
def cancelledRegistry (env : Environment) (registry : RegistryLayout) (record : AssetRecord) :
    RegistryLayout where
  assetRecordByToken := Function.update registry.assetRecordByToken record.ethereumToken zeroRecord
  assetTokenByRegistryIndex :=
    Function.update registry.assetTokenByRegistryIndex record.registryIndex 0
  assetStatusByToken := Function.update registry.assetStatusByToken record.ethereumToken .none
  proposedAssetRecord :=
    Function.update registry.proposedAssetRecord (hashAssetRecord env record) false
  proposedAssetId := Function.update registry.proposedAssetId record.assetId false
  proposedL2TokenIdentity :=
    Function.update registry.proposedL2TokenIdentity (l2Identity env record) false
  proposedAssetCount := record.registryIndex

/-- What a proposal asks of the registry and of the bridge's view of its token. -/
structure Proposable (env : Environment) (c : Chain W) (record : AssetRecord) : Prop where
  /-- The record is well formed. -/
  wellFormed : WellFormedProposal c record
  /-- The token is not registered. -/
  unregistered : c.bridge.canonicalTokenRegistered record.ethereumToken = false
  /-- The token has no status. -/
  fresh : c.registry.assetStatusByToken record.ethereumToken = .none
  /-- The bridge takes no deposits of the token. -/
  disallowed : (c.bridge.allowedToken record.ethereumToken).allowed = false
  /-- The identifier is that of the token identity. -/
  assetId_eq : record.assetId = computeERC20AssetId env record.ethereumToken record.tokenOwnerL2
    record.tokenIdL2 record.decimals
  /-- The record is not proposed. -/
  recordHash_fresh : c.registry.proposedAssetRecord (hashAssetRecord env record) = false
  /-- The asset is not proposed. -/
  assetId_fresh : c.registry.proposedAssetId record.assetId = false
  /-- The Mina identity is not proposed. -/
  identity_fresh : c.registry.proposedL2TokenIdentity (l2Identity env record) = false

/-- The chain with another registry and more events. -/
def withRegistry (c : Chain W) (registry : RegistryLayout) (events : List BridgeEvent) : Chain W :=
  { c with registry := registry }.emit events

/-- A proposal is accepted exactly from an administrator, for a proposable record whose decimals
the token reports. -/
theorem proposeAsset_iff {c next : Chain W} {ctx : CallContext} {record : AssetRecord} :
    proposeAsset env c ctx record = .ok next ↔
      c.bridge.hasRole (adminRole env) ctx.sender = true ∧
        W.decimals c.tokens record.ethereumToken = some record.decimals ∧
        Proposable env c record ∧ next = withRegistry c (proposedRegistry env c.registry record)
          [.assetRegistrationProposed (hashAssetRecord env record) record] := by
  simp only [proposeAsset, onlyBridgeAdmin, bind_eq_ok, require_eq_ok, exists_const, pure_eq_ok,
    callToken_eq_ok]
  constructor
  · rintro ⟨hrole, hwell, ⟨hregistered, hfresh, hallowed⟩, decimals, hdecimals, rfl, hasset, hhash,
      hid, hidentity, nextCount, hcount, rfl⟩
    refine ⟨hrole, hdecimals, ⟨hwell, hregistered, hfresh, hallowed, hasset, hhash, hid, hidentity⟩, ?_⟩
    rw [eq_add_of_checkedAdd hcount]
    rfl
  · rintro ⟨hrole, hdecimals, h, rfl⟩
    have hsmall := h.wellFormed.2.2.1
    have hcount : checkedAdd BridgeCodec.BridgeError.arithmeticPanic record.registryIndex 1 =
        .ok (record.registryIndex + 1) := by
      apply checkedAdd_of_lt
      have hone : (1 : BitVec 32).toNat = 1 := rfl
      omega
    exact ⟨hrole, h.wellFormed, ⟨h.unregistered, h.fresh, h.disallowed⟩, _, hdecimals, rfl,
      h.assetId_eq, h.recordHash_fresh, h.assetId_fresh, h.identity_fresh, _, hcount, rfl⟩

/-- The record is the last proposal. -/
structure LastProposal (c : Chain W) (record : AssetRecord) : Prop where
  /-- The record is stored. -/
  record_eq : c.registry.assetRecordByToken record.ethereumToken = record
  /-- Its token is pending. -/
  pending : c.registry.assetStatusByToken record.ethereumToken = .pending
  /-- It has the last index. -/
  tail : record.registryIndex.toNat + 1 = c.registry.proposedAssetCount.toNat
  /-- The index points to its token. -/
  slot : c.registry.assetTokenByRegistryIndex record.registryIndex = record.ethereumToken

/-- Neither the index nor the hash of a record is settled. -/
def Unsettled (env : Environment) (c : Chain W) (record : AssetRecord) : Prop :=
  c.settlement.assetRegistryCount ≤ record.registryIndex ∧
    c.settlement.settledAssetRecord (hashAssetRecord env record) = false

/-- The cancellation of the last proposal is accepted exactly from an administrator, while the
record is not settled. -/
theorem cancelLastPendingAsset_iff {c next : Chain W} {ctx : CallContext} {record : AssetRecord}
    (h : LastProposal c record) :
    cancelLastPendingAsset env c ctx record.ethereumToken = .ok next ↔
      c.bridge.hasRole (adminRole env) ctx.sender = true ∧ Unsettled env c record ∧
        next = withRegistry c (cancelledRegistry env c.registry record)
          [.assetRegistrationCancelled (hashAssetRecord env record) record.registryIndex
            record.ethereumToken] := by
  have htail := h.tail
  have hone : (1 : BitVec 32).toNat = 1 := rfl
  have hcount : checkedAdd BridgeCodec.BridgeError.arithmeticPanic record.registryIndex 1 =
      .ok c.registry.proposedAssetCount := by
    rw [checkedAdd_eq_ok, hone]
    exact htail.symm
  have hpositive : c.registry.proposedAssetCount ≠ 0 := by
    intro hzero
    rw [hzero] at htail
    exact absurd htail (Nat.succ_ne_zero _)
  simp only [cancelLastPendingAsset, onlyBridgeAdmin, bind_eq_ok, require_eq_ok, exists_const,
    pure_eq_ok, h.record_eq]
  constructor
  · rintro ⟨hrole, -, -, nextIndex, -, -, hunsettled, rfl⟩
    exact ⟨hrole, hunsettled, rfl⟩
  · rintro ⟨hrole, hunsettled, rfl⟩
    exact ⟨hrole, h.pending, hpositive, _, hcount, ⟨rfl, h.slot⟩, hunsettled, rfl⟩

/-- The record of a proposal is the last one. -/
theorem lastProposal_proposed {c next : Chain W} {record : AssetRecord}
    (hrecord : Proposable env c record)
    (hregistry : next.registry = proposedRegistry env c.registry record) :
    LastProposal next record := by
  have hsmall := hrecord.wellFormed.2.2.1
  have hone : (1 : BitVec 32).toNat = 1 := rfl
  rw [proposedRegistry] at hregistry
  refine ⟨?_, ?_, ?_, ?_⟩
  · rw [hregistry]
    exact Function.update_self _ _ _
  · rw [hregistry]
    exact Function.update_self _ _ _
  · rw [hregistry]
    dsimp only
    rw [BitVec.toNat_add, hone, Nat.mod_eq_of_lt (by omega)]
  · rw [hregistry]
    exact Function.update_self _ _ _

/-- Writing an entry and then its old value restores a mapping. -/
theorem update_restored {α β : Type} [DecidableEq α] {f : α → β} {a : α} {old new : β}
    (h : f a = old) : Function.update (Function.update f a new) a old = f := by
  rw [Function.update_idem, ← h, Function.update_eq_self]

/-- Cancelling the last proposal restores the registry before it. -/
theorem cancelledRegistry_proposed {c : Chain W} {record : AssetRecord} (hc : Vacant c.registry)
    (hrecord : Proposable env c record) :
    cancelledRegistry env (proposedRegistry env c.registry record) record = c.registry := by
  have hindex := hrecord.wellFormed.2.1
  have htoken := hc.records _ hrecord.fresh
  have hslot := hc.indices record.registryIndex (by rw [hindex])
  unfold cancelledRegistry proposedRegistry
  simp only [update_restored htoken, update_restored hslot, update_restored hrecord.fresh,
    update_restored hrecord.recordHash_fresh, update_restored hrecord.assetId_fresh,
    update_restored hrecord.identity_fresh]
  rw [hindex]

/-- Kept mappings stay kept. -/
theorem kept_trans {c middle next : Chain W} (first : RegistryKept c middle)
    (second : RegistryKept middle next) : RegistryKept c next :=
  ⟨second.registry_eq.trans first.registry_eq, second.registered_eq.trans first.registered_eq,
    second.allowed_eq.trans first.allowed_eq⟩

/-- Kept mappings were the same before. -/
theorem kept_symm {c next : Chain W} (h : RegistryKept c next) : RegistryKept next c :=
  ⟨h.registry_eq.symm, h.registered_eq.symm, h.allowed_eq.symm⟩

/-- A record stays proposable while the mappings are kept. -/
theorem Proposable.kept {c next : Chain W} {record : AssetRecord} (h : Proposable env c record)
    (hkept : RegistryKept c next) : Proposable env next record := by
  obtain ⟨hregistry, hregistered, hallowed⟩ := hkept
  refine ⟨?_, ?_, ?_, ?_, h.assetId_eq, ?_, ?_, ?_⟩
  · unfold WellFormedProposal
    rw [hregistry]
    exact h.wellFormed
  · rw [hregistered]
    exact h.unregistered
  · rw [hregistry]
    exact h.fresh
  · rw [hallowed]
    exact h.disallowed
  · rw [hregistry]
    exact h.recordHash_fresh
  · rw [hregistry]
    exact h.assetId_fresh
  · rw [hregistry]
    exact h.identity_fresh

/-- The proposals on top of a state, newest first. -/
inductive Stacked (env : Environment) (base : Chain W) : List AssetRecord → Chain W → Prop
  | bottom {c : Chain W} (h : RegistryKept base c) : Stacked env base [] c
  | push {records : List AssetRecord} {c next : Chain W} {record : AssetRecord}
      (below : Stacked env base records c) (hrecord : Proposable env c record)
      (h : RegistryKept (withRegistry c (proposedRegistry env c.registry record) []) next) :
      Stacked env base (record :: records) next

/-- A stack stays while the mappings are kept. -/
theorem Stacked.kept {base c next : Chain W} {records : List AssetRecord}
    (h : Stacked env base records c) (hkept : RegistryKept c next) :
    Stacked env base records next := by
  cases h with
  | bottom hbase => exact .bottom (kept_trans hbase hkept)
  | push below hrecord hpushed => exact .push below hrecord (kept_trans hpushed hkept)

/-- A stack on a state without entries left behind leaves none behind. -/
theorem Stacked.vacant {base c : Chain W} {records : List AssetRecord} (hbase : Vacant base.registry)
    (h : Stacked env base records c) : Vacant c.registry := by
  induction h with
  | bottom hkept =>
    rw [hkept.registry_eq]
    exact hbase
  | @push records c next record below hrecord hpushed ih =>
    have hsmall := hrecord.wellFormed.2.2.1
    have hone : (1 : BitVec 32).toNat = 1 := rfl
    have hcount : (record.registryIndex + 1).toNat = record.registryIndex.toNat + 1 := by
      rw [BitVec.toNat_add, hone, Nat.mod_eq_of_lt (by omega)]
    have hmiddle : Vacant (withRegistry c (proposedRegistry env c.registry record) []).registry :=
      vacant_of_step ih (.proposed ⟨hrecord.wellFormed, hrecord.fresh, hrecord.recordHash_fresh,
        hrecord.assetId_fresh, hrecord.identity_fresh, hrecord.unregistered, hrecord.disallowed,
        ⟨_, hcount, rfl⟩, rfl⟩)
    rw [hpushed.registry_eq]
    exact hmiddle

/-- The top of a stack is the last proposal, and its cancellation uncovers the rest. -/
theorem Stacked.pop {base c : Chain W} {records : List AssetRecord} {record : AssetRecord}
    (hbase : Vacant base.registry) (h : Stacked env base (record :: records) c)
    (events : List BridgeEvent) : LastProposal c record ∧
      Stacked env base records (withRegistry c (cancelledRegistry env c.registry record) events) := by
  cases h with
  | @push _ below _ _ hbelow hrecord hpushed =>
    have hregistry := hpushed.registry_eq
    refine ⟨lastProposal_proposed hrecord hregistry, hbelow.kept ?_⟩
    refine ⟨?_, hpushed.registered_eq, hpushed.allowed_eq⟩
    have hrestored := cancelledRegistry_proposed (hbelow.vacant hbase) hrecord
    have hcovered : (withRegistry c (cancelledRegistry env c.registry record) events).registry =
        cancelledRegistry env c.registry record := rfl
    rw [hcovered, hregistry]
    exact hrestored

/-- The calls leave everything but the registry and the events as it was. -/
structure RegistryOnly (c next : Chain W) : Prop where
  /-- The settlement contract is unchanged. -/
  settlement_eq : next.settlement = c.settlement
  /-- The bridge's storage is unchanged. -/
  bridge_eq : next.bridge = c.bridge
  /-- The bridge holds the same ether. -/
  etherBalance_eq : next.etherBalance = c.etherBalance
  /-- No token moves. -/
  tokens_eq : next.tokens = c.tokens

/-- Two such changes in a row are one. -/
theorem RegistryOnly.trans {c middle next : Chain W} (first : RegistryOnly c middle)
    (second : RegistryOnly middle next) : RegistryOnly c next :=
  ⟨second.settlement_eq.trans first.settlement_eq, second.bridge_eq.trans first.bridge_eq,
    second.etherBalance_eq.trans first.etherBalance_eq, second.tokens_eq.trans first.tokens_eq⟩

/-- Cancel the proposals of records one after the other, each from its own caller. -/
def cancelAll (env : Environment) (c : Chain W) (ctx : AssetRecord → CallContext)
    (records : List AssetRecord) : BridgeCall W :=
  records.foldlM (fun c record => cancelLastPendingAsset env c (ctx record) record.ethereumToken) c

/-- Propose records one after the other, each from its own caller. -/
def proposeAll (env : Environment) (c : Chain W) (ctx : AssetRecord → CallContext)
    (records : List AssetRecord) : BridgeCall W :=
  records.foldlM (fun c record => proposeAsset env c (ctx record) record) c

/-- Every caller is an administrator of the bridge. -/
def Administrators (env : Environment) (c : Chain W) (ctx : AssetRecord → CallContext)
    (records : List AssetRecord) : Prop :=
  ∀ record ∈ records, c.bridge.hasRole (adminRole env) (ctx record).sender = true

/-- An unsettled stack is cancelled from its top down to the state below it. -/
theorem cancelAll_stacked {base c : Chain W} {ctx : AssetRecord → CallContext}
    {records : List AssetRecord} (hbase : Vacant base.registry) (h : Stacked env base records c)
    (hroles : Administrators env c ctx records) (hunsettled : ∀ record ∈ records, Unsettled env c record) :
    ∃ after, cancelAll env c ctx records = .ok after ∧ RegistryKept base after ∧
      RegistryOnly c after := by
  induction records generalizing c with
  | nil =>
    cases h with
    | bottom hkept => exact ⟨c, rfl, hkept, rfl, rfl, rfl, rfl⟩
  | cons record records ih =>
    obtain ⟨hlast, hrest⟩ := h.pop hbase
      [.assetRegistrationCancelled (hashAssetRecord env record) record.registryIndex
        record.ethereumToken]
    have hcancelled := (cancelLastPendingAsset_iff hlast).mpr
      ⟨hroles record List.mem_cons_self, hunsettled record List.mem_cons_self, rfl⟩
    obtain ⟨after, hafter, hkept, honly⟩ := ih hrest
      (fun other hother => hroles other (List.mem_cons_of_mem _ hother))
      (fun other hother => hunsettled other (List.mem_cons_of_mem _ hother))
    refine ⟨after, ?_, hkept, ⟨honly.settlement_eq, honly.bridge_eq, honly.etherBalance_eq,
      honly.tokens_eq⟩⟩
    rw [cancelAll, List.foldlM_cons, hcancelled]
    exact hafter

/-- The records of a stack can be proposed on every state with the mappings below it, and lead to
the mappings on its top. -/
theorem proposeAll_stacked {base c start : Chain W} {ctx : AssetRecord → CallContext}
    {records : List AssetRecord} (h : Stacked env base records c) (hstart : RegistryKept base start)
    (hroles : Administrators env start ctx records)
    (hdecimals : ∀ record ∈ records, W.decimals start.tokens record.ethereumToken = some record.decimals) :
    ∃ after, proposeAll env start ctx records.reverse = .ok after ∧ RegistryKept c after ∧
      RegistryOnly start after := by
  induction h with
  | bottom hkept => exact ⟨start, rfl, kept_trans (kept_symm hkept) hstart, rfl, rfl, rfl, rfl⟩
  | @push records c next record hbelow hrecord hpushed ih =>
    obtain ⟨middle, hmiddle, hkept, honly⟩ := ih
      (fun other hother => hroles other (List.mem_cons_of_mem _ hother))
      (fun other hother => hdecimals other (List.mem_cons_of_mem _ hother))
    have hrole : middle.bridge.hasRole (adminRole env) (ctx record).sender = true := by
      rw [honly.bridge_eq]
      exact hroles record List.mem_cons_self
    have hreported : W.decimals middle.tokens record.ethereumToken = some record.decimals := by
      rw [honly.tokens_eq]
      exact hdecimals record List.mem_cons_self
    have hproposed := proposeAsset_iff.mpr ⟨hrole, hreported, hrecord.kept hkept, rfl⟩
    refine ⟨withRegistry middle (proposedRegistry env middle.registry record)
      [.assetRegistrationProposed (hashAssetRecord env record) record], ?_, ?_,
      ⟨honly.settlement_eq, honly.bridge_eq, honly.etherBalance_eq, honly.tokens_eq⟩⟩
    · rw [proposeAll] at hmiddle
      rw [proposeAll, List.reverse_cons, List.foldlM_append, bind_eq_ok]
      refine ⟨middle, hmiddle, ?_⟩
      rw [List.foldlM_cons, hproposed]
      rfl
    · refine ⟨?_, ?_, ?_⟩
      · rw [hpushed.registry_eq]
        change proposedRegistry env middle.registry record = proposedRegistry env c.registry record
        rw [hkept.registry_eq]
      · rw [hpushed.registered_eq]
        exact hkept.registered_eq
      · rw [hpushed.allowed_eq]
        exact hkept.allowed_eq

/-- The record that a call proposes. -/
def proposal : Call → Option AssetRecord
  | .proposeAsset record => some record
  | _ => none

/-- The proposals of a history, newest first. -/
def proposals (history : List (Chain W × Transaction)) : List AssetRecord :=
  (history.filterMap fun entry => proposal entry.2.call).reverse

/-- A run that reaches the registry by proposals only stacks them. -/
theorem stacked_run {base : Chain W} {transactions : List Transaction}
    (hcalls : ∀ entry ∈ accepted (step env) base transactions,
      isRegistryCall entry.2.call = true → (proposal entry.2.call).isSome) :
    Stacked env base (proposals (accepted (step env) base transactions))
      (run (step env) base transactions) := by
  have hinv := history_invariant
    (J := fun (history : List (Chain W × Transaction)) c => Stacked env base (proposals history) c)
    (Q := fun entry => isRegistryCall entry.2.call = true → (proposal entry.2.call).isSome)
    ?_ transactions [] (Stacked.bottom ⟨rfl, rfl, rfl⟩) hcalls
  · rwa [List.nil_append] at hinv
  · intro history c tx next hstacked hcall h
    have heffect := step_effect env h
    have hproposals : proposals (history ++ [(c, tx)]) =
        (proposal tx.call).toList ++ proposals history := by
      rw [proposals, List.filterMap_append, List.reverse_append]
      cases hproposal : proposal tx.call with
      | none => simp [hproposal, proposals]
      | some record => simp [hproposal, proposals]
    rw [hproposals]
    cases hproposal : proposal tx.call with
    | none =>
      have houtside : isRegistryCall tx.call = false := by
        by_contra hregistry
        have hsome := hcall (Bool.eq_true_of_not_eq_false hregistry)
        rw [hproposal] at hsome
        cases hsome
      exact hstacked.kept (registryKept_of_effect houtside heffect)
    | some record =>
      have hcallEq : tx.call = .proposeAsset record := by
        cases hcase : tx.call with
        | proposeAsset other =>
          rw [hcase] at hproposal
          rw [Option.some.inj hproposal]
        | _ => rw [hcase] at hproposal; cases hproposal
      rw [step, require_bind_eq_ok, hcallEq] at h
      obtain ⟨-, -, hrecord, rfl⟩ := proposeAsset_iff.mp h.2
      exact .push hstacked hrecord ⟨rfl, rfl, rfl⟩

/-- A run outside the registry keeps the mappings. -/
theorem kept_run {c : Chain W} {transactions : List Transaction}
    (hcalls : ∀ entry ∈ accepted (step env) c transactions, isRegistryCall entry.2.call = false) :
    RegistryKept c (run (step env) c transactions) := by
  refine run_invariant_of (I := RegistryKept c)
    (Q := fun entry => isRegistryCall entry.2.call = false) ?_ ⟨rfl, rfl, rfl⟩ hcalls
  intro middle tx next hkept hcall h
  exact kept_trans hkept (registryKept_of_effect hcall (step_effect env h))

/-- Proposals in a row stack their records, come from administrators and change the registry
only. -/
theorem stacked_of_proposeAll {base c proposed : Chain W} {ctx : AssetRecord → CallContext}
    {below records : List AssetRecord} (hbelow : Stacked env base below c)
    (h : proposeAll env c ctx records = .ok proposed) :
    Stacked env base (records.reverse ++ below) proposed ∧ RegistryOnly c proposed ∧
      Administrators env c ctx records ∧
      ∀ record ∈ records, W.decimals c.tokens record.ethereumToken = some record.decimals := by
  induction records generalizing below c with
  | nil =>
    rw [proposeAll, List.foldlM_nil, pure_eq_ok] at h
    subst h
    refine ⟨hbelow, ⟨rfl, rfl, rfl, rfl⟩, ?_, ?_⟩
    · exact fun record hrecord => absurd hrecord (List.not_mem_nil)
    · exact fun record hrecord => absurd hrecord (List.not_mem_nil)
  | cons record records ih =>
    rw [proposeAll, List.foldlM_cons, bind_eq_ok] at h
    obtain ⟨middle, hfirst, hrest⟩ := h
    obtain ⟨hrole, hdecimals, hrecord, rfl⟩ := proposeAsset_iff.mp hfirst
    have hpushed : Stacked env base (record :: below) (withRegistry c
        (proposedRegistry env c.registry record)
        [.assetRegistrationProposed (hashAssetRecord env record) record]) :=
      hbelow.push hrecord ⟨rfl, rfl, rfl⟩
    obtain ⟨hstacked, honly, hroles, hreported⟩ := ih hpushed hrest
    refine ⟨?_, ⟨honly.settlement_eq, honly.bridge_eq, honly.etherBalance_eq, honly.tokens_eq⟩, ?_,
      ?_⟩
    · rw [List.reverse_cons, List.append_assoc]
      exact hstacked
    · intro other hother
      rcases List.mem_cons.mp hother with rfl | hlater
      · exact hrole
      · exact hroles other hlater
    · intro other hother
      rcases List.mem_cons.mp hother with rfl | hlater
      · exact hdecimals
      · exact hreported other hlater

/-- From every reachable state. A cancellation by an administrator, after any calls outside the
registry, undoes an accepted proposal exactly when neither the index nor the hash of the record is
settled by then, and restores the registry and nothing else. After any run whose registry calls are
proposals, an unsettled stack of them is cancelled from its top down to the registry before the
first, and proposing the records again leads back to the same registry while the tokens report the
same decimals. Proposals in a row are undone and repeated from the same callers. -/
theorem cancelling_undoes_proposing (d : Deployment env W) (transactions : List Transaction) :
    (∀ ctx record proposed, proposeAsset env (d.reached transactions) ctx record = .ok proposed →
      ∀ others, (∀ entry ∈ accepted (step env) proposed others,
          isRegistryCall entry.2.call = false) →
      ∀ canceller : CallContext,
        (run (step env) proposed others).bridge.hasRole (adminRole env) canceller.sender = true →
        (Succeeds (cancelLastPendingAsset env (run (step env) proposed others) canceller
          record.ethereumToken) ↔ Unsettled env (run (step env) proposed others) record) ∧
        ∀ after, cancelLastPendingAsset env (run (step env) proposed others) canceller
            record.ethereumToken = .ok after →
          after.registry = (d.reached transactions).registry ∧
            RegistryOnly (run (step env) proposed others) after) ∧
    (∀ others, (∀ entry ∈ accepted (step env) (d.reached transactions) others,
          isRegistryCall entry.2.call = true → (proposal entry.2.call).isSome) →
      let top := run (step env) (d.reached transactions) others
      let records := proposals (accepted (step env) (d.reached transactions) others)
      ∀ ctx, Administrators env top ctx records → (∀ record ∈ records, Unsettled env top record) →
        ∃ after, cancelAll env top ctx records = .ok after ∧
          after.registry = (d.reached transactions).registry ∧ RegistryOnly top after ∧
          ((∀ record ∈ records,
              W.decimals top.tokens record.ethereumToken = some record.decimals) →
            ∃ again, proposeAll env after ctx records.reverse = .ok again ∧
              again.registry = top.registry ∧ RegistryOnly top again)) ∧
    ∀ ctx records proposed, proposeAll env (d.reached transactions) ctx records = .ok proposed →
      (∀ record ∈ records, Unsettled env (d.reached transactions) record) →
      ∃ after again, cancelAll env proposed ctx records.reverse = .ok after ∧
        after.registry = (d.reached transactions).registry ∧
        RegistryOnly (d.reached transactions) after ∧
        proposeAll env after ctx records = .ok again ∧ again.registry = proposed.registry ∧
        RegistryOnly proposed again := by
  have hvacant := reached_vacant d transactions
  have hbottom : Stacked env (d.reached transactions) [] (d.reached transactions) :=
    .bottom ⟨rfl, rfl, rfl⟩
  refine ⟨?_, ?_, ?_⟩
  · intro ctx record proposed h others hothers canceller hrole
    obtain ⟨-, -, hrecord, rfl⟩ := proposeAsset_iff.mp h
    have hkept := kept_run hothers
    have hstacked : Stacked env (d.reached transactions) [record] _ :=
      hbottom.push hrecord ⟨hkept.registry_eq, hkept.registered_eq, hkept.allowed_eq⟩
    obtain ⟨hlast, hcovered⟩ := hstacked.pop hvacant
      [.assetRegistrationCancelled (hashAssetRecord env record) record.registryIndex
        record.ethereumToken]
    refine ⟨?_, ?_⟩
    · constructor
      · rintro ⟨after, hafter⟩
        exact ((cancelLastPendingAsset_iff hlast).mp hafter).2.1
      · intro hunsettled
        exact ⟨_, (cancelLastPendingAsset_iff hlast).mpr ⟨hrole, hunsettled, rfl⟩⟩
    · intro after hafter
      obtain ⟨-, -, rfl⟩ := (cancelLastPendingAsset_iff hlast).mp hafter
      cases hcovered with
      | bottom hkept => exact ⟨hkept.registry_eq, rfl, rfl, rfl, rfl⟩
  · intro others hothers top records ctx hroles hunsettled
    have hstacked : Stacked env (d.reached transactions) records top := stacked_run hothers
    obtain ⟨after, hafter, hkept, honly⟩ := cancelAll_stacked hvacant hstacked hroles hunsettled
    refine ⟨after, hafter, hkept.registry_eq, honly, ?_⟩
    intro hdecimals
    obtain ⟨again, hagain, htop, hagainOnly⟩ := proposeAll_stacked hstacked hkept
      (fun record hrecord => by rw [honly.bridge_eq]; exact hroles record hrecord)
      (fun record hrecord => by rw [honly.tokens_eq]; exact hdecimals record hrecord)
    exact ⟨again, hagain, htop.registry_eq, honly.trans hagainOnly⟩
  · intro ctx records proposed h hunsettled
    obtain ⟨hstacked, honly, hroles, hdecimals⟩ :=
      stacked_of_proposeAll hbottom h
    rw [List.append_nil] at hstacked
    obtain ⟨after, hafter, hkept, hcancelled⟩ := cancelAll_stacked hvacant hstacked
      (fun record hrecord => by
        rw [honly.bridge_eq]
        exact hroles record (List.mem_reverse.mp hrecord))
      (fun record hrecord => by
        rw [Unsettled, honly.settlement_eq]
        exact hunsettled record (List.mem_reverse.mp hrecord))
    have hbase := honly.trans hcancelled
    obtain ⟨again, hagain, htop, hagainOnly⟩ := proposeAll_stacked hstacked hkept
      (fun record hrecord => by
        rw [hbase.bridge_eq]
        exact hroles record (List.mem_reverse.mp hrecord))
      (fun record hrecord => by
        rw [hbase.tokens_eq]
        exact hdecimals record (List.mem_reverse.mp hrecord))
    rw [List.reverse_reverse] at hagain
    exact ⟨after, again, hafter, hkept.registry_eq, hbase, hagain, htop.registry_eq,
      hcancelled.trans hagainOnly⟩

end EthereumSettlement.ProposalUndo
