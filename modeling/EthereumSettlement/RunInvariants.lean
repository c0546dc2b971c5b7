import EthereumSettlement.StepEffects

/-!
# Configuration that no run changes

The verifiers and program keys of both proxies are those of the deployment in
every reachable state: proxy upgrades are not part of a run. The registry never
registers the zero address, under which ether is accounted, and a registered
token always has an asset identifier.
-/

namespace EthereumSettlement.RunInvariants

open CheckedCalls TransitionRuns PastaPoseidon ZekoSettlement EthereumZekoBridge ZekoAssetRegistry
open BridgeSystem StepEffects

variable {env : Environment} {W : TokenWorld}

/-- The verifiers and program keys of two states agree. -/
structure SameVerifiers (c next : Chain W) : Prop where
  /-- The settlement verifier. -/
  verifier : next.settlement.verifier = c.settlement.verifier
  /-- The settlement program key. -/
  programVKey : next.settlement.programVKey = c.settlement.programVKey
  /-- The bridge verifier. -/
  bridgeVerifier : next.bridge.bridgeVerifier = c.bridge.bridgeVerifier
  /-- The bridge program key. -/
  bridgeProgramVKey : next.bridge.bridgeProgramVKey = c.bridge.bridgeProgramVKey

/-- One transaction keeps the verifiers. -/
theorem sameVerifiers_of_effect {c next : Chain W} {ctx : CallContext} {call : Call}
    (h : Effect env c ctx call next) : SameVerifiers c next := by
  cases h with
  | administer _ administered =>
    obtain ⟨_, _, _, hsettlement⟩ := administered.settlement_eq
    obtain ⟨_, _, _, hbridge⟩ := administered.bridge_eq
    constructor <;> simp only [hsettlement, hbridge]
  | settle _ _ settled =>
    exact ⟨settled.configuration.verifier, settled.configuration.programVKey, rfl, rfl⟩
  | append appended =>
    exact ⟨appended.configuration.verifier, appended.configuration.programVKey, rfl, rfl⟩
  | transition _ transitioned =>
    have hframed := transitioned.appended.framed
    have hbridge := transitioned.bridge_eq
    refine ⟨hframed.configuration.verifier, hframed.configuration.programVKey, ?_, ?_⟩
    · rw [hbridge]
      rfl
    · rw [hbridge]
      rfl
  | nativeDeposit deposited => exact ⟨rfl, rfl, rfl, rfl⟩
  | tokenDeposit deposited => exact ⟨rfl, rfl, rfl, rfl⟩
  | nativeClaim claimed => exact ⟨rfl, rfl, rfl, rfl⟩
  | tokenClaim claimed => exact ⟨rfl, rfl, rfl, rfl⟩
  | etherRescue rescued => exact ⟨rfl, rfl, rfl, rfl⟩
  | tokenRescue rescued => exact ⟨rfl, rfl, rfl, rfl⟩
  | propose proposed =>
    constructor <;> simp only [proposed.settlement_eq, proposed.bridge_eq]
  | cancel cancelled =>
    constructor <;> simp only [cancelled.settlement_eq, cancelled.bridge_eq]
  | activate _ activated =>
    constructor <;> simp only [activated.settlement_eq, activated.bridge_eq, afterActivation]
  | status changed =>
    obtain ⟨_, hbridge⟩ := changed.bridge_eq
    constructor <;> simp only [changed.settlement_eq, hbridge]
  | tokenTransfer _ transferred => exact ⟨rfl, rfl, rfl, rfl⟩
  | etherForced => exact ⟨rfl, rfl, rfl, rfl⟩

/-- The verifiers of every reachable state are those of the deployment. -/
theorem reached_sameVerifiers (d : Deployment env W) (transactions : List Transaction) :
    SameVerifiers d.start (d.reached transactions) := by
  apply reached_invariant d (I := fun c => SameVerifiers d.start c) ⟨rfl, rfl, rfl, rfl⟩
  intro c tx next hc heffect
  have hkept := sameVerifiers_of_effect heffect
  exact ⟨hkept.verifier.trans hc.verifier, hkept.programVKey.trans hc.programVKey,
    hkept.bridgeVerifier.trans hc.bridgeVerifier,
    hkept.bridgeProgramVKey.trans hc.bridgeProgramVKey⟩

/-- What the registry promises about proposals and registered tokens. -/
structure RegistrySound (c : Chain W) : Prop where
  /-- A pending proposal is stored under its own token, which is not zero. -/
  pending : ∀ token, c.registry.assetStatusByToken token = .pending →
    (c.registry.assetRecordByToken token).ethereumToken = token ∧ token ≠ 0 ∧
      (c.registry.assetRecordByToken token).assetId ≠ 0
  /-- The zero address is never registered. -/
  zero : c.bridge.canonicalTokenRegistered 0 = false
  /-- A registered token has an asset identifier. -/
  assetId : ∀ token, c.bridge.canonicalTokenRegistered token = true →
    c.bridge.assetIdByToken token ≠ 0

/-- A transaction that keeps the registry and the registered tokens keeps their
promises. -/
theorem RegistrySound.of_eq {c next : Chain W} (h : RegistrySound c)
    (hrecords : next.registry.assetRecordByToken = c.registry.assetRecordByToken)
    (hstatus : next.registry.assetStatusByToken = c.registry.assetStatusByToken)
    (hregistered : next.bridge.canonicalTokenRegistered = c.bridge.canonicalTokenRegistered)
    (hasset : next.bridge.assetIdByToken = c.bridge.assetIdByToken) : RegistrySound next := by
  constructor
  · rw [hrecords, hstatus]
    exact h.pending
  · rw [hregistered]
    exact h.zero
  · rw [hregistered, hasset]
    exact h.assetId

/-- One transaction keeps the registry's promises. -/
theorem registrySound_of_effect {c next : Chain W} {ctx : CallContext} {call : Call}
    (hc : RegistrySound c) (h : Effect env c ctx call next) : RegistrySound next := by
  cases h with
  | administer _ administered =>
    obtain ⟨_, _, _, hbridge⟩ := administered.bridge_eq
    apply hc.of_eq <;> simp only [administered.registry_eq, hbridge]
  | settle => exact hc.of_eq rfl rfl rfl rfl
  | append => exact hc.of_eq rfl rfl rfl rfl
  | transition _ transitioned =>
    apply hc.of_eq <;> simp only [transitioned.registry_eq, transitioned.bridge_eq, afterTransition]
  | nativeDeposit deposited => exact hc.of_eq rfl rfl rfl rfl
  | tokenDeposit deposited => exact hc.of_eq rfl rfl rfl rfl
  | nativeClaim claimed => exact hc.of_eq rfl rfl rfl rfl
  | tokenClaim claimed => exact hc.of_eq rfl rfl rfl rfl
  | etherRescue rescued => exact hc.of_eq rfl rfl rfl rfl
  | tokenRescue rescued => exact hc.of_eq rfl rfl rfl rfl
  | @propose record _ proposed =>
    refine ⟨?_, by rw [proposed.bridge_eq]; exact hc.zero, by
      rw [proposed.bridge_eq]; exact hc.assetId⟩
    intro token hpending
    rw [proposed.status_eq] at hpending
    rw [proposed.records_eq]
    by_cases htoken : token = record.ethereumToken
    · subst htoken
      rw [Function.update_self]
      exact ⟨rfl, proposed.token_ne, proposed.assetId_ne⟩
    · rw [Function.update_of_ne htoken] at hpending ⊢
      exact hc.pending token hpending
  | @cancel cancelledToken _ cancelled =>
    refine ⟨?_, by rw [cancelled.bridge_eq]; exact hc.zero, by
      rw [cancelled.bridge_eq]; exact hc.assetId⟩
    intro token hpending
    rw [cancelled.status_eq] at hpending
    rw [cancelled.records_eq]
    by_cases htoken : token = cancelledToken
    · subst htoken
      rw [Function.update_self] at hpending
      cases hpending
    · rw [Function.update_of_ne htoken] at hpending ⊢
      exact hc.pending token hpending
  | @activate _ activatedToken _ _ _ activated =>
    obtain ⟨hsame, hne, hasset⟩ := hc.pending activatedToken activated.pending
    have hbridge := activated.bridge_eq
    refine ⟨?_, ?_, ?_⟩
    · intro token hpending
      rw [activated.status_eq, hsame] at hpending
      rw [activated.records_eq]
      by_cases htoken : token = activatedToken
      · subst htoken
        rw [Function.update_self] at hpending
        cases hpending
      · rw [Function.update_of_ne htoken] at hpending
        exact hc.pending token hpending
    · rw [hbridge]
      simp only [afterActivation, hsame]
      rw [Function.update_of_ne (Ne.symm hne)]
      exact hc.zero
    · intro token hregistered
      rw [hbridge] at hregistered ⊢
      simp only [afterActivation, hsame] at hregistered ⊢
      by_cases htoken : token = activatedToken
      · subst htoken
        rw [Function.update_self]
        exact hasset
      · rw [Function.update_of_ne htoken] at hregistered ⊢
        exact hc.assetId token hregistered
  | @status changedToken newStatus _ changed =>
    obtain ⟨_, hbridge⟩ := changed.bridge_eq
    refine ⟨?_, by rw [hbridge]; exact hc.zero, by rw [hbridge]; exact hc.assetId⟩
    intro token hpending
    rw [changed.status_eq] at hpending
    rw [changed.records_eq]
    by_cases htoken : token = changedToken
    · subst htoken
      rw [Function.update_self] at hpending
      exact absurd hpending changed.newStatus_ne
    · rw [Function.update_of_ne htoken] at hpending
      exact hc.pending token hpending
  | tokenTransfer _ transferred => exact hc.of_eq rfl rfl rfl rfl
  | etherForced => exact hc.of_eq rfl rfl rfl rfl

/-- A fresh deployment has no proposal and no registered token. -/
theorem start_registrySound (d : Deployment env W) : RegistrySound d.start := by
  obtain ⟨_, _, hbridge⟩ := d.initialized.bridge_eq
  have hregistry := d.initialized.registry_eq
  constructor
  · intro token hpending
    rw [hregistry] at hpending
    cases hpending
  · rw [hbridge]
    rfl
  · intro token hregistered
    rw [hbridge] at hregistered
    cases hregistered

/-- The registry's promises hold in every reachable state. -/
theorem reached_registrySound (d : Deployment env W) (transactions : List Transaction) :
    RegistrySound (d.reached transactions) :=
  reached_invariant d (start_registrySound d) (fun _ _ _ hc h => registrySound_of_effect hc h)
    transactions

/-- Transactions were accepted in states that keep the registry's promises. -/
theorem history_registrySound (d : Deployment env W) {transactions : List Transaction} :
    ∀ entry ∈ d.history transactions, RegistrySound entry.1 := by
  intro entry hentry
  obtain ⟨before, hbefore⟩ := history_reached d hentry
  rw [hbefore]
  exact reached_registrySound d before

end EthereumSettlement.RunInvariants
