import EthereumSettlement.ReferenceDeployment
import EthereumSettlement.StepEffects

/-!
# Who may change what

Both contracts keep their own table of roles. Each call that changes more than balances
demands one role of its sender, a role is only ever appointed by an account that holds
the appointing role, and so every authority that is ever used descends from the admins
named at deployment. Senders without any role reach nothing but the deposit and claim
ledgers, and a paused bridge keeps even those as they are.
-/

namespace EthereumSettlement.RoleGovernance

open ByteWords CheckedCalls TransitionRuns PastaPoseidon ZekoSettlement EthereumZekoBridge
open ZekoAssetRegistry
open BridgeSystem StepEffects ReferenceDeployment OpenZeppelin

variable (env : Environment) {W : TokenWorld}

/-- The two contracts that keep roles. -/
inductive RoleTable
  | settlement
  | bridge
  deriving DecidableEq

/-- Whether an account holds a role of a contract. -/
def holds (c : Chain W) : RoleTable → Bytes32 → Address → Bool
  | .settlement => c.settlement.hasRole
  | .bridge => c.bridge.hasRole

/-- The role that a call demands of its sender. Deposits, claims, the renouncing of one's
own roles and transfers demand none. -/
def demanded : Call → Option (RoleTable × Bytes32)
  | .settlementGrantRole _ _ | .settlementRevokeRole _ _ => some (.settlement, defaultAdminRole)
  | .setVkHash _ | .setBridgeContract _ => some (.settlement, adminRole env)
  | .appendOuterWitnessBatch _ _ _ => some (.settlement, bridgeRole env)
  | .verifyAndUpdateRoot _ _ => some (.settlement, proverRole env)
  | .bridgeGrantRole _ _ | .bridgeRevokeRole _ _ => some (.bridge, defaultAdminRole)
  | .pause | .unpause | .setWithdrawalDelaySlots _ => some (.bridge, adminRole env)
  | .emergencyWithdrawToken _ _ _ _ => some (.bridge, adminRole env)
  | .submitBridgeTransition _ _ => some (.bridge, proverRole env)
  | .proposeAsset _ | .cancelLastPendingAsset _ => some (.bridge, adminRole env)
  | .activateAsset _ _ _ => some (.bridge, adminRole env)
  | .activateAssetFromBatch _ _ _ _ | .setAssetStatus _ _ => some (.bridge, adminRole env)
  | _ => none

/-- The role that a call gives to an account. -/
def appointed : Call → Option (RoleTable × Bytes32 × Address)
  | .settlementGrantRole role account => some (.settlement, role, account)
  | .setBridgeContract newBridge => some (.settlement, bridgeRole env, newBridge)
  | .bridgeGrantRole role account => some (.bridge, role, account)
  | _ => none

/-- A settlement call behind `onlyRole` was sent by a holder. -/
theorem sender_of_settlementStep {c next : Chain W} {role : Bytes32} {sender : Address}
    {body : Unit → SettlementCall}
    (h : settlementStep c (onlyRole env c.settlement role sender >>= body) = .ok next) :
    holds c .settlement role sender = true := by
  rw [settlementStep, bind_eq_ok] at h
  obtain ⟨settled, hsettled, -⟩ := h
  rw [callSettlement_eq_ok, onlyRole_bind_eq_ok] at hsettled
  exact hsettled.1

/-- A bridge call behind `onlyRole` was sent by a holder. -/
theorem sender_of_onlyBridgeRole {c next : Chain W} {role : Bytes32} {sender : Address}
    {body : Unit → BridgeCall W}
    (h : (onlyBridgeRole env c.bridge role sender >>= body) = .ok next) :
    holds c .bridge role sender = true := by
  rw [onlyBridgeRole_bind_eq_ok] at h
  exact h.1

/-- A registry call behind `onlyBridgeAdmin` was sent by an admin of the bridge. -/
theorem sender_of_onlyBridgeAdmin {c next : Chain W} {sender : Address}
    {body : Unit → BridgeCall W} (h : (onlyBridgeAdmin env c sender >>= body) = .ok next) :
    holds c .bridge (adminRole env) sender = true := by
  rw [onlyBridgeAdmin, require_bind_eq_ok] at h
  exact h.1

/-- An accepted call was sent by a holder of the role that it demands. -/
theorem demanded_held {c next : Chain W} {tx : Transaction} (h : step env c tx = .ok next)
    {table : RoleTable} {role : Bytes32} (hdemanded : demanded env tx.call = some (table, role)) :
    holds c table role tx.ctx.sender = true := by
  rw [step, require_bind_eq_ok] at h
  have hexecuted := h.2
  obtain ⟨ctx, call⟩ := tx
  cases call with
  | settlementGrantRole role account =>
    cases hdemanded
    simp only [execute, settlementStep, bind_eq_ok, callSettlement_eq_ok, grantRole_eq_ok]
      at hexecuted
    obtain ⟨settled, ⟨hholds, -⟩, -⟩ := hexecuted
    exact hholds
  | settlementRevokeRole role account =>
    cases hdemanded
    simp only [execute, settlementStep, bind_eq_ok, callSettlement_eq_ok, revokeRole_eq_ok]
      at hexecuted
    obtain ⟨settled, ⟨hholds, -⟩, -⟩ := hexecuted
    exact hholds
  | setVkHash newVkHash =>
    cases hdemanded
    exact sender_of_settlementStep env hexecuted
  | setBridgeContract newBridge =>
    cases hdemanded
    exact sender_of_settlementStep env hexecuted
  | appendOuterWitnessBatch stateBefore stateAfter count =>
    cases hdemanded
    exact sender_of_settlementStep env hexecuted
  | verifyAndUpdateRoot publicValues proofBytes =>
    cases hdemanded
    exact sender_of_settlementStep env hexecuted
  | bridgeGrantRole role account =>
    cases hdemanded
    rw [execute, grantBridgeRole_eq_ok] at hexecuted
    exact hexecuted.1
  | bridgeRevokeRole role account =>
    cases hdemanded
    rw [execute, revokeBridgeRole_eq_ok] at hexecuted
    exact hexecuted.1
  | pause =>
    cases hdemanded
    exact sender_of_onlyBridgeRole env hexecuted
  | unpause =>
    cases hdemanded
    exact sender_of_onlyBridgeRole env hexecuted
  | setWithdrawalDelaySlots newDelay =>
    cases hdemanded
    exact sender_of_onlyBridgeRole env hexecuted
  | emergencyWithdrawToken token receiver amount accepts =>
    cases hdemanded
    exact sender_of_onlyBridgeRole env hexecuted
  | submitBridgeTransition publicValues proofBytes =>
    cases hdemanded
    exact sender_of_onlyBridgeRole env hexecuted
  | proposeAsset record =>
    cases hdemanded
    exact sender_of_onlyBridgeAdmin env hexecuted
  | cancelLastPendingAsset token =>
    cases hdemanded
    exact sender_of_onlyBridgeAdmin env hexecuted
  | activateAsset token root count =>
    cases hdemanded
    exact sender_of_onlyBridgeAdmin env hexecuted
  | activateAssetFromBatch token sequence commitment siblings =>
    cases hdemanded
    exact sender_of_onlyBridgeAdmin env hexecuted
  | setAssetStatus token newStatus =>
    cases hdemanded
    exact sender_of_onlyBridgeAdmin env hexecuted
  | _ => cases hdemanded

/-- The settlement contract of a chain keeps its roles through appended actions. -/
theorem appended_hasRole {s next : SettlementStorage} {states : List Bytes32}
    (h : ActionsAppended s states next) : next.hasRole = s.hasRole := by
  induction h with
  | nil => rfl
  | cons first rest ih => rw [ih, first.configuration.hasRole]

/-- Outside administration the tables stay as they are. -/
theorem holds_of_effect {c next : Chain W} {ctx : CallContext} {call : Call}
    (h : Effect env c ctx call next) (hother : call.isAdministration = false) :
    next.settlement.hasRole = c.settlement.hasRole ∧ next.bridge.hasRole = c.bridge.hasRole := by
  cases h with
  | administer kind administered =>
    rw [kind] at hother
    cases hother
  | settle proved decode settled reported => exact ⟨settled.configuration.hasRole, rfl⟩
  | append appended reported => exact ⟨appended.configuration.hasRole, rfl⟩
  | transition proved transitioned =>
    refine ⟨appended_hasRole transitioned.appended, ?_⟩
    rw [transitioned.bridge_eq]
    rfl
  | nativeDeposit deposited => exact ⟨rfl, rfl⟩
  | tokenDeposit deposited => exact ⟨rfl, rfl⟩
  | nativeClaim claimed => exact ⟨rfl, rfl⟩
  | tokenClaim claimed => exact ⟨rfl, rfl⟩
  | etherRescue rescued => exact ⟨rfl, rfl⟩
  | tokenRescue rescued => exact ⟨rfl, rfl⟩
  | propose proposed => exact ⟨by rw [proposed.settlement_eq], by rw [proposed.bridge_eq]⟩
  | cancel cancelled => exact ⟨by rw [cancelled.settlement_eq], by rw [cancelled.bridge_eq]⟩
  | activate kind activated =>
    refine ⟨by rw [activated.settlement_eq], ?_⟩
    rw [activated.bridge_eq]
    rfl
  | status changed =>
    obtain ⟨allowedToken, hbridge⟩ := changed.bridge_eq
    exact ⟨by rw [changed.settlement_eq], by rw [hbridge]⟩
  | tokenTransfer outside transferred => exact ⟨rfl, rfl⟩
  | etherForced => exact ⟨rfl, rfl⟩

/-- What a settlement call does to the settlement contract's table it does to both. -/
theorem held_of_settlementStep {c next : Chain W} {result : SettlementCall}
    {appointment : Option (RoleTable × Bytes32 × Address)} {table : RoleTable} {role : Bytes32}
    {account : Address} (h : settlementStep c result = .ok next)
    (hentries : ∀ settled, result = .ok settled → settled.1.hasRole role account = true →
      c.settlement.hasRole role account = true ∨ appointment = some (.settlement, role, account))
    (hheld : holds next table role account = true) :
    holds c table role account = true ∨ appointment = some (table, role, account) := by
  simp only [settlementStep, bind_eq_ok, callSettlement_eq_ok, pure_eq_ok] at h
  obtain ⟨settled, hsettled, rfl⟩ := h
  cases table with
  | settlement => exact hentries settled hsettled hheld
  | bridge => exact .inl hheld

/-- What a bridge call does to the bridge's table it does to both. -/
theorem held_of_bridge {c next : Chain W}
    {appointment : Option (RoleTable × Bytes32 × Address)} {table : RoleTable} {role : Bytes32}
    {account : Address} (hsettlement : next.settlement = c.settlement)
    (hentries : next.bridge.hasRole role account = true →
      c.bridge.hasRole role account = true ∨ appointment = some (.bridge, role, account))
    (hheld : holds next table role account = true) :
    holds c table role account = true ∨ appointment = some (table, role, account) := by
  cases table with
  | settlement =>
    rw [holds, hsettlement] at hheld
    exact .inl hheld
  | bridge => exact hentries hheld

/-- A role held after an accepted call was held before it or is the one the call appoints. -/
theorem held_before {c next : Chain W} {tx : Transaction} (h : step env c tx = .ok next)
    {table : RoleTable} {role : Bytes32} {account : Address}
    (hheld : holds next table role account = true) :
    holds c table role account = true ∨ appointed env tx.call = some (table, role, account) := by
  by_cases hother : tx.call.isAdministration = false
  · have hsame := holds_of_effect env (step_effect env h) hother
    cases table with
    | settlement =>
      rw [holds, hsame.1] at hheld
      exact .inl hheld
    | bridge =>
      rw [holds, hsame.2] at hheld
      exact .inl hheld
  · rw [step, require_bind_eq_ok] at h
    have hexecuted := h.2
    obtain ⟨ctx, call⟩ := tx
    cases call with
    | settlementGrantRole granted target =>
      refine held_of_settlementStep hexecuted ?_ hheld
      intro settled hresult hentry
      simp only [grantRole_eq_ok] at hresult
      rw [← hresult.2] at hentry
      cases held_of_setRole hentry with
      | inl hbefore => exact .inl hbefore
      | inr hnew => exact .inr (by rw [hnew.2.1, hnew.2.2]; rfl)
    | settlementRevokeRole revoked target =>
      refine held_of_settlementStep hexecuted ?_ hheld
      intro settled hresult hentry
      simp only [revokeRole_eq_ok] at hresult
      rw [← hresult.2] at hentry
      exact .inl (held_of_removal hentry)
    | settlementRenounceRole renounced confirmation =>
      refine held_of_settlementStep hexecuted ?_ hheld
      intro settled hresult hentry
      simp only [renounceRole_eq_ok] at hresult
      rw [← hresult.2] at hentry
      exact .inl (held_of_removal hentry)
    | setVkHash newVkHash =>
      refine held_of_settlementStep hexecuted ?_ hheld
      intro settled hresult hentry
      simp only [setVkHash, onlyRole_bind_eq_ok, pure_eq_ok] at hresult
      rw [← hresult.2] at hentry
      exact .inl hentry
    | setBridgeContract newBridge =>
      refine held_of_settlementStep hexecuted ?_ hheld
      intro settled hresult hentry
      simp only [setBridgeContract, onlyRole_bind_eq_ok, require_bind_eq_ok, pure_eq_ok,
        AccessControl.internalRevokeRole_eq, AccessControl.internalGrantRole_eq] at hresult
      rw [← hresult.2.2] at hentry
      cases held_of_setRole hentry with
      | inl hbefore =>
        by_cases hnone : c.settlement.bridgeContract = 0
        · rw [if_pos hnone] at hbefore
          exact .inl hbefore
        · rw [if_neg hnone] at hbefore
          exact .inl (held_of_removal hbefore)
      | inr hnew => exact .inr (by rw [hnew.2.1, hnew.2.2]; rfl)
    | bridgeGrantRole granted target =>
      simp only [execute, grantBridgeRole_eq_ok] at hexecuted
      refine held_of_bridge (by rw [← hexecuted.2]) ?_ hheld
      intro hentry
      rw [← hexecuted.2] at hentry
      cases held_of_setRole hentry with
      | inl hbefore => exact .inl hbefore
      | inr hnew => exact .inr (by rw [hnew.2.1, hnew.2.2]; rfl)
    | bridgeRevokeRole revoked target =>
      simp only [execute, revokeBridgeRole_eq_ok] at hexecuted
      refine held_of_bridge (by rw [← hexecuted.2]) ?_ hheld
      intro hentry
      rw [← hexecuted.2] at hentry
      exact .inl (held_of_removal hentry)
    | bridgeRenounceRole renounced confirmation =>
      simp only [execute, renounceBridgeRole_eq_ok] at hexecuted
      refine held_of_bridge (by rw [← hexecuted.2]) ?_ hheld
      intro hentry
      rw [← hexecuted.2] at hentry
      exact .inl (held_of_removal hentry)
    | pause =>
      simp only [execute, pause_eq_ok] at hexecuted
      rw [← hexecuted.2.2] at hheld
      exact .inl hheld
    | unpause =>
      simp only [execute, unpause_eq_ok] at hexecuted
      rw [← hexecuted.2.2] at hheld
      exact .inl hheld
    | setWithdrawalDelaySlots newDelay =>
      simp only [execute, EthereumZekoBridge.setWithdrawalDelaySlots, onlyBridgeRole_bind_eq_ok,
        pure_eq_ok] at hexecuted
      rw [← hexecuted.2] at hheld
      exact .inl hheld
    | _ => exact absurd rfl hother

variable {env}

/-- The roles that the initializers of both contracts grant to their admin. -/
def initialRoles (env : Environment) : List Bytes32 :=
  [defaultAdminRole, adminRole env, proverRole env, upgraderRole env]

/-- The admin named at the deployment of a contract. -/
def initialAdmin (d : Deployment env W) : RoleTable → Address
  | .settlement => d.settlement.initialAdmin
  | .bridge => d.bridge.initialAdmin

/-- An account's authority in one role of one contract descends from the admin named at the
deployment of that contract: the role was granted to the account there, or a call of the
history gave that very role to the account, and its sender held the role of the same contract
that the call demands, with an authority in it that descends through the calls before. -/
inductive Descends (d : Deployment env W) :
    List (Chain W × Transaction) → RoleTable → Bytes32 → Address → Prop
  | deployed {history : List (Chain W × Transaction)} {table : RoleTable} {role : Bytes32}
      (granted : role ∈ initialRoles env) : Descends d history table role (initialAdmin d table)
  | appointee {before after : List (Chain W × Transaction)} {entry : Chain W × Transaction}
      {table : RoleTable} {role demandedRole : Bytes32} {account : Address}
      (appoints : appointed env entry.2.call = some (table, role, account))
      (demands : demanded env entry.2.call = some (table, demandedRole))
      (held : holds entry.1 table demandedRole entry.2.ctx.sender = true)
      (sender : Descends d before table demandedRole entry.2.ctx.sender) :
      Descends d (before ++ entry :: after) table role account

/-- Descent is not lost as the history grows. -/
theorem Descends.append {d : Deployment env W} {history : List (Chain W × Transaction)}
    {table : RoleTable} {role : Bytes32} {account : Address}
    (h : Descends d history table role account) (more : List (Chain W × Transaction)) :
    Descends d (history ++ more) table role account := by
  cases h with
  | deployed granted => exact .deployed granted
  | appointee appoints demands held sender =>
    rw [List.append_assoc, List.cons_append]
    exact .appointee appoints demands held sender

/-- Every call that gives a role of a contract demands a role of the same contract. -/
theorem demanded_of_appointed {call : Call} {table : RoleTable} {role : Bytes32}
    {account : Address} (h : appointed env call = some (table, role, account)) :
    ∃ demandedRole, demanded env call = some (table, demandedRole) := by
  cases call with
  | settlementGrantRole granted target =>
    cases h
    exact ⟨_, rfl⟩
  | setBridgeContract newBridge =>
    cases h
    exact ⟨_, rfl⟩
  | bridgeGrantRole granted target =>
    cases h
    exact ⟨_, rfl⟩
  | _ => cases h

/-- A role granted to the admin at deployment is held by the admin only. -/
theorem held_of_foldl {roles : List Bytes32} {admin : Address} {table : Roles} {role : Bytes32}
    {account : Address} (h : roles.foldl (fun table granted =>
      env.accessControl.internalGrantRole table granted admin) table role account = true) :
    table role account = true ∨ (role ∈ roles ∧ account = admin) := by
  induction roles generalizing table with
  | nil => exact .inl h
  | cons granted roles ih =>
    cases ih h with
    | inl hheld =>
      dsimp only at hheld
      rw [env.accessControl.internalGrantRole_eq] at hheld
      cases held_of_setRole hheld with
      | inl hbefore => exact .inl hbefore
      | inr hnew => exact .inr ⟨hnew.2.1 ▸ List.mem_cons_self, hnew.2.2⟩
    | inr hadmin => exact .inr ⟨List.mem_cons_of_mem _ hadmin.1, hadmin.2⟩

/-- A fresh deployment knows no holders of roles but the admin of each contract, in the roles
that its initializer grants. -/
theorem held_at_start (d : Deployment env W) {table : RoleTable} {role : Bytes32}
    {account : Address} (h : holds d.start table role account = true) :
    role ∈ initialRoles env ∧ account = initialAdmin d table := by
  have hdeployed := d.deployed
  simp only [deploy, bind_eq_ok, pure_eq_ok] at hdeployed
  obtain ⟨settled, hsettled, bridged, hbridged, hstart⟩ := hdeployed
  simp only [callSettlement_eq_ok, initializeSettlement, bind_eq_ok, require_eq_ok, exists_const,
    pure_eq_ok] at hsettled
  obtain ⟨-, -, recorded, hrecorded, hsettled⟩ := hsettled
  obtain ⟨entries, hrecorded⟩ := recordAcceptedInnerState_eq_ok hrecorded
  simp only [initializeBridge, bind_eq_ok, require_eq_ok, exists_const, pure_eq_ok] at hbridged
  obtain ⟨-, -, -, hbridged⟩ := hbridged
  rw [← hstart] at h
  cases table with
  | settlement =>
    rw [holds, ← hsettled, hrecorded] at h
    cases held_of_foldl h with
    | inl hbefore => cases hbefore
    | inr hadmin => exact hadmin
  | bridge =>
    rw [holds, ← hbridged] at h
    cases held_of_foldl h with
    | inl hbefore => cases hbefore
    | inr hadmin => exact hadmin

/-- What a fresh deployment knows descends from the admins. -/
theorem start_descends (d : Deployment env W) {table : RoleTable} {role : Bytes32}
    {account : Address} (h : holds d.start table role account = true) :
    Descends d [] table role account := by
  obtain ⟨hgranted, hadmin⟩ := held_at_start d h
  rw [hadmin]
  exact .deployed hgranted

/-- Everybody who holds a role, and everybody who used one, has it from the admins. -/
structure Provenance (d : Deployment env W) (history : List (Chain W × Transaction))
    (c : Chain W) : Prop where
  /-- The holders of a role have it from the admin of its contract. -/
  holders : ∀ table role account, holds c table role account = true →
    Descends d history table role account
  /-- Whoever sent a call that demands a role held that role, and had it through earlier calls. -/
  senders : ∀ before entry after, history = before ++ entry :: after → ∀ table role,
    demanded env entry.2.call = some (table, role) →
      holds entry.1 table role entry.2.ctx.sender = true ∧
        Descends d before table role entry.2.ctx.sender

/-- An accepted call keeps the provenance. -/
theorem Provenance.step {d : Deployment env W} {history : List (Chain W × Transaction)}
    {c next : Chain W} {tx : Transaction} (hprovenance : Provenance d history c)
    (h : BridgeSystem.step env c tx = .ok next) : Provenance d (history ++ [(c, tx)]) next := by
  constructor
  · intro table role account hheld
    cases held_before env h hheld with
    | inl hbefore => exact (hprovenance.holders table role account hbefore).append _
    | inr happointed =>
      obtain ⟨demandedRole, hdemanded⟩ := demanded_of_appointed happointed
      have hsender := demanded_held env h hdemanded
      exact .appointee happointed hdemanded hsender (hprovenance.holders _ _ _ hsender)
  · intro before entry after hsplit table role hdemanded
    -- The entry is the last one, or one of the history so far.
    rcases List.eq_nil_or_concat after with hnil | ⟨rest, last, hrest⟩
    · rw [hnil] at hsplit
      obtain ⟨hbefore, hentry⟩ := List.append_inj' hsplit rfl
      rw [← List.head_eq_of_cons_eq hentry] at hdemanded ⊢
      rw [← hbefore]
      have hsender := demanded_held env h hdemanded
      exact ⟨hsender, hprovenance.holders _ _ _ hsender⟩
    · rw [hrest, List.concat_eq_append, ← List.cons_append, ← List.append_assoc] at hsplit
      obtain ⟨hhistory, -⟩ := List.append_inj' hsplit rfl
      exact hprovenance.senders before entry rest hhistory table role hdemanded

/-- In every run from every deployment, every account that holds a role of a contract, and
every account that ever sent an accepted call that demands one, has that role through a chain
of appointments to roles of the same contract that starts with the admin named at its
deployment, each by an account that held the appointing role at that time and had it through
earlier calls. -/
theorem authority_descends (d : Deployment env W) (transactions : List Transaction) :
    Provenance d (d.history transactions) (d.reached transactions) := by
  apply history_invariant (Q := fun _ => True) (fun _ _ _ _ hprovenance _ h => hprovenance.step h)
    transactions []
  · constructor
    · intro table role account hheld
      exact start_descends d hheld
    · intro before entry after hsplit
      exact absurd hsplit.symm (List.append_ne_nil_of_right_ne_nil _ (List.cons_ne_nil _ _))
  · intro _ _
    exact trivial

/-- An account that holds no role of either contract. -/
def Outsider (c : Chain W) (account : Address) : Prop :=
  ∀ table role, holds c table role account = false

/-- Nothing but the ledgers of deposits and claims, the balances and the log differs. -/
structure Untouched (c next : Chain W) : Prop where
  /-- The settlement contract is unchanged. -/
  settlement_eq : next.settlement = c.settlement
  /-- The registry is unchanged. -/
  registry_eq : next.registry = c.registry
  /-- Only the ledgers of deposits and claims differ in the bridge. -/
  bridge_eq : ∃ depositNonce currentDepositState depositStateByNonce totalDepositedByToken
      nativeEscrowLiability escrowLiabilityByToken nextWithdrawalIndex nextTokenWithdrawalIndex,
    next.bridge = { c.bridge with
      depositNonce := depositNonce
      currentDepositState := currentDepositState
      depositStateByNonce := depositStateByNonce
      totalDepositedByToken := totalDepositedByToken
      nativeEscrowLiability := nativeEscrowLiability
      escrowLiabilityByToken := escrowLiabilityByToken
      nextWithdrawalIndex := nextWithdrawalIndex
      nextTokenWithdrawalIndex := nextTokenWithdrawalIndex }

/-- A chain is untouched by nothing. -/
theorem Untouched.refl (c : Chain W) : Untouched c c :=
  ⟨rfl, rfl, _, _, _, _, _, _, _, _, rfl⟩

/-- Untouched twice is untouched. -/
theorem Untouched.trans {c middle next : Chain W} (first : Untouched c middle)
    (second : Untouched middle next) : Untouched c next := by
  obtain ⟨nonce, state, states, totals, native, escrow, cursors, tokenCursors, hbridge⟩ :=
    second.bridge_eq
  obtain ⟨_, _, _, _, _, _, _, _, hfirst⟩ := first.bridge_eq
  rw [hfirst] at hbridge
  exact ⟨second.settlement_eq.trans first.settlement_eq,
    second.registry_eq.trans first.registry_eq,
    nonce, state, states, totals, native, escrow, cursors, tokenCursors, hbridge⟩

/-- An account cannot renounce what it does not hold. -/
theorem untouched_renounce {c next : Chain W} {ctx : CallContext} {role : Bytes32}
    {confirmation : Address} (houtsider : Outsider c ctx.sender)
    (h : execute env c ctx (.settlementRenounceRole role confirmation) = .ok next ∨
      execute env c ctx (.bridgeRenounceRole role confirmation) = .ok next) : Untouched c next := by
  have hsettlement : setRole c.settlement.hasRole role ctx.sender false = c.settlement.hasRole :=
    setRole_self (houtsider .settlement role)
  have hbridge : setRole c.bridge.hasRole role ctx.sender false = c.bridge.hasRole :=
    setRole_self (houtsider .bridge role)
  cases h with
  | inl h =>
    simp only [execute, settlementStep, renounceRole_eq_ok, bind_eq_ok, callSettlement_eq_ok,
      pure_eq_ok] at h
    obtain ⟨settled, ⟨-, rfl⟩, rfl⟩ := h
    rw [hsettlement]
    exact ⟨rfl, rfl, _, _, _, _, _, _, _, _, rfl⟩
  | inr h =>
    simp only [execute, renounceBridgeRole_eq_ok] at h
    rw [← h.2, hbridge]
    exact Untouched.refl c

/-- A call of an account without roles reaches only the ledgers. -/
theorem untouched_step {c next : Chain W} {tx : Transaction} (houtsider : Outsider c tx.ctx.sender)
    (h : step env c tx = .ok next) : Untouched c next := by
  have hdemands : ∀ table role, demanded env tx.call ≠ some (table, role) := by
    intro table role hdemanded
    have hheld := demanded_held env h hdemanded
    rw [houtsider table role] at hheld
    cases hheld
  have heffect := step_effect env h
  rw [step, require_bind_eq_ok] at h
  have hexecuted := h.2
  obtain ⟨ctx, call⟩ := tx
  cases call with
  | settlementRenounceRole role confirmation =>
    exact untouched_renounce houtsider (.inl hexecuted)
  | bridgeRenounceRole role confirmation =>
    exact untouched_renounce houtsider (.inr hexecuted)
  | submitDeposit token amount zekoRecipient =>
    cases heffect with
    | administer kind => cases kind
    | activate kind => cases kind
    | tokenDeposit deposited => exact ⟨rfl, rfl, _, _, _, _, _, _, _, _, rfl⟩
  | depositETH value zekoRecipient =>
    cases heffect with
    | administer kind => cases kind
    | activate kind => cases kind
    | nativeDeposit deposited => exact ⟨rfl, rfl, _, _, _, _, _, _, _, _, rfl⟩
  | claimNativeWithdrawal claim accepts =>
    cases heffect with
    | administer kind => cases kind
    | activate kind => cases kind
    | nativeClaim claimed => exact ⟨rfl, rfl, _, _, _, _, _, _, _, _, rfl⟩
  | claimERC20Withdrawal token claim =>
    cases heffect with
    | administer kind => cases kind
    | activate kind => cases kind
    | tokenClaim claimed => exact ⟨rfl, rfl, _, _, _, _, _, _, _, _, rfl⟩
  | transferToken token receiver amount =>
    cases heffect with
    | administer kind => cases kind
    | activate kind => cases kind
    | tokenTransfer outside transferred => exact ⟨rfl, rfl, _, _, _, _, _, _, _, _, rfl⟩
  | forceEther amount =>
    cases heffect with
    | administer kind => cases kind
    | activate kind => cases kind
    | etherForced => exact ⟨rfl, rfl, _, _, _, _, _, _, _, _, rfl⟩
  | _ => exact absurd rfl (hdemands _ _)

/-- However long accounts without roles call the contracts, from whatever state, they leave
the settlement contract, the registry, and all of the bridge but the ledgers of deposits
and claims as they were: roles, names, keys, flags, delay and registered assets. -/
theorem outsiders_confined (c : Chain W) (transactions : List Transaction)
    (houtsiders : ∀ entry ∈ accepted (step env) c transactions,
      Outsider entry.1 entry.2.ctx.sender) :
    Untouched c (run (step env) c transactions) :=
  run_invariant_of (I := Untouched c) (Q := fun entry => Outsider entry.1 entry.2.ctx.sender)
    (fun _ _ _ hc houtsider h => hc.trans (untouched_step houtsider h))
    (Untouched.refl c) houtsiders

/-- The accepted part of a single attempt. -/
theorem accepted_single {c : Chain W} {tx : Transaction} {entry : Chain W × Transaction}
    (h : entry ∈ accepted (step env) c [tx]) : entry = (c, tx) := by
  obtain ⟨before, after, hsplit, hreached, -⟩ := accepted_split h
  cases before with
  | nil =>
    rw [List.nil_append, List.cons.injEq] at hsplit
    exact Prod.ext hreached hsplit.1.symm
  | cons first before =>
    have hlength := congrArg List.length hsplit
    simp only [List.cons_append, List.length_cons, List.length_append, List.length_nil] at hlength
    omega

/-- A deposit by an account without roles. -/
theorem outsiders_confined_deposit : Untouched deployment.start (run (step environment)
    deployment.start [⟨⟨depositor, 1000⟩, .depositETH 5000000000 3⟩]) := by
  refine outsiders_confined deployment.start _ ?_
  intro entry hentry
  rw [accepted_single hentry]
  intro table role
  cases hheld : holds deployment.start table role depositor with
  | false => rfl
  | true =>
    obtain ⟨-, hadmin⟩ := held_at_start deployment hheld
    cases table with
    | settlement => cases hadmin
    | bridge => cases hadmin

/-- The ledgers of deposits and claims are those of a paused bridge. -/
structure Frozen (c next : Chain W) : Prop where
  /-- It is still paused. -/
  paused : next.bridge.paused = true
  /-- No deposit is counted. -/
  depositNonce_eq : next.bridge.depositNonce = c.bridge.depositNonce
  /-- The accumulator is unchanged. -/
  currentDepositState_eq : next.bridge.currentDepositState = c.bridge.currentDepositState
  /-- The stored accumulators are unchanged. -/
  depositStateByNonce_eq : next.bridge.depositStateByNonce = c.bridge.depositStateByNonce
  /-- No action state becomes processed. -/
  processedActionState_eq : next.bridge.processedActionState = c.bridge.processedActionState
  /-- No deposit becomes bridged. -/
  bridgedDepositNonce_eq : next.bridge.bridgedDepositNonce = c.bridge.bridgedDepositNonce
  /-- The deposited totals are unchanged. -/
  totalDepositedByToken_eq : next.bridge.totalDepositedByToken = c.bridge.totalDepositedByToken
  /-- The liability in ether is unchanged. -/
  nativeEscrowLiability_eq : next.bridge.nativeEscrowLiability = c.bridge.nativeEscrowLiability
  /-- The liabilities in tokens are unchanged. -/
  escrowLiabilityByToken_eq : next.bridge.escrowLiabilityByToken = c.bridge.escrowLiabilityByToken
  /-- No native cursor moves. -/
  nextWithdrawalIndex_eq : next.bridge.nextWithdrawalIndex = c.bridge.nextWithdrawalIndex
  /-- No token cursor moves. -/
  nextTokenWithdrawalIndex_eq :
    next.bridge.nextTokenWithdrawalIndex = c.bridge.nextTokenWithdrawalIndex

/-- A paused bridge with the same ledgers is frozen. -/
theorem frozen_of_bridge {c next : Chain W} (hpaused : c.bridge.paused = true)
    (h : next.bridge = c.bridge) : Frozen c next := by
  constructor <;> rw [h]
  exact hpaused

/-- Frozen twice is frozen. -/
theorem Frozen.trans {c middle next : Chain W} (first : Frozen c middle)
    (second : Frozen middle next) : Frozen c next where
  paused := second.paused
  depositNonce_eq := second.depositNonce_eq.trans first.depositNonce_eq
  currentDepositState_eq := second.currentDepositState_eq.trans first.currentDepositState_eq
  depositStateByNonce_eq := second.depositStateByNonce_eq.trans first.depositStateByNonce_eq
  processedActionState_eq := second.processedActionState_eq.trans first.processedActionState_eq
  bridgedDepositNonce_eq := second.bridgedDepositNonce_eq.trans first.bridgedDepositNonce_eq
  totalDepositedByToken_eq := second.totalDepositedByToken_eq.trans first.totalDepositedByToken_eq
  nativeEscrowLiability_eq := second.nativeEscrowLiability_eq.trans first.nativeEscrowLiability_eq
  escrowLiabilityByToken_eq :=
    second.escrowLiabilityByToken_eq.trans first.escrowLiabilityByToken_eq
  nextWithdrawalIndex_eq := second.nextWithdrawalIndex_eq.trans first.nextWithdrawalIndex_eq
  nextTokenWithdrawalIndex_eq :=
    second.nextTokenWithdrawalIndex_eq.trans first.nextTokenWithdrawalIndex_eq

/-- A settlement call leaves the bridge as it was. -/
theorem settlementStep_bridge {c next : Chain W} {result : SettlementCall}
    (h : settlementStep c result = .ok next) : next.bridge = c.bridge := by
  simp only [settlementStep, bind_eq_ok, pure_eq_ok] at h
  obtain ⟨settled, -, rfl⟩ := h
  rfl

/-- Administration other than `unpause` keeps a bridge paused. -/
theorem paused_of_administration {c next : Chain W} {ctx : CallContext} {call : Call}
    (hpaused : c.bridge.paused = true) (hkind : call.isAdministration = true)
    (hcall : call ≠ .unpause) (h : execute env c ctx call = .ok next) :
    next.bridge.paused = true := by
  cases call with
  | settlementGrantRole role account => rw [settlementStep_bridge h]; exact hpaused
  | settlementRevokeRole role account => rw [settlementStep_bridge h]; exact hpaused
  | settlementRenounceRole role confirmation => rw [settlementStep_bridge h]; exact hpaused
  | setVkHash newVkHash => rw [settlementStep_bridge h]; exact hpaused
  | setBridgeContract newBridge => rw [settlementStep_bridge h]; exact hpaused
  | bridgeGrantRole role account =>
    simp only [execute, grantBridgeRole_eq_ok] at h
    rw [← h.2]
    exact hpaused
  | bridgeRevokeRole role account =>
    simp only [execute, revokeBridgeRole_eq_ok] at h
    rw [← h.2]
    exact hpaused
  | bridgeRenounceRole role confirmation =>
    simp only [execute, renounceBridgeRole_eq_ok] at h
    rw [← h.2]
    exact hpaused
  | pause =>
    simp only [execute, pause_eq_ok] at h
    rw [← h.2.2]
    rfl
  | unpause => exact absurd rfl hcall
  | setWithdrawalDelaySlots newDelay =>
    simp only [execute, EthereumZekoBridge.setWithdrawalDelaySlots, onlyBridgeRole_bind_eq_ok,
      pure_eq_ok] at h
    rw [← h.2]
    exact hpaused
  | _ => cases hkind

/-- A transition is accepted by an unpaused bridge only. -/
theorem unpaused_of_transition {c next : Chain W} {ctx : CallContext}
    {publicValues proofBytes : Bytes}
    (h : execute env c ctx (.submitBridgeTransition publicValues proofBytes) = .ok next) :
    c.bridge.paused = false := by
  rw [execute, submitBridgeTransition, onlyBridgeRole_bind_eq_ok, whenNotPaused_bind_eq_ok] at h
  exact h.2.1

/-- A call other than an emergency withdrawal. -/
def notRescue : Call → Bool
  | .emergencyWithdrawToken _ _ _ _ => false
  | _ => true

/-- A paused bridge stays frozen, and keeps its ether but for emergency withdrawals. -/
theorem frozen_step {c next : Chain W} {tx : Transaction} (hpaused : c.bridge.paused = true)
    (hcall : tx.call ≠ .unpause) (h : step env c tx = .ok next) :
    Frozen c next ∧ (notRescue tx.call = true → c.etherBalance ≤ next.etherBalance) := by
  have heffect := step_effect env h
  rw [step, require_bind_eq_ok] at h
  have hexecuted := h.2
  have hclosed : c.bridge.paused ≠ false := by
    rw [hpaused]
    exact Bool.noConfusion
  obtain ⟨ctx, call⟩ := tx
  cases heffect with
  | administer kind administered =>
    have hstill := paused_of_administration hpaused kind hcall hexecuted
    obtain ⟨hasRole, paused, delay, hbridge⟩ := administered.bridge_eq
    refine ⟨?_, fun _ => administered.etherBalance_eq.ge⟩
    constructor <;> first | exact hstill | rw [hbridge]
  | settle proved decode settled reported =>
    exact ⟨frozen_of_bridge hpaused rfl, fun _ => le_rfl⟩
  | append appended reported => exact ⟨frozen_of_bridge hpaused rfl, fun _ => le_rfl⟩
  | transition proved transitioned => exact absurd (unpaused_of_transition hexecuted) hclosed
  | nativeDeposit deposited => exact absurd deposited.unpaused hclosed
  | tokenDeposit deposited => exact absurd deposited.unpaused hclosed
  | nativeClaim claimed => exact absurd claimed.unpaused hclosed
  | tokenClaim claimed => exact absurd claimed.unpaused hclosed
  | etherRescue rescued =>
    refine ⟨frozen_of_bridge hpaused rfl, ?_⟩
    intro hother
    cases hother
  | tokenRescue rescued => exact ⟨frozen_of_bridge hpaused rfl, fun _ => le_rfl⟩
  | propose proposed =>
    exact ⟨frozen_of_bridge hpaused proposed.bridge_eq, fun _ => proposed.etherBalance_eq.ge⟩
  | cancel cancelled =>
    exact ⟨frozen_of_bridge hpaused cancelled.bridge_eq, fun _ => cancelled.etherBalance_eq.ge⟩
  | activate kind activated =>
    refine ⟨?_, fun _ => activated.etherBalance_eq.ge⟩
    constructor <;> rw [activated.bridge_eq] <;> first | exact hpaused | rfl
  | status changed =>
    obtain ⟨allowedToken, hbridge⟩ := changed.bridge_eq
    refine ⟨?_, fun _ => changed.etherBalance_eq.ge⟩
    constructor <;> rw [hbridge]
    exact hpaused
  | tokenTransfer outside transferred => exact ⟨frozen_of_bridge hpaused rfl, fun _ => le_rfl⟩
  | etherForced => exact ⟨frozen_of_bridge hpaused rfl, fun _ => Nat.le_add_right _ _⟩

/-- A paused bridge with no less ether. -/
structure KeepsEther (c next : Chain W) : Prop where
  /-- It is still paused. -/
  paused : next.bridge.paused = true
  /-- No ether has left. -/
  ether : c.etherBalance ≤ next.etherBalance

/-- An accepted call other than `unpause` and an emergency withdrawal keeps the ether. -/
theorem KeepsEther.step {c middle next : Chain W} {tx : Transaction} (hkept : KeepsEther c middle)
    (hcall : tx.call ≠ .unpause) (hother : notRescue tx.call = true)
    (h : BridgeSystem.step env middle tx = .ok next) : KeepsEther c next := by
  have hfrozen := frozen_step hkept.paused hcall h
  exact ⟨hfrozen.1.paused, hkept.ether.trans (hfrozen.2 hother)⟩

/-- The calls of deposits, transitions and claims. -/
def needsUnpaused : Call → Bool
  | .submitDeposit _ _ _ => true
  | .depositETH _ _ => true
  | .submitBridgeTransition _ _ => true
  | .claimNativeWithdrawal _ _ => true
  | .claimERC20Withdrawal _ _ => true
  | _ => false

/-- A paused bridge accepts no deposit, transition or claim. -/
theorem refused_while_paused {c next : Chain W} {tx : Transaction}
    (hpaused : c.bridge.paused = true) (h : step env c tx = .ok next) :
    needsUnpaused tx.call = false := by
  have heffect := step_effect env h
  rw [step, require_bind_eq_ok] at h
  have hexecuted := h.2
  have hclosed : c.bridge.paused ≠ false := by
    rw [hpaused]
    exact Bool.noConfusion
  obtain ⟨ctx, call⟩ := tx
  cases heffect with
  | administer kind administered =>
    cases call with
    | submitDeposit => cases kind
    | depositETH => cases kind
    | submitBridgeTransition => cases kind
    | claimNativeWithdrawal => cases kind
    | claimERC20Withdrawal => cases kind
    | _ => rfl
  | activate kind activated =>
    cases call with
    | submitDeposit => cases kind
    | depositETH => cases kind
    | submitBridgeTransition => cases kind
    | claimNativeWithdrawal => cases kind
    | claimERC20Withdrawal => cases kind
    | _ => rfl
  | transition proved transitioned => exact absurd (unpaused_of_transition hexecuted) hclosed
  | nativeDeposit deposited => exact absurd deposited.unpaused hclosed
  | tokenDeposit deposited => exact absurd deposited.unpaused hclosed
  | nativeClaim claimed => exact absurd claimed.unpaused hclosed
  | tokenClaim claimed => exact absurd claimed.unpaused hclosed
  | _ => rfl

/-- As long as nobody unpauses a paused bridge, whatever else is called by whomever, no
deposit, transition or claim is accepted, and the deposit chain, the bridged nonce, the
liabilities and the claim cursors stay as they are. Without an emergency withdrawal the
bridge also keeps its ether. -/
theorem pause_freezes (c : Chain W) (transactions : List Transaction)
    (hpaused : c.bridge.paused = true)
    (hcalls : ∀ entry ∈ accepted (step env) c transactions, entry.2.call ≠ .unpause) :
    Frozen c (run (step env) c transactions) ∧
      (∀ entry ∈ accepted (step env) c transactions, needsUnpaused entry.2.call = false) ∧
      ((∀ entry ∈ accepted (step env) c transactions, notRescue entry.2.call = true) →
        c.etherBalance ≤ (run (step env) c transactions).etherBalance) := by
  have hstep : ∀ history state tx next,
      (Frozen c state ∧ ∀ entry ∈ history, needsUnpaused (Prod.snd entry).call = false) →
      tx.call ≠ .unpause → step env state tx = .ok next → Frozen c next ∧
        ∀ entry ∈ history ++ [(state, tx)], needsUnpaused (Prod.snd entry).call = false := by
    intro history state tx next hstate hcall h
    obtain ⟨hfrozen, hrefused⟩ := hstate
    refine ⟨hfrozen.trans (frozen_step hfrozen.paused hcall h).1, ?_⟩
    rw [List.forall_mem_append, List.forall_mem_singleton]
    exact ⟨hrefused, refused_while_paused hfrozen.paused h⟩
  obtain ⟨hfrozen, hrefused⟩ := history_invariant hstep transactions []
    ⟨frozen_of_bridge hpaused rfl, List.forall_mem_nil _⟩ hcalls
  refine ⟨hfrozen, hrefused, ?_⟩
  intro hrescues
  have hboth : ∀ entry ∈ accepted (step env) c transactions,
      entry.2.call ≠ .unpause ∧ notRescue entry.2.call = true :=
    fun entry hentry => ⟨hcalls entry hentry, hrescues entry hentry⟩
  have hkept : KeepsEther c (run (step env) c transactions) :=
    run_invariant_of (Q := fun entry => entry.2.call ≠ .unpause ∧ notRescue entry.2.call = true)
      (fun _ _ _ hc hcall h => hc.step hcall.1 hcall.2 h) ⟨hpaused, le_rfl⟩ hboth
  exact hkept.ether

/-- The chain with its bridge paused. -/
def pausedStart : Chain ledgerWorld :=
  { deployment.start with bridge := { deployment.start.bridge with paused := true } }

/-- A deposit into a paused bridge leaves it as it was. -/
theorem pause_freezes_deposit : Frozen pausedStart (run (step environment) pausedStart
    [⟨⟨depositor, 1000⟩, .depositETH 5000000000 3⟩]) := by
  refine (pause_freezes pausedStart _ rfl ?_).1
  intro entry hentry
  rw [accepted_single hentry]
  exact Call.noConfusion

end EthereumSettlement.RoleGovernance
