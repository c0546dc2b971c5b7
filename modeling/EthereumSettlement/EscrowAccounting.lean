import EthereumSettlement.ReferenceDeployment
import EthereumSettlement.RunInvariants

/-!
# Escrow accounting and solvency

The two counters that the bridge keeps for each asset agree with the accepted
deposits and claims in every reachable state. A token that moves exact
amounts leaves the bridge solvent in that token: emergency withdrawals are
limited to the excess. Ether has no such limit, and solvency in ether is lost by
exactly the ether that emergency withdrawals took.
-/

namespace EthereumSettlement.EscrowAccounting

open ByteWords CheckedCalls TransitionRuns PastaPoseidon ZekoSettlement EthereumZekoBridge
open BridgeSystem StepEffects RunInvariants ReferenceDeployment

variable {env : Environment} {W : TokenWorld}

/-- The amount of an asset, zero for ether, that a deposit call brings. -/
def callDeposited (asset : Address) : Call → ℕ
  | .depositETH value _ => if asset = 0 then value.toNat else 0
  | .submitDeposit token amount _ => if asset = token then amount.toNat else 0
  | _ => 0

/-- The amount of an asset that a claim call pays, in the asset's own unit. -/
def callClaimed (asset : Address) : Call → ℕ
  | .claimNativeWithdrawal claim _ => if asset = 0 then claim.amount.toNat * gwei else 0
  | .claimERC20Withdrawal token claim => if asset = token then claim.amount.toNat else 0
  | _ => 0

/-- The ether that an emergency withdrawal takes. -/
def callRescued : Call → ℕ
  | .emergencyWithdrawToken token _ amount _ => if token = 0 then amount.toNat else 0
  | _ => 0

/-- The sum of an amount over the accepted calls of a history. -/
def acceptedSum (amount : Call → ℕ) (history : List (Chain W × Transaction)) : ℕ :=
  (history.map fun entry => amount entry.2.call).sum

/-- A history's sum grows by the amount of its last call. -/
theorem acceptedSum_concat (amount : Call → ℕ) (history : List (Chain W × Transaction))
    (entry : Chain W × Transaction) :
    acceptedSum amount (history ++ [entry]) = acceptedSum amount history + amount entry.2.call := by
  rw [acceptedSum, List.map_append, List.sum_append, List.map_singleton, List.sum_singleton]
  rfl

/-- The escrow liability of an asset, with the zero address for ether. -/
def liabilityOf (s : BridgeStorage) (asset : Address) : BitVec 256 :=
  if asset = 0 then s.nativeEscrowLiability else s.escrowLiabilityByToken asset

/-- The ether liability. -/
@[simp] theorem liabilityOf_zero (s : BridgeStorage) :
    liabilityOf s 0 = s.nativeEscrowLiability := if_pos rfl

/-- The liability of a token. -/
theorem liabilityOf_token (s : BridgeStorage) {token : Address} (h : token ≠ 0) :
    liabilityOf s token = s.escrowLiabilityByToken token := if_neg h

/-- A call moves both counters of an asset by exactly its own amounts. -/
structure CountersMoved (c : Chain W) (call : Call) (next : Chain W) (asset : Address) : Prop where
  /-- The deposited total moves by the call's amounts. -/
  total : (next.bridge.totalDepositedByToken asset).toNat + callClaimed asset call =
    (c.bridge.totalDepositedByToken asset).toNat + callDeposited asset call
  /-- The liability moves by the call's amounts. -/
  liability : (liabilityOf next.bridge asset).toNat + callClaimed asset call =
    (liabilityOf c.bridge asset).toNat + callDeposited asset call

/-- A call without an amount that keeps the counters. -/
theorem CountersMoved.of_eq {c next : Chain W} {call : Call} {asset : Address}
    (hclaimed : callClaimed asset call = 0) (hdeposited : callDeposited asset call = 0)
    (htotal : next.bridge.totalDepositedByToken asset = c.bridge.totalDepositedByToken asset)
    (hliability : liabilityOf next.bridge asset = liabilityOf c.bridge asset) :
    CountersMoved c call next asset := by
  constructor
  · rw [hclaimed, hdeposited, htotal]
  · rw [hclaimed, hdeposited, hliability]

/-- Administration and activation bring and pay nothing. -/
theorem callAmounts_of_kind {call : Call}
    (kind : call.isAdministration = true ∨ call.isActivation = true) (asset : Address) :
    callClaimed asset call = 0 ∧ callDeposited asset call = 0 ∧ callRescued call = 0 := by
  rcases kind with kind | kind
  · cases call <;> cases kind <;> exact ⟨rfl, rfl, rfl⟩
  · cases call <;> cases kind <;> exact ⟨rfl, rfl, rfl⟩

/-- One transaction moves the counters of every asset by its own amounts. -/
theorem countersMoved_of_effect {c next : Chain W} {ctx : CallContext} {call : Call}
    (hregistry : RegistrySound c) (h : Effect env c ctx call next) (asset : Address) :
    CountersMoved c call next asset := by
  have hregistered : ∀ token, c.bridge.canonicalTokenRegistered token = true → token ≠ 0 := by
    rintro token htoken rfl
    rw [hregistry.zero] at htoken
    cases htoken
  cases h with
  | administer kind administered =>
    obtain ⟨hclaimed, hdeposited, -⟩ := callAmounts_of_kind (.inl kind) asset
    obtain ⟨_, _, _, hbridge⟩ := administered.bridge_eq
    exact .of_eq hclaimed hdeposited (by rw [hbridge]) (by rw [hbridge]; rfl)
  | settle => exact .of_eq rfl rfl rfl rfl
  | append => exact .of_eq rfl rfl rfl rfl
  | transition _ transitioned =>
    have hbridge := transitioned.bridge_eq
    exact .of_eq rfl rfl (by rw [hbridge]; rfl) (by rw [hbridge]; rfl)
  | @nativeDeposit value zekoRecipient _ _ _ deposited =>
    have htotal := deposited.total_eq
    have hliability := deposited.liability_eq
    by_cases hzero : asset = 0
    · subst hzero
      exact ⟨htotal, hliability⟩
    · have hdeposited : callDeposited asset (.depositETH value zekoRecipient) = 0 := if_neg hzero
      refine .of_eq rfl hdeposited (Function.update_of_ne hzero _ _) ?_
      rw [liabilityOf_token _ hzero, liabilityOf_token _ hzero]
      rfl
  | @tokenDeposit token amount zekoRecipient _ total liability _ deposited =>
    have hne := hregistered token deposited.registered
    have htotal := deposited.total_eq
    have hliability := deposited.liability_eq
    by_cases htoken : asset = token
    · subst htoken
      have hamount : callDeposited asset (.submitDeposit asset amount zekoRecipient) = amount.toNat :=
        if_pos rfl
      refine ⟨?_, ?_⟩
      · rw [hamount, afterTokenDeposit]
        dsimp only
        rw [Function.update_self, htotal]
        rfl
      · rw [hamount, liabilityOf_token _ hne, liabilityOf_token _ hne, afterTokenDeposit]
        dsimp only
        rw [Function.update_self, hliability]
        rfl
    · have hdeposited : callDeposited asset (.submitDeposit token amount zekoRecipient) = 0 :=
        if_neg htoken
      refine .of_eq rfl hdeposited (Function.update_of_ne htoken _ _) ?_
      simp only [liabilityOf, afterTokenDeposit, linkDeposit]
      rw [Function.update_of_ne htoken]
  | @nativeClaim claim accepts _ _ _ _ claimed =>
    have htotal := claimed.total_eq
    have hliability := claimed.liability_eq
    by_cases hzero : asset = 0
    · subst hzero
      exact ⟨htotal, hliability⟩
    · have hclaimed : callClaimed asset (.claimNativeWithdrawal claim accepts) = 0 := if_neg hzero
      refine .of_eq hclaimed rfl (Function.update_of_ne hzero _ _) ?_
      rw [liabilityOf_token _ hzero, liabilityOf_token _ hzero]
      rfl
  | @tokenClaim token claim _ _ liability total _ claimed =>
    have hne := hregistered token claimed.registered
    have htotal := claimed.total_eq
    have hliability := claimed.liability_eq
    by_cases htoken : asset = token
    · subst htoken
      have hamount : callClaimed asset (.claimERC20Withdrawal asset claim) = claim.amount.toNat :=
        if_pos rfl
      refine ⟨?_, ?_⟩
      · rw [hamount, afterTokenClaim]
        dsimp only
        rw [Function.update_self, htotal]
        rfl
      · rw [hamount, liabilityOf_token _ hne, liabilityOf_token _ hne, afterTokenClaim]
        dsimp only
        rw [Function.update_self, hliability]
        rfl
    · have hclaimed : callClaimed asset (.claimERC20Withdrawal token claim) = 0 := if_neg htoken
      refine .of_eq hclaimed rfl (Function.update_of_ne htoken _ _) ?_
      simp only [liabilityOf, afterTokenClaim]
      rw [Function.update_of_ne htoken]
  | etherRescue => exact .of_eq rfl rfl rfl rfl
  | tokenRescue => exact .of_eq rfl rfl rfl rfl
  | propose proposed =>
    have hbridge := proposed.bridge_eq
    exact .of_eq rfl rfl (by rw [hbridge]) (by rw [hbridge])
  | cancel cancelled =>
    have hbridge := cancelled.bridge_eq
    exact .of_eq rfl rfl (by rw [hbridge]) (by rw [hbridge])
  | activate kind activated =>
    obtain ⟨hclaimed, hdeposited, -⟩ := callAmounts_of_kind (.inr kind) asset
    have hbridge := activated.bridge_eq
    exact .of_eq hclaimed hdeposited (by rw [hbridge]; rfl) (by rw [hbridge]; rfl)
  | status changed =>
    obtain ⟨_, hbridge⟩ := changed.bridge_eq
    exact .of_eq rfl rfl (by rw [hbridge]) (by rw [hbridge]; rfl)
  | tokenTransfer => exact .of_eq rfl rfl rfl rfl
  | etherForced => exact .of_eq rfl rfl rfl rfl

/-- Both counters of an asset agree with the accepted calls. -/
structure Accounted (history : List (Chain W × Transaction)) (c : Chain W) (asset : Address) :
    Prop where
  /-- Both counters are equal. -/
  total : c.bridge.totalDepositedByToken asset = liabilityOf c.bridge asset
  /-- The liability and the claims add up to the deposits. -/
  sum : (liabilityOf c.bridge asset).toNat + acceptedSum (callClaimed asset) history =
    acceptedSum (callDeposited asset) history

/-- A fresh deployment has no escrow. -/
theorem start_accounted (d : Deployment env W) (asset : Address) : Accounted [] d.start asset := by
  obtain ⟨_, _, hbridge⟩ := d.initialized.bridge_eq
  constructor
  · rw [hbridge]
    unfold liabilityOf
    split <;> rfl
  · rw [hbridge]
    unfold liabilityOf
    split <;> rfl

/-- The accounts of every asset hold in every reachable state. -/
theorem reached_accounted (d : Deployment env W) (transactions : List Transaction)
    (asset : Address) : Accounted (d.history transactions) (d.reached transactions) asset := by
  apply reached_induction d (J := fun history c => Accounted history c asset)
    (start_accounted d asset) ?_ (history_registrySound d)
  intro history c tx next hc hsound heffect
  have hmoved : CountersMoved c tx.call next asset := countersMoved_of_effect hsound heffect asset
  have htotalStep := hmoved.total
  have hliabilityStep := hmoved.liability
  have hsum := hc.sum
  have htotal := congrArg BitVec.toNat hc.total
  constructor
  · apply BitVec.eq_of_toNat_eq
    omega
  · rw [acceptedSum_concat, acceptedSum_concat]
    dsimp only
    omega

/-- Escrow accounting. In every reachable state both counters of an asset equal
its accepted deposits less its accepted claims, and no claim that passes the
liability check can underflow the second counter. -/
theorem escrow_conserved (d : Deployment env W) (transactions : List Transaction) :
    ((d.reached transactions).bridge.totalDepositedByToken 0 =
        (d.reached transactions).bridge.nativeEscrowLiability ∧
      ((d.reached transactions).bridge.nativeEscrowLiability.toNat : ℤ) =
        acceptedSum (callDeposited 0) (d.history transactions) -
          acceptedSum (callClaimed 0) (d.history transactions)) ∧
    (∀ token, token ≠ 0 →
      (d.reached transactions).bridge.totalDepositedByToken token =
        (d.reached transactions).bridge.escrowLiabilityByToken token ∧
      (((d.reached transactions).bridge.escrowLiabilityByToken token).toNat : ℤ) =
        acceptedSum (callDeposited token) (d.history transactions) -
          acceptedSum (callClaimed token) (d.history transactions)) ∧
    (∀ amount, amount ≤ (d.reached transactions).bridge.nativeEscrowLiability →
      ∃ rest, checkedSub BridgeCodec.BridgeError.arithmeticPanic
        ((d.reached transactions).bridge.totalDepositedByToken 0) amount = .ok rest) ∧
    (∀ token amount, token ≠ 0 →
      amount ≤ (d.reached transactions).bridge.escrowLiabilityByToken token →
      ∃ rest, checkedSub BridgeCodec.BridgeError.arithmeticPanic
        ((d.reached transactions).bridge.totalDepositedByToken token) amount = .ok rest) := by
  have hether := reached_accounted d transactions 0
  have htotal := hether.total
  have hsum := hether.sum
  rw [liabilityOf_zero] at htotal hsum
  refine ⟨⟨htotal, by omega⟩, ?_, ?_, ?_⟩
  · intro token hne
    have htoken := reached_accounted d transactions token
    have htokenTotal := htoken.total
    have htokenSum := htoken.sum
    rw [liabilityOf_token _ hne] at htokenTotal htokenSum
    exact ⟨htokenTotal, by omega⟩
  · intro amount hle
    rw [htotal]
    exact ⟨_, checkedSub_of_le hle⟩
  · intro token amount hne hle
    have htokenTotal := (reached_accounted d transactions token).total
    rw [liabilityOf_token _ hne] at htokenTotal
    rw [htokenTotal]
    exact ⟨_, checkedSub_of_le hle⟩

/-- An emergency withdrawal of ether takes at most what the liability leaves. -/
def TakesOnlyExcess (entry : Chain W × Transaction) : Prop :=
  0 < callRescued entry.2.call →
    entry.1.bridge.nativeEscrowLiability.toNat + callRescued entry.2.call ≤ entry.1.etherBalance

instance (entry : Chain W × Transaction) : Decidable (TakesOnlyExcess entry) :=
  inferInstanceAs (Decidable (_ → _))

/-- One transaction shrinks the ether above the liability by at most what an
emergency withdrawal takes. -/
theorem etherMargin_of_effect {c next : Chain W} {ctx : CallContext} {call : Call}
    (h : Effect env c ctx call next) :
    next.bridge.nativeEscrowLiability.toNat + c.etherBalance ≤
      c.bridge.nativeEscrowLiability.toNat + next.etherBalance + callRescued call := by
  have hkept : next.bridge.nativeEscrowLiability = c.bridge.nativeEscrowLiability →
      next.etherBalance = c.etherBalance →
      next.bridge.nativeEscrowLiability.toNat + c.etherBalance ≤
        c.bridge.nativeEscrowLiability.toNat + next.etherBalance + callRescued call := by
    intro hliability hether
    rw [hliability, hether]
    omega
  cases h with
  | administer kind administered =>
    obtain ⟨_, _, _, hbridge⟩ := administered.bridge_eq
    exact hkept (by rw [hbridge]) administered.etherBalance_eq
  | settle => exact hkept rfl rfl
  | append => exact hkept rfl rfl
  | transition _ transitioned =>
    have hbridge := transitioned.bridge_eq
    exact hkept (by rw [hbridge]; rfl) transitioned.etherBalance_eq
  | nativeDeposit deposited =>
    have hliability := deposited.liability_eq
    rw [afterNativeDeposit]
    dsimp only
    omega
  | tokenDeposit => exact hkept rfl rfl
  | nativeClaim claimed =>
    have hliability := claimed.liability_eq
    have hether := claimed.ether_le
    rw [afterNativeClaim]
    dsimp only
    omega
  | tokenClaim => exact hkept rfl rfl
  | @etherRescue receiver amount accepts rescued =>
    have hle := rescued.amount_le
    have hamount : callRescued (.emergencyWithdrawToken 0 receiver amount accepts) =
        amount.toNat := by
      rw [callRescued, if_pos rfl]
    rw [hamount]
    dsimp only
    omega
  | tokenRescue => exact hkept rfl rfl
  | propose proposed =>
    have hbridge := proposed.bridge_eq
    exact hkept (by rw [hbridge]) proposed.etherBalance_eq
  | cancel cancelled =>
    have hbridge := cancelled.bridge_eq
    exact hkept (by rw [hbridge]) cancelled.etherBalance_eq
  | activate _ activated =>
    have hbridge := activated.bridge_eq
    exact hkept (by rw [hbridge]; rfl) activated.etherBalance_eq
  | status changed =>
    obtain ⟨_, hbridge⟩ := changed.bridge_eq
    exact hkept (by rw [hbridge]) changed.etherBalance_eq
  | tokenTransfer => exact hkept rfl rfl
  | etherForced =>
    dsimp only
    omega

/-- An emergency withdrawal takes ether that is there and leaves the liability. -/
theorem rescue_of_effect {c next : Chain W} {ctx : CallContext} {call : Call}
    (h : Effect env c ctx call next) (hpos : 0 < callRescued call) :
    next.bridge.nativeEscrowLiability = c.bridge.nativeEscrowLiability ∧
      next.etherBalance + callRescued call = c.etherBalance := by
  cases h with
  | administer kind =>
    rw [(callAmounts_of_kind (.inl kind) 0).2.2] at hpos
    exact absurd hpos (Nat.lt_irrefl 0)
  | @etherRescue receiver amount accepts rescued =>
    have hle := rescued.amount_le
    have hamount : callRescued (.emergencyWithdrawToken 0 receiver amount accepts) =
        amount.toNat := by
      rw [callRescued, if_pos rfl]
    rw [hamount]
    exact ⟨rfl, Nat.sub_add_cancel hle⟩
  | tokenRescue rescued =>
    rw [callRescued, if_neg rescued.token_ne] at hpos
    exact absurd hpos (Nat.lt_irrefl 0)
  | activate kind =>
    rw [(callAmounts_of_kind (.inr kind) 0).2.2] at hpos
    exact absurd hpos (Nat.lt_irrefl 0)
  | _ => exact absurd hpos (Nat.lt_irrefl 0)

/-- Solvency in ether. The liability never exceeds the balance together with the
ether taken by emergency withdrawals, and it never exceeds the balance alone in
runs whose emergency withdrawals of ether take only the excess over it. -/
theorem ether_solvent (d : Deployment env W) (transactions : List Transaction) :
    (d.reached transactions).bridge.nativeEscrowLiability.toNat ≤
        (d.reached transactions).etherBalance +
          acceptedSum callRescued (d.history transactions) ∧
    ((∀ entry ∈ d.history transactions, TakesOnlyExcess entry) →
      (d.reached transactions).bridge.nativeEscrowLiability.toNat ≤
        (d.reached transactions).etherBalance) := by
  have hstart : d.start.bridge.nativeEscrowLiability.toNat = 0 := by
    obtain ⟨_, _, hbridge⟩ := d.initialized.bridge_eq
    rw [hbridge]
    rfl
  constructor
  · apply reached_induction d (Q := fun _ => True)
      (J := fun history c => c.bridge.nativeEscrowLiability.toNat ≤
        c.etherBalance + acceptedSum callRescued history) (by omega) ?_ (fun _ _ => trivial)
    intro history c tx next hc _ heffect
    have hmargin := etherMargin_of_effect heffect
    rw [acceptedSum_concat]
    dsimp only
    omega
  · intro hexcess
    apply reached_induction d (J := fun _ c => c.bridge.nativeEscrowLiability.toNat ≤
      c.etherBalance) (by omega) ?_ hexcess
    intro history c tx next hc htakes heffect
    have hmargin := etherMargin_of_effect heffect
    by_cases hpos : 0 < callRescued tx.call
    · obtain ⟨hliability, hether⟩ := rescue_of_effect heffect hpos
      have hleft := htakes hpos
      rw [hliability]
      dsimp only at hleft
      omega
    · omega

/-- A deposit, ether that comes in by another way, and its withdrawal. -/
def excessRescued : List Transaction :=
  [⟨⟨depositor, 1000⟩, .depositETH 5000000000 3⟩, ⟨⟨depositor, 1000⟩, .forceEther 7⟩,
   ⟨⟨admin, 1000⟩, .emergencyWithdrawToken 0 admin 7 true⟩]

/-- Withdrawing that ether leaves the deposit covered. -/
theorem ether_solvent_excessRescued :
    (∀ entry ∈ deployment.history excessRescued, TakesOnlyExcess entry) ∧
      (deployment.reached excessRescued).bridge.nativeEscrowLiability.toNat ≤
        (deployment.reached excessRescued).etherBalance := by
  have hexcess : ∀ entry ∈ deployment.history excessRescued, TakesOnlyExcess entry := by
    decide +kernel
  exact ⟨hexcess, (ether_solvent deployment excessRescued).2 hexcess⟩

/-- A deposit, and an emergency withdrawal of the deposited ether. -/
def depositRescued : List Transaction :=
  [⟨⟨depositor, 1000⟩, .depositETH 5000000000 3⟩,
   ⟨⟨admin, 1000⟩, .emergencyWithdrawToken 0 admin 5000000000 true⟩]

/-- The bridge then owes ether that it does not hold. -/
theorem ether_insolvent_depositRescued :
    ¬((deployment.reached depositRescued).bridge.nativeEscrowLiability.toNat ≤
      (deployment.reached depositRescued).etherBalance) := by
  decide +kernel

/-- A call moved an amount of a token from one account to another and changed no
other balance of it. -/
def Moved (W : TokenWorld) (token : Address) (s : W.State) (owner receiver : Address) (amount : ℕ)
    (paid : W.State) : Prop :=
  ∀ account before after, W.balanceOf s token account = some before →
    W.balanceOf paid token account = some after →
    after.toNat + (if account = owner then amount else 0) =
      before.toNat + (if account = receiver then amount else 0)

/-- A token that behaves as the standard says: balances are always readable,
transfers move exactly the requested amount, a covered transfer to a nonzero
account succeeds, and calls of other tokens do not reach this one's balances. -/
structure StandardToken (W : TokenWorld) (token : Address) : Prop where
  /-- Balances can always be read. -/
  readable : ∀ s account, ∃ balance, W.balanceOf s token account = some balance
  /-- A transfer moves exactly its amount. -/
  transfer_moves : ∀ s sender receiver amount paid,
    W.transfer s token sender receiver amount = some paid →
    Moved W token s sender receiver amount.toNat paid
  /-- A covered transfer to a nonzero account succeeds. -/
  transfer_pays : ∀ s sender receiver amount balance, amount ≠ 0 → receiver ≠ 0 →
    W.balanceOf s token sender = some balance → amount ≤ balance →
    ∃ paid, W.transfer s token sender receiver amount = some paid
  /-- Transfers of other tokens change no balance. -/
  transfer_other : ∀ s other sender receiver amount paid, other ≠ token →
    W.transfer s other sender receiver amount = some paid →
    W.balanceOf paid token = W.balanceOf s token
  /-- Transfers of other tokens on behalf of owners change no balance. -/
  transferFrom_other : ∀ s other spender owner receiver amount paid, other ≠ token →
    W.transferFrom s other spender owner receiver amount = some paid →
    W.balanceOf paid token = W.balanceOf s token

/-- The bridge holds at least what it owes in a token. -/
def TokenCovered (env : Environment) (token : Address) (c : Chain W) : Prop :=
  ∃ balance, W.balanceOf c.tokens token env.bridgeAddress = some balance ∧
    c.bridge.escrowLiabilityByToken token ≤ balance

/-- Transactions that touch neither the token nor its liability keep it covered. -/
theorem TokenCovered.of_eq {token : Address} {c next : Chain W} (h : TokenCovered env token c)
    (htokens : W.balanceOf next.tokens token = W.balanceOf c.tokens token)
    (hliability : next.bridge.escrowLiabilityByToken token = c.bridge.escrowLiabilityByToken token) :
    TokenCovered env token next := by
  unfold TokenCovered
  rw [htokens, hliability]
  exact h

/-- A transaction that moves the bridge's balance and its liability as far keeps
the token covered. -/
theorem TokenCovered.of_moved {token : Address} {c next : Chain W} (h : TokenCovered env token c)
    (hstandard : StandardToken W token)
    (hmoved : ∀ before after, W.balanceOf c.tokens token env.bridgeAddress = some before →
      W.balanceOf next.tokens token env.bridgeAddress = some after →
      (c.bridge.escrowLiabilityByToken token).toNat ≤ before.toNat →
      (next.bridge.escrowLiabilityByToken token).toNat ≤ after.toNat) :
    TokenCovered env token next := by
  obtain ⟨before, hbefore, hle⟩ := h
  obtain ⟨after, hafter⟩ := hstandard.readable next.tokens env.bridgeAddress
  exact ⟨after, hafter, hmoved before after hbefore hafter hle⟩

/-- One transaction keeps a standard token covered. -/
theorem tokenCovered_of_effect {c next : Chain W} {ctx : CallContext} {call : Call}
    {token : Address} (hstandard : StandardToken W token) (hc : TokenCovered env token c)
    (h : Effect env c ctx call next) : TokenCovered env token next := by
  cases h with
  | administer _ administered =>
    obtain ⟨_, _, _, hbridge⟩ := administered.bridge_eq
    exact hc.of_eq (by rw [administered.tokens_eq]) (by rw [hbridge])
  | settle => exact hc.of_eq rfl rfl
  | append => exact hc.of_eq rfl rfl
  | transition _ transitioned =>
    have hbridge := transitioned.bridge_eq
    exact hc.of_eq (by rw [transitioned.tokens_eq]) (by rw [hbridge]; rfl)
  | nativeDeposit deposited => exact hc.of_eq rfl rfl
  | @tokenDeposit deposited amount _ _ _ liability tokens facts =>
    by_cases htoken : token = deposited
    · subst htoken
      apply hc.of_moved hstandard
      intro before after hbefore hafter hle
      obtain ⟨_, _, hreadBefore, hreadAfter, hreceived⟩ := facts.received
      have hbeforeEq := Option.some.inj (hbefore.symm.trans hreadBefore)
      have hafterEq := Option.some.inj (hafter.symm.trans hreadAfter)
      have hliability := facts.liability_eq
      rw [afterTokenDeposit]
      dsimp only
      rw [Function.update_self, hliability, hafterEq]
      rw [hbeforeEq] at hle
      omega
    · apply hc.of_eq
      · exact hstandard.transferFrom_other _ _ _ _ _ _ _ (Ne.symm htoken) facts.transferred
      · exact Function.update_of_ne htoken _ _
  | nativeClaim claimed => exact hc.of_eq rfl rfl
  | @tokenClaim claimedToken claim _ _ liability _ tokens facts =>
    by_cases htoken : token = claimedToken
    · subst htoken
      apply hc.of_moved hstandard
      intro before after hbefore hafter hle
      obtain ⟨_, _, hreadBefore, hreadAfter, hsent⟩ := facts.paid.bridgeBalance
      have hbeforeEq := Option.some.inj (hbefore.symm.trans hreadBefore)
      have hafterEq := Option.some.inj (hafter.symm.trans hreadAfter)
      have hamount : (toWord claim.amount).toNat = claim.amount.toNat :=
        toWord_toNat (by decide) claim.amount
      have hliability := facts.liability_eq
      rw [afterTokenClaim]
      dsimp only
      rw [Function.update_self, hafterEq]
      rw [hbeforeEq] at hle
      omega
    · apply hc.of_eq
      · exact hstandard.transfer_other _ _ _ _ _ _ (Ne.symm htoken) facts.paid.transferred
      · exact Function.update_of_ne htoken _ _
  | etherRescue rescued => exact hc.of_eq rfl rfl
  | @tokenRescue rescuedToken receiver amount _ tokens rescued =>
    by_cases htoken : token = rescuedToken
    · subst htoken
      apply hc.of_moved hstandard
      intro before after hbefore hafter hle
      obtain ⟨balance, hbalance, hexcess⟩ := rescued.excess
      have hbeforeEq := Option.some.inj (hbefore.symm.trans hbalance)
      have hmoved := hstandard.transfer_moves _ _ _ _ _ rescued.transferred env.bridgeAddress before
        after hbefore hafter
      rw [if_pos rfl] at hmoved
      rw [← hbeforeEq] at hexcess
      dsimp only
      split at hmoved <;> omega
    · apply hc.of_eq
      · exact hstandard.transfer_other _ _ _ _ _ _ (Ne.symm htoken) rescued.transferred
      · rfl
  | propose proposed =>
    exact hc.of_eq (by rw [proposed.tokens_eq]) (by rw [proposed.bridge_eq])
  | cancel cancelled =>
    exact hc.of_eq (by rw [cancelled.tokens_eq]) (by rw [cancelled.bridge_eq])
  | activate _ activated =>
    have hbridge := activated.bridge_eq
    exact hc.of_eq (by rw [activated.tokens_eq]) (by rw [hbridge]; rfl)
  | status changed =>
    obtain ⟨_, hbridge⟩ := changed.bridge_eq
    exact hc.of_eq (by rw [changed.tokens_eq]) (by rw [hbridge])
  | @tokenTransfer moved receiver amount tokens outside transferred =>
    by_cases htoken : token = moved
    · subst htoken
      apply hc.of_moved hstandard
      intro before after hbefore hafter hle
      have hmoved := hstandard.transfer_moves _ _ _ _ _ transferred env.bridgeAddress before after
        hbefore hafter
      rw [if_neg (Ne.symm outside)] at hmoved
      dsimp only
      omega
    · apply hc.of_eq
      · exact hstandard.transfer_other _ _ _ _ _ _ (Ne.symm htoken) transferred
      · rfl
  | etherForced => exact hc.of_eq rfl rfl

/-- A covered payment of a standard token passes the bridge's own balance checks,
unless the bridge would pay itself. -/
theorem payToken_of_standard {token recipient : Address} {tokens : W.State} {amount balance : BitVec 256}
    (hstandard : StandardToken W token) (hamount : amount ≠ 0) (hrecipient : recipient ≠ 0)
    (hbalance : W.balanceOf tokens token env.bridgeAddress = some balance) (hle : amount ≤ balance)
    (hself : recipient ≠ env.bridgeAddress) :
    ∃ paid, payToken env tokens token recipient amount = .ok paid := by
  obtain ⟨paid, hpaid⟩ :=
    hstandard.transfer_pays tokens env.bridgeAddress recipient amount balance hamount hrecipient
      hbalance hle
  have hmoved := hstandard.transfer_moves _ _ _ _ _ hpaid
  obtain ⟨bridgeAfter, hbridgeAfter⟩ := hstandard.readable paid env.bridgeAddress
  obtain ⟨before, hbefore⟩ := hstandard.readable tokens recipient
  obtain ⟨after, hafter⟩ := hstandard.readable paid recipient
  have hsent := hmoved env.bridgeAddress balance bridgeAfter hbalance hbridgeAfter
  have hreceived := hmoved recipient before after hbefore hafter
  rw [if_pos rfl, if_neg (Ne.symm hself)] at hsent
  rw [if_neg hself, if_pos rfl] at hreceived
  refine ⟨paid, (payToken_eq_ok env).mpr ⟨hpaid, ⟨balance, bridgeAfter, hbalance, hbridgeAfter, ?_⟩,
    ⟨before, after, hbefore, hafter, ?_⟩⟩⟩
  · omega
  · omega

/-- Solvency in a standard token. In every reachable state the bridge holds at
least what it owes; every amount within the liability can be transferred to any
nonzero recipient, and for a recipient other than the bridge the payment also
passes the bridge's exact-amount checks. -/
theorem token_solvent (d : Deployment env W) (transactions : List Transaction) (token : Address)
    (hstandard : StandardToken W token) :
    (∃ balance, W.balanceOf (d.reached transactions).tokens token env.bridgeAddress = some balance ∧
      (d.reached transactions).bridge.escrowLiabilityByToken token ≤ balance) ∧
    ∀ recipient amount, recipient ≠ 0 → amount ≠ 0 →
      amount ≤ (d.reached transactions).bridge.escrowLiabilityByToken token →
      (∃ paid, W.transfer (d.reached transactions).tokens token env.bridgeAddress recipient amount =
        some paid) ∧
      (recipient ≠ env.bridgeAddress → ∃ paid,
        payToken env (d.reached transactions).tokens token recipient amount = .ok paid) := by
  have hstart : TokenCovered env token d.start := by
    obtain ⟨_, _, hbridge⟩ := d.initialized.bridge_eq
    obtain ⟨balance, hbalance⟩ := hstandard.readable d.start.tokens env.bridgeAddress
    refine ⟨balance, hbalance, ?_⟩
    rw [hbridge]
    exact BitVec.le_def.mpr (Nat.zero_le _)
  have hcovered : TokenCovered env token (d.reached transactions) :=
    reached_invariant d hstart (fun _ _ _ hc h => tokenCovered_of_effect hstandard hc h) transactions
  refine ⟨hcovered, ?_⟩
  intro recipient amount hrecipient hamount hle
  obtain ⟨balance, hbalance, hcover⟩ := hcovered
  have hpay : amount ≤ balance := BitVec.le_trans hle hcover
  exact ⟨hstandard.transfer_pays _ _ _ _ _ hamount hrecipient hbalance hpay,
    payToken_of_standard hstandard hamount hrecipient hbalance hpay⟩

/-- A ledger reads back the balance it holds. -/
theorem ledger_toNat (ledger : Ledger) (account : Address) :
    (BitVec.ofNat 256 (ledger.balances account)).toNat = ledger.balances account := by
  rw [BitVec.toNat_ofNat, Nat.mod_eq_of_lt (ledger.balance_lt account)]

/-- A transfer of a ledger moves the balance. -/
theorem Ledger.transfer_balances {ledger paid : Ledger} {sender receiver : Address}
    {amount : BitVec 256} (h : ledger.transfer sender receiver amount = some paid)
    (account : Address) :
    paid.balances account + (if account = sender then amount.toNat else 0) =
      ledger.balances account + (if account = receiver then amount.toNat else 0) := by
  unfold Ledger.transfer at h
  split at h
  · rename_i hcovered
    rw [← Option.some.inj h]
    exact moveBalance_add hcovered.2 account
  · cases h

/-- Replacing the ledger of a token by one with moved balances is a move. -/
theorem ledger_moved {token : Address} {ledgers : Address → Ledger} {paid : Ledger}
    {owner receiver : Address} {amount : ℕ}
    (h : ∀ account, paid.balances account + (if account = owner then amount else 0) =
      (ledgers token).balances account + (if account = receiver then amount else 0)) :
    Moved ledgerWorld token ledgers owner receiver amount (Function.update ledgers token paid) := by
  intro account before after hbefore hafter
  have hbeforeEq := Option.some.inj hbefore
  have hafterEq := Option.some.inj hafter
  rw [← hbeforeEq, ← hafterEq, Function.update_self, ledger_toNat, ledger_toNat]
  exact h account

/-- A covered transfer of a ledger to a nonzero account succeeds. -/
theorem Ledger.transfer_covered {ledger : Ledger} {sender receiver : Address} {amount : BitVec 256}
    (hreceiver : receiver ≠ 0) (hcovered : amount.toNat ≤ ledger.balances sender) :
    ∃ paid, ledger.transfer sender receiver amount = some paid :=
  ⟨_, dif_pos ⟨hreceiver, hcovered⟩⟩

/-- Replacing the ledger of one token keeps the balances of another. -/
theorem ledger_other {token other : Address} {ledgers : Address → Ledger} {ledger : Ledger}
    (hother : other ≠ token) :
    ledgerWorld.balanceOf (Function.update ledgers other ledger) token =
      ledgerWorld.balanceOf ledgers token := by
  funext account
  change some (BitVec.ofNat 256 ((Function.update ledgers other ledger token).balances account)) =
    some (BitVec.ofNat 256 ((ledgers token).balances account))
  rw [Function.update_of_ne (Ne.symm hother)]

/-- Every token of the ledger world is standard. -/
theorem ledger_standard (token : Address) : StandardToken ledgerWorld token where
  readable := fun _ _ => ⟨_, rfl⟩
  transfer_moves := by
    intro ledgers sender receiver amount paid h
    obtain ⟨ledger, hledger, rfl⟩ := Option.map_eq_some_iff.mp h
    exact ledger_moved (Ledger.transfer_balances hledger)
  transfer_pays := by
    intro ledgers sender receiver amount balance _ hreceiver hbalance hle
    have hcovered : amount.toNat ≤ Ledger.balances (ledgers token) sender := by
      rw [← ledger_toNat, Option.some.inj hbalance]
      exact hle
    obtain ⟨ledger, hledger⟩ := Ledger.transfer_covered hreceiver hcovered
    exact ⟨_, Option.map_eq_some_iff.mpr ⟨ledger, hledger, rfl⟩⟩
  transfer_other := by
    intro ledgers other sender receiver amount paid hother h
    obtain ⟨ledger, -, rfl⟩ := Option.map_eq_some_iff.mp h
    exact ledger_other hother
  transferFrom_other := by
    intro ledgers other spender owner receiver amount paid hother h
    obtain ⟨ledger, -, rfl⟩ := Option.map_eq_some_iff.mp h
    exact ledger_other hother

/-- The four deposited units are owed, held and payable. -/
theorem token_solvent_setup :
    (deployment.reached setup).bridge.escrowLiabilityByToken token = 4 ∧
    (∃ balance, ledgerWorld.balanceOf (deployment.reached setup).tokens token
        environment.bridgeAddress = some balance ∧
      (deployment.reached setup).bridge.escrowLiabilityByToken token ≤ balance) ∧
    ∃ paid, payToken environment (deployment.reached setup).tokens token recipient 4 = .ok paid := by
  have howed : (deployment.reached setup).bridge.escrowLiabilityByToken token = 4 := by
    decide +kernel
  have hsolvent := token_solvent deployment setup token (ledger_standard token)
  refine ⟨howed, hsolvent.1, ?_⟩
  refine (hsolvent.2 recipient 4 (by decide) (by decide) ?_).2 (by decide)
  rw [howed]
  exact BitVec.le_refl _

end EthereumSettlement.EscrowAccounting
