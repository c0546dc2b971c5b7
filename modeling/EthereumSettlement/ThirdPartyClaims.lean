import EthereumSettlement.EscrowAccounting
import EthereumSettlement.PayoutOnce

/-!
# Claims sent by third parties

Anyone may send a claim, and a claim moves the cursor of its recipient past its
index. A claim that is open stays open through any claims of any senders, until
its own index or a later one of the same asset is paid to its recipient. In the
last case the index is skipped: no claim of it is ever accepted again.
-/

namespace EthereumSettlement.ThirdPartyClaims

open ByteWords CheckedCalls TransitionRuns PastaPoseidon ZekoSettlement EthereumZekoBridge
open BridgeSystem StepEffects EscrowAccounting ClaimSoundness PayoutOnce ReferenceDeployment

variable {env : Environment} {W : TokenWorld}

/-- Calls that claim a withdrawal. -/
def isClaim : Call → Bool
  | .claimNativeWithdrawal _ _ | .claimERC20Withdrawal _ _ => true
  | _ => false

/-- What claims leave alone. -/
structure ClaimsFramed (c next : Chain W) : Prop where
  /-- The settlement contract is unchanged. -/
  settlement_eq : next.settlement = c.settlement
  /-- The pause flag is unchanged. -/
  paused_eq : next.bridge.paused = c.bridge.paused
  /-- The delay is unchanged. -/
  delay_eq : next.bridge.withdrawalDelaySlots = c.bridge.withdrawalDelaySlots
  /-- The registered tokens are the same. -/
  registered_eq : next.bridge.canonicalTokenRegistered = c.bridge.canonicalTokenRegistered
  /-- The record commitments are the same. -/
  commitment_eq : next.bridge.recordCommitmentByToken = c.bridge.recordCommitmentByToken
  /-- The asset identifiers are the same. -/
  assetId_eq : next.bridge.assetIdByToken = c.bridge.assetIdByToken
  /-- The registry indices are the same. -/
  registryIndex_eq : next.bridge.registryIndexByToken = c.bridge.registryIndexByToken

/-- Frames of claims compose. -/
theorem ClaimsFramed.trans {c middle next : Chain W} (h : ClaimsFramed c middle)
    (h' : ClaimsFramed middle next) : ClaimsFramed c next :=
  ⟨h'.settlement_eq.trans h.settlement_eq, h'.paused_eq.trans h.paused_eq,
    h'.delay_eq.trans h.delay_eq, h'.registered_eq.trans h.registered_eq,
    h'.commitment_eq.trans h.commitment_eq, h'.assetId_eq.trans h.assetId_eq,
    h'.registryIndex_eq.trans h.registryIndex_eq⟩

/-- An accepted claim keeps everything but cursors, counters and balances. -/
theorem claimsFramed_of_effect {c next : Chain W} {ctx : CallContext} {call : Call}
    (hclaim : isClaim call = true) (h : Effect env c ctx call next) : ClaimsFramed c next := by
  cases h with
  | nativeClaim => exact ⟨rfl, rfl, rfl, rfl, rfl, rfl, rfl⟩
  | tokenClaim => exact ⟨rfl, rfl, rfl, rfl, rfl, rfl, rfl⟩
  | @administer call _ kind _ =>
    cases call <;> cases kind <;> cases hclaim
  | @activate call _ _ _ kind _ =>
    cases call <;> cases kind <;> cases hclaim
  | _ => cases hclaim

/-- Where a cursor stands after some claims: where it stood, or right behind one
of their payouts. -/
def CursorMoved (paid : List Payout) (s next : BridgeStorage) (asset : Option Address)
    (recipient : Address) : Prop :=
  cursorOf next asset recipient = cursorOf s asset recipient ∨
  ∃ payout ∈ paid, payout.asset = asset ∧ payout.recipient = recipient ∧
    (cursorOf next asset recipient).toNat = payout.globalActionIndex.toNat + 1

/-- Claims keep their frame and move cursors only by their payouts. -/
theorem claims_moved (c : Chain W) {claims : List Transaction}
    (hclaims : ∀ tx ∈ claims, isClaim tx.call = true) :
    ClaimsFramed c (run (step env) c claims) ∧ ∀ asset recipient,
      CursorMoved (payouts (accepted (step env) c claims)) c.bridge (run (step env) c claims).bridge
        asset recipient := by
  have hQ : ∀ entry ∈ accepted (step env) c claims, isClaim entry.2.call = true := by
    intro entry hentry
    obtain ⟨before, after, hcalls, -, -⟩ := accepted_split hentry
    apply hclaims
    rw [hcalls]
    exact List.mem_append_right _ List.mem_cons_self
  apply history_invariant (J := fun history next => ClaimsFramed c next ∧ ∀ asset recipient,
    CursorMoved (payouts history) c.bridge next.bridge asset recipient) ?_ claims []
    ⟨⟨rfl, rfl, rfl, rfl, rfl, rfl, rfl⟩, fun _ _ => Or.inl rfl⟩ hQ
  intro history state tx next hstate hclaim hstep
  obtain ⟨hframed, hmoved⟩ := hstate
  have heffect := step_effect env hstep
  refine ⟨hframed.trans (claimsFramed_of_effect hclaim heffect), ?_⟩
  intro asset recipient
  rw [payouts_concat]
  have hold : cursorOf next.bridge asset recipient = cursorOf state.bridge asset recipient →
      ∀ last, CursorMoved (payouts history ++ last) c.bridge next.bridge asset recipient := by
    intro hsame last
    rcases hmoved asset recipient with hkept | ⟨payout, hpayout, hasset, hrecipient, hcursor⟩
    · exact Or.inl (hsame.trans hkept)
    · exact Or.inr ⟨payout, List.mem_append_left _ hpayout, hasset, hrecipient, by rw [hsame, hcursor]⟩
  rcases payout_of_effect heffect with ⟨hnone, hcursors⟩ | ⟨payout, hsome, hpaid⟩
  · exact hold (hcursors asset recipient) _
  · by_cases hsame : asset = payout.asset ∧ recipient = payout.recipient
    · obtain ⟨rfl, rfl⟩ := hsame
      refine Or.inr ⟨payout, ?_, rfl, rfl, hpaid.cursor_next⟩
      rw [hsome]
      exact List.mem_append_right _ List.mem_cons_self
    · exact hold (hpaid.cursor_other asset recipient hsame) _

/-- A payout of an asset to a recipient at an index. -/
def PaidAt (paid : List Payout) (asset : Option Address) (recipient : Address)
    (globalActionIndex : BitVec 32) : Prop :=
  ∃ payout ∈ paid, payout.asset = asset ∧ payout.recipient = recipient ∧
    payout.globalActionIndex = globalActionIndex

/-- A payout of an asset to a recipient at a later index. -/
def PaidLater (paid : List Payout) (asset : Option Address) (recipient : Address)
    (globalActionIndex : BitVec 32) : Prop :=
  ∃ payout ∈ paid, payout.asset = asset ∧ payout.recipient = recipient ∧
    globalActionIndex.toNat < payout.globalActionIndex.toNat

/-- A cursor that moved past an index was moved by a payout at it or later. -/
theorem CursorMoved.passed {paid : List Payout} {s next : BridgeStorage} {asset : Option Address}
    {recipient : Address} {globalActionIndex : BitVec 32}
    (h : CursorMoved paid s next asset recipient)
    (hbefore : (cursorOf s asset recipient).toNat ≤ globalActionIndex.toNat) :
    PaidAt paid asset recipient globalActionIndex ∨ PaidLater paid asset recipient globalActionIndex ∨
      (cursorOf next asset recipient).toNat ≤ globalActionIndex.toNat := by
  rcases h with hkept | ⟨payout, hpayout, hasset, hrecipient, hcursor⟩
  · rw [hkept]
    exact Or.inr (Or.inr hbefore)
  · rcases Nat.lt_trichotomy payout.globalActionIndex.toNat globalActionIndex.toNat with
      hlt | heq | hgt
    · exact Or.inr (Or.inr (by omega))
    · exact Or.inl ⟨payout, hpayout, hasset, hrecipient, BitVec.eq_of_toNat_eq heq⟩
    · exact Or.inr (Or.inl ⟨payout, hpayout, hasset, hrecipient, hgt⟩)

/-- The delay check reads only what claims keep. -/
theorem ClaimsFramed.claimable {c next : Chain W} (h : ClaimsFramed c next) (timestamp : BitVec 256)
    (batch : InnerActionBatch) :
    checkClaimable next timestamp batch = checkClaimable c timestamp batch := by
  rw [checkClaimable, checkClaimable, h.settlement_eq, h.delay_eq]

/-- The address of a claim reads only what claims keep. -/
theorem ClaimsFramed.verified {c next : Chain W} {claim : ClaimArguments} {leaf : Bytes32}
    {globalActionIndex : BitVec 32} (h : ClaimsFramed c next)
    (hverified : ClaimVerified env c claim leaf globalActionIndex) :
    ClaimVerified env next claim leaf globalActionIndex := by
  constructor
  · rw [h.settlement_eq]
    exact hverified.valid
  · rw [h.settlement_eq]
    exact hverified.offset_lt
  · rw [h.settlement_eq]
    exact hverified.index_eq
  · rw [h.settlement_eq]
    exact hverified.root_eq

/-- A word that covers an amount leaves a rest. -/
theorem exists_rest {total : BitVec 256} {amount : ℕ} (h : amount ≤ total.toNat) :
    ∃ rest : BitVec 256, rest.toNat + amount = total.toNat := by
  have hlt := total.isLt
  refine ⟨BitVec.ofNat 256 (total.toNat - amount), ?_⟩
  rw [BitVec.toNat_ofNat, Nat.mod_eq_of_lt (by omega)]
  omega

/-- What third-party claims can do to an open claim. In every reachable state,
for every claim that would be accepted and after any claims of any senders,
either its index was paid to its recipient, or a later index of the same asset
was, or the claim is still accepted, provided that the escrow still covers it. -/
theorem claim_paid_skipped_or_open (d : Deployment env W) (before claims : List Transaction)
    (hclaims : ∀ tx ∈ claims, isClaim tx.call = true) :
    (∀ ctx claim accepts next,
      claimNativeWithdrawal env (d.reached before) ctx claim accepts = .ok next →
      claim.amount.toNat * gwei ≤
        (d.reached (before ++ claims)).bridge.nativeEscrowLiability.toNat →
      claim.amount.toNat * gwei ≤ (d.reached (before ++ claims)).etherBalance →
      PaidAt (payouts (accepted (step env) (d.reached before) claims)) none claim.recipient
          (claimIndex (d.reached before) claim) ∨
        PaidLater (payouts (accepted (step env) (d.reached before) claims)) none claim.recipient
          (claimIndex (d.reached before) claim) ∨
        ∃ after, claimNativeWithdrawal env (d.reached (before ++ claims)) ctx claim accepts =
          .ok after) ∧
    (∀ ctx token claim next,
      claimERC20Withdrawal env (d.reached before) ctx token claim = .ok next →
      claim.amount.toNat ≤
        ((d.reached (before ++ claims)).bridge.escrowLiabilityByToken token).toNat →
      (∃ tokens, payToken env (d.reached (before ++ claims)).tokens token claim.recipient
        (toWord claim.amount) = .ok tokens) →
      PaidAt (payouts (accepted (step env) (d.reached before) claims)) (some token) claim.recipient
          (claimIndex (d.reached before) claim) ∨
        PaidLater (payouts (accepted (step env) (d.reached before) claims)) (some token)
          claim.recipient (claimIndex (d.reached before) claim) ∨
        ∃ after, claimERC20Withdrawal env (d.reached (before ++ claims)) ctx token claim =
          .ok after) := by
  have hreached : d.reached (before ++ claims) = run (step env) (d.reached before) claims :=
    run_append d.start before claims
  have hrun : ClaimsFramed (d.reached before) (run (step env) (d.reached before) claims) ∧
      ∀ asset recipient, CursorMoved (payouts (accepted (step env) (d.reached before) claims))
        (d.reached before).bridge (run (step env) (d.reached before) claims).bridge asset recipient :=
    claims_moved (d.reached before) hclaims
  rw [← hreached] at hrun
  obtain ⟨hframed, hmoved⟩ := hrun
  have hregistry := RunInvariants.reached_registrySound d (before ++ claims)
  constructor
  · intro ctx claim accepts next hok hliability hether
    obtain ⟨index, nextIndex, _, _, hclaimed, -⟩ := (claimNativeWithdrawal_eq_ok env).mp hok
    rw [← ClaimVerified.index hclaimed.verified]
    rcases (hmoved none claim.recipient).passed hclaimed.cursor_le with hpaid | hlater | hopen
    · exact Or.inl hpaid
    · exact Or.inr (Or.inl hlater)
    · have htotal := (reached_accounted d (before ++ claims) 0).total
      rw [liabilityOf_zero] at htotal
      obtain ⟨rest, hrest⟩ := exists_rest hliability
      refine Or.inr (Or.inr ⟨_, (claimNativeWithdrawal_eq_ok env).mpr
        ⟨index, nextIndex, rest, rest, ?_, rfl⟩⟩)
      refine ⟨hframed.verified hclaimed.verified, hframed.paused_eq.trans hclaimed.unpaused,
        hclaimed.recipient_ne, hclaimed.amount_ne, hopen, ?_, hclaimed.nextIndex_eq, hrest, ?_,
        hether, hclaimed.receiver_ne, hclaimed.accepts_eq⟩
      · rw [hframed.claimable, hframed.settlement_eq]
        exact hclaimed.claimable
      · rw [htotal]
        exact hrest
  · intro ctx token claim next hok hliability hpay
    obtain ⟨index, nextIndex, _, _, _, hclaimed, -⟩ := (claimERC20Withdrawal_eq_ok env).mp hok
    obtain ⟨tokens, hpaidTokens⟩ := hpay
    rw [← ClaimVerified.index hclaimed.verified]
    rcases (hmoved (some token) claim.recipient).passed hclaimed.cursor_le with hpaid | hlater | hopen
    · exact Or.inl hpaid
    · exact Or.inr (Or.inl hlater)
    · have hregistered : (d.reached (before ++ claims)).bridge.canonicalTokenRegistered token = true := by
        rw [hframed.registered_eq]
        exact hclaimed.registered
      have hne : token ≠ 0 := by
        rintro rfl
        rw [hregistry.zero] at hregistered
        cases hregistered
      have htotal := (reached_accounted d (before ++ claims) token).total
      rw [liabilityOf_token _ hne] at htotal
      obtain ⟨rest, hrest⟩ := exists_rest hliability
      refine Or.inr (Or.inr ⟨_, (claimERC20Withdrawal_eq_ok env).mpr
        ⟨index, nextIndex, rest, rest, tokens, ?_, rfl⟩⟩)
      refine ⟨?_, hframed.paused_eq.trans hclaimed.unpaused, hregistered, ?_, hclaimed.recipient_ne,
        hclaimed.amount_ne, hopen, ?_, hclaimed.nextIndex_eq, hrest, ?_,
        (payToken_eq_ok env).mp hpaidTokens⟩
      · rw [hframed.registryIndex_eq, hframed.commitment_eq, hframed.assetId_eq]
        exact hframed.verified hclaimed.verified
      · rw [hframed.commitment_eq]
        exact hclaimed.commitment_ne
      · rw [hframed.claimable, hframed.settlement_eq]
        exact hclaimed.claimable
      · rw [htotal]
        exact hrest

/-- A third party claims the second native withdrawal of the batch first. -/
def skippingClaims : List Transaction := [⟨claimant, .claimNativeWithdrawal secondClaim true⟩]

/-- What that leaves: the index of the first claim is zero, the second was paid,
and the escrow still covers the first. -/
theorem skippingClaims_run :
    (claimIndex (deployment.reached setup) firstClaim = 0 ∧
      claimIndex (deployment.reached setup) secondClaim = 1 ∧
      (payouts (deployment.history (setup ++ skippingClaims))).map (·.globalActionIndex) = [1]) ∧
    (cursorOf (deployment.reached (setup ++ skippingClaims)).bridge none recipient).toNat = 2 ∧
    (firstClaim.amount.toNat + secondClaim.amount.toNat) * gwei ≤
      (deployment.reached setup).bridge.nativeEscrowLiability.toNat ∧
    (firstClaim.amount.toNat + secondClaim.amount.toNat) * gwei ≤
      (deployment.reached setup).etherBalance ∧
    firstClaim.amount.toNat * gwei ≤
      (deployment.reached (setup ++ skippingClaims)).bridge.nativeEscrowLiability.toNat ∧
    firstClaim.amount.toNat * gwei ≤ (deployment.reached (setup ++ skippingClaims)).etherBalance := by
  decide +kernel

/-- The first claim was then neither paid nor is it open: a later index was paid. -/
theorem claim_skipped_skippingClaims :
    PaidAt (payouts (accepted (step environment) (deployment.reached setup) skippingClaims)) none
        recipient (claimIndex (deployment.reached setup) firstClaim) ∨
      PaidLater (payouts (accepted (step environment) (deployment.reached setup) skippingClaims)) none
        recipient (claimIndex (deployment.reached setup) firstClaim) ∨
      ∃ after, claimNativeWithdrawal environment (deployment.reached (setup ++ skippingClaims))
        claimant firstClaim true = .ok after :=
  (claim_paid_skipped_or_open deployment setup skippingClaims (by decide)).1 claimant firstClaim true
    _ (eq_ok_get firstClaim_open) skippingClaims_run.2.2.2.2.1 skippingClaims_run.2.2.2.2.2

/-- A cursor never moves back. -/
theorem cursor_mono (c : Chain W) (transactions : List Transaction) (asset : Option Address)
    (recipient : Address) : (cursorOf c.bridge asset recipient).toNat ≤
      (cursorOf (run (step env) c transactions).bridge asset recipient).toNat := by
  apply run_invariant (I := fun state : Chain W =>
    (cursorOf c.bridge asset recipient).toNat ≤ (cursorOf state.bridge asset recipient).toNat) ?_
    (Nat.le_refl _)
  intro state tx next hle hstep
  rcases payout_of_effect (step_effect env hstep) with ⟨-, hcursors⟩ | ⟨payout, -, hpaid⟩
  · rw [hcursors]
    exact hle
  · by_cases hsame : asset = payout.asset ∧ recipient = payout.recipient
    · have hcursor := hpaid.cursor_le
      have hnext := hpaid.cursor_next
      rw [← hsame.1, ← hsame.2] at hcursor hnext
      omega
    · rw [hpaid.cursor_other asset recipient hsame]
      exact hle

/-- An index behind the cursor of its asset and recipient is never claimed
again. -/
theorem passed_never_claimed (c : Chain W) {asset : Option Address} {recipient : Address}
    {globalActionIndex : BitVec 32}
    (hpassed : globalActionIndex.toNat < (cursorOf c.bridge asset recipient).toNat)
    (later : List Transaction) {tx : Transaction} {payout : Payout}
    (hasks : claimPayout (run (step env) c later) tx.call = some payout)
    (hasset : payout.asset = asset) (hrecipient : payout.recipient = recipient)
    (hindex : payout.globalActionIndex = globalActionIndex) (next : Chain W) :
    step env (run (step env) c later) tx ≠ .ok next := by
  intro hstep
  rcases payout_of_effect (step_effect env hstep) with ⟨hnone, -⟩ | ⟨paid, hsome, hpaid⟩
  · rw [hnone] at hasks
    cases hasks
  · rw [hasks] at hsome
    obtain rfl := Option.some.inj hsome
    have hmono : (cursorOf c.bridge asset recipient).toNat ≤
        (cursorOf (run (step env) c later).bridge asset recipient).toNat :=
      cursor_mono c later asset recipient
    have hcursor := hpaid.cursor_le
    rw [hasset, hrecipient, hindex] at hcursor
    omega

/-- Claims of third parties are not harmless. Both native withdrawals of the
recipient are committed, open and covered; a third party claims the second; the
first was not paid and is never claimed again, whatever follows. -/
theorem third_party_skips_claim :
    (∀ tx ∈ skippingClaims, isClaim tx.call = true ∧ tx.ctx.sender ≠ recipient) ∧
    firstClaim.recipient = recipient ∧ secondClaim.recipient = recipient ∧
    (claimIndex (deployment.reached setup) firstClaim).toNat <
      (claimIndex (deployment.reached setup) secondClaim).toNat ∧
    (∃ next, claimNativeWithdrawal environment (deployment.reached setup) claimant firstClaim true =
      .ok next) ∧
    (∃ next, claimNativeWithdrawal environment (deployment.reached setup) claimant secondClaim true =
      .ok next) ∧
    (firstClaim.amount.toNat + secondClaim.amount.toNat) * gwei ≤
      (deployment.reached setup).bridge.nativeEscrowLiability.toNat ∧
    (firstClaim.amount.toNat + secondClaim.amount.toNat) * gwei ≤
      (deployment.reached setup).etherBalance ∧
    ¬PaidAt (payouts (deployment.history (setup ++ skippingClaims))) none recipient
      (claimIndex (deployment.reached setup) firstClaim) ∧
    ∀ later tx payout next,
      claimPayout (run (step environment) (deployment.reached (setup ++ skippingClaims)) later)
        tx.call = some payout →
      payout.asset = none → payout.recipient = recipient →
      payout.globalActionIndex = claimIndex (deployment.reached setup) firstClaim →
      step environment (run (step environment) (deployment.reached (setup ++ skippingClaims)) later)
        tx ≠ .ok next := by
  obtain ⟨⟨hfirst, hsecond, hpaid⟩, hcursor, hliability, hether, -⟩ := skippingClaims_run
  refine ⟨by decide, rfl, rfl, ?_, ⟨_, eq_ok_get firstClaim_open⟩, ⟨_, eq_ok_get secondClaim_open⟩,
    hliability, hether, ?_, ?_⟩
  · rw [hfirst, hsecond]
    decide
  · rintro ⟨payout, hpayout, -, -, hindex⟩
    have hmem := List.mem_map_of_mem (f := (·.globalActionIndex)) hpayout
    rw [hpaid, hindex, hfirst] at hmem
    exact absurd hmem (by decide)
  · intro later tx payout next hasks hasset hrecipient hindex
    refine passed_never_claimed _ ?_ later hasks hasset hrecipient hindex next
    rw [hfirst, hcursor]
    decide

end EthereumSettlement.ThirdPartyClaims
