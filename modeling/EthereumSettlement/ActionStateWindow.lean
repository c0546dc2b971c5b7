import EthereumSettlement.RollbackRestores

/-!
# The action states that the outer account shows

The virtual outer account shows five action states. They ought to be the last five of
the outer chain, newest first, before the padding of an account without actions. A
bridge transition slides the window along the chain. A settlement puts its state
before in front of the old window, which already starts with that state, so it repeats
a state and loses another, unless the window still holds padding only.
-/

namespace EthereumSettlement.ActionStateWindow

open CheckedCalls PastaPoseidon SettlementCodec SettlementDecoder BridgeCodec BridgeDecoder
open GatewayTables ConfirmedReceipts GatewayRuns VirtualAccounts RollbackRestores

/-- What an account ought to show of a chain of action states, newest first, before the padding. -/
def shown (chain padding : List Bytes32) : List Bytes32 := (chain ++ padding).take 5

/-- Only the state before the settlement stands in the first four places. -/
def OnPadding (window : List Bytes32) (before : Bytes32) : Prop :=
  window.take 4 = List.replicate 4 before

instance (window : List Bytes32) (before : Bytes32) : Decidable (OnPadding window before) :=
  inferInstanceAs (Decidable (_ = _))

/-- A bridge transition slides the window along the chain. -/
theorem shown_append {states chain padding : List Bytes32} :
    (states.reverse ++ shown chain padding).take 5 = shown (states.reverse ++ chain) padding := by
  rw [shown, shown, List.append_assoc]
  generalize chain ++ padding = line
  rw [List.take_append, List.take_append, List.take_take]
  congr 2
  omega

/-- A settlement shows the chain exactly when it finds padding only. -/
theorem shown_settlement {before after : Bytes32} {tail padding : List Bytes32} :
    after :: before :: (shown (before :: tail) padding).take 3 =
        shown (after :: before :: tail) padding ↔
      OnPadding (shown (before :: tail) padding) before := by
  simp only [shown, OnPadding, List.cons_append]
  generalize tail ++ padding = rest
  rcases rest with _ | ⟨first, _ | ⟨second, _ | ⟨third, rest⟩⟩⟩
  · simp [List.replicate]
  · simp [List.replicate]
  · simp [List.replicate]
  · simp only [List.take_succ_cons, List.take_zero, List.replicate, List.cons.injEq, true_and,
      and_true]
    constructor
    · rintro ⟨rfl, rfl, rfl⟩
      exact ⟨rfl, rfl, rfl⟩
    · rintro ⟨rfl, rfl, rfl⟩
      exact ⟨rfl, rfl, rfl⟩

/-- The outer action state that a receipt starts from. -/
def stateBefore (event : Application) : Option Bytes32 :=
  match event.kind with
  | .settlement => (SettlementPublicValues.decode event.publicValues).toOption.map fun decoded =>
      decoded.settlement.outerActionStateBefore
  | .bridge => (BridgeTransitionPublicValuesV2.decode event.publicValues).toOption.map
      BridgeTransitionPublicValuesV2.zekoActionStateBefore

/-- The outer action states that a receipt appends to the chain, oldest first. -/
def statesAfter (event : Application) : List Bytes32 :=
  match event.kind with
  | .settlement => ((SettlementPublicValues.decode event.publicValues).toOption.map fun decoded =>
      decoded.settlement.outerActionStateAfter).toList
  | .bridge => ((BridgeTransitionPublicValuesV2.decode event.publicValues).toOption.map fun decoded =>
      decoded.actions.map BridgeOuterActionV2.stateAfter).getD []

/-- The chain after a receipt. -/
def extend (chain : List Bytes32) (event : Application) : List Bytes32 :=
  (statesAfter event).reverse ++ chain

/-- Every receipt starts from the newest state of the chain. -/
def InOrder : List Bytes32 → List Application → Prop
  | _, [] => True
  | chain, event :: rest =>
    ((stateBefore event).isSome ∧ chain.head? = stateBefore event) ∧
      InOrder (extend chain event) rest

instance : ∀ (chain : List Bytes32) (events : List Application), Decidable (InOrder chain events)
  | _, [] => inferInstanceAs (Decidable True)
  | chain, event :: rest =>
    have := instDecidableInOrder (extend chain event) rest
    inferInstanceAs (Decidable ((_ ∧ _) ∧ _))

/-- The window of a public key: five zeros where the account has none. -/
def windowOf (db : Database) (publicKey : String) : Option (List Bytes32) :=
  (accountOf db publicKey).map fun account => account.actionState.getD initialActionState

/-- The events are first applications of their jobs, each with the metadata of its submission. -/
structure FirstApplications (db : Database) (events : List Application) : Prop where
  /-- No job is applied twice. -/
  distinct : (events.map Application.jobId).Nodup
  /-- No job has been applied before. -/
  fresh : ∀ event ∈ events, ¬ Applied db event.jobId
  /-- Every event writes accounts. -/
  changes : ∀ event ∈ events, event.ChangesAccounts

/-- Along the run, the outer account shows the chain. -/
def ShownAlong (state : AppState) (db : Database) (publicKey : String)
    (chain padding : List Bytes32) (events : List Application) : Prop :=
  ∀ done rest, events = done ++ rest → ∀ current, applyAll state db done = .ok current →
    windowOf current publicKey = some (shown (done.foldl extend chain) padding)

/-- Along the run, every settlement finds only padding in the window. -/
def SettlesOnPadding (state : AppState) (db : Database) (publicKey : String)
    (events : List Application) : Prop :=
  ∀ done event rest, events = done ++ event :: rest → event.kind = .settlement →
    ∀ current, applyAll state db done = .ok current →
      ∃ window before, windowOf current publicKey = some window ∧
        stateBefore event = some before ∧ OnPadding window before

section Steps

variable {state : AppState} {db next : Database} {publicKey : String} {event : Application}
variable {chain padding : List Bytes32} {rest : List Application}

/-- The next receipt shows the chain exactly when it is a bridge transition or a settlement that
finds padding only. -/
theorem window_step (hkey : db.outerPublicKey = some publicKey)
    (hconfigured : Configured publicKey event) (hfresh : ¬ Applied db event.jobId)
    (hchanges : event.ChangesAccounts)
    (horder : (stateBefore event).isSome ∧ chain.head? = stateBefore event)
    (hwindow : windowOf db publicKey = some (shown chain padding))
    (h : event.apply state db = .ok next) :
    windowOf next publicKey = some (shown (extend chain event) padding) ↔
      (event.kind = .settlement → ∃ window before, windowOf db publicKey = some window ∧
        stateBefore event = some before ∧ OnPadding window before) := by
  obtain ⟨old, hold, hshown⟩ := Option.map_eq_some_iff.mp hwindow
  obtain ⟨before, hbefore⟩ := Option.isSome_iff_exists.mp horder.1
  have hhead : chain.head? = some before := horder.2.trans hbefore
  have hstate : stateBefore event = some before := hbefore
  have haccounts := (apply_effect h).accounts
  rw [if_neg hfresh, hkey] at haccounts
  cases hkind : event.kind with
  | settlement =>
    simp only [Application.accounts, hkind] at haccounts
    simp only [stateBefore, hkind] at hbefore
    simp only [extend, statesAfter, hkind]
    obtain ⟨decoded, hdecoded, hdecodedBefore⟩ := Option.map_eq_some_iff.mp hbefore
    have hdecode := mem_toOption.mp hdecoded
    obtain ⟨submission, hsubmission⟩ := Option.isSome_iff_exists.mp (hchanges hkind)
    have houter := hconfigured hkind submission hsubmission
    obtain ⟨tail, rfl⟩ : ∃ tail, chain = before :: tail := List.head?_eq_some_iff.mp hhead
    have hnext : windowOf next publicKey = some (decoded.settlement.outerActionStateAfter :: before ::
        (shown (before :: tail) padding).take 3) := by
      simp only [hdecode, hsubmission, houter] at haccounts
      rw [windowOf, haccounts]
      unfold updateAccount
      split
      · simp [hold, settleOuter, advanceNonce, hshown, hdecodedBefore]
      · simp [hold, settleOuter, hshown, hdecodedBefore]
    rw [hnext, hdecoded]
    simp only [Option.map_some, Option.toList_some, List.reverse_singleton, List.singleton_append,
      Option.some.injEq, shown_settlement, forall_const, hwindow, hstate]
    constructor
    · exact fun hpadding => ⟨_, _, rfl, rfl, hpadding⟩
    · rintro ⟨_, _, rfl, rfl, hpadding⟩
      exact hpadding
  | bridge =>
    simp only [Application.accounts, hkind] at haccounts
    simp only [stateBefore, hkind] at hbefore
    simp only [extend, statesAfter, hkind]
    obtain ⟨decoded, hdecoded, -⟩ := Option.map_eq_some_iff.mp hbefore
    have hdecode := mem_toOption.mp hdecoded
    simp only [hdecode] at haccounts
    refine iff_of_true ?_ (fun hsettlement => absurd hsettlement (by simp))
    rw [windowOf, haccounts, updateAccount, if_pos rfl, hold, hdecoded]
    simp only [Option.map_some, Option.getD_some, appendActions, hshown, shown_append]

/-- Along a run that starts with an application, the chain is shown before it and from then on. -/
theorem shownAlong_cons (h : event.apply state db = .ok next) :
    ShownAlong state db publicKey chain padding (event :: rest) ↔
      windowOf db publicKey = some (shown chain padding) ∧
        ShownAlong state next publicKey (extend chain event) padding rest := by
  constructor
  · intro hall
    refine ⟨hall [] (event :: rest) rfl db rfl, ?_⟩
    intro done later hsplit current hcurrent
    exact hall (event :: done) later (by rw [hsplit, List.cons_append]) current
      (applyAll_cons.mpr ⟨next, h, hcurrent⟩)
  · rintro ⟨hfirst, hrest⟩ done later hsplit current hcurrent
    cases done with
    | nil =>
      rw [applyAll, List.foldlM_nil, pure_eq_ok] at hcurrent
      rw [← hcurrent]
      exact hfirst
    | cons head done =>
      rw [List.cons_append, List.cons.injEq] at hsplit
      obtain ⟨rfl, hsplit⟩ := hsplit
      obtain ⟨after, hafter, hdone⟩ := applyAll_cons.mp hcurrent
      rw [h, Except.ok.injEq] at hafter
      subst hafter
      exact hrest done later hsplit current hdone

/-- Along a run that starts with an application, settlements find padding there and from then on. -/
theorem settlesOnPadding_cons (h : event.apply state db = .ok next) :
    SettlesOnPadding state db publicKey (event :: rest) ↔
      (event.kind = .settlement → ∃ window before, windowOf db publicKey = some window ∧
          stateBefore event = some before ∧ OnPadding window before) ∧
        SettlesOnPadding state next publicKey rest := by
  constructor
  · intro hall
    refine ⟨fun hkind => hall [] event rest rfl hkind db rfl, ?_⟩
    intro done other later hsplit hkind current hcurrent
    exact hall (event :: done) other later (by rw [hsplit, List.cons_append]) hkind current
      (applyAll_cons.mpr ⟨next, h, hcurrent⟩)
  · rintro ⟨hfirst, hrest⟩ done other later hsplit hkind current hcurrent
    cases done with
    | nil =>
      rw [applyAll, List.foldlM_nil, pure_eq_ok] at hcurrent
      rw [List.nil_append, List.cons.injEq] at hsplit
      obtain ⟨rfl, -⟩ := hsplit
      rw [← hcurrent]
      exact hfirst hkind
    | cons head done =>
      rw [List.cons_append, List.cons.injEq] at hsplit
      obtain ⟨rfl, hsplit⟩ := hsplit
      obtain ⟨after, hafter, hdone⟩ := applyAll_cons.mp hcurrent
      rw [h, Except.ok.injEq] at hafter
      subst hafter
      exact hrest done other later hsplit hkind current hdone

/-- After the first application of its job, the other events still are first applications. -/
theorem FirstApplications.step (hfirst : FirstApplications db (event :: rest))
    (h : event.apply state db = .ok next) : FirstApplications next rest := by
  have hdistinct := hfirst.distinct
  rw [List.map_cons, List.nodup_cons] at hdistinct
  refine ⟨hdistinct.2, fun later hlater happlied => ?_,
    fun later hlater => hfirst.changes later (List.mem_cons_of_mem _ hlater)⟩
  rcases ((apply_effect h).applied later.jobId).mp happlied with hold | ⟨hsame, -⟩
  · exact hfirst.fresh later (List.mem_cons_of_mem _ hlater) hold
  · exact hdistinct.1 (hsame ▸ List.mem_map_of_mem hlater)

end Steps

/-- Over every run of confirmed receipts in chain order, the outer account shows the last five
states of the chain after every receipt exactly when every settlement finds only padding. -/
theorem window_shown_iff (state : AppState) {db final : Database} {events : List Application}
    {publicKey : String} {chain padding : List Bytes32}
    (hkey : db.outerPublicKey = some publicKey)
    (hconfigured : ∀ event ∈ events, Configured publicKey event)
    (hfirst : FirstApplications db events) (horder : InOrder chain events)
    (hwindow : windowOf db publicKey = some (shown chain padding))
    (hrun : applyAll state db events = .ok final) :
    ShownAlong state db publicKey chain padding events ↔
      SettlesOnPadding state db publicKey events := by
  induction events generalizing db chain with
  | nil =>
    refine iff_of_true ?_ ?_
    · intro done rest hsplit current hcurrent
      rw [(List.append_eq_nil_iff.mp hsplit.symm).1] at hcurrent ⊢
      rw [applyAll, List.foldlM_nil, pure_eq_ok] at hcurrent
      rw [← hcurrent]
      exact hwindow
    · intro done event rest hsplit
      exact absurd hsplit (by simp)
  | cons event rest ih =>
    obtain ⟨next, happly, hrest⟩ := applyAll_cons.mp hrun
    have hstep := window_step hkey (hconfigured event List.mem_cons_self)
      (hfirst.fresh event List.mem_cons_self) (hfirst.changes event List.mem_cons_self) horder.1
      hwindow happly
    have hlater := ih (outerPublicKey_of_apply (hconfigured event List.mem_cons_self) hkey happly)
      (fun later hlater => hconfigured later (List.mem_cons_of_mem _ hlater)) (hfirst.step happly)
      horder.2
    rw [shownAlong_cons happly, settlesOnPadding_cons happly]
    constructor
    · rintro ⟨-, hshown⟩
      have hnext := hshown [] rest rfl next rfl
      exact ⟨hstep.mp hnext, (hlater hnext hrest).mp hshown⟩
    · rintro ⟨hpadding, hsettles⟩
      have hnext := hstep.mpr hpadding
      exact ⟨hwindow, (hlater hnext hrest).mpr hsettles⟩

/-- After a settlement the account shows the state before it twice, and a bridge transition keeps
the repetition: the chain `9, 8, 7` is shown with `7` in two places. -/
theorem settlement_repeats_state :
    windowOf twoAccounts "B62outer" = some (shown [7] [0, 0, 0, 0]) ∧
      InOrder [7] settledThenBridged ∧ settledThenBridged.foldl extend [7] = [9, 8, 7] ∧
      ∃ final ∈ (applyAll replica twoAccounts settledThenBridged).toOption,
        windowOf final "B62outer" = some [9, 8, 7, 7, 0] ∧
          windowOf final "B62outer" ≠ some (shown [9, 8, 7] [0, 0, 0, 0]) := by
  decide +kernel

/-- An outer account without actions shows its first state five times. -/
def withoutActions : Database :=
  { twoAccounts with
    accounts := twoAccounts.accounts.map fun row =>
      { row with account := { row.account with actionState := some [7, 7, 7, 7, 7] } } }

/-- From an account without actions, the settlement and the bridge transition after it are shown. -/
theorem window_shown_withoutActions :
    ∃ final, applyAll replica withoutActions settledThenBridged = .ok final ∧
      windowOf final "B62outer" = some [9, 8, 7, 7, 7] ∧
      (ShownAlong replica withoutActions "B62outer" [7] [7, 7, 7, 7] settledThenBridged ↔
        SettlesOnPadding replica withoutActions "B62outer" settledThenBridged) := by
  have hrun : (∃ final ∈ (applyAll replica withoutActions settledThenBridged).toOption,
        windowOf final "B62outer" = some [9, 8, 7, 7, 7]) ∧
      InOrder [7] settledThenBridged ∧
      windowOf withoutActions "B62outer" = some (shown [7] [7, 7, 7, 7]) := by
    decide +kernel
  obtain ⟨⟨final, hfinal, hshown⟩, horder, hwindow⟩ := hrun
  rw [mem_toOption] at hfinal
  exact ⟨final, hfinal, hshown, window_shown_iff replica rfl (by decide)
    ⟨by decide, by decide, by decide⟩ horder hwindow hfinal⟩

end EthereumSettlement.ActionStateWindow
