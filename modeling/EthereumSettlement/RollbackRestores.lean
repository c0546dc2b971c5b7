import EthereumSettlement.ChainRecords

/-!
# A rollback undoes the applications above it

Applications come in block order, each in a transaction that starts after the one
before it. A rollback restores the snapshots above the ancestor, latest first, so it
leaves every account as the applications at or below the ancestor made it. The
applications above it can then be made again, and lead to the accounts that were
rolled back.
-/

namespace EthereumSettlement.RollbackRestores

open CheckedCalls KeyedTables PastaPoseidon
open GatewayTables ConfirmedReceipts GatewayIndexer GatewayRuns UndoSnapshots VirtualAccounts
open ProofJobs RollbackEffects ChainRecords

section Rollback

variable {db after : Database} {now : Timestamp} {ancestor : ℕ}

/-- The first stamp above a block. -/
def above (ancestor : ℕ) : ℕ ×ₗ ℕ := stampOf (ancestor + 1) 0

/-- A stamp is above a block when its block is. -/
theorem above_le {blockNumber : ℕ} {time : Timestamp} :
    above ancestor ≤ stampOf blockNumber time ↔ ancestor < blockNumber := by
  rw [above, stampOf, stampOf, Prod.Lex.toLex_le_toLex]
  constructor
  · rintro (h | ⟨h, -⟩)
    · exact Nat.lt_of_succ_lt h
    · exact Nat.lt_of_succ_le h.le
  · intro h
    rcases Nat.lt_or_eq_of_le (Nat.succ_le_of_lt h) with hlt | heq
    · exact Or.inl hlt
    · exact Or.inr ⟨heq, Nat.zero_le _⟩

/-- Restoring rows restores accounts. -/
theorem accountOf_restore (histories : List AccountHistory) (accounts : List Account) :
    (fun key => ((histories.foldl restoreAccount accounts).find?
        fun row => decide (row.publicKey = key)).map Account.account) =
      (histories.map snapshotOf).foldl restore
        (fun key => (accounts.find? fun row => decide (row.publicKey = key)).map Account.account) := by
  induction histories generalizing accounts with
  | nil => rfl
  | cons history rest ih =>
    rw [List.foldl_cons, List.map_cons, List.foldl_cons, ih]
    congr 1
    funext key
    rw [restoreAccount, find?_updateWhere (f := fun row => { row with
      account := history.accountBefore
      ethereumBlockNumber := none
      ethereumBlockHash := none }) (fun _ => rfl), restore, snapshotOf]
    by_cases heq : key = history.publicKey
    · rw [if_pos heq, if_pos heq, Option.map_map, Option.map_map]
      rfl
    · rw [if_neg heq, if_neg heq]

/-- A rollback undoes every snapshot above the ancestor. -/
theorem accountOf_rollback (h : rollbackAfter db now ancestor = .ok after) :
    accountOf after = undo (snapshots db) (accountOf db) (above ancestor) := by
  have hsorted : ((db.accountHistory.filter fun history =>
        decide (ancestor < history.ethereumBlockNumber)).insertionSort LaterHistory).map snapshotOf =
      ((snapshots db).filter fun snapshot =>
        decide (above ancestor ≤ snapshot.stamp)).insertionSort
          fun first second => second.stamp ≤ first.stamp := by
    rw [List.map_insertionSort (r := LaterHistory) (s := fun first second : Snapshot String AccountJson (ℕ ×ₗ ℕ) =>
      second.stamp ≤ first.stamp), snapshots, List.filter_map]
    · congr 2
      apply List.filter_congr
      intro history _
      simp only [Function.comp, snapshotOf, above_le]
    · intro first _ second _
      simp only [snapshotOf, stampOf, Prod.Lex.toLex_le_toLex, LaterHistory]
      exact or_congr_right (and_congr_left' eq_comm)
  have haccounts := (rollbackAfter_tables h).accounts
  funext key
  rw [undo, ← hsorted]
  have hrestored := congrFun (accountOf_restore ((db.accountHistory.filter fun history =>
    decide (ancestor < history.ethereumBlockNumber)).insertionSort LaterHistory) db.accounts) key
  rw [accountOf, Database.account?, haccounts]
  exact hrestored

end Rollback

/-- Every application of a list, in its order. -/
def applyAll (state : AppState) (db : Database) (events : List Application) :
    Except GatewayError Database :=
  events.foldlM (fun db event => event.apply state db) db

/-- The applications come in block order, each transaction starting after the one before it. -/
def InBlockOrder (events : List Application) : Prop :=
  events.Pairwise fun first second =>
    first.inclusion.blockNumber ≤ second.inclusion.blockNumber ∧ first.now < second.now

instance (events : List Application) : Decidable (InBlockOrder events) :=
  inferInstanceAs (Decidable (events.Pairwise _))

/-- The applications at or below a block. -/
def atOrBelow (ancestor : ℕ) (events : List Application) : List Application :=
  events.filter fun event => decide (event.inclusion.blockNumber ≤ ancestor)

/-- The applications above a block. -/
def strictlyAbove (ancestor : ℕ) (events : List Application) : List Application :=
  events.filter fun event => decide (ancestor < event.inclusion.blockNumber)

/-- The stamp of an application. -/
def eventStamp (event : Application) : ℕ ×ₗ ℕ := stampOf event.inclusion.blockNumber event.now

section Runs

variable {state : AppState} {db after : Database} {ancestor : ℕ} {event : Application}
variable {first second events : List Application}

/-- A nonempty list applies its first event first. -/
theorem applyAll_cons : applyAll state db (event :: events) = .ok after ↔
    ∃ next, event.apply state db = .ok next ∧ applyAll state next events = .ok after := by
  rw [applyAll, List.foldlM_cons, bind_eq_ok]
  rfl

/-- Applications compose along concatenated lists. -/
theorem applyAll_append : applyAll state db (first ++ second) = .ok after ↔
    ∃ middle, applyAll state db first = .ok middle ∧ applyAll state middle second = .ok after := by
  rw [applyAll, List.foldlM_append, bind_eq_ok]
  rfl

/-- In block order, what is at or below a block comes before what is above it. -/
theorem split_of_inBlockOrder (ancestor : ℕ) (h : InBlockOrder events) :
    events = atOrBelow ancestor events ++ strictlyAbove ancestor events := by
  induction events with
  | nil => rfl
  | cons event rest ih =>
    obtain ⟨hfirst, hrest⟩ := List.pairwise_cons.mp h
    by_cases hbelow : event.inclusion.blockNumber ≤ ancestor
    · have hnot : ¬ ancestor < event.inclusion.blockNumber := by omega
      have hsplit := ih hrest
      rw [atOrBelow, strictlyAbove] at hsplit ⊢
      rw [List.filter_cons, List.filter_cons, decide_eq_true hbelow, decide_eq_false hnot, if_pos rfl,
        if_neg Bool.false_ne_true, List.cons_append, ← hsplit]
    · have hall : ∀ other ∈ event :: rest, ancestor < other.inclusion.blockNumber := by
        intro other hother
        rcases List.mem_cons.mp hother with rfl | hother
        · omega
        · have hle := (hfirst other hother).1
          omega
      have hnone : atOrBelow ancestor (event :: rest) = [] := by
        refine List.filter_eq_nil_iff.mpr fun other hother => ?_
        have habove := hall other hother
        simpa using habove
      have hevery : strictlyAbove ancestor (event :: rest) = event :: rest :=
        List.filter_eq_self.mpr fun other hother => decide_eq_true (hall other hother)
      rw [hnone, hevery, List.nil_append]

/-- A later application has a later stamp. -/
theorem eventStamp_lt {other : Application}
    (h : event.inclusion.blockNumber ≤ other.inclusion.blockNumber ∧ event.now < other.now) :
    eventStamp event < eventStamp other := by
  rw [eventStamp, eventStamp, stampOf, stampOf, Prod.Lex.toLex_lt_toLex]
  rcases Nat.lt_or_eq_of_le h.1 with hlt | heq
  · exact Or.inl hlt
  · exact Or.inr ⟨heq, h.2⟩

/-- Every history row after an application is an old one or has the stamp of the application. -/
theorem history_of_apply (h : event.apply state db = .ok after) {row : AccountHistory}
    (hrow : row ∈ after.accountHistory) : row ∈ db.accountHistory ∨
      (row.ethereumBlockNumber = event.inclusion.blockNumber ∧ row.createdAt = event.now) := by
  obtain ⟨fresh, htouched⟩ := (apply_effect h).touched
  rw [htouched.history] at hrow
  rcases List.mem_append.mp hrow with hold | hnew
  · exact Or.inl hold
  · exact Or.inr (htouched.stamped row hnew)

/-- Every history row after a run is an old one or has the block of one of its events. -/
theorem history_of_applyAll (h : applyAll state db events = .ok after) {row : AccountHistory}
    (hrow : row ∈ after.accountHistory) : row ∈ db.accountHistory ∨
      ∃ event ∈ events, row.ethereumBlockNumber = event.inclusion.blockNumber := by
  induction events generalizing db with
  | nil =>
    rw [applyAll, List.foldlM_nil, pure_eq_ok] at h
    rw [h]
    exact Or.inl hrow
  | cons event rest ih =>
    obtain ⟨next, hfirst, hrest⟩ := applyAll_cons.mp h
    rcases ih hrest with hold | ⟨other, hother, hblock⟩
    · rcases history_of_apply hfirst hold with hold | ⟨hblock, -⟩
      · exact Or.inl hold
      · exact Or.inr ⟨event, List.mem_cons_self, hblock⟩
    · exact Or.inr ⟨other, List.mem_cons_of_mem _ hother, hblock⟩

/-- Undoing everything above a block also undoes one more application above it. -/
theorem undo_apply (hunambiguous : Unambiguous (snapshots db) (above ancestor))
    (habove : ancestor < event.inclusion.blockNumber)
    (hlater : ∀ row ∈ db.accountHistory,
      stampOf row.ethereumBlockNumber row.createdAt < eventStamp event)
    (h : event.apply state db = .ok after) :
    Unambiguous (snapshots after) (above ancestor) ∧
      undo (snapshots after) (accountOf after) (above ancestor) =
        undo (snapshots db) (accountOf db) (above ancestor) := by
  obtain ⟨fresh, htouched⟩ := (apply_effect h).touched
  have hrecorded := htouched.recorded hlater
  have hsnapshots : snapshots after = snapshots db ++ fresh.map snapshotOf := by
    rw [snapshots, htouched.history, List.map_append, snapshots]
  rw [hsnapshots]
  exact ⟨hrecorded.unambiguous hunambiguous,
    undo_recorded hunambiguous hrecorded (above_le.mpr habove)⟩

/-- Undoing everything above a block undoes a run of applications above it. -/
theorem undo_applyAll (hunambiguous : Unambiguous (snapshots db) (above ancestor))
    (habove : ∀ event ∈ events, ancestor < event.inclusion.blockNumber)
    (hlater : ∀ event ∈ events, ∀ row ∈ db.accountHistory,
      stampOf row.ethereumBlockNumber row.createdAt < eventStamp event)
    (hordered : InBlockOrder events) (h : applyAll state db events = .ok after) :
    undo (snapshots after) (accountOf after) (above ancestor) =
      undo (snapshots db) (accountOf db) (above ancestor) := by
  induction events generalizing db with
  | nil =>
    rw [applyAll, List.foldlM_nil, pure_eq_ok] at h
    rw [h]
  | cons event rest ih =>
    obtain ⟨next, hfirst, hrest⟩ := applyAll_cons.mp h
    obtain ⟨hbefore, hordered⟩ := List.pairwise_cons.mp hordered
    obtain ⟨hnext, hundo⟩ := undo_apply hunambiguous (habove event List.mem_cons_self)
      (hlater event List.mem_cons_self) hfirst
    rw [← hundo]
    refine ih hnext (fun other hother => habove other (List.mem_cons_of_mem _ hother)) ?_ hordered hrest
    intro other hother row hrow
    rcases history_of_apply hfirst hrow with hold | ⟨hblock, htime⟩
    · exact hlater other (List.mem_cons_of_mem _ hother) row hold
    · rw [hblock, htime]
      exact eventStamp_lt (hbefore other hother)

/-- With no snapshot above a block, undoing above it changes nothing. -/
theorem undo_of_atOrBelow (h : ∀ row ∈ db.accountHistory, row.ethereumBlockNumber ≤ ancestor) :
    undo (snapshots db) (accountOf db) (above ancestor) = accountOf db := by
  funext key
  refine undo_of_none fun snapshot hsnapshot _ hfrom => ?_
  obtain ⟨row, hrow, rfl⟩ := List.mem_map.mp hsnapshot
  have habove := above_le.mp hfrom
  have hbelow := h row hrow
  omega

/-- A rollback leaves the accounts as the applications at or below the ancestor made them. -/
theorem rollback_restores {middle : Database} {now : Timestamp}
    (hold : ∀ row ∈ db.accountHistory, row.ethereumBlockNumber ≤ ancestor)
    (hordered : InBlockOrder events) (hrun : applyAll state db events = .ok middle)
    (hrollback : rollbackAfter middle now ancestor = .ok after) :
    ∃ below, applyAll state db (atOrBelow ancestor events) = .ok below ∧
      applyAll state below (strictlyAbove ancestor events) = .ok middle ∧
        accountOf after = accountOf below := by
  have hsplit := split_of_inBlockOrder ancestor hordered
  rw [hsplit] at hrun
  obtain ⟨below, hbelow, habove⟩ := applyAll_append.mp hrun
  refine ⟨below, hbelow, habove, ?_⟩
  have hhistory : ∀ row ∈ below.accountHistory, row.ethereumBlockNumber ≤ ancestor := by
    intro row hrow
    rcases history_of_applyAll hbelow hrow with hrow | ⟨event, hevent, hblock⟩
    · exact hold row hrow
    · rw [hblock]
      exact of_decide_eq_true (List.mem_filter.mp hevent).2
  have hlater : ∀ event ∈ strictlyAbove ancestor events,
      ancestor < event.inclusion.blockNumber := by
    intro event hevent
    exact of_decide_eq_true (List.mem_filter.mp hevent).2
  rw [accountOf_rollback hrollback, ← undo_of_atOrBelow hhistory]
  refine undo_applyAll ?_ hlater ?_ (List.Pairwise.filter _ hordered) habove
  · intro snapshot hsnapshot other _ hfrom
    obtain ⟨row, hrow, rfl⟩ := List.mem_map.mp hsnapshot
    have habove := above_le.mp hfrom
    have hbelow := hhistory row hrow
    omega
  · intro event hevent row hrow
    have hblock := hlater event hevent
    have hrowBelow := hhistory row hrow
    rw [eventStamp, stampOf, stampOf, Prod.Lex.toLex_lt_toLex]
    exact Or.inl (by omega)

end Runs

/-- The second application of an event, at another time and perhaps for a new job row. -/
structure Reapplies (rename : Uuid → Uuid) (event again : Application) : Prop where
  /-- It has the same kind. -/
  kind : again.kind = event.kind
  /-- Its job is the renamed one. -/
  jobId : again.jobId = rename event.jobId
  /-- It has the same input. -/
  input : again.input = event.input
  /-- It has the same public values. -/
  publicValues : again.publicValues = event.publicValues
  /-- It has the same inclusion. -/
  inclusion : again.inclusion = event.inclusion

section Again

variable {state : AppState} {rename : Uuid → Uuid} {db next other after : Database}
variable {event again : Application}

/-- Equal accounts have rows with equal values. -/
theorem row_again {publicKey : String} {row : Account} (haccounts : accountOf other = accountOf db)
    (hrow : db.account? publicKey = some row) :
    ∃ row', other.account? publicKey = some row' ∧ row'.account = row.account := by
  refine exists_row ?_
  rw [haccounts]
  exact accountOf_of_row hrow

/-- Whether inner actions can be stored does not depend on the database. -/
theorem storeInnerActions_again {input : JobInput} {decoded : SettlementCodec.SettlementPublicValues}
    {inclusion : Inclusion} (h : storeInnerActions state db input decoded inclusion = .ok after) :
    Succeeds (storeInnerActions state other input decoded inclusion) := by
  unfold storeInnerActions at h ⊢
  split
  · exact succeeds_pure
  · rename_i batch hbatch
    simp only [hbatch, bind_eq_ok] at h
    simp only [succeeds_bind]
    obtain ⟨receipt, hreceipt, rows, hrows, -⟩ := h
    exact ⟨receipt, hreceipt, rows, hrows, succeeds_pure⟩

/-- A settlement that was applied can be applied again to the same accounts. -/
theorem settlement_again {now later : Timestamp} {jobId newId : Uuid} {input : JobInput}
    {publicValues : ByteWords.Bytes} {inclusion : Inclusion}
    (haccounts : accountOf other = accountOf db) (happlied : Applied other newId ↔ Applied db jobId)
    (h : applyConfirmedSettlement state db now jobId input publicValues inclusion = .ok next) :
    Succeeds (applyConfirmedSettlement state other later newId input publicValues inclusion) := by
  simp only [applyConfirmedSettlement, bind_eq_ok] at h
  simp only [applyConfirmedSettlement, succeeds_bind]
  obtain ⟨decoded, hdecode, sequence, hsequence, h⟩ := h
  refine ⟨decoded, hdecode, sequence, hsequence, ?_⟩
  split
  · exact succeeds_pure
  · rename_i hfresh
    split at h
    · rename_i hdone
      exact absurd (happlied.mpr hdone) hfresh
    cases hsubmission : input.submission with
    | none => exact succeeds_pure
    | some submission =>
      simp only [hsubmission, bind_eq_ok, updateOuterAccount_eq_ok, updateFeePayer_eq_ok] at h
      simp only [succeeds_bind, updateOuterAccount_eq_ok, updateFeePayer_eq_ok]
      obtain ⟨actions, hactions, _, ⟨outer, houter, rfl⟩, _, ⟨payer, hpayer, hnonce, hbound, rfl⟩,
        hstore⟩ := h
      obtain ⟨outer', houter', houterEq⟩ := row_again haccounts houter
      refine ⟨actions, hactions, _, ⟨outer', houter', rfl⟩, ?_⟩
      -- The fee payer reads its account after the outer account was written.
      refine Exists.elim (row_again ?_ hpayer) fun payer' hpayer' =>
        ⟨_, ⟨payer', hpayer'.1, ?_, ?_, rfl⟩, storeInnerActions_again hstore⟩
      · rw [accountOf_write houter]
        refine Eq.trans (accountOf_write (f := settleOuter decoded.settlement) ?_) ?_
        · exact houter'
        exact congrArg (fun accounts => updateAccount accounts submission.outerAccountPublicKey
          (settleOuter decoded.settlement)) haccounts
      · rw [hpayer'.2]
        exact hnonce
      · rw [hpayer'.2]
        exact hbound

/-- A bridge transition that was applied can be applied again to the same accounts, once its
deposits can be assigned. -/
theorem bridge_again {now later : Timestamp} {jobId newId : Uuid} {input : JobInput}
    {publicValues : ByteWords.Bytes} {inclusion : Inclusion}
    (haccounts : accountOf other = accountOf db) (houterKey : other.outerPublicKey = db.outerPublicKey)
    (happlied : Applied other newId ↔ Applied db jobId)
    (hdeposits : Application.DepositsMap other
      ⟨later, .bridge, newId, input, publicValues, inclusion⟩)
    (h : applyConfirmedBridge db now jobId publicValues inclusion = .ok next) :
    Succeeds (applyConfirmedBridge other later newId publicValues inclusion) := by
  simp only [applyConfirmedBridge, bind_eq_ok, require_eq_ok, exists_const] at h
  simp only [applyConfirmedBridge, succeeds_bind, require_eq_ok, exists_const]
  obtain ⟨decoded, hdecode, hactions, hlength, hafter, hlast, assigned, hassigned, h⟩ := h
  obtain ⟨assigned', hassigned'⟩ := hdeposits rfl decoded (liftCodec_eq_ok.mp hdecode)
  have hkept := assignDeposits_kept hassigned
  have hkept' := assignDeposits_kept hassigned'
  refine ⟨decoded, hdecode, hactions, hlength, hafter, hlast, assigned', hassigned', ?_⟩
  split
  · exact succeeds_pure
  · rename_i hfresh
    have hfirst : ¬ Applied assigned jobId := by
      intro hdone
      exact hfresh (hkept'.applied_iff.mpr (happlied.mpr (hkept.applied_iff.mp hdone)))
    rw [if_neg hfirst] at h
    simp only [bind_eq_ok, requireSome_eq_ok, updateOuterAccountActions_eq_ok] at h
    simp only [succeeds_bind, requireSome_eq_ok, updateOuterAccountActions_eq_ok]
    obtain ⟨publicKey, hkey, _, ⟨outer, houter, hhead, rfl⟩, -⟩ := h
    have hsame : accountOf assigned' = accountOf assigned := by
      rw [hkept.accountOf_eq, hkept'.accountOf_eq, haccounts]
    obtain ⟨outer', houter', houterEq⟩ := row_again hsame houter
    refine ⟨publicKey, ?_, _, ⟨outer', houter', ?_, rfl⟩, succeeds_pure⟩
    · rw [hkept'.outerPublicKey, houterKey, ← hkept.outerPublicKey, hkey]
    · rw [houterEq]
      exact hhead

/-- An event that was applied can be applied again to the same accounts. -/
theorem apply_again (hsame : Reapplies rename event again)
    (haccounts : accountOf other = accountOf db) (houterKey : other.outerPublicKey = db.outerPublicKey)
    (happlied : Applied other again.jobId ↔ Applied db event.jobId) (hdeposits : again.DepositsMap other)
    (h : event.apply state db = .ok next) : Succeeds (again.apply state other) := by
  obtain ⟨now, kind, jobId, input, publicValues, inclusion⟩ := event
  obtain ⟨later, _, newId, _, _, _⟩ := again
  obtain ⟨hkind, -, hinput, hvalues, hinclusion⟩ := hsame
  cases hkind
  cases hinput
  cases hvalues
  cases hinclusion
  cases kind with
  | settlement => exact settlement_again haccounts happlied h
  | bridge => exact bridge_again haccounts houterKey happlied hdeposits h

end Again

/-- The settlement names the configured outer account, as every admission path checks. -/
def Configured (outerPublicKey : String) (event : Application) : Prop :=
  event.kind = .settlement → ∀ submission ∈ event.input.submission,
    submission.outerAccountPublicKey = outerPublicKey

instance (outerPublicKey : String) (event : Application) :
    Decidable (Configured outerPublicKey event) :=
  inferInstanceAs (Decidable (_ → ∀ submission ∈ event.input.submission, _))

/-- The inputs that the gateway admits and recovers. -/
inductive Admitted (state : AppState) (db : Database) : ProofKind → JobInput → Prop
  /-- A request of the job interface. -/
  | createSettlement (request : SettlementRequest) :
    Admitted state db .settlement (request.input state)
  /-- A new row of the Mina interface. -/
  | sendZkapp {now : Timestamp} {id : Uuid} {after : Database} {settlement : GatewaySettlement}
      (admitted : sendZkapp state db now id settlement = .ok (after, id)) :
    Admitted state db .settlement settlement.input
  /-- A bridge transition, requested or queued. -/
  | bridge (input : BridgeGuest.BridgeTransitionInput) : Admitted state db .bridge (bridgeInput input)
  /-- A receipt on Ethereum without a job. -/
  | recovered {kind : ProofKind} {publicValues : ByteWords.Bytes} {input : JobInput}
      (recovered : recoveredInput state db kind publicValues = .ok input) :
    Admitted state db kind input

/-- The Mina interface admits new settlements of the configured account only. -/
theorem outerAccount_of_sendZkapp {state : AppState} {db after : Database} {now : Timestamp}
    {id : Uuid} {settlement : GatewaySettlement} {outerPublicKey : String}
    (hkey : db.outerPublicKey = some outerPublicKey)
    (h : sendZkapp state db now id settlement = .ok (after, id)) :
    settlement.outerAccountPublicKey = outerPublicKey := by
  simp only [sendZkapp, bind_eq_ok, require_eq_ok, exists_const, Prod.exists] at h
  obtain ⟨-, -, -, locked, hlock, actualId, inserted, hinsert, checked, hattach, h⟩ := h
  have hactual : actualId = id := by
    split at h <;> exact (Prod.mk.inj (pure_eq_ok.mp h)).2
  rw [attachSubmission, if_pos hactual] at hattach
  simp only [bind_eq_ok, pure_eq_ok, checkSubmission, requireSome_eq_ok, require_eq_ok,
    exists_const] at hattach
  obtain ⟨attached, hsettlement, ⟨feePayer, -, -, outer, houter, hsame, -⟩, -⟩ := hattach
  have hkept := ((lock_records hlock).trans (insertJob_records hinsert)).trans
    (attachSettlement_records hsettlement)
  rw [hkept.accounts.outerPublicKey, hkey, Option.some.injEq] at houter
  rw [← hsame, ← houter]

/-- While the outer key is configured, every admitted or recovered settlement names that
account. -/
theorem Admitted.configured {state : AppState} {db : Database} {event : Application}
    {outerPublicKey : String} (hkey : db.outerPublicKey = some outerPublicKey)
    (h : Admitted state db event.kind event.input) : Configured outerPublicKey event := by
  intro hkind submission hsubmission
  generalize event.input = input at h hsubmission
  rw [hkind] at h
  cases h with
  | createSettlement request => cases hsubmission
  | sendZkapp admitted =>
    rw [← Option.some.inj hsubmission]
    exact outerAccount_of_sendZkapp hkey admitted
  | recovered recovered =>
    simp only [recoveredInput, recoveredSettlementInput, bind_eq_ok, pure_eq_ok, requireSome_eq_ok,
      hkey, Option.some.injEq] at recovered
    obtain ⟨decoded, -, outer, houter, feePayer, -, account, -, rfl⟩ := recovered
    rw [← Option.some.inj hsubmission, houter]

/-- Two databases that the remaining events cannot tell apart. -/
structure SameView (rename : Uuid → Uuid) (outerPublicKey : String) (events : List Application)
    (db other : Database) : Prop where
  /-- The accounts are the same. -/
  accounts : accountOf other = accountOf db
  /-- The outer key is configured. -/
  key : db.outerPublicKey = some outerPublicKey
  /-- So it is in the other database. -/
  otherKey : other.outerPublicKey = some outerPublicKey
  /-- The remaining events are applied in both or in neither. -/
  applied : ∀ event ∈ events, (Applied other (rename event.jobId) ↔ Applied db event.jobId)

/-- Every application of the list returns once its deposits can be assigned, and all of them lead
to the given accounts. -/
structure LeadsTo (state : AppState) (db : Database) (events : List Application)
    (accounts : String → Option AccountJson) : Prop where
  /-- Every application in turn returns. -/
  returns : ∀ done event rest, events = done ++ event :: rest → ∀ current,
    applyAll state db done = .ok current → event.DepositsMap current →
      Succeeds (event.apply state current)
  /-- All of them lead to the accounts. -/
  result : ∀ final, applyAll state db events = .ok final → accountOf final = accounts

section Views

variable {state : AppState} {rename : Uuid → Uuid} {outerPublicKey : String}
variable {db next other after final : Database} {event again : Application}
variable {events rest agains : List Application}

/-- An application of a configured event keeps the configured outer key. -/
theorem outerPublicKey_of_apply (hconfigured : Configured outerPublicKey event)
    (hkey : db.outerPublicKey = some outerPublicKey) (h : event.apply state db = .ok next) :
    next.outerPublicKey = some outerPublicKey := by
  rcases (apply_effect h).outerPublicKey with hsame | ⟨submission, hsubmission, hkind, hwritten⟩
  · rw [hsame, hkey]
  · rw [hwritten, hconfigured hkind submission hsubmission]

/-- The same event keeps two views the same. -/
theorem SameView.step (hrename : Function.Injective rename)
    (hview : SameView rename outerPublicKey (event :: rest) db other)
    (hconfigured : Configured outerPublicKey event) (hsame : Reapplies rename event again)
    (h : event.apply state db = .ok next) (h' : again.apply state other = .ok after) :
    SameView rename outerPublicKey rest next after := by
  have heffect := apply_effect h
  have heffect' := apply_effect h'
  have happlied := hview.applied event List.mem_cons_self
  rw [← hsame.jobId] at happlied
  have hconfigured' : Configured outerPublicKey again := by
    rw [Configured, hsame.kind, hsame.input]
    exact hconfigured
  have hchanges : again.ChangesAccounts ↔ event.ChangesAccounts := by
    rw [Application.ChangesAccounts, Application.ChangesAccounts, hsame.kind, hsame.input]
  constructor
  · have haccounts : again.accounts other.outerPublicKey (accountOf other) =
        event.accounts db.outerPublicKey (accountOf db) := by
      rw [hview.accounts, hview.otherKey, hview.key]
      simp only [Application.accounts, hsame.kind, hsame.input, hsame.publicValues]
    rw [heffect.accounts, heffect'.accounts, haccounts, hview.accounts]
    by_cases hdone : Applied db event.jobId
    · rw [if_pos hdone, if_pos (happlied.mpr hdone)]
    · rw [if_neg hdone, if_neg fun hdone' => hdone (happlied.mp hdone')]
  · exact outerPublicKey_of_apply hconfigured hview.key h
  · exact outerPublicKey_of_apply hconfigured' hview.otherKey h'
  · intro later hlater
    rw [heffect.applied, heffect'.applied, hview.applied later (List.mem_cons_of_mem _ hlater),
      hchanges, hsame.jobId, hrename.eq_iff]

/-- From the same view, the same events lead to the same accounts. -/
theorem leadsTo_of_sameView (hrename : Function.Injective rename)
    (hview : SameView rename outerPublicKey events db other)
    (hconfigured : ∀ event ∈ events, Configured outerPublicKey event)
    (hsame : List.Forall₂ (Reapplies rename) events agains)
    (hrun : applyAll state db events = .ok final) : LeadsTo state other agains (accountOf final) := by
  induction hsame generalizing db other with
  | nil =>
    rw [applyAll, List.foldlM_nil, pure_eq_ok] at hrun
    constructor
    · intro done event rest hsplit
      exact absurd hsplit (by simp)
    · intro reached hreached
      rw [applyAll, List.foldlM_nil, pure_eq_ok] at hreached
      rw [← hreached, hview.accounts, hrun]
  | @cons event again events agains hhead htail ih =>
    obtain ⟨next, hfirst, hrest⟩ := applyAll_cons.mp hrun
    have hstep : ∀ after, again.apply state other = .ok after →
        LeadsTo state after agains (accountOf final) := fun after hafter =>
      ih (hview.step hrename (hconfigured event List.mem_cons_self) hhead hfirst hafter)
        (fun later hlater => hconfigured later (List.mem_cons_of_mem _ hlater)) hrest
    constructor
    · intro done current rest hsplit reached hreached hdeposits
      cases done with
      | nil =>
        rw [applyAll, List.foldlM_nil, pure_eq_ok] at hreached
        rw [List.nil_append, List.cons.injEq] at hsplit
        rw [← hsplit.1, ← hreached] at hdeposits ⊢
        refine apply_again hhead hview.accounts (hview.otherKey.trans hview.key.symm) ?_ hdeposits
          hfirst
        rw [hhead.jobId]
        exact hview.applied event List.mem_cons_self
      | cons head done =>
        rw [List.cons_append, List.cons.injEq] at hsplit
        obtain ⟨after, hafter, hdone⟩ := applyAll_cons.mp hreached
        rw [← hsplit.1] at hafter
        exact (hstep after hafter).returns done current rest hsplit.2 reached hdone hdeposits
    · intro reached hreached
      obtain ⟨after, hafter, hdone⟩ := applyAll_cons.mp hreached
      exact (hstep after hafter).result reached hdone

/-- Configured events keep the configured outer key. -/
theorem outerPublicKey_of_applyAll (hconfigured : ∀ event ∈ events, Configured outerPublicKey event)
    (hkey : db.outerPublicKey = some outerPublicKey) (h : applyAll state db events = .ok after) :
    after.outerPublicKey = some outerPublicKey := by
  induction events generalizing db with
  | nil =>
    rw [applyAll, List.foldlM_nil, pure_eq_ok] at h
    rw [← h, hkey]
  | cons event rest ih =>
    obtain ⟨next, hfirst, hrest⟩ := applyAll_cons.mp h
    exact ih (fun later hlater => hconfigured later (List.mem_cons_of_mem _ hlater))
      (outerPublicKey_of_apply (hconfigured event List.mem_cons_self) hkey hfirst) hrest

end Views

/-- A rollback after a run of applications in block order leaves every account as the applications
at or below the ancestor made it. From any database with these accounts, the configured outer key
and the jobs applied at or below the ancestor, the events above it can be applied again, perhaps
for new job rows, and lead to the accounts before the rollback. -/
theorem rollback_undoes_application (state : AppState) {db middle after : Database}
    {events : List Application} {now : Timestamp} {ancestor : ℕ} {outerPublicKey : String}
    (hold : ∀ row ∈ db.accountHistory, row.ethereumBlockNumber ≤ ancestor)
    (hkey : db.outerPublicKey = some outerPublicKey)
    (hconfigured : ∀ event ∈ events, Configured outerPublicKey event)
    (hordered : InBlockOrder events) (hrun : applyAll state db events = .ok middle)
    (hrollback : rollbackAfter middle now ancestor = .ok after) :
    ∃ below, applyAll state db (atOrBelow ancestor events) = .ok below ∧
      accountOf after = accountOf below ∧
      ∀ (rename : Uuid → Uuid) (reopened : Database) (agains : List Application),
        Function.Injective rename → accountOf reopened = accountOf after →
        reopened.outerPublicKey = after.outerPublicKey →
        (∀ event ∈ strictlyAbove ancestor events,
          (Applied reopened (rename event.jobId) ↔ Applied below event.jobId)) →
        List.Forall₂ (Reapplies rename) (strictlyAbove ancestor events) agains →
          LeadsTo state reopened agains (accountOf middle) := by
  obtain ⟨below, hbelow, habove, haccounts⟩ := rollback_restores hold hordered hrun hrollback
  refine ⟨below, hbelow, haccounts, ?_⟩
  intro rename reopened agains hrename hreopened houter happlied hagains
  have hpart : ∀ {p : Application → Bool}, ∀ event ∈ events.filter p,
      Configured outerPublicKey event :=
    fun event hevent => hconfigured event (List.mem_of_mem_filter hevent)
  have hbelowKey := outerPublicKey_of_applyAll hpart hkey hbelow
  have hafterKey : after.outerPublicKey = some outerPublicKey := by
    rw [(rollbackAfter_tables hrollback).outerPublicKey]
    exact outerPublicKey_of_applyAll hpart hbelowKey habove
  have hview : SameView rename outerPublicKey (strictlyAbove ancestor events) below reopened :=
    ⟨hreopened.trans haccounts, hbelowKey, houter.trans hafterKey, happlied⟩
  exact leadsTo_of_sameView hrename hview hpart hagains habove

/-- A gateway with its two accounts and one deposit. -/
def twoAccounts : Database :=
  { emptyDatabase with
    outerPublicKey := some "B62outer"
    accounts := [⟨"B62outer", outerAccount, none, none⟩, ⟨"B62payer", ⟨none, none, some 0, none⟩, none, none⟩]
    deposits := [⟨⟨1, 0xd1, 0, 1, 99, 0xb099, 0xe1, 0⟩, false, none, none, none, none, none⟩] }

/-- A settlement in one block and a bridge transition in the next one. -/
def settledThenBridged : List Application :=
  [⟨1, .settlement, 1,
      ⟨false, none, none, some ⟨"B62outer", "B62payer", 0, none⟩, some ⟨some ⟨none, none, []⟩, none, none⟩,
        none, []⟩, settledReceipt 7 8, ⟨101, 0xb101, 0xabc⟩⟩,
    ⟨2, .bridge, 2, ⟨false, none, none, none, none, none, []⟩, bridgedReceipt 0 8 9,
      ⟨102, 0xb102, 0xdef⟩⟩]

/-- The rollback of the second block leaves the outer account of the settlement, and the bridge
transition can be applied again. -/
theorem rollback_undoes_application_bridged :
    ∃ middle after, applyAll replica twoAccounts settledThenBridged = .ok middle ∧
      rollbackAfter middle 3 101 = .ok after ∧
      (accountOf middle "B62outer").bind AccountJson.actionState = some [9, 8, 7, 7, 0] ∧
      (accountOf after "B62outer").bind AccountJson.actionState = some [8, 7, 7, 0, 0] ∧
      LeadsTo replica after (strictlyAbove 101 settledThenBridged) (accountOf middle) := by
  have hrun : ∃ middle ∈ (applyAll replica twoAccounts settledThenBridged).toOption,
      (accountOf middle "B62outer").bind AccountJson.actionState = some [9, 8, 7, 7, 0] ∧
      ∃ after ∈ (rollbackAfter middle 3 101).toOption,
        (accountOf after "B62outer").bind AccountJson.actionState = some [8, 7, 7, 0, 0] ∧
        ¬ Applied after 2 ∧ ∃ below ∈ (applyAll replica twoAccounts
          (atOrBelow 101 settledThenBridged)).toOption, ¬ Applied below 2 := by
    decide +kernel
  obtain ⟨middle, hmiddle, hstates, after, hafter, hstates', hfresh, below, hbelow, hfresh'⟩ := hrun
  rw [mem_toOption] at hmiddle hafter hbelow
  obtain ⟨actual, hactual, -, hagain⟩ := rollback_undoes_application replica
    (by simp [twoAccounts, emptyDatabase]) rfl (by decide) (by decide) hmiddle hafter
  rw [hbelow, Except.ok.injEq] at hactual
  subst hactual
  refine ⟨middle, after, hmiddle, hafter, hstates, hstates', ?_⟩
  refine hagain id after _ Function.injective_id rfl rfl ?_
    (List.forall₂_same.mpr fun event _ => ⟨rfl, rfl, rfl, rfl, rfl⟩)
  intro event hevent
  have hjob : event.jobId = 2 := by
    have hall : ∀ event ∈ strictlyAbove 101 settledThenBridged, event.jobId = 2 := by decide
    exact hall event hevent
  rw [hjob]
  exact iff_of_false hfresh hfresh'

end EthereumSettlement.RollbackRestores
