import EthereumSettlement.ConfirmedReceipts
import EthereumSettlement.UndoSnapshots
import Mathlib.Data.Prod.Lex

/-!
# Virtual accounts under applications

What a gateway keeps of Mina is a value for each public key. An application of a
confirmed receipt updates the outer account, and a settlement also the account of its
fee payer; every changed account has a snapshot of its value before the application.
Which application is possible, and what it makes of the accounts, depends on the
accounts, the configured outer key and whether the job was applied, and for a bridge
receipt on the deposits that it names.
-/

namespace EthereumSettlement.VirtualAccounts

open ByteWords CheckedCalls KeyedTables PastaPoseidon SettlementCodec SettlementDecoder BridgeCodec
open BridgeDecoder SettlementReceipt GatewayTables ConfirmedReceipts UndoSnapshots

/-- The `account_json` of a public key. -/
def accountOf (db : Database) (publicKey : String) : Option AccountJson :=
  (db.account? publicKey).map Account.account

/-- Rewrite the value of one key. -/
def updateAccount (accounts : String → Option AccountJson) (publicKey : String)
    (f : AccountJson → AccountJson) : String → Option AccountJson :=
  fun key => if key = publicKey then (accounts key).map f else accounts key

/-- What a settlement makes of the outer account. -/
def settleOuter (receipt : SettlementPublicValuesV1) (account : AccountJson) : AccountJson :=
  { account with
    zkappState := some (List.ofFn receipt.stateAfter.fields)
    actionState := some (receipt.outerActionStateAfter :: receipt.outerActionStateBefore ::
      (account.actionState.getD initialActionState).take 3)
    provedState := some true }

/-- What a bridge transition makes of the outer account. -/
def appendActions (states : List Bytes32) (account : AccountJson) : AccountJson :=
  { account with
    actionState := some ((states.reverse ++ account.actionState.getD initialActionState).take 5) }

/-- What a settlement makes of the account of its fee payer. -/
def advanceNonce (account : AccountJson) : AccountJson :=
  { account with nonce := some (account.nonce.getD 0 + 1) }

section Accounts

variable {db after : Database} {now : Timestamp} {jobId : Uuid} {inclusion : Inclusion}
variable {publicKey key : String} {row : Account}

/-- A row found by its key has that key. -/
theorem publicKey_of_account (h : db.account? publicKey = some row) :
    row.publicKey = publicKey := by
  unfold Database.account? at h
  have hfound := List.find?_some h
  exact of_decide_eq_true hfound

/-- The value of a key is the value of its row. -/
theorem accountOf_of_row (h : db.account? publicKey = some row) :
    accountOf db publicKey = some row.account := by
  rw [accountOf, h, Option.map_some]

/-- A stored key has a row. -/
theorem exists_row {account : AccountJson} (h : accountOf db publicKey = some account) :
    ∃ row, db.account? publicKey = some row ∧ row.account = account :=
  Option.map_eq_some_iff.mp h

/-- A rewriting that keeps the keys of rows finds the rewritten row. -/
theorem find?_updateWhere {rows : List Account} {f : Account → Account}
    (hkey : ∀ row, (f row).publicKey = row.publicKey) :
    (updateWhere (fun row => row.publicKey = publicKey) f rows).find?
        (fun row => decide (row.publicKey = key)) =
      if key = publicKey then (rows.find? fun row => decide (row.publicKey = key)).map f
      else rows.find? fun row => decide (row.publicKey = key) := by
  induction rows with
  | nil => simp [updateWhere]
  | cons row rest ih =>
    have hsame : (if row.publicKey = publicKey then f row else row).publicKey = row.publicKey := by
      split
      · exact hkey row
      · rfl
    simp only [updateWhere, List.map_cons, List.find?_cons] at ih ⊢
    rw [hsame, ih]
    by_cases hrow : row.publicKey = key
    · rw [decide_eq_true hrow]
      by_cases heq : key = publicKey
      · rw [if_pos (hrow.trans heq), if_pos heq, if_pos heq]
        rfl
      · rw [if_neg fun h => heq (hrow.symm.trans h), if_neg heq, if_neg heq]
    · rw [decide_eq_false hrow]

/-- A stored account. -/
theorem accountOf_storeAccount {account : AccountJson} :
    accountOf (storeAccount db publicKey account inclusion) =
      updateAccount (accountOf db) publicKey fun _ => account := by
  funext key
  simp only [accountOf, Database.account?, storeAccount, updateAccount]
  rw [find?_updateWhere (f := fun row => { row with
    account := account
    ethereumBlockNumber := some inclusion.blockNumber
    ethereumBlockHash := some inclusion.blockHash }) (fun _ => rfl)]
  by_cases heq : key = publicKey
  · rw [if_pos heq, if_pos heq, Option.map_map, Option.map_map]
    rfl
  · rw [if_neg heq, if_neg heq]

/-- A snapshot changes no account. -/
theorem accounts_snapshotAccount :
    (snapshotAccount db now jobId row inclusion).accounts = db.accounts := by
  unfold snapshotAccount
  split <;> rfl

/-- A snapshot and a stored account rewrite one key. -/
theorem accountOf_write {f : AccountJson → AccountJson} (h : db.account? publicKey = some row) :
    accountOf (storeAccount (snapshotAccount db now jobId row inclusion) publicKey (f row.account)
        inclusion) = updateAccount (accountOf db) publicKey f := by
  rw [accountOf_storeAccount]
  have hsame : accountOf (snapshotAccount db now jobId row inclusion) = accountOf db := by
    funext key
    simp only [accountOf, Database.account?, accounts_snapshotAccount]
  rw [hsame]
  funext key
  simp only [updateAccount]
  by_cases heq : key = publicKey
  · rw [if_pos heq, if_pos heq, heq, accountOf_of_row h]
    rfl
  · rw [if_neg heq, if_neg heq]

end Accounts

/-- The stamp of a block and a transaction time. -/
def stampOf (blockNumber : ℕ) (time : Timestamp) : ℕ ×ₗ ℕ := toLex (blockNumber, time)

/-- A row of the account history as a snapshot. -/
def snapshotOf (history : AccountHistory) : Snapshot String AccountJson (ℕ ×ₗ ℕ) :=
  ⟨history.publicKey, history.accountBefore, stampOf history.ethereumBlockNumber history.createdAt⟩

/-- The snapshots that the gateway keeps. -/
def snapshots (db : Database) : List (Snapshot String AccountJson (ℕ ×ₗ ℕ)) :=
  db.accountHistory.map snapshotOf

/-- The accounts written so far by one application, each with a snapshot of its value before. -/
structure Touched (db after : Database) (now : Timestamp) (jobId : Uuid) (inclusion : Inclusion)
    (fresh : List AccountHistory) : Prop where
  /-- The snapshots are appended. -/
  history : after.accountHistory = db.accountHistory ++ fresh
  /-- Each is of the job. -/
  job : ∀ row ∈ fresh, row.jobId = jobId
  /-- Each has the block and the time of the application. -/
  stamped : ∀ row ∈ fresh, row.ethereumBlockNumber = inclusion.blockNumber ∧ row.createdAt = now
  /-- Each has the old document. -/
  before : ∀ row ∈ fresh, accountOf db row.publicKey = some row.accountBefore
  /-- No account appears or disappears. -/
  stored : ∀ key, (accountOf after key).isSome = (accountOf db key).isSome
  /-- An account without a snapshot keeps its document. -/
  unchanged : ∀ key, (∀ row ∈ fresh, row.publicKey ≠ key) → accountOf after key = accountOf db key

section Touches

variable {db middle after : Database} {now : Timestamp} {jobId : Uuid} {inclusion : Inclusion}
variable {publicKey : String} {row : Account} {fresh : List AccountHistory}

/-- An application starts with nothing written. -/
theorem Touched.start (haccounts : after.accounts = db.accounts)
    (hhistory : after.accountHistory = db.accountHistory) : Touched db after now jobId inclusion [] where
  history := by rw [hhistory, List.append_nil]
  job := fun _ h => absurd h List.not_mem_nil
  stamped := fun _ h => absurd h List.not_mem_nil
  before := fun _ h => absurd h List.not_mem_nil
  stored := fun key => by simp only [accountOf, Database.account?, haccounts]
  unchanged := fun key _ => by simp only [accountOf, Database.account?, haccounts]

/-- A rewriting of one key keeps which keys are stored. -/
theorem updateAccount_isSome {accounts : String → Option AccountJson} {f : AccountJson → AccountJson}
    {key : String} : (updateAccount accounts publicKey f key).isSome = (accounts key).isSome := by
  unfold updateAccount
  split
  · exact Option.isSome_map
  · rfl

/-- The next account that an application writes has a snapshot, unless the application has
written it before. -/
theorem Touched.write (hfresh : ¬ Applied db jobId) (h : Touched db middle now jobId inclusion fresh)
    (hrow : middle.account? publicKey = some row) {f : AccountJson → AccountJson} :
    ∃ further, Touched db (storeAccount (snapshotAccount middle now jobId row inclusion) publicKey
      (f row.account) inclusion) now jobId inclusion further := by
  have hkey := publicKey_of_account hrow
  have haccounts : accountOf (storeAccount (snapshotAccount middle now jobId row inclusion) publicKey
      (f row.account) inclusion) = updateAccount (accountOf middle) publicKey f :=
    accountOf_write hrow
  by_cases hseen : ∃ history ∈ middle.accountHistory,
      history.jobId = jobId ∧ history.publicKey = row.publicKey
  · -- The snapshot is the one that this application has taken before.
    have hrows : (storeAccount (snapshotAccount middle now jobId row inclusion) publicKey
        (f row.account) inclusion).accountHistory = middle.accountHistory := by
      simp only [storeAccount, snapshotAccount, if_pos hseen]
    obtain ⟨history, hmem, hjob, hhistory⟩ := hseen
    rw [h.history] at hmem
    have hin : history ∈ fresh := by
      rcases List.mem_append.mp hmem with hold | hnew
      · exact absurd ⟨history, hold, hjob⟩ hfresh
      · exact hnew
    refine ⟨fresh, hrows.trans h.history, h.job, h.stamped, h.before, fun key => ?_, fun key hnone => ?_⟩
    · rw [haccounts, updateAccount_isSome, h.stored]
    · have hne : key ≠ publicKey := by
        intro heq
        exact hnone history hin (by rw [hhistory, hkey, heq])
      rw [haccounts, updateAccount, if_neg hne, h.unchanged key hnone]
  · have hrows : (storeAccount (snapshotAccount middle now jobId row inclusion) publicKey
        (f row.account) inclusion).accountHistory = middle.accountHistory ++
          [⟨jobId, row.publicKey, row.account, inclusion.blockNumber, inclusion.blockHash, now⟩] := by
      simp only [storeAccount, snapshotAccount, if_neg hseen]
    have huntouched : ∀ history ∈ fresh, history.publicKey ≠ publicKey := by
      intro history hin heq
      refine hseen ⟨history, ?_, h.job history hin, heq.trans hkey.symm⟩
      rw [h.history]
      exact List.mem_append_right _ hin
    refine ⟨fresh ++ [⟨jobId, row.publicKey, row.account, inclusion.blockNumber,
      inclusion.blockHash, now⟩], ?_, ?_, ?_, ?_, fun key => ?_, fun key hnone => ?_⟩
    · rw [hrows, h.history, List.append_assoc]
    · intro history hin
      rcases List.mem_append.mp hin with hold | hnew
      · exact h.job history hold
      · rw [List.mem_singleton.mp hnew]
    · intro history hin
      rcases List.mem_append.mp hin with hold | hnew
      · exact h.stamped history hold
      · rw [List.mem_singleton.mp hnew]
        exact ⟨rfl, rfl⟩
    · intro history hin
      rcases List.mem_append.mp hin with hold | hnew
      · exact h.before history hold
      · rw [List.mem_singleton.mp hnew, hkey, ← h.unchanged publicKey huntouched]
        exact accountOf_of_row hrow
    · rw [haccounts, updateAccount_isSome, h.stored]
    · have hne : key ≠ publicKey := by
        intro heq
        refine hnone _ (List.mem_append_right _ List.mem_cons_self) ?_
        rw [hkey, heq]
      rw [haccounts, updateAccount, if_neg hne]
      exact h.unchanged key fun history hin => hnone history (List.mem_append_left _ hin)

/-- A finished application is a recorded write, later than every snapshot before it. -/
theorem Touched.recorded (h : Touched db after now jobId inclusion fresh)
    (hlater : ∀ row ∈ db.accountHistory, stampOf row.ethereumBlockNumber row.createdAt <
      stampOf inclusion.blockNumber now) :
    Recorded (snapshots db) (accountOf db) (fresh.map snapshotOf) (accountOf after)
      (stampOf inclusion.blockNumber now) where
  later := by
    intro snapshot hsnapshot
    obtain ⟨row, hrow, rfl⟩ := List.mem_map.mp hsnapshot
    exact hlater row hrow
  stamped := by
    intro snapshot hsnapshot
    obtain ⟨row, hrow, rfl⟩ := List.mem_map.mp hsnapshot
    obtain ⟨hblock, htime⟩ := h.stamped row hrow
    rw [snapshotOf, hblock, htime]
  before := by
    intro snapshot hsnapshot
    obtain ⟨row, hrow, rfl⟩ := List.mem_map.mp hsnapshot
    exact h.before row hrow
  stored := h.stored
  unchanged := by
    intro key hnone
    refine h.unchanged key fun row hrow => ?_
    exact hnone (snapshotOf row) (List.mem_map_of_mem hrow)

end Touches

/-- One call of `apply_confirmed_settlement` or `apply_confirmed_bridge`. -/
structure Application where
  /-- When it is applied. -/
  now : Timestamp
  /-- Settlement or bridge transition. -/
  kind : ProofKind
  /-- The job it belongs to. -/
  jobId : Uuid
  /-- Input document of the job. -/
  input : JobInput
  /-- Public values of the proof. -/
  publicValues : Bytes
  /-- Where the receipt was confirmed. -/
  inclusion : Inclusion

namespace Application

/-- The call. -/
def apply (state : AppState) (db : Database) (application : Application) :
    Except GatewayError Database :=
  applyConfirmed state db application.now application.kind application.jobId application.input
    application.publicValues application.inclusion

/-- A settlement without the metadata of a submission changes no account. -/
def ChangesAccounts (application : Application) : Prop :=
  application.kind = .settlement → application.input.submission.isSome

instance (application : Application) : Decidable application.ChangesAccounts :=
  inferInstanceAs (Decidable (_ → _))

/-- What the first application of a job makes of the accounts. -/
def accounts (application : Application) (outerPublicKey : Option String)
    (accounts : String → Option AccountJson) : String → Option AccountJson :=
  match application.kind with
  | .settlement =>
    match SettlementPublicValues.decode application.publicValues, application.input.submission with
    | .ok decoded, some submission =>
      updateAccount (updateAccount accounts submission.outerAccountPublicKey
        (settleOuter decoded.settlement)) submission.feePayerPublicKey advanceNonce
    | _, _ => accounts
  | .bridge =>
    match BridgeTransitionPublicValuesV2.decode application.publicValues, outerPublicKey with
    | .ok decoded, some publicKey =>
      updateAccount accounts publicKey
        (appendActions (decoded.actions.map BridgeOuterActionV2.stateAfter))
    | _, _ => accounts

/-- The deposits that a bridge receipt names can be assigned to its job. -/
def DepositsMap (db : Database) (application : Application) : Prop :=
  application.kind = .bridge → ∀ decoded,
    BridgeTransitionPublicValuesV2.decode application.publicValues = .ok decoded →
      ∃ assigned, decoded.actions.zipIdx.foldlM (assignDeposit application.jobId decoded) db =
        .ok assigned

end Application

/-- What an application leaves behind: the accounts, their snapshots, the configured outer key and
which jobs were applied. -/
structure Effect (db after : Database) (application : Application) : Prop where
  /-- A first application writes the accounts, a second one nothing. -/
  accounts : accountOf after =
    if Applied db application.jobId then accountOf db
    else application.accounts db.outerPublicKey (accountOf db)
  /-- Every write leaves a snapshot. -/
  touched : ∃ fresh, Touched db after application.now application.jobId application.inclusion fresh
  /-- A settlement may configure the outer key. -/
  outerPublicKey : after.outerPublicKey = db.outerPublicKey ∨ ∃ submission,
    application.input.submission = some submission ∧ application.kind = .settlement ∧
      after.outerPublicKey = some submission.outerAccountPublicKey
  /-- The job counts as applied once it has written accounts. -/
  applied : ∀ jobId, Applied after jobId ↔
    Applied db jobId ∨ (jobId = application.jobId ∧ application.ChangesAccounts)

/-- The accounts, their history and the configured outer key are unchanged. -/
structure AccountsKept (db after : Database) : Prop where
  /-- The accounts are unchanged. -/
  accounts : after.accounts = db.accounts
  /-- Their history is unchanged. -/
  history : after.accountHistory = db.accountHistory
  /-- The configured key is unchanged. -/
  outerPublicKey : after.outerPublicKey = db.outerPublicKey

namespace AccountsKept

variable {db after later : Database}

/-- An unchanged database keeps its accounts. -/
theorem refl (db : Database) : AccountsKept db db := ⟨rfl, rfl, rfl⟩

/-- Kept accounts stay kept. -/
theorem trans (first : AccountsKept db after) (second : AccountsKept after later) :
    AccountsKept db later where
  accounts := second.accounts.trans first.accounts
  history := second.history.trans first.history
  outerPublicKey := second.outerPublicKey.trans first.outerPublicKey

/-- The value of every key is kept. -/
theorem accountOf_eq (h : AccountsKept db after) : accountOf after = accountOf db := by
  funext key
  simp only [accountOf, Database.account?, h.accounts]

/-- The applied jobs are kept. -/
theorem applied_iff (h : AccountsKept db after) {jobId : Uuid} :
    Applied after jobId ↔ Applied db jobId := by
  rw [Applied, Applied, h.history]

/-- What an application has written is kept. -/
theorem touched {start : Database} {now : Timestamp} {jobId : Uuid} {inclusion : Inclusion}
    {fresh : List AccountHistory} (h : AccountsKept db after)
    (htouched : Touched start db now jobId inclusion fresh) :
    Touched start after now jobId inclusion fresh where
  history := h.history.trans htouched.history
  job := htouched.job
  stamped := htouched.stamped
  before := htouched.before
  stored := fun key => by rw [h.accountOf_eq, htouched.stored]
  unchanged := fun key hnone => by rw [h.accountOf_eq, htouched.unchanged key hnone]

end AccountsKept

section Effects

variable {state : AppState} {db after : Database} {now : Timestamp} {jobId : Uuid}
variable {inclusion : Inclusion} {publicKey : String}

/-- A liftable decoding is a decoding. -/
theorem liftCodec_eq_ok {α : Type} {result : Except String α} {value : α} :
    liftCodec result = .ok value ↔ result = .ok value := by
  cases result <;> simp [liftCodec, Except.mapError]

/-- The outer account of a settlement exists and is rewritten. -/
theorem updateOuterAccount_eq_ok {receipt : SettlementPublicValuesV1} :
    updateOuterAccount db now jobId publicKey receipt inclusion = .ok after ↔
      ∃ row, db.account? publicKey = some row ∧
        storeAccount (snapshotAccount db now jobId row inclusion) publicKey
          (settleOuter receipt row.account) inclusion = after := by
  simp only [updateOuterAccount, bind_eq_ok, requireSome_eq_ok, pure_eq_ok]
  rfl

/-- The outer account of a bridge transition shows the state before it and is rewritten. -/
theorem updateOuterAccountActions_eq_ok {before : Bytes32} {states : List Bytes32} :
    updateOuterAccountActions db now jobId publicKey before states inclusion = .ok after ↔
      ∃ row, db.account? publicKey = some row ∧
        (row.account.actionState.getD initialActionState).head? = some before ∧
        storeAccount (snapshotAccount db now jobId row inclusion) publicKey
          (appendActions states row.account) inclusion = after := by
  simp only [updateOuterAccountActions, bind_eq_ok, requireSome_eq_ok, require_eq_ok, exists_const,
    pure_eq_ok]
  rfl

/-- The account of the fee payer has the expected nonce and is rewritten. -/
theorem updateFeePayer_eq_ok {nonce : ℕ} :
    updateFeePayer db now jobId publicKey nonce inclusion = .ok after ↔
      ∃ row, db.account? publicKey = some row ∧ row.account.nonce.getD 0 = nonce ∧
        row.account.nonce.getD 0 + 1 < 2 ^ 64 ∧
        storeAccount (snapshotAccount db now jobId row inclusion) publicKey
          (advanceNonce row.account) inclusion = after := by
  simp only [updateFeePayer, bind_eq_ok, requireSome_eq_ok, require_eq_ok, exists_const, pure_eq_ok]
  rfl

/-- An action row keeps the accounts. -/
theorem upsertAction_kept {action : ActionRow} {f : ActionRow → ActionRow} :
    AccountsKept db (upsertAction db action f) := by
  unfold upsertAction
  dsimp only
  split
  · exact ⟨rfl, rfl, rfl⟩
  · exact ⟨rfl, rfl, rfl⟩

/-- Deleted pending commands keep the accounts. -/
theorem deletePending_kept {p : PendingCommand → Prop} [DecidablePred p] :
    AccountsKept db (db.deletePending p) := ⟨rfl, rfl, rfl⟩

/-- A snapshot and a stored account keep the configured outer key. -/
theorem outerPublicKey_write {row : Account} {json : AccountJson} :
    (storeAccount (snapshotAccount db now jobId row inclusion) publicKey json
      inclusion).outerPublicKey = db.outerPublicKey := by
  unfold storeAccount snapshotAccount
  split <;> rfl

/-- Stored inner actions keep the accounts. -/
theorem storeInnerActions_kept {input : JobInput} {decoded : SettlementPublicValues}
    (h : storeInnerActions state db input decoded inclusion = .ok after) : AccountsKept db after := by
  unfold storeInnerActions at h
  split at h
  · rw [pure_eq_ok] at h
    rw [← h]
    exact AccountsKept.refl db
  · simp only [bind_eq_ok, pure_eq_ok] at h
    obtain ⟨-, -, -, -, rfl⟩ := h
    exact ⟨rfl, rfl, rfl⟩

/-- The assignment of deposits keeps the accounts. -/
theorem assignDeposits_kept {decoded : BridgeTransitionPublicValuesV2}
    {entries : List (BridgeOuterActionV2 × ℕ)}
    (h : entries.foldlM (assignDeposit jobId decoded) db = .ok after) : AccountsKept db after := by
  refine foldlM_related AccountsKept.refl AccountsKept.trans
    (fun start entry result hentry => ?_) _ h
  simp only [assignDeposit, bind_eq_ok, require_eq_ok, exists_const, pure_eq_ok] at hentry
  obtain ⟨-, -, -, -, -, rfl⟩ := hentry
  exact ⟨rfl, rfl, rfl⟩

/-- A snapshot marks its job as applied, and no other. -/
theorem applied_write {row : Account} {json : AccountJson} {other : Uuid} :
    Applied (storeAccount (snapshotAccount db now jobId row inclusion) publicKey json inclusion)
      other ↔ Applied db other ∨ other = jobId := by
  by_cases hseen : ∃ history ∈ db.accountHistory,
      history.jobId = jobId ∧ history.publicKey = row.publicKey
  · simp only [Applied, storeAccount, snapshotAccount, if_pos hseen]
    constructor
    · exact Or.inl
    · rintro (h | rfl)
      · exact h
      · obtain ⟨history, hmem, hjob, -⟩ := hseen
        exact ⟨history, hmem, hjob⟩
  · simp only [Applied, storeAccount, snapshotAccount, if_neg hseen, List.mem_append,
      List.mem_singleton]
    constructor
    · rintro ⟨history, hold | rfl, hjob⟩
      · exact Or.inl ⟨history, hold, hjob⟩
      · exact Or.inr hjob.symm
    · rintro (⟨history, hold, hjob⟩ | rfl)
      · exact ⟨history, Or.inl hold, hjob⟩
      · exact ⟨_, Or.inr rfl, rfl⟩

/-- An application that only writes other tables has no effect on the accounts. -/
theorem Effect.of_kept {application : Application} (h : AccountsKept db after)
    (hskip : Applied db application.jobId ∨
      (¬ application.ChangesAccounts ∧
        application.accounts db.outerPublicKey (accountOf db) = accountOf db)) :
    Effect db after application where
  accounts := by
    rw [h.accountOf_eq]
    rcases hskip with happlied | ⟨-, hsame⟩
    · rw [if_pos happlied]
    · rw [hsame, ite_self]
  touched := ⟨[], Touched.start h.accounts h.history⟩
  outerPublicKey := Or.inl h.outerPublicKey
  applied := by
    intro jobId
    rw [h.applied_iff]
    constructor
    · exact Or.inl
    · rintro (happlied | ⟨rfl, hchanges⟩)
      · exact happlied
      · rcases hskip with happlied | ⟨hnone, -⟩
        · exact happlied
        · exact absurd hchanges hnone

/-- What a settlement leaves behind. -/
theorem settlement_effect {input : JobInput} {publicValues : Bytes}
    (h : applyConfirmedSettlement state db now jobId input publicValues inclusion = .ok after) :
    Effect db after ⟨now, .settlement, jobId, input, publicValues, inclusion⟩ := by
  simp only [applyConfirmedSettlement, bind_eq_ok, liftCodec_eq_ok] at h
  obtain ⟨decoded, hdecode, sequence, -, h⟩ := h
  split at h
  · rename_i happlied
    rw [pure_eq_ok] at h
    rw [← h]
    exact Effect.of_kept ⟨rfl, rfl, rfl⟩ (Or.inl happlied)
  · rename_i hfresh
    have hfresh' : ¬ Applied db jobId := hfresh
    split at h
    · rename_i hnone
      rw [pure_eq_ok] at h
      rw [← h]
      refine Effect.of_kept ⟨rfl, rfl, rfl⟩ (Or.inr ⟨?_, ?_⟩)
      · simp [Application.ChangesAccounts, hnone]
      · simp only [Application.accounts, hdecode, hnone]
    · rename_i submission hsubmission
      simp only [bind_eq_ok, updateOuterAccount_eq_ok, updateFeePayer_eq_ok] at h
      obtain ⟨actions, -, _, ⟨outer, houter, rfl⟩, _, ⟨payer, hpayer, -, -, rfl⟩, hstore⟩ := h
      have hkept := upsertAction_kept.trans
        (deletePending_kept.trans (storeInnerActions_kept hstore))
      have hstart : Touched db { db with
          deposits := updateWhere (Synchronizes decoded.settlement)
            (fun row => { row with
              synchronizedSettlementJobId := some jobId
              synchronizedSettlementSequence := some decoded.settlement.batchSequence.toNat })
            db.deposits
          outerPublicKey := some submission.outerAccountPublicKey } now jobId inclusion [] :=
        Touched.start rfl rfl
      obtain ⟨first, hfirst⟩ := hstart.write hfresh' houter (f := settleOuter decoded.settlement)
      obtain ⟨second, hsecond⟩ := hfirst.write hfresh' hpayer (f := advanceNonce)
      constructor
      · rw [hkept.accountOf_eq, accountOf_write hpayer, accountOf_write houter, if_neg hfresh']
        simp only [Application.accounts, hdecode, hsubmission]
        rfl
      · exact ⟨second, hkept.touched hsecond⟩
      · refine Or.inr ⟨submission, hsubmission, rfl, hkept.outerPublicKey.trans ?_⟩
        rw [outerPublicKey_write, outerPublicKey_write]
      · intro other
        rw [hkept.applied_iff, applied_write, applied_write]
        have hchanges : Application.ChangesAccounts
            ⟨now, .settlement, jobId, input, publicValues, inclusion⟩ := by
          intro _
          rw [hsubmission]
          rfl
        constructor
        · rintro ((hold | hnew) | hnew)
          · exact Or.inl hold
          · exact Or.inr ⟨hnew, hchanges⟩
          · exact Or.inr ⟨hnew, hchanges⟩
        · rintro (hold | ⟨hnew, -⟩)
          · exact Or.inl (Or.inl hold)
          · exact Or.inr hnew

/-- What a bridge transition leaves behind. -/
theorem bridge_effect {input : JobInput} {publicValues : Bytes}
    (h : applyConfirmedBridge db now jobId publicValues inclusion = .ok after) :
    Effect db after ⟨now, .bridge, jobId, input, publicValues, inclusion⟩ := by
  simp only [applyConfirmedBridge, bind_eq_ok, require_eq_ok, exists_const, liftCodec_eq_ok] at h
  obtain ⟨decoded, hdecode, -, -, -, -, assigned, hassigned, h⟩ := h
  have hassign := assignDeposits_kept hassigned
  split at h
  · rename_i happlied
    rw [pure_eq_ok] at h
    rw [← h]
    exact Effect.of_kept hassign (Or.inl (hassign.applied_iff.mp happlied))
  · rename_i hfresh
    have hfresh' : ¬ Applied db jobId := fun happlied => hfresh (hassign.applied_iff.mpr happlied)
    simp only [bind_eq_ok, requireSome_eq_ok, pure_eq_ok, updateOuterAccountActions_eq_ok] at h
    obtain ⟨publicKey, hkey, _, ⟨outer, houter, -, rfl⟩, rfl⟩ := h
    have hkept := foldl_related AccountsKept.refl AccountsKept.trans
      (fun db action => upsertAction_kept)
      (bridgeActionRows publicKey decoded inclusion decoded.zekoActionStateBefore
        decoded.actions.zipIdx)
      (storeAccount (snapshotAccount assigned now jobId outer inclusion) publicKey
        (appendActions (decoded.actions.map BridgeOuterActionV2.stateAfter) outer.account) inclusion)
      (f := fun db action => upsertAction db action fun row => { action with address := row.address })
    have hstart : Touched db assigned now jobId inclusion [] :=
      Touched.start hassign.accounts hassign.history
    obtain ⟨fresh, htouched⟩ := hstart.write hfresh' houter
      (f := appendActions (decoded.actions.map BridgeOuterActionV2.stateAfter))
    constructor
    · rw [hkept.accountOf_eq, accountOf_write houter, hassign.accountOf_eq, if_neg hfresh']
      simp only [Application.accounts, hdecode, ← hassign.outerPublicKey, hkey]
    · exact ⟨fresh, hkept.touched htouched⟩
    · refine Or.inl (hkept.outerPublicKey.trans ?_)
      rw [outerPublicKey_write, hassign.outerPublicKey]
    · intro other
      rw [hkept.applied_iff, applied_write, hassign.applied_iff]
      have hchanges : Application.ChangesAccounts
          ⟨now, .bridge, jobId, input, publicValues, inclusion⟩ := by
        intro hkind
        exact absurd hkind (by simp)
      exact or_congr_right ⟨fun h => ⟨h, hchanges⟩, fun h => h.1⟩

/-- What an application leaves behind. -/
theorem apply_effect {application : Application} (h : application.apply state db = .ok after) :
    Effect db after application := by
  obtain ⟨now, kind, jobId, input, publicValues, inclusion⟩ := application
  cases kind with
  | settlement => exact settlement_effect h
  | bridge => exact bridge_effect h

end Effects

end EthereumSettlement.VirtualAccounts
