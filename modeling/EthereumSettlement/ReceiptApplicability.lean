import EthereumSettlement.ChainRecords

/-!
# When a finalized bridge receipt applies

A bridge receipt claims the deposits of its range for its job. Deposit nonces are
distinct in every reachable state, so once the deposits are indexed and the receipt
before it was applied, the receipt applies exactly when no deposit of its range
carries the claim of another job. Queueing a batch takes such claims, and neither
the failure, the cancellation nor the reversal of its job gives them back: a receipt
of anyone else over the same deposits is then refused.
-/

namespace EthereumSettlement.ReceiptApplicability

open ByteWords CheckedCalls KeyedTables TransitionRuns BridgeCodec BridgeDecoder
open GatewayTables ConfirmedReceipts VirtualAccounts GatewayIndexer IndexerMoves GatewayRuns
open GatewayChanges ChainRecords

/-- The nonces of the stored deposits. -/
def nonces (logs : List (BridgeDepositLog × Bool)) : List ℕ := logs.map fun entry => entry.1.nonce

/-- Deposit nonces are distinct and fit their column. -/
structure Numbered (db : Database) : Prop where
  /-- No two deposits have one nonce. -/
  distinct : (nonces (depositLogs db)).Nodup
  /-- Every nonce fits its column. -/
  bounded : ∀ nonce ∈ nonces (depositLogs db), nonce < 2 ^ 63

section Nonces

variable {state : AppState} {s next : GatewayState} {db after : Database}

/-- A log stored under its nonce adds the nonce if it is new. -/
theorem nonces_upsertLog (stored : List (BridgeDepositLog × Bool)) (log : BridgeDepositLog) :
    nonces (upsertLog stored log) = nonces stored ∨
      (log.nonce ∉ nonces stored ∧ nonces (upsertLog stored log) = nonces stored ++ [log.nonce]) := by
  unfold upsertLog
  by_cases hknown : ∃ entry ∈ stored, entry.1.nonce = log.nonce
  · rw [if_pos hknown]
    exact Or.inl (map_updateWhere fun entry hentry => hentry.symm)
  · rw [if_neg hknown]
    refine Or.inr ⟨?_, List.map_append⟩
    intro hmem
    obtain ⟨entry, hentry, hnonce⟩ := List.mem_map.mp hmem
    exact hknown ⟨entry, hentry, hnonce⟩

/-- Stored logs keep the nonces distinct and within their column. -/
theorem numbered_foldl (logs : List BridgeDepositLog) (stored : List (BridgeDepositLog × Bool))
    (hfits : ∀ log ∈ logs, log.nonce < 2 ^ 63) (hdistinct : (nonces stored).Nodup)
    (hbounded : ∀ nonce ∈ nonces stored, nonce < 2 ^ 63) :
    (nonces (logs.foldl upsertLog stored)).Nodup ∧
      ∀ nonce ∈ nonces (logs.foldl upsertLog stored), nonce < 2 ^ 63 := by
  induction logs generalizing stored with
  | nil => exact ⟨hdistinct, hbounded⟩
  | cons log logs ih =>
    rw [List.foldl_cons]
    have hlog := hfits log List.mem_cons_self
    have hrest : ∀ other ∈ logs, other.nonce < 2 ^ 63 :=
      fun other hother => hfits other (List.mem_cons_of_mem _ hother)
    rcases nonces_upsertLog stored log with hsame | ⟨hnew, hadded⟩
    · exact ih _ hrest (hsame ▸ hdistinct) (hsame ▸ hbounded)
    · refine ih _ hrest ?_ ?_
      · rw [hadded, ← List.concat_eq_append]
        exact hdistinct.concat hnew
      · intro nonce hnonce
        rw [hadded] at hnonce
        rcases List.mem_append.mp hnonce with hold | hlast
        · exact hbounded nonce hold
        · rw [List.mem_singleton.mp hlast]
          exact hlog

/-- A step that keeps the nonces keeps them distinct. -/
theorem numbered_of_nonces (h : Numbered db)
    (hsame : nonces (depositLogs after) = nonces (depositLogs db)) : Numbered after :=
  ⟨hsame ▸ h.distinct, hsame ▸ h.bounded⟩

/-- Every action keeps deposit nonces distinct. -/
theorem numbered_step {action : Action} (hnumbered : Numbered s.db)
    (h : step state s action = .ok next) : Numbered next.db := by
  by_cases hwrites : WritesChain action
  · unfold WritesChain at hwrites
    split at hwrites
    · obtain ⟨later, hmove⟩ := tickMove_of_step h
      generalize s.indexers _ = stage at hmove
      cases hmove with
      | rolledBack _ _ hrollback =>
        refine numbered_of_nonces hnumbered ?_
        rw [(rollbackAfter_chain hrollback).2, nonces, List.map_map]
        rfl
    · obtain ⟨later, hmove⟩ := tickMove_of_step h
      generalize s.indexers _ = stage at hmove
      cases hmove with
      | indexed _ hindex =>
        obtain ⟨-, hfits, -, hlogs⟩ := indexBridgeDeposits_eq_ok hindex
        have hfold := numbered_foldl _ _ hfits hnumbered.distinct hnumbered.bounded
        rw [← hlogs] at hfold
        exact ⟨hfold.1, hfold.2⟩
    · obtain ⟨later, hmove⟩ := tickMove_of_step h
      generalize s.indexers _ = stage at hmove
      generalize next.db = after at hmove
      cases hmove
      exact ⟨hnumbered.distinct, hnumbered.bounded⟩
    · exact absurd hwrites id
  · refine numbered_of_nonces hnumbered ?_
    rw [(chainKept_of_step hwrites h).logs]

/-- Deposit nonces are distinct in every reachable state. -/
theorem numbered_run (state : AppState) (actions : List Action) :
    Numbered (run (step state) start actions).db := by
  refine run_invariant (I := fun s => Numbered s.db)
    (fun s action next hnumbered h => numbered_step hnumbered h) ?_ actions
  exact ⟨List.nodup_nil, fun nonce hnonce => absurd hnonce List.not_mem_nil⟩

end Nonces

/-- The deposit has the nonce, is canonical, and is free or claimed by the job. -/
def Assignable (jobId : Uuid) (nonce : ℕ) (row : BridgeDepositRow) : Prop :=
  row.log.nonce = nonce ∧ row.removed = false ∧
    (row.bridgeJobId = none ∨ row.bridgeJobId = some jobId)

instance (jobId : Uuid) (nonce : ℕ) (row : BridgeDepositRow) :
    Decidable (Assignable jobId nonce row) :=
  inferInstanceAs (Decidable (_ ∧ _))

section Claims

variable {db : Database} {jobId : Uuid} {decoded : BridgeTransitionPublicValuesV2}

/-- The deposit with the claim of the job for one action. -/
def claimed (jobId : Uuid) (decoded : BridgeTransitionPublicValuesV2)
    (entry : BridgeOuterActionV2 × ℕ) (row : BridgeDepositRow) : BridgeDepositRow :=
  { row with
    bridgeJobId := some jobId
    outerActionSequence := some (decoded.zekoActionStateLengthBefore.toNat + entry.2 + 1)
    outerActionStateAfter := some entry.1.stateAfter }

/-- The checks of the assignment of one action that do not read the deposits. -/
def Numberable (decoded : BridgeTransitionPublicValuesV2) (offset : ℕ) : Prop :=
  decoded.ethereumNonceBefore.toNat + offset + 1 < 2 ^ 63 ∧
    decoded.zekoActionStateLengthBefore.toNat + offset + 1 < 2 ^ 32

/-- An action is assigned exactly when one deposit is assignable under its nonce. -/
theorem assignDeposit_eq_ok {entry : BridgeOuterActionV2 × ℕ} {after : Database} :
    assignDeposit jobId decoded db entry = .ok after ↔ Numberable decoded entry.2 ∧
      affected (Assignable jobId (decoded.ethereumNonceBefore.toNat + entry.2 + 1))
        db.deposits = 1 ∧
      { db with
        deposits := updateWhere
          (Assignable jobId (decoded.ethereumNonceBefore.toNat + entry.2 + 1))
          (claimed jobId decoded entry) db.deposits } = after := by
  simp only [assignDeposit, liftCodec, InnerActionRows.toI64, mapError_eq_ok, bind_eq_ok,
    require_eq_ok, exists_const, pure_eq_ok]
  constructor
  · rintro ⟨-, hsequence, _, ⟨hfits, -⟩, hone, rfl⟩
    exact ⟨⟨hfits, hsequence⟩, hone, rfl⟩
  · rintro ⟨⟨hfits, hsequence⟩, hone, rfl⟩
    exact ⟨by omega, hsequence, _, ⟨hfits, rfl⟩, hone, rfl⟩

/-- A claim of the job leaves a deposit that it may claim as assignable as it was. -/
theorem assignable_claimed {nonce : ℕ} {entry : BridgeOuterActionV2 × ℕ} {row : BridgeDepositRow}
    (hfree : row.bridgeJobId = none ∨ row.bridgeJobId = some jobId) :
    Assignable jobId nonce (claimed jobId decoded entry row) ↔ Assignable jobId nonce row := by
  simp only [Assignable, claimed, or_true, and_true, hfree]

/-- Claims of the job leave the number of assignable deposits as it was. -/
theorem affected_claimed {nonce other : ℕ} {entry : BridgeOuterActionV2 × ℕ}
    {rows : List BridgeDepositRow} :
    affected (Assignable jobId nonce)
        (updateWhere (Assignable jobId other) (claimed jobId decoded entry) rows) =
      affected (Assignable jobId nonce) rows := by
  unfold affected updateWhere
  rw [List.countP_map]
  refine List.countP_congr fun row _ => ?_
  simp only [Function.comp, decide_eq_true_eq]
  by_cases hother : Assignable jobId other row
  · rw [if_pos hother]
    exact assignable_claimed hother.2.2
  · rw [if_neg hother]

/-- The deposits of all actions are assigned exactly when each of them is assignable. -/
theorem succeeds_assignDeposits (entries : List (BridgeOuterActionV2 × ℕ)) (db : Database) :
    Succeeds (entries.foldlM (assignDeposit jobId decoded) db) ↔
      ∀ entry ∈ entries, Numberable decoded entry.2 ∧
        affected (Assignable jobId (decoded.ethereumNonceBefore.toNat + entry.2 + 1))
          db.deposits = 1 := by
  induction entries generalizing db with
  | nil => simp [List.foldlM_nil]
  | cons entry entries ih =>
    rw [List.foldlM_cons, succeeds_bind, List.forall_mem_cons]
    simp only [assignDeposit_eq_ok, ih]
    constructor
    · rintro ⟨assigned, ⟨hnumberable, hone, rfl⟩, hrest⟩
      simp only [affected_claimed] at hrest
      exact ⟨⟨hnumberable, hone⟩, hrest⟩
    · rintro ⟨⟨hnumberable, hone⟩, hrest⟩
      refine ⟨_, ⟨hnumberable, hone, rfl⟩, ?_⟩
      simp only [affected_claimed]
      exact hrest

end Claims

/-- The deposit is canonical and in the range of the receipt. -/
def Covered (receipt : BridgeTransitionPublicValuesV2) (row : BridgeDepositRow) : Prop :=
  receipt.ethereumNonceBefore.toNat < row.log.nonce ∧
    row.log.nonce ≤ receipt.ethereumNonceBefore.toNat + receipt.actions.length ∧
      row.removed = false

instance (receipt : BridgeTransitionPublicValuesV2) (row : BridgeDepositRow) :
    Decidable (Covered receipt row) :=
  inferInstanceAs (Decidable (_ ∧ _))

/-- The receipt before this one was applied: the outer account is configured and shows the action
state that the receipt starts from. -/
def PredecessorApplied (db : Database) (receipt : BridgeTransitionPublicValuesV2) : Prop :=
  ∃ row ∈ db.outerPublicKey.bind db.account?,
    (row.account.actionState.getD initialActionState).head? = some receipt.zekoActionStateBefore

instance (db : Database) (receipt : BridgeTransitionPublicValuesV2) :
    Decidable (PredecessorApplied db receipt) :=
  inferInstanceAs (Decidable (∃ row ∈ db.outerPublicKey.bind db.account?, _))

/-- A receipt of the bridge that Ethereum has finalized: it has actions, its length and its last
state are those of its actions, its deposits are indexed, and its job or the receipt before it
was applied. -/
structure Finalized (db : Database) (jobId : Uuid) (receipt : BridgeTransitionPublicValuesV2) :
    Prop where
  /-- It has an action. -/
  nonempty : receipt.actions ≠ []
  /-- Its lengths differ by its actions. -/
  length : receipt.zekoActionStateLengthAfter.toNat =
    receipt.zekoActionStateLengthBefore.toNat + receipt.actions.length
  /-- Its last state is that of the last action. -/
  last : receipt.actions.getLast?.map BridgeOuterActionV2.stateAfter =
    some receipt.zekoActionStateAfter
  /-- Every deposit of its range is indexed. -/
  indexed : ∀ offset < receipt.actions.length, ∃ row ∈ db.deposits, row.removed = false ∧
    row.log.nonce = receipt.ethereumNonceBefore.toNat + offset + 1
  /-- It was applied, or the one before it was. -/
  predecessor : Applied db jobId ∨ PredecessorApplied db receipt

instance (db : Database) (jobId : Uuid) (receipt : BridgeTransitionPublicValuesV2) :
    Decidable (Finalized db jobId receipt) :=
  decidable_of_iff (receipt.actions ≠ [] ∧
      receipt.zekoActionStateLengthAfter.toNat =
        receipt.zekoActionStateLengthBefore.toNat + receipt.actions.length ∧
      receipt.actions.getLast?.map BridgeOuterActionV2.stateAfter =
        some receipt.zekoActionStateAfter ∧
      (∀ offset < receipt.actions.length, ∃ row ∈ db.deposits, row.removed = false ∧
        row.log.nonce = receipt.ethereumNonceBefore.toNat + offset + 1) ∧
      (Applied db jobId ∨ PredecessorApplied db receipt))
    ⟨fun ⟨h1, h2, h3, h4, h5⟩ => ⟨h1, h2, h3, h4, h5⟩,
      fun ⟨h1, h2, h3, h4, h5⟩ => ⟨h1, h2, h3, h4, h5⟩⟩

section Receipts

variable {state : AppState} {db after : Database} {now : Timestamp} {jobId : Uuid}
variable {inclusion : Inclusion} {publicValues : Bytes}
variable {receipt : BridgeTransitionPublicValuesV2}

/-- A deposit has a nonce within its column. -/
theorem Numbered.nonce_lt (h : Numbered db) {row : BridgeDepositRow} (hrow : row ∈ db.deposits) :
    row.log.nonce < 2 ^ 63 := by
  refine h.bounded _ (List.mem_map.mpr ⟨(row.log, row.removed), ?_, rfl⟩)
  exact List.mem_map.mpr ⟨row, hrow, rfl⟩

/-- Exactly one deposit is assignable under a nonce when some deposit is. -/
theorem Numbered.affected_iff (h : Numbered db) {nonce : ℕ} :
    affected (Assignable jobId nonce) db.deposits = 1 ↔
      ∃ row ∈ db.deposits, Assignable jobId nonce row := by
  have hdistinct : (db.deposits.map fun row => row.log.nonce).Nodup := by
    have hnonces := h.distinct
    rw [nonces, depositLogs, List.map_map] at hnonces
    exact hnonces
  exact affected_eq_one_iff hdistinct fun row hrow => hrow.1

/-- The actions of a receipt are numbered from zero. -/
theorem forall_zipIdx {α : Type} {actions : List α} {p : ℕ → Prop} :
    (∀ entry ∈ actions.zipIdx, p entry.2) ↔ ∀ offset < actions.length, p offset := by
  constructor
  · intro h offset hoffset
    exact h (actions[offset], offset) (List.mk_mem_zipIdx_iff_getElem?.mpr (by simp [hoffset]))
  · rintro h ⟨action, offset⟩ hentry
    exact h offset (List.snd_lt_of_mem_zipIdx hentry)

/-- The deposits of a finalized receipt are assigned exactly when none of them carries the claim
of another job. -/
theorem succeeds_assign (hnumbered : Numbered db) (hfinal : Finalized db jobId receipt) :
    Succeeds (receipt.actions.zipIdx.foldlM (assignDeposit jobId receipt) db) ↔
      ∀ row ∈ db.deposits, Covered receipt row →
        row.bridgeJobId = none ∨ row.bridgeJobId = some jobId := by
  rw [succeeds_assignDeposits, forall_zipIdx (p := fun offset => Numberable receipt offset ∧
    affected (Assignable jobId (receipt.ethereumNonceBefore.toNat + offset + 1)) db.deposits = 1)]
  constructor
  · rintro h row hrow ⟨hafter, hupto, hcanonical⟩
    obtain ⟨offset, hoffset⟩ := Nat.exists_eq_add_of_lt hafter
    have hlength : offset < receipt.actions.length := by omega
    obtain ⟨other, hother, hnonce, -, hfree⟩ :=
      hnumbered.affected_iff.mp (h offset hlength).2
    have hdistinct := hnumbered.distinct
    rw [nonces, depositLogs, List.map_map] at hdistinct
    have hsame : row = other := row_eq_of_key hdistinct hrow hother (hoffset.trans hnonce.symm)
    rw [hsame]
    exact hfree
  · intro h offset hlength
    obtain ⟨row, hrow, hcanonical, hnonce⟩ := hfinal.indexed offset hlength
    have hlt := hnumbered.nonce_lt hrow
    have hword := receipt.zekoActionStateLengthAfter.isLt
    have htotal := hfinal.length
    refine ⟨⟨by omega, by omega⟩, hnumbered.affected_iff.mpr ⟨row, hrow, hnonce, hcanonical, ?_⟩⟩
    exact h row hrow ⟨by omega, by omega, hcanonical⟩

/-- The outer account that a receipt extends is there and current. -/
theorem succeeds_updateOuterAccountActions {assigned : Database} {publicKey : String}
    {states : List PastaPoseidon.Bytes32} (hkept : AccountsKept db assigned)
    (hkey : db.outerPublicKey = some publicKey) (hpredecessor : PredecessorApplied db receipt) :
    Succeeds (updateOuterAccountActions assigned now jobId publicKey
      receipt.zekoActionStateBefore states inclusion) := by
  obtain ⟨row, hrow, hhead⟩ := hpredecessor
  rw [hkey, Option.bind_some] at hrow
  refine ⟨_, updateOuterAccountActions_eq_ok.mpr ⟨row, ?_, hhead, rfl⟩⟩
  rw [Database.account?, hkept.accounts]
  exact hrow

/-- A finalized receipt applies exactly when its deposits can be assigned. -/
theorem succeeds_applyConfirmedBridge
    (hdecode : BridgeTransitionPublicValuesV2.decode publicValues = .ok receipt)
    (hfinal : Finalized db jobId receipt) :
    Succeeds (applyConfirmedBridge db now jobId publicValues inclusion) ↔
      Succeeds (receipt.actions.zipIdx.foldlM (assignDeposit jobId receipt) db) := by
  have hword := receipt.zekoActionStateLengthAfter.isLt
  have htotal := hfinal.length
  constructor
  · rintro ⟨after, h⟩
    simp only [applyConfirmedBridge, bind_eq_ok, require_eq_ok, exists_const, liftCodec_eq_ok,
      hdecode, Except.ok.injEq, exists_eq_left'] at h
    obtain ⟨-, -, -, -, assigned, hassigned, -⟩ := h
    exact ⟨assigned, hassigned⟩
  · rintro ⟨assigned, hassigned⟩
    have hkept := assignDeposits_kept hassigned
    simp only [applyConfirmedBridge, succeeds_bind, require_eq_ok, exists_const, liftCodec_eq_ok,
      hdecode, Except.ok.injEq, exists_eq_left']
    refine ⟨hfinal.nonempty, by omega, htotal, hfinal.last, assigned, hassigned, ?_⟩
    split
    · exact succeeds_pure
    · rename_i hnew
      rcases hfinal.predecessor with happlied | hpredecessor
      · exact absurd (hkept.applied_iff.mpr happlied) hnew
      · obtain ⟨publicKey, hkey, -⟩ :=
          Option.bind_eq_some_iff.mp (Option.mem_def.mp hpredecessor.choose_spec.1)
        simp only [succeeds_bind, requireSome_eq_ok, succeeds_pure, and_true]
        refine ⟨publicKey, hkept.outerPublicKey.trans hkey, ?_⟩
        exact succeeds_updateOuterAccountActions hkept hkey hpredecessor

end Receipts

/-- In every reachable state, the finalized receipt of an indexed range whose predecessor was
applied is applied exactly when no deposit of the range carries the claim of another job. -/
theorem receipt_applies_iff (state : AppState) (actions : List Action) {publicValues : Bytes}
    {receipt : BridgeTransitionPublicValuesV2}
    (hdecode : BridgeTransitionPublicValuesV2.decode publicValues = .ok receipt)
    (now : Timestamp) (jobId : Uuid) (inclusion : Inclusion)
    (hfinal : Finalized (run (step state) start actions).db jobId receipt) :
    Succeeds (applyConfirmedBridge (run (step state) start actions).db now jobId publicValues
        inclusion) ↔
      ∀ row ∈ (run (step state) start actions).db.deposits, Covered receipt row →
        row.bridgeJobId = none ∨ row.bridgeJobId = some jobId := by
  rw [succeeds_applyConfirmedBridge hdecode hfinal]
  exact succeeds_assign (numbered_run state actions) hfinal

/-- The block of the first deposit. -/
def depositBlock : BlockRef := ⟨101, 0xb101, firstBlock.hash⟩

/-- The first deposit. -/
def depositLog : BridgeDepositLog :=
  ⟨1, 0xd1, 0, 0xd2, depositBlock.number, depositBlock.hash, 0x7a, 0⟩

/-- The batch of the first deposit, on the action state of the reference gateway. -/
def depositBatch : BridgeGuest.BridgeTransitionInput :=
  ⟨⟨1, replica.bridgeAddress, 0, 0⟩, ⟨7, 0⟩, [⟨0, 0, 0, 0, 0, 0, none, 0, 0⟩]⟩

/-- The start of the gateway, and a tick that indexes the first deposit. -/
def depositIndexed : List Action :=
  startup ++ [.tick 0 0 (.begin depositBlock.number (some firstBlock)),
    .tick 0 0 (.indexBlock depositBlock [depositLog])] ++ quietCalls 0 depositBlock.hash ++
    [.tick 0 0 .reportReady]

/-- The batch of the deposit is queued and cancelled before a proof is requested. -/
def cancelledBatch : List Action :=
  depositIndexed ++ [.serve (.queueDepositBatch 0 2 3 none false depositBatch),
    .serve (.cancelProof 0 2)]

/-- The block of a bridge transition that another submitter sent. -/
def transitionBlock : BlockRef := ⟨102, 0xb102, depositBlock.hash⟩

/-- A tick sees the transition finalized and takes it up to its application. -/
def transitionRecovered : List Action :=
  [.tick 0 0 (.begin transitionBlock.number (some transitionBlock)),
    .tick 0 0 (.indexBlock transitionBlock []), .tick 0 0 (.checkFinality transitionBlock.hash),
    .tick 0 0 .storeFinality,
    .tick 0 0 (.storeEvent ⟨.bridge, transitionBlock.number, transitionBlock.hash, 0xdef, 0, false⟩),
    .tick 0 0 .readEvents, .tick 0 0 (.readEvent (bridgedReceipt 0 7 8)),
    .tick 0 0 .findSubmission, .tick 0 0 (.insertRecovered 9)]

/-- The receipt of the transition. -/
def transitionReceipt : BridgeTransitionPublicValuesV2 := ⟨0, 1, 0, 1, 7, 8, 0, 1, [⟨fun _ => 0, 8⟩]⟩

/-- The public values of the transition are those of its receipt. -/
theorem decode_transitionReceipt :
    BridgeTransitionPublicValuesV2.decode (bridgedReceipt 0 7 8) = .ok transitionReceipt :=
  decode_iff.mpr rfl

/-- The receipt that a tick is about to apply, with its kind and job. -/
def applyingReceipt : IndexerStage → Option (ProofKind × Uuid × Bytes)
  | .applying _ event _ publicValues jobId _ => some (event.kind, jobId, publicValues)
  | _ => none

/-- The claim of the cancelled batch stays on the deposit, so the finalized transition of another
submitter is refused and the tick cannot go on. -/
theorem cancelled_batch_refuses :
    let s := run (step replica) start (cancelledBatch ++ transitionRecovered)
    BridgeTransitionPublicValuesV2.decode (bridgedReceipt 0 7 8) = .ok transitionReceipt ∧
      applyingReceipt (s.indexers 0) = some (.bridge, 9, bridgedReceipt 0 7 8) ∧
      (∃ job ∈ s.db.jobs, job.id = 2 ∧ job.status = .rejected) ∧
      Finalized s.db 9 transitionReceipt ∧
      ¬ Succeeds (step replica s (.tick 0 0 .applyEvent)) := by
  refine ⟨decode_transitionReceipt, ?_⟩
  decide +kernel

/-- Without the batch the same receipt applies. -/
theorem receipt_applies_unqueued :
    Succeeds (applyConfirmedBridge
        (run (step replica) start (depositIndexed ++ transitionRecovered)).db 0 9
        (bridgedReceipt 0 7 8) ⟨transitionBlock.number, transitionBlock.hash, 0xdef⟩) ∧
      ∀ row ∈ (run (step replica) start (depositIndexed ++ transitionRecovered)).db.deposits,
        Covered transitionReceipt row → row.bridgeJobId = none ∨ row.bridgeJobId = some 9 := by
  have hrun : Finalized (run (step replica) start (depositIndexed ++ transitionRecovered)).db 9
        transitionReceipt ∧
      ∀ row ∈ (run (step replica) start (depositIndexed ++ transitionRecovered)).db.deposits,
        Covered transitionReceipt row → row.bridgeJobId = none ∨ row.bridgeJobId = some 9 := by
    decide +kernel
  obtain ⟨hfinal, hfree⟩ := hrun
  exact ⟨(receipt_applies_iff replica _ decode_transitionReceipt 0 9 _ hfinal).mpr hfree, hfree⟩

end EthereumSettlement.ReceiptApplicability
