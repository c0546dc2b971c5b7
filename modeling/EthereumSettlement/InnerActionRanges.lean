import EthereumSettlement.SettledReceipts
import EthereumSettlement.SettlementRuns

/-!
# Ranges of inner actions over all receipt versions

A batch spans the indices from the settled inner length before its receipt to
the length after it. Receipts of the second version and later are checked
against the lengths; a first-version receipt has no batch, and neither the guest
nor the contract compares the two lengths that it carries. The ranges are
therefore ordered in exactly the runs whose first-version receipts do not lower
the length, and a concrete run with receipts of the guest shows that one can.
-/

namespace EthereumSettlement.InnerActionRanges

open ByteWords CheckedCalls TransitionRuns PastaPoseidon InnerActionCommitment SettlementCodec
open SettlementReceipt ZekoSettlement EthereumZekoBridge BridgeSystem SettledReceipts
open ReferenceHashes ReferenceDeployment SettlementRuns OpenZeppelin

/-- The settled length of the inner action state. -/
def settledInnerLength (s : SettlementStorage) : ℕ := (s.outerState 4).toNat

/-- The global indices of a stored batch. -/
def batchRange (s : SettlementStorage) (sequence : BitVec 64) : Finset ℕ :=
  Finset.Ico (s.innerActionBatch sequence).startIndex.toNat
    ((s.innerActionBatch sequence).startIndex.toNat + (s.innerActionBatch sequence).count.toNat)

/-- Batches of different sequences span disjoint ranges, and a later sequence
starts no earlier than a previous one ends. -/
def RangesIncreasing (s : SettlementStorage) : Prop :=
  ∀ first second, (s.innerActionBatch first).valid = true →
    (s.innerActionBatch second).valid = true → first.toNat < second.toNat →
    Disjoint (batchRange s first) (batchRange s second) ∧
    (s.innerActionBatch first).startIndex.toNat + (s.innerActionBatch first).count.toNat ≤
      (s.innerActionBatch second).startIndex.toNat

/-- The receipt of an accepted action, if of the first version, does not lower
the length. -/
def KeepsLength (entry : SettlementStorage × SettlementAction) : Prop :=
  ∀ decoded, entry.2.receipt = some decoded → decoded.version = 1 →
    (decoded.stateBefore 4).toNat ≤ (decoded.stateAfter 4).toNat

/-- Ordered batches have increasing ranges. -/
theorem rangesIncreasing_of_ordered {s : SettlementStorage} (h : BatchesOrdered s) :
    RangesIncreasing s := by
  intro first second hfirst hsecond hlt
  have hle := h.ordered first second hfirst hsecond hlt
  refine ⟨?_, hle⟩
  rw [Finset.disjoint_left]
  intro index hindex hother
  rw [batchRange, Finset.mem_Ico] at hindex hother
  omega

/-- A decoded receipt without a batch is of the first version. -/
theorem version_one_of_lt {publicValues : Bytes} {decoded : DecodedPublicValues}
    (hdecode : decodePublicValues publicValues = .ok decoded) (h : ¬2 ≤ decoded.version) :
    decoded.version = 1 := by
  obtain ⟨⟨-, hversion, -⟩, hread⟩ := decodePublicValues_eq_ok.mp hdecode
  have hsame : decoded.version = readWord 16 publicValues 4 := by rw [← hread]; rfl
  rw [← hsame] at hversion
  rcases hversion with hone | htwo | hthree | hfour
  · exact hone
  · exact absurd (by rw [htwo]; decide) h
  · exact absurd (by rw [hthree]; decide) h
  · exact absurd (by rw [hfour]; decide) h

variable {env : Environment}

/-- An accepted action that keeps the length keeps the order of the ranges and
does not lower the settled length. -/
theorem batchesOrdered_of_action {s next : SettlementStorage} {action : SettlementAction}
    (h : BatchesOrdered s) (hkeeps : KeepsLength (s, action))
    (heffect : ActionEffect env s action next) :
    BatchesOrdered next ∧ settledInnerLength s ≤ settledInnerLength next := by
  cases heffect with
  | administer _ administered =>
    obtain ⟨_, _, _, rfl⟩ := administered
    exact ⟨h.kept ⟨rfl, rfl, rfl, rfl, rfl, rfl⟩, le_refl _⟩
  | append appended =>
    refine ⟨h.kept ⟨appended.outerState_eq, appended.batchSequence_eq,
      appended.innerActionBatch_eq, appended.settledAssetRecord_eq,
      appended.settledAssetRecordCommitment_eq, appended.assetRegistryRecordBatch_eq⟩, ?_⟩
    rw [settledInnerLength, settledInnerLength, appended.outerState_eq]
  | @settle ctx publicValues proofBytes decoded _ decode settled =>
    have hreceipt : SettlementAction.receipt (.verifyAndUpdateRoot ctx publicValues proofBytes) =
        some decoded := by
      rw [SettlementAction.receipt, decode]
      rfl
    have hgrows : (decoded.stateBefore 4).toNat ≤ (decoded.stateAfter 4).toNat := by
      by_cases hversion : 2 ≤ decoded.version
      · exact length_grows settled hversion
      · exact hkeeps decoded hreceipt (version_one_of_lt decode hversion)
    refine ⟨h.settled hgrows settled, ?_⟩
    rw [settledInnerLength, settledInnerLength, settled.outerState_eq, ← settled.stateBefore]
    exact hgrows

/-- What holds of the storages that a history visited. -/
structure LengthsOrdered (history : List (SettlementStorage × SettlementAction))
    (s : SettlementStorage) : Prop where
  /-- The settled length never decreased. -/
  lengths : (history.map (·.1) ++ [s]).Pairwise fun earlier later =>
    settledInnerLength earlier ≤ settledInnerLength later
  /-- The batches were ordered throughout. -/
  ordered : ∀ visited ∈ history.map (·.1) ++ [s], BatchesOrdered visited

/-- One more accepted action that keeps the length. -/
theorem LengthsOrdered.effect {history : List (SettlementStorage × SettlementAction)}
    {s next : SettlementStorage} {action : SettlementAction} (h : LengthsOrdered history s)
    (hkeeps : KeepsLength (s, action)) (heffect : ActionEffect env s action next) :
    LengthsOrdered (history ++ [(s, action)]) next := by
  have hs : BatchesOrdered s := h.ordered s (List.mem_append_right _ List.mem_cons_self)
  obtain ⟨hordered, hgrows⟩ := batchesOrdered_of_action hs hkeeps heffect
  have hvisited : (history ++ [(s, action)]).map (·.1) = history.map (·.1) ++ [s] := by
    rw [List.map_append, List.map_singleton]
  obtain ⟨-, -, hbefore⟩ := List.pairwise_append.mp h.lengths
  constructor
  · rw [hvisited, List.pairwise_append]
    refine ⟨h.lengths, List.pairwise_singleton _ _, ?_⟩
    intro earlier hearlier later hlater
    rw [List.mem_singleton.mp hlater]
    rcases List.mem_append.mp hearlier with hold | hlast
    · exact (hbefore earlier hold s List.mem_cons_self).trans hgrows
    · rw [List.mem_singleton.mp hlast]
      exact hgrows
  · rw [hvisited]
    intro visited hmem
    rcases List.mem_append.mp hmem with hold | hlast
    · exact h.ordered visited hold
    · rw [List.mem_singleton.mp hlast]
      exact hordered

/-- A freshly initialized contract has no batch. -/
theorem start_batchesOrdered_settlement (d : SettlementDeployment env) : BatchesOrdered d.start := by
  have h := d.deployed
  simp only [initializeSettlement, bind_eq_ok, require_eq_ok, exists_const, pure_eq_ok] at h
  obtain ⟨-, -, recorded, hrecorded, hstart⟩ := h
  obtain ⟨table, rfl⟩ := recordAcceptedInnerState_eq_ok hrecorded
  obtain ⟨hstorage, -⟩ := Prod.mk.inj hstart
  have hinvalid : ∀ sequence, (d.start.innerActionBatch sequence).valid ≠ true := by
    intro sequence hvalid
    rw [← hstorage] at hvalid
    cases hvalid
  exact ⟨fun sequence hvalid => absurd hvalid (hinvalid sequence),
    fun sequence hvalid => absurd hvalid (hinvalid sequence),
    fun first _ hvalid => absurd hvalid (hinvalid first)⟩

/-- The first visited storage is the one the run starts in. -/
theorem start_mem_visited (s : SettlementStorage) (actions : List SettlementAction) :
    s ∈ (accepted (act env) s actions).map (·.1) ++ [run (act env) s actions] := by
  induction actions with
  | nil => exact List.mem_cons_self
  | cons action actions ih =>
    rw [run_cons]
    cases h : act env s action with
    | ok next =>
      simp only [accepted, h, List.map_cons, List.cons_append]
      exact List.mem_cons_self
    | error e =>
      simp only [accepted, h, exec]
      exact ih

/-- In a run whose settled length never decreases, no accepted receipt lowers
it. -/
theorem keepsLength_of_lengths (d : SettlementDeployment env) {actions : List SettlementAction}
    (h : (d.visited actions).Pairwise fun earlier later =>
      settledInnerLength earlier ≤ settledInnerLength later)
    {entry : SettlementStorage × SettlementAction} (hentry : entry ∈ d.history actions) :
    KeepsLength entry := by
  obtain ⟨before, after, hactions, hstorage, next, hnext⟩ := accepted_split hentry
  obtain ⟨s, action⟩ := entry
  dsimp only at hactions hstorage hnext
  subst hstorage
  have hvisited : d.visited actions = (accepted (act env) d.start before).map (·.1) ++
      run (act env) d.start before ::
        ((accepted (act env) next after).map (·.1) ++ [run (act env) next after]) := by
    rw [SettlementDeployment.visited, SettlementDeployment.history, SettlementDeployment.reached,
      hactions, accepted_append, run_append, run_cons, exec_of_ok hnext]
    simp only [accepted, hnext, List.map_append, List.map_cons, List.append_assoc,
      List.cons_append]
  rw [hvisited] at h
  obtain ⟨-, hafter, -⟩ := List.pairwise_append.mp h
  have hstep := (List.pairwise_cons.mp hafter).1 next (start_mem_visited next after)
  intro decoded hreceipt _
  have heffect := act_effect hnext
  cases heffect with
  | administer kind _ =>
    rw [kind] at hreceipt
    cases hreceipt
  | append appended => cases hreceipt
  | settle decode settled =>
    rw [SettlementAction.receipt, decode] at hreceipt
    have hsame := Option.some.inj hreceipt
    rw [settledInnerLength, settledInnerLength, settled.outerState_eq, ← settled.stateBefore,
      hsame] at hstep
    exact hstep

/-- Over every run of the settlement contract with accepted receipts of any
versions in any order: the settled inner length never decreases and the stored
batches have disjoint, increasing ranges in every storage that the run visits, if
and only if no accepted first-version receipt lowers the length. -/
theorem inner_ranges_increasing_iff (d : SettlementDeployment env)
    (actions : List SettlementAction) :
    ((d.visited actions).Pairwise (fun earlier later =>
        settledInnerLength earlier ≤ settledInnerLength later) ∧
      ∀ s ∈ d.visited actions, RangesIncreasing s) ↔
    ∀ entry ∈ d.history actions, KeepsLength entry := by
  constructor
  · intro h entry hentry
    exact keepsLength_of_lengths d h.1 hentry
  · intro hkeeps
    have hstart : LengthsOrdered [] d.start := by
      refine ⟨List.pairwise_singleton _ _, ?_⟩
      intro visited hmem
      rw [List.mem_singleton.mp hmem]
      exact start_batchesOrdered_settlement d
    have hall : LengthsOrdered (d.history actions) (d.reached actions) :=
      history_invariant (J := fun history s => LengthsOrdered history s) (Q := KeepsLength)
        (fun _ _ _ _ hs hkeeps hnext => hs.effect hkeeps (act_effect hnext)) actions [] hstart
        hkeeps
    exact ⟨hall.lengths, fun s hs => rangesIncreasing_of_ordered (hall.ordered s hs)⟩

/-- Every statement has an accepted proof, which is all that is known of the
second-layer circuit here. -/
def anyStatement : PicklesVerdict := ⟨List StepField, id, fun _ => true⟩

/-- A first-version commit behind the concrete receipt: its source length is
three and its target length zero. -/
def loweringWitness : SettlementWitnessV1 where
  binding := {
    minaSignatureKind := .testnet
    accountUpdateBody := ⟨List.replicate 15 0 ++
      [0x0289fe0cd4043d7a57ca84ba3fc1a81b65ff39bebd5152c612dc83ad843ba820] ++ List.replicate 15 0 ++
      [innerActionState, 3] ++ List.replicate 3 0 ++ [settledActionState], []⟩
    actions := [[0, 0, 0, 0, 1, 0, 0, 0]]
    stateBefore := ⟨fun index => [0, 0, 0, innerActionState, 3, 0, 0, 0].getD index 0⟩
    callForest := [] }
  context := ⟨1, settlementAddress, 2, 0, 1⟩
  innerActionBatch := none
  assetRegistryCheckpoint := none
  assetRegistryBatch := none

/-- The body digest of the lowering commit. -/
def loweringStatement : Bytes32 := 0x0452e55e5cc46f6ad317dc6fc240af0441614848c29f0ee3ed93fc0c207f684b

/-- The outer action state behind the lowering commit. -/
def loweredActionState : Bytes32 := 0x2f7e85a36a8efd1c674c31e868a9dd39d9ff1ed6f0b427d7f8dc3a49e5dfa024

/-- The receipt of the lowering commit. -/
def loweringReceipt : Bytes :=
  SettlementPublicValues.encode (.v1 {
    daMode := .multisig
    chainId := 1
    settlementContract := settlementAddress
    batchSequence := 2
    vkHash := vkHash
    appStatement := loweringStatement
    minaTransactionHash := 0
    stateBefore := ⟨fun index => [0, 0, 0, innerActionState, 3, 0, 0, 0].getD index 0⟩
    stateAfter := ⟨fun _ => 0⟩
    outerActionStateBefore := settledActionState
    outerActionStateAfter := loweredActionState
    outerActionStateLengthBefore := 1
    outerActionStateLengthAfter := 2
    synchronizedOuterActionState := 1
    synchronizedOuterActionStateLength := 0
    slotLower := 0
    slotUpper := 0 })

/-- A second-version commit that replays the batch of the first receipt. -/
def repeatingWitness : SettlementWitnessV1 where
  binding := {
    minaSignatureKind := .testnet
    accountUpdateBody := ⟨accountUpdateBody.take 36 ++ [loweredActionState], []⟩
    actions := [[0, 0, innerActionState, 3, 1, 0, 0, 0]]
    stateBefore := ⟨fun _ => 0⟩
    callForest := [] }
  context := ⟨1, settlementAddress, 3, 0, 2⟩
  innerActionBatch := some ⟨bridgeAddress, innerActions⟩
  assetRegistryCheckpoint := none
  assetRegistryBatch := none

/-- The body digest of the repeating commit. -/
def repeatingStatement : Bytes32 :=
  0x2d4d98e3651a6179a0a53c178826d8b819dc907f21975391d57cec2f31f06df2

/-- The receipt of the repeating commit. -/
def repeatingReceipt : Bytes :=
  SettlementPublicValues.encode (.v2 {
    settlement := {
      daMode := .multisig
      chainId := 1
      settlementContract := settlementAddress
      batchSequence := 3
      vkHash := vkHash
      appStatement := repeatingStatement
      minaTransactionHash := 0
      stateBefore := ⟨fun _ => 0⟩
      stateAfter := ⟨fun index => [0, 0, 0, innerActionState, 3, 0, 0, 0].getD index 0⟩
      outerActionStateBefore := loweredActionState
      outerActionStateAfter := 0x118f6bb3dac22313b0c1e463937cf7a57e1183702bd5702fb4c2aadb2d8b7e83
      outerActionStateLengthBefore := 2
      outerActionStateLengthAfter := 3
      synchronizedOuterActionState := 1
      synchronizedOuterActionStateLength := 0
      slotLower := 0
      slotUpper := 0 }
    bridgeAddress := bridgeAddress
    innerActionRoot := claimRoot
    innerActionStartIndex := 0
    innerActionCount := 3 })

/-- The guest inputs behind the three receipts. -/
def rangeInputs : List (SettlementGuestInput anyStatement) :=
  [⟨appState, some settlementWitness⟩,
   ⟨[loweringStatement.toNat, 0], some loweringWitness⟩,
   ⟨[repeatingStatement.toNat, 0], some repeatingWitness⟩]

/-- The surroundings: real hashes, and a verifier that accepts the three
receipts. -/
def rangeEnvironment : Environment where
  hashes := referenceHashes
  chainId := 1
  settlementAddress := settlementAddress
  bridgeAddress := bridgeAddress
  accessControl := tableAccessControl
  pausable := flagPausable
  verifyProof := fun _ programVKey publicValues _ =>
    decide (programVKey = settlementVKey ∧
      publicValues ∈ [settlementReceipt, loweringReceipt, repeatingReceipt])

/-- The settlement contract in these surroundings. -/
def rangeContract : SettlementDeployment rangeEnvironment where
  ctx := ⟨admin, 1000⟩
  parameters := settlementParameters
  start := ((initializeSettlement rangeEnvironment ⟨admin, 1000⟩ settlementParameters).toOption.get
    (by decide)).1
  events := ((initializeSettlement rangeEnvironment ⟨admin, 1000⟩ settlementParameters).toOption.get
    (by decide)).2
  deployed := eq_ok_get (by decide)

/-- Name the bridge and submit the three receipts. -/
def rangeRun : List SettlementAction :=
  [.setBridgeContract ⟨admin, 1000⟩ bridgeAddress,
   .verifyAndUpdateRoot ⟨admin, 1000⟩ settlementReceipt [],
   .verifyAndUpdateRoot ⟨admin, 1000⟩ loweringReceipt [],
   .verifyAndUpdateRoot ⟨admin, 1000⟩ repeatingReceipt []]

/-- The guest emits the receipts. -/
theorem rangeInputs_emit :
    rangeInputs.map (settlementGuest referenceHashes anyStatement vkHash) =
      [.ok settlementReceipt, .ok loweringReceipt, .ok repeatingReceipt] := by
  have hfirst : settlementGuest referenceHashes anyStatement vkHash
      ⟨appState, some settlementWitness⟩ = .ok settlementReceipt := settlementGuest_emits
  have hlowering : settlementGuest referenceHashes anyStatement vkHash
      ⟨[loweringStatement.toNat, 0], some loweringWitness⟩ = .ok loweringReceipt := by
    decide +kernel
  have hrepeating : settlementGuest referenceHashes anyStatement vkHash
      ⟨[repeatingStatement.toNat, 0], some repeatingWitness⟩ = .ok repeatingReceipt := by
    decide +kernel
  rw [rangeInputs, List.map_cons, List.map_cons, List.map_cons, hfirst, hlowering, hrepeating]
  rfl

/-- A run of three receipts of the guest, one of the first version, in which the
settled length falls from three to zero and two sequences hold the same range. -/
theorem first_version_lowers_length :
    (∀ verifier programVKey publicValues proofBytes,
      rangeEnvironment.verifyProof verifier programVKey publicValues proofBytes = true →
      ∃ input, settlementGuest rangeEnvironment.hashes anyStatement vkHash input =
        .ok publicValues) ∧
    ¬((rangeContract.visited rangeRun).Pairwise (fun earlier later =>
        settledInnerLength earlier ≤ settledInnerLength later)) ∧
    ¬RangesIncreasing (rangeContract.reached rangeRun) := by
  have hrun : (rangeContract.visited rangeRun).map settledInnerLength = [0, 0, 3, 0, 3] ∧
      (rangeContract.reached rangeRun).innerActionBatch 1 =
        ⟨0, innerActionState, claimRoot, 0, 3, 0, true⟩ ∧
      (rangeContract.reached rangeRun).innerActionBatch 3 =
        ⟨0, innerActionState, claimRoot, 0, 3, 0, true⟩ := by decide +kernel
  refine ⟨?_, ?_, ?_⟩
  · intro verifier programVKey publicValues proofBytes hproof
    have haccepted : Except.ok publicValues ∈
        rangeInputs.map (settlementGuest referenceHashes anyStatement vkHash) := by
      rw [rangeInputs_emit]
      have hmem := (of_decide_eq_true hproof).2
      simpa using hmem
    obtain ⟨input, -, hinput⟩ := List.mem_map.mp haccepted
    exact ⟨input, hinput⟩
  · intro hlengths
    have hmap := List.pairwise_map.mpr hlengths
    rw [hrun.1] at hmap
    exact absurd hmap (by decide)
  · intro hincreasing
    obtain ⟨-, hle⟩ := hincreasing 1 3 (by rw [hrun.2.1]) (by rw [hrun.2.2]) (by decide)
    rw [hrun.2.1, hrun.2.2] at hle
    exact absurd hle (by decide)

end EthereumSettlement.InnerActionRanges
