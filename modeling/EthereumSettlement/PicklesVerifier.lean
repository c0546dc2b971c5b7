import EthereumSettlement.PicklesDeferred
import EthereumSettlement.SettlementReceipt

/-!
# The Pickles verifier of the guest and its host converter

`verify` recomputes the digest over the application statement, checks the
accumulator commitment, rebuilds the public input of the wrap proof and asks
Kimchi for its verdict. The host builds the proof record from a parsed skeleton;
the guest takes the record as it comes.
-/

namespace EthereumSettlement.PicklesVerifier

open CheckedCalls PastaPoseidon PicklesProof PicklesDeferred SettlementReceipt

variable {K : Kimchi}

/-- `wrap_vk_step_fields`: the coordinates of the first chunks of the wrap
verification key. -/
def wrapVkStepFields (vk : WrapVerifierIndex K.IndexRest) : Option (List StepField) := do
  let points ← (List.ofFn vk.sigmaComm ++ List.ofFn vk.coefficientsComm ++
    [vk.genericComm, vk.psmComm, vk.completeAddComm, vk.mulComm, vk.emulComm,
      vk.endomulScalarComm]).mapM fun commitment => commitment.chunks.head?
  pure (points.flatMap fun point => [point.x, point.y])

/-- The inputs of `hash_messages_for_next_step_proof`. -/
def stepMessageInputs (vkFields appState : List StepField)
    (proofs : List (Affine StepField × (Fin 16 → StepField))) : List StepField :=
  vkFields ++ appState ++ proofs.flatMap fun previous =>
    [previous.1.x, previous.1.y] ++ List.ofFn previous.2

/-- `app_state_digest`. -/
def appStateDigest (verifier : Verifier K) (proof : VerifiableProof K.ProofRest) :
    Option StepField := do
  if proof.prevStepSgs.length ≠ proof.oldBulletproofChallenges.length then none
  else
    let vkFields ← wrapVkStepFields verifier.wrapVk
    pure (spongeDigest K.stepBlockCipher (stepMessageInputs vkFields proof.appState
      (proof.prevStepSgs.zip proof.oldBulletproofChallenges)))

/-- `check_app_state_binding`. -/
def checkAppStateBinding (verifier : Verifier K) (proof : VerifiableProof K.ProofRest) : Bool :=
  appStateDigest verifier proof = some proof.messagesForNextStepProofDigest

/-- The commitment that the accumulator check computes from the raw challenges. -/
def computeSg (verifier : Verifier K) (rawChallenges : Fin 16 → StepField) : Affine WrapField :=
  K.msm (verifier.vestaSrs.take (usizeShiftOne verifier.stepSrsLengthLog2))
    (bPolyCoefficients ((List.ofFn rawChallenges).map (toField verifier.stepEndo)))

/-- `accumulator_check`. -/
def accumulatorCheck (verifier : Verifier K) (proof : VerifiableProof K.ProofRest) : Bool :=
  let coefficients :=
    bPolyCoefficients ((List.ofFn proof.rawBulletproofChallenges).map (toField verifier.stepEndo))
  let expectedLength := usizeShiftOne verifier.stepSrsLengthLog2
  if coefficients.length ≠ expectedLength ∨ verifier.vestaSrs.length < expectedLength then false
  else computeSg verifier proof.rawBulletproofChallenges = proof.challengePolynomialCommitment

/-- The public input that the guest derives for a proof. -/
def provedPublicInput (verifier : Verifier K) (proof : VerifiableProof K.ProofRest) :
    Except String (List WrapField) := do
  let dv ← expandDeferred verifier proof
  pure (wrapPublicInput dv proof.messagesForNextStepProofDigest proof.messagesForNextWrapProofDigest)

/-- `verify_batch`. -/
def verifyBatch (kimchi : KimchiVerdict K) (verifier : Verifier K)
    (proofs : List (VerifiableProof K.ProofRest)) : Except String Bool :=
  if proofs.all fun proof => checkAppStateBinding verifier proof && accumulatorCheck verifier proof
  then do
    let publicInputs ← proofs.mapM (provedPublicInput verifier)
    pure (kimchi verifier.wrapVk ((proofs.map (·.wrapProof)).zip publicInputs))
  else pure false

/-- `verify`. -/
def verify (kimchi : KimchiVerdict K) (verifier : Verifier K) (proof : VerifiableProof K.ProofRest) :
    Except String Bool :=
  verifyBatch kimchi verifier [proof]

/-- The proof passes the checks of the guest, and a public input is handed to
Kimchi. -/
structure ReachesKimchi (verifier : Verifier K) (proof : VerifiableProof K.ProofRest)
    (publicInput : List WrapField) : Prop where
  /-- The app state is bound. -/
  appState : checkAppStateBinding verifier proof = true
  /-- The accumulator is checked. -/
  accumulator : accumulatorCheck verifier proof = true
  /-- The public input is computed. -/
  publicInput_eq : provedPublicInput verifier proof = .ok publicInput

/-- Verification is the guest's own checks followed by the verdict of Kimchi. -/
theorem verify_eq_ok_iff (kimchi : KimchiVerdict K) (verifier : Verifier K)
    (proof : VerifiableProof K.ProofRest) :
    verify kimchi verifier proof = .ok true ↔
      ∃ publicInput, ReachesKimchi verifier proof publicInput ∧
        kimchi verifier.wrapVk [(proof.wrapProof, publicInput)] = true := by
  rw [verify, verifyBatch]
  constructor
  · intro h
    by_cases hchecks : [proof].all fun proof =>
        checkAppStateBinding verifier proof && accumulatorCheck verifier proof
    · rw [if_pos hchecks] at h
      simp only [List.mapM_cons, List.mapM_nil, bind_eq_ok, pure_eq_ok] at h
      obtain ⟨publicInputs, ⟨publicInput, hinput, rest, hrest, hlist⟩, hverdict⟩ := h
      subst hrest
      subst hlist
      simp only [List.all_cons, List.all_nil, Bool.and_true, Bool.and_eq_true] at hchecks
      exact ⟨publicInput, ⟨hchecks.1, hchecks.2, hinput⟩, hverdict⟩
    · rw [if_neg hchecks, pure_eq_ok] at h
      cases h
  · intro h
    obtain ⟨publicInput, hreaches, hverdict⟩ := h
    have hchecks : ([proof].all fun proof =>
        checkAppStateBinding verifier proof && accumulatorCheck verifier proof) = true := by
      rw [List.all_cons, List.all_nil, hreaches.appState, hreaches.accumulator]
      rfl
    rw [if_pos hchecks]
    simp only [List.mapM_cons, List.mapM_nil, bind_eq_ok, pure_eq_ok]
    exact ⟨[publicInput], ⟨publicInput, hreaches.publicInput_eq, [], rfl, rfl⟩, hverdict⟩

/-- The digest check recomputes the carried digest from the wrap key, the
application statement and the carried data of the previous proofs. -/
theorem checkAppStateBinding_iff {verifier : Verifier K} {proof : VerifiableProof K.ProofRest} :
    checkAppStateBinding verifier proof = true ↔
      proof.prevStepSgs.length = proof.oldBulletproofChallenges.length ∧
      ∃ vkFields, wrapVkStepFields verifier.wrapVk = some vkFields ∧
        spongeDigest K.stepBlockCipher (stepMessageInputs vkFields proof.appState
          (proof.prevStepSgs.zip proof.oldBulletproofChallenges)) =
            proof.messagesForNextStepProofDigest := by
  rw [checkAppStateBinding, decide_eq_true_iff, appStateDigest]
  by_cases hlength : proof.prevStepSgs.length = proof.oldBulletproofChallenges.length
  · rw [if_neg (not_not.mpr hlength)]
    simp only [Option.bind_eq_bind, Option.bind_eq_some_iff, Option.pure_def, Option.some.injEq]
    exact ⟨fun h => ⟨hlength, h⟩, fun h => h.2⟩
  · rw [if_pos hlength]
    constructor
    · intro h
      cases h
    · intro h
      exact absurd h.1 hlength

/-- The accumulator check compares the carried commitment with the one of the raw
challenges, which an SRS of sufficient length can commit to. -/
theorem accumulatorCheck_iff {verifier : Verifier K} {proof : VerifiableProof K.ProofRest} :
    accumulatorCheck verifier proof = true ↔
      ((bPolyCoefficients ((List.ofFn proof.rawBulletproofChallenges).map
          (toField verifier.stepEndo))).length = usizeShiftOne verifier.stepSrsLengthLog2 ∧
        usizeShiftOne verifier.stepSrsLengthLog2 ≤ verifier.vestaSrs.length) ∧
      computeSg verifier proof.rawBulletproofChallenges = proof.challengePolynomialCommitment := by
  unfold accumulatorCheck
  dsimp only
  split
  · rename_i hshort
    constructor
    · intro h
      cases h
    · intro h
      rcases hshort with hlength | hsrs
      · exact absurd h.1.1 hlength
      · exact absurd h.1.2 (Nat.not_le.mpr hsrs)
  · rename_i hlong
    rw [not_or, not_not, Nat.not_lt] at hlong
    rw [decide_eq_true_iff]
    exact ⟨fun h => ⟨hlong, h⟩, fun h => h.2⟩

/-- `PADDED_LENGTH`. -/
def paddedLength : ℕ := 2

/-- `dummy_ipa_wrap_expanded`: fifteen challenges, the last one drawn first. -/
def dummyIpaWrapExpanded (K : Kimchi) : List WrapField :=
  ((List.range' 1 wrapIpaRounds).map fun i =>
    toField K.pallasScalarEndo (K.dummyChallenge i : WrapField)).reverse

/-- The challenge vectors of earlier wrap proofs, padded in front with dummies. -/
def padChallenges (K : Kimchi) (challenges : List (List WrapField)) : List (List WrapField) :=
  List.replicate (paddedLength - challenges.length) (dummyIpaWrapExpanded K) ++ challenges

/-- `hash_messages_for_next_wrap`. -/
def hashMessagesForNextWrap (K : Kimchi) (commitment : Affine WrapField)
    (paddedChallenges : List (List WrapField)) : WrapField :=
  spongeDigest K.wrapBlockCipher (paddedChallenges.flatten ++ [commitment.x, commitment.y])

/-- `OcamlProof`: the parsed skeleton of a proof. -/
structure OcamlProof where
  /-- Raw challenges and features. -/
  rawPlonk : PlonkMinimal
  /-- Raw challenges of the opening argument. -/
  rawBulletproofChallenges : Fin 16 → StepField
  /-- Domain size and proofs-verified mask. -/
  branchData : BranchData
  /-- State of the sponge before the evaluations. -/
  spongeDigestBeforeEvaluations : StepField
  /-- Commitment of the challenge polynomial. -/
  challengePolynomialCommitment : Affine WrapField
  /-- Logarithm of the step domain size. -/
  stepDomainLog2 : BitVec 8
  /-- Evaluations of the step proof. -/
  prevEvals : ChunkedAllEvals
  /-- Chunked evaluation of the public input. -/
  pEval0Chunks : List StepField
  /-- Commitments of the previous step proofs. -/
  prevStepSgs : List (Affine StepField)
  /-- Raw challenges of the previous step proofs. -/
  prevStepChalsRaw : List (Fin 16 → StepField)
  /-- Raw challenges of the previous wrap proofs. -/
  prevWrapChalsRaw : List (Fin 15 → WrapField)

/-- The challenge vectors of the earlier wrap proofs, expanded. -/
def OcamlProof.prevWrapExpanded (K : Kimchi) (skeleton : OcamlProof) : List (List WrapField) :=
  skeleton.prevWrapChalsRaw.map fun chals => (List.ofFn chals).map (toField K.pallasScalarEndo)

/-- `into_verifiable`. -/
def OcamlProof.intoVerifiable (skeleton : OcamlProof) (wrapProof : WrapProof K.ProofRest)
    (wrapVk : WrapVerifierIndex K.IndexRest) (appState : List StepField) :
    Except String (VerifiableProof K.ProofRest) := do
  let oldBulletproofChallenges := skeleton.prevStepChalsRaw.map fun chals =>
    fun i => toField K.vestaScalarEndo (chals i)
  let vkFields ← expect (wrapVkStepFields wrapVk) "wrap VK commitment has no chunks"
  require (skeleton.prevWrapChalsRaw.length ≤ paddedLength)
    ("prev wrap proofs (" ++ toString skeleton.prevWrapChalsRaw.length ++
      ") exceed padded length 2")
  pure {
    wrapProof := wrapProof
    rawPlonk := skeleton.rawPlonk
    rawBulletproofChallenges := skeleton.rawBulletproofChallenges
    branchData := skeleton.branchData
    spongeDigestBeforeEvaluations := skeleton.spongeDigestBeforeEvaluations
    prevEvals := skeleton.prevEvals
    pEval0Chunks := skeleton.pEval0Chunks
    oldBulletproofChallenges := oldBulletproofChallenges
    appState := appState
    prevStepSgs := skeleton.prevStepSgs
    challengePolynomialCommitment := skeleton.challengePolynomialCommitment
    messagesForNextStepProofDigest := spongeDigest K.stepBlockCipher
      (stepMessageInputs vkFields appState (skeleton.prevStepSgs.zip oldBulletproofChallenges))
    messagesForNextWrapProofDigest := hashMessagesForNextWrap K
      skeleton.challengePolynomialCommitment (padChallenges K (skeleton.prevWrapExpanded K))
    stepDomainLog2 := skeleton.stepDomainLog2.setWidth 64 }

/-- The flags of a proof skeleton on the wire. -/
structure WireFlags where
  /-- First range-check gate. -/
  rangeCheck0 : Bool
  /-- Second range-check gate. -/
  rangeCheck1 : Bool
  /-- Addition in foreign fields. -/
  foreignFieldAdd : Bool
  /-- Multiplication in foreign fields. -/
  foreignFieldMul : Bool
  /-- Bitwise exclusive or. -/
  xor : Bool
  /-- Bitwise rotation. -/
  rot : Bool
  /-- Generic lookup gate. -/
  lookup : Bool
  /-- Lookup tables that the prover fills. -/
  runtimeTables : Bool
deriving DecidableEq

/-- The feature set that `OcamlProof::parse` builds from the wire flags. -/
def parseFeatureFlags (flags : WireFlags) : FeatureFlags :=
  let patterns : LookupPatterns := {
    xor := flags.xor
    lookup := flags.lookup
    rangeCheck := flags.rangeCheck0 || flags.rangeCheck1 || flags.rot
    foreignFieldMul := flags.foreignFieldMul }
  { rangeCheck0 := flags.rangeCheck0
    rangeCheck1 := flags.rangeCheck1
    foreignFieldAdd := flags.foreignFieldAdd
    foreignFieldMul := flags.foreignFieldMul
    xor := flags.xor
    rot := flags.rot
    lookupFeatures := {
      patterns := patterns
      jointLookupUsed := patterns.jointLookupsUsed
      usesRuntimeTables := flags.runtimeTables } }

/-- The branch data that `OcamlProof::parse` builds from the domain byte. -/
def parseBranchData (stepDomainLog2 : BitVec 8) (proofsVerifiedMask : Bool × Bool) : BranchData :=
  ⟨(stepDomainLog2.toNat : StepField), proofsVerifiedMask⟩

end EthereumSettlement.PicklesVerifier
