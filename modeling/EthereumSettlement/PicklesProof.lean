import EthereumSettlement.PastaPoseidon

/-!
# Data of the Pickles verifier

The types that the out-of-circuit verifier reads: the wrap verifier index and
proof, the deferred values of the step proof, and the proof record that the
prover hands to the guest. Of the Kimchi crates the development uses the functions
listed in `Kimchi`, which are parameters; the parts of the index and of the wrap
proof that only those functions read are opaque.
-/

namespace EthereumSettlement.PicklesProof

open PastaPoseidon

/-- An affine point of a Pasta curve. -/
structure Affine (F : Type) where
  /-- First coordinate. -/
  x : F
  /-- Second coordinate. -/
  y : F
  /-- Whether it is the point at infinity. -/
  infinity : Bool
deriving DecidableEq

/-- `PolyComm`: a commitment in chunks. -/
structure PolyComm (F : Type) where
  /-- One point for each chunk. -/
  chunks : List (Affine F)

/-- `RecursionChallenge` of a wrap proof: the challenges of an earlier wrap proof
and its commitment, a Pallas point. -/
structure RecursionChallenge where
  /-- The challenges. -/
  chals : List WrapField
  /-- Their commitment. -/
  comm : PolyComm StepField

/-- `STEP_IPA_ROUNDS`. -/
def stepIpaRounds : ℕ := 16

/-- `WRAP_IPA_ROUNDS`. -/
def wrapIpaRounds : ℕ := 15

/-- `ProverProof` of the wrap circuit. -/
structure WrapProof (Rest : Type) where
  /-- Challenges of the earlier wrap proofs. -/
  prevChallenges : List RecursionChallenge
  /-- Commitments, evaluations and opening, which only Kimchi reads. -/
  rest : Rest

/-- `VerifierIndex` of the wrap circuit. -/
structure WrapVerifierIndex (Rest : Type) where
  /-- Commitments of the permutation columns. -/
  sigmaComm : Fin 7 → PolyComm StepField
  /-- Commitments of the coefficient columns. -/
  coefficientsComm : Fin 15 → PolyComm StepField
  /-- Commitment of the generic gate's selector. -/
  genericComm : PolyComm StepField
  /-- Commitment of the Poseidon gate's selector. -/
  psmComm : PolyComm StepField
  /-- Commitment of the complete addition's selector. -/
  completeAddComm : PolyComm StepField
  /-- Commitment of the variable-base multiplication's selector. -/
  mulComm : PolyComm StepField
  /-- Commitment of the endomorphism multiplication's selector. -/
  emulComm : PolyComm StepField
  /-- Commitment of the endomorphism scalar's selector. -/
  endomulScalarComm : PolyComm StepField
  /-- Domain, shifts and the other data that only Kimchi reads. -/
  rest : Rest

/-- `LookupPatterns`. -/
structure LookupPatterns where
  /-- Bitwise exclusive or. -/
  xor : Bool
  /-- Generic lookup gate. -/
  lookup : Bool
  /-- Range checks of either kind. -/
  rangeCheck : Bool
  /-- Multiplication in foreign fields. -/
  foreignFieldMul : Bool
deriving DecidableEq

/-- `joint_lookups_used`: of the four patterns, `xor` and `lookup` look up more
than one column at once. -/
def LookupPatterns.jointLookupsUsed (patterns : LookupPatterns) : Bool :=
  patterns.xor || patterns.lookup

/-- `LookupFeatures`. -/
structure LookupFeatures where
  /-- Kinds of lookups in use. -/
  patterns : LookupPatterns
  /-- Whether some lookup has several columns. -/
  jointLookupUsed : Bool
  /-- Whether the prover fills a table. -/
  usesRuntimeTables : Bool
deriving DecidableEq

/-- `FeatureFlags`. -/
structure FeatureFlags where
  /-- First range-check gate. -/
  rangeCheck0 : Bool
  /-- Second range-check gate. -/
  rangeCheck1 : Bool
  /-- Addition in foreign fields. -/
  foreignFieldAdd : Bool
  /-- Multiplication in foreign fields. -/
  foreignFieldMul : Bool
  /-- Bitwise exclusive or. -/
  xor : Bool
  /-- Bitwise rotation. -/
  rot : Bool
  /-- Lookups in use. -/
  lookupFeatures : LookupFeatures
deriving DecidableEq

/-- `PointEvaluations`: at `zeta` and at `zeta` times the domain generator. -/
structure PointEvaluations (α : Type) where
  /-- Value at the point. -/
  zeta : α
  /-- Value at the point times the generator. -/
  zetaOmega : α

/-- The chunks of an evaluated column. -/
abbrev ChunkedEvals := PointEvaluations (List StepField)

/-- `ChunkedAllEvals`: the evaluations of the step proof. -/
structure ChunkedAllEvals where
  /-- Evaluation of the linearized polynomial at the shifted point. -/
  ftEval1 : StepField
  /-- Evaluations of the public input. -/
  publicEvals : ChunkedEvals
  /-- Permutation aggregate. -/
  z : ChunkedEvals
  /-- Witness columns. -/
  w : Fin 15 → ChunkedEvals
  /-- Coefficient columns. -/
  coefficients : Fin 15 → ChunkedEvals
  /-- Permutation columns. -/
  s : Fin 6 → ChunkedEvals
  /-- Selector columns of the index. -/
  index : Fin 6 → ChunkedEvals
  /-- Selector of the first range-check gate. -/
  rangeCheck0Selector : Option ChunkedEvals
  /-- Selector of the second range-check gate. -/
  rangeCheck1Selector : Option ChunkedEvals
  /-- Selector of the foreign-field addition. -/
  foreignFieldAddSelector : Option ChunkedEvals
  /-- Selector of the foreign-field multiplication. -/
  foreignFieldMulSelector : Option ChunkedEvals
  /-- Selector of the exclusive or. -/
  xorSelector : Option ChunkedEvals
  /-- Selector of the rotation. -/
  rotSelector : Option ChunkedEvals
  /-- Aggregate of the lookup argument. -/
  lookupAggregation : Option ChunkedEvals
  /-- Lookup table. -/
  lookupTable : Option ChunkedEvals
  /-- Sorted columns of the lookup argument. -/
  lookupSorted : Fin 5 → Option ChunkedEvals
  /-- Lookup table that the prover fills. -/
  runtimeLookupTable : Option ChunkedEvals
  /-- Selector of the runtime table. -/
  runtimeLookupTableSelector : Option ChunkedEvals
  /-- Selector of the lookups of the exclusive or. -/
  xorLookupSelector : Option ChunkedEvals
  /-- Selector of the lookups of the lookup gate. -/
  lookupGateLookupSelector : Option ChunkedEvals
  /-- Selector of the lookups of range checks. -/
  rangeCheckLookupSelector : Option ChunkedEvals
  /-- Selector of the lookups of foreign-field multiplication. -/
  foreignFieldMulLookupSelector : Option ChunkedEvals

/-- `ProofEvaluations`, over any kind of column value. -/
structure ProofEvaluations (α : Type) where
  /-- Evaluations of the public input. -/
  publicEvals : Option α
  /-- Witness columns. -/
  w : Fin 15 → α
  /-- Permutation aggregate. -/
  z : α
  /-- Permutation columns. -/
  s : Fin 6 → α
  /-- Coefficient columns. -/
  coefficients : Fin 15 → α
  /-- Selector of the generic gate. -/
  genericSelector : α
  /-- Selector of the Poseidon gate. -/
  poseidonSelector : α
  /-- Selector of the complete addition. -/
  completeAddSelector : α
  /-- Selector of the variable-base multiplication. -/
  mulSelector : α
  /-- Selector of the endomorphism multiplication. -/
  emulSelector : α
  /-- Selector of the endomorphism scalar. -/
  endomulScalarSelector : α
  /-- Selector of the first range-check gate. -/
  rangeCheck0Selector : Option α
  /-- Selector of the second range-check gate. -/
  rangeCheck1Selector : Option α
  /-- Selector of the foreign-field addition. -/
  foreignFieldAddSelector : Option α
  /-- Selector of the foreign-field multiplication. -/
  foreignFieldMulSelector : Option α
  /-- Selector of the exclusive or. -/
  xorSelector : Option α
  /-- Selector of the rotation. -/
  rotSelector : Option α
  /-- Aggregate of the lookup argument. -/
  lookupAggregation : Option α
  /-- Lookup table. -/
  lookupTable : Option α
  /-- Sorted columns of the lookup argument. -/
  lookupSorted : Fin 5 → Option α
  /-- Lookup table that the prover fills. -/
  runtimeLookupTable : Option α
  /-- Selector of the runtime table. -/
  runtimeLookupTableSelector : Option α
  /-- Selector of the lookups of the exclusive or. -/
  xorLookupSelector : Option α
  /-- Selector of the lookups of the lookup gate. -/
  lookupGateLookupSelector : Option α
  /-- Selector of the lookups of range checks. -/
  rangeCheckLookupSelector : Option α
  /-- Selector of the lookups of foreign-field multiplication. -/
  foreignFieldMulLookupSelector : Option α

/-- `map_ref`: the same function on every column. -/
def ProofEvaluations.map {α β : Type} (f : α → β) (e : ProofEvaluations α) : ProofEvaluations β where
  publicEvals := e.publicEvals.map f
  w := fun i => f (e.w i)
  z := f e.z
  s := fun i => f (e.s i)
  coefficients := fun i => f (e.coefficients i)
  genericSelector := f e.genericSelector
  poseidonSelector := f e.poseidonSelector
  completeAddSelector := f e.completeAddSelector
  mulSelector := f e.mulSelector
  emulSelector := f e.emulSelector
  endomulScalarSelector := f e.endomulScalarSelector
  rangeCheck0Selector := e.rangeCheck0Selector.map f
  rangeCheck1Selector := e.rangeCheck1Selector.map f
  foreignFieldAddSelector := e.foreignFieldAddSelector.map f
  foreignFieldMulSelector := e.foreignFieldMulSelector.map f
  xorSelector := e.xorSelector.map f
  rotSelector := e.rotSelector.map f
  lookupAggregation := e.lookupAggregation.map f
  lookupTable := e.lookupTable.map f
  lookupSorted := fun i => (e.lookupSorted i).map f
  runtimeLookupTable := e.runtimeLookupTable.map f
  runtimeLookupTableSelector := e.runtimeLookupTableSelector.map f
  xorLookupSelector := e.xorLookupSelector.map f
  lookupGateLookupSelector := e.lookupGateLookupSelector.map f
  rangeCheckLookupSelector := e.rangeCheckLookupSelector.map f
  foreignFieldMulLookupSelector := e.foreignFieldMulLookupSelector.map f

/-- `to_proof_evaluations`. -/
def toProofEvaluations (e : ChunkedAllEvals) : ProofEvaluations ChunkedEvals where
  publicEvals := some e.publicEvals
  w := e.w
  z := e.z
  s := e.s
  coefficients := e.coefficients
  genericSelector := e.index 0
  poseidonSelector := e.index 1
  completeAddSelector := e.index 2
  mulSelector := e.index 3
  emulSelector := e.index 4
  endomulScalarSelector := e.index 5
  rangeCheck0Selector := e.rangeCheck0Selector
  rangeCheck1Selector := e.rangeCheck1Selector
  foreignFieldAddSelector := e.foreignFieldAddSelector
  foreignFieldMulSelector := e.foreignFieldMulSelector
  xorSelector := e.xorSelector
  rotSelector := e.rotSelector
  lookupAggregation := e.lookupAggregation
  lookupTable := e.lookupTable
  lookupSorted := e.lookupSorted
  runtimeLookupTable := e.runtimeLookupTable
  runtimeLookupTableSelector := e.runtimeLookupTableSelector
  xorLookupSelector := e.xorLookupSelector
  lookupGateLookupSelector := e.lookupGateLookupSelector
  rangeCheckLookupSelector := e.rangeCheckLookupSelector
  foreignFieldMulLookupSelector := e.foreignFieldMulLookupSelector

/-- `PlonkMinimal`: the raw challenges of the step proof and its features. -/
structure PlonkMinimal where
  /-- Challenge that separates the constraints. -/
  alpha : StepField
  /-- First permutation challenge. -/
  beta : StepField
  /-- Second permutation challenge. -/
  gamma : StepField
  /-- Evaluation point. -/
  zeta : StepField
  /-- Combiner of the lookup columns, where lookups are used. -/
  jointCombiner : Option StepField
  /-- Features that the step circuit uses. -/
  featureFlags : FeatureFlags

/-- `BranchData`. -/
structure BranchData where
  /-- Logarithm of the step domain size. -/
  domainLog2 : StepField
  /-- Which of the two previous proofs count. -/
  proofsVerifiedMask : Bool × Bool
deriving DecidableEq

/-- `VerifiableProof`: everything that the guest reads of one proof, all of it from
the prover. -/
structure VerifiableProof (ProofRest : Type) where
  /-- The wrap proof. -/
  wrapProof : WrapProof ProofRest
  /-- Raw challenges and features. -/
  rawPlonk : PlonkMinimal
  /-- Raw challenges of the opening argument. -/
  rawBulletproofChallenges : Fin 16 → StepField
  /-- Domain size and proofs-verified mask. -/
  branchData : BranchData
  /-- State of the sponge before the evaluations. -/
  spongeDigestBeforeEvaluations : StepField
  /-- Evaluations of the step proof. -/
  prevEvals : ChunkedAllEvals
  /-- Chunked evaluation of the public input. -/
  pEval0Chunks : List StepField
  /-- Opening challenges of the previous proofs. -/
  oldBulletproofChallenges : List (Fin 16 → StepField)
  /-- App state that the proof is about. -/
  appState : List StepField
  /-- Commitments of the previous step proofs. -/
  prevStepSgs : List (Affine StepField)
  /-- Commitment of the challenge polynomial. -/
  challengePolynomialCommitment : Affine WrapField
  /-- Digest of what the next step proof is told. -/
  messagesForNextStepProofDigest : StepField
  /-- Digest of what the next wrap proof is told. -/
  messagesForNextWrapProofDigest : WrapField
  /-- Logarithm of the step domain size. -/
  stepDomainLog2 : BitVec 64

/-- A multiplicative subgroup of a power of two (`Radix2EvaluationDomain`). -/
structure Domain where
  /-- Number of elements. -/
  size : ℕ
  /-- Its generator. -/
  groupGen : StepField
deriving DecidableEq

/-- The three values that Kimchi's constraints mention besides the columns. -/
structure Constants where
  /-- Endomorphism coefficient of the curve. -/
  endoCoefficient : StepField
  /-- Rows that hide the witness. -/
  zkRows : BitVec 64

/-- `BerkeleyChallenges`. -/
structure BerkeleyChallenges where
  /-- Challenge that separates the constraints. -/
  alpha : StepField
  /-- First permutation challenge. -/
  beta : StepField
  /-- Second permutation challenge. -/
  gamma : StepField
  /-- Combiner of the lookup columns, where lookups are used. -/
  jointCombiner : StepField

/-- What the verifier calls in the Kimchi crates and does not contain itself. -/
structure Kimchi where
  /-- Rest of a wrap verifier index. -/
  IndexRest : Type
  /-- Rest of a wrap proof. -/
  ProofRest : Type
  /-- `VariableBaseMSM::msm` on Vesta. -/
  msm : List (Affine WrapField) → List StepField → Affine WrapField
  /-- `permutation::Shifts::new`. -/
  shifts : Domain → Fin 7 → StepField
  /-- `PolishToken::evaluate` on the constant term of `expr_linearization` for the
  given features; a column that is missing stops it. -/
  constantTerm : FeatureFlags → Domain → StepField → ProofEvaluations (PointEvaluations StepField) →
    Constants → BerkeleyChallenges → Except String StepField
  /-- `endos::<Pallas>().0`. -/
  pallasBaseEndo : StepField
  /-- `endos::<Vesta>().1`. -/
  vestaScalarEndo : StepField
  /-- `endos::<Pallas>().1`. -/
  pallasScalarEndo : WrapField
  /-- Poseidon's block cipher with the `fp_kimchi` parameters. -/
  stepBlockCipher : StepField × StepField × StepField → StepField × StepField × StepField
  /-- Poseidon's block cipher with the `fq_kimchi` parameters. -/
  wrapBlockCipher : WrapField × WrapField × WrapField → WrapField × WrapField × WrapField
  /-- The low 128 bits of the Blake2s digest of `chal_i`. -/
  dummyChallenge : ℕ → ℕ

/-- `batch_verify_with_rng`: a verdict on proofs and their public inputs, from which
its seed is derived. -/
abbrev KimchiVerdict (K : Kimchi) :=
  WrapVerifierIndex K.IndexRest → List (WrapProof K.ProofRest × List WrapField) → Bool

/-- `Verifier`: the constants of one tag. -/
structure Verifier (K : Kimchi) where
  /-- Verifier index of the wrap circuit. -/
  wrapVk : WrapVerifierIndex K.IndexRest
  /-- The generators of the Vesta SRS. -/
  vestaSrs : List (Affine WrapField)
  /-- Rows that hide the witness of the step circuit. -/
  stepZkRows : BitVec 64
  /-- Logarithm of the length of the step reference string. -/
  stepSrsLengthLog2 : BitVec 64
  /-- Endomorphism coefficient of the step curve. -/
  stepEndo : StepField

end EthereumSettlement.PicklesProof
