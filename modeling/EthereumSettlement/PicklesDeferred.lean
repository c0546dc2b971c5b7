import EthereumSettlement.PicklesProof

/-!
# Deferred values of a step proof

First stage of the Pickles verifier: it replays the sponge of the step proof,
recomputes its linearization, combined inner product and permutation scalar, and
packs the results with the carried challenges into the public input of the wrap
proof. A panic of the program is an error here.
-/

namespace EthereumSettlement.PicklesDeferred

open CheckedCalls PastaPoseidon PicklesProof

/-- `1usize << amount`; without overflow checks the amount is taken modulo the
width. -/
def usizeShiftOne (amount : BitVec 64) : ℕ := 2 ^ (amount.toNat % 64)

/-- Subtraction of two `u64`, which wraps without overflow checks. -/
def wrappingSub (a b : BitVec 64) : ℕ := (a - b).toNat

/-- `Field::inverse`. -/
def fieldInverse {n : ℕ} (x : ZMod n) : Option (ZMod n) := if x = 0 then none else some x⁻¹

/-- One step of `to_field_with_length` on the bit pair at an index. -/
def toFieldStep {n : ℕ} (raw : ℕ) (state : ZMod n × ZMod n) (i : ℕ) : ZMod n × ZMod n :=
  let a := state.1 + state.1
  let b := state.2 + state.2
  let s : ZMod n := if raw.testBit (2 * i) then 1 else -1
  if raw.testBit (2 * i + 1) then (a + s, b) else (a, b + s)

/-- `ScalarChallenge::to_field`: the effective scalar of a 128-bit challenge. -/
def toField {n : ℕ} (endo raw : ZMod n) : ZMod n :=
  let state := (List.range 64).reverse.foldl (toFieldStep raw.val) (2, 2)
  state.1 * endo + state.2

/-- `b_poly`: the last challenge belongs to the point itself, the one before it to
its square, and so on. -/
def bPoly (chals : List StepField) (x : StepField) : StepField :=
  (chals.reverse.foldl (fun state chal => (state.1 * (1 + chal * state.2), state.2 * state.2))
    (1, x)).1

/-- `b_poly_coefficients`: the coefficient at an index is the product of the
challenges at its set bits, the last challenge at the lowest bit. -/
def bPolyCoefficients (chals : List StepField) : List StepField :=
  chals.foldr (fun chal coefficients => coefficients ++ coefficients.map (· * chal)) [1]

/-- `DensePolynomial::eval_polynomial`. -/
def evalPolynomial (coefficients : List StepField) (x : StepField) : StepField :=
  coefficients.foldr (fun c acc => c + x * acc) 0

/-- The counter of a sponge: elements absorbed or squeezed since the last
permutation. -/
inductive SpongeMode
  | absorbed (count : ℕ)
  | squeezed (count : ℕ)

/-- `ArithmeticSponge` with rate two and capacity one. -/
structure ArithmeticSponge (F : Type) where
  /-- Absorbing or squeezing, and how far. -/
  mode : SpongeMode
  /-- The three state elements. -/
  state : F × F × F

section Sponge

variable {F : Type} [Zero F] [Add F] (blockCipher : F × F × F → F × F × F)

/-- `Sponge::new`. -/
def ArithmeticSponge.new : ArithmeticSponge F := ⟨.absorbed 0, 0, 0, 0⟩

/-- One turn of the loop in `Sponge::absorb`. -/
def ArithmeticSponge.absorbOne (sponge : ArithmeticSponge F) (x : F) : ArithmeticSponge F :=
  match sponge.mode with
  | .absorbed 0 => ⟨.absorbed 1, sponge.state.1 + x, sponge.state.2⟩
  | .absorbed 1 => ⟨.absorbed 2, sponge.state.1, sponge.state.2.1 + x, sponge.state.2.2⟩
  | .absorbed _ =>
    let state := blockCipher sponge.state
    ⟨.absorbed 1, state.1 + x, state.2⟩
  | .squeezed _ => ⟨.absorbed 1, sponge.state.1 + x, sponge.state.2⟩

/-- `Sponge::absorb`. -/
def ArithmeticSponge.absorb (sponge : ArithmeticSponge F) (input : List F) : ArithmeticSponge F :=
  input.foldl (absorbOne blockCipher) sponge

/-- `Sponge::squeeze`. -/
def ArithmeticSponge.squeeze (sponge : ArithmeticSponge F) : F × ArithmeticSponge F :=
  match sponge.mode with
  | .squeezed 1 => (sponge.state.2.1, ⟨.squeezed 2, sponge.state⟩)
  | _ =>
    let state := blockCipher sponge.state
    (state.1, ⟨.squeezed 1, state⟩)

/-- A fresh sponge that absorbs an input and is squeezed once. -/
def spongeDigest (input : List F) : F :=
  ((ArithmeticSponge.new.absorb blockCipher input).squeeze blockCipher).1

end Sponge

/-- `DefaultFrSponge`: a sponge with the limbs left over from its last squeeze. -/
structure FrSponge where
  /-- The sponge over the step field. -/
  sponge : ArithmeticSponge StepField
  /-- Limbs left over. -/
  lastSqueezed : List ℕ

section FrSponge

variable (K : Kimchi)

/-- `FrSponge::from`. -/
def FrSponge.new : FrSponge := ⟨.new, []⟩

/-- `absorb_multiple`, and `absorb` for a single element. -/
def FrSponge.absorb (sponge : FrSponge) (input : List StepField) : FrSponge :=
  ⟨sponge.sponge.absorb K.stepBlockCipher input, []⟩

/-- `digest`. -/
def FrSponge.digest (sponge : FrSponge) : StepField := (sponge.sponge.squeeze K.stepBlockCipher).1

/-- The limbs at hand, refilled with the two low limbs of a squeezed element. -/
def FrSponge.refilled (sponge : FrSponge) : FrSponge :=
  if 2 ≤ sponge.lastSqueezed.length then sponge
  else
    let squeezed := sponge.sponge.squeeze K.stepBlockCipher
    ⟨squeezed.2, sponge.lastSqueezed ++ [squeezed.1.val % 2 ^ 64, squeezed.1.val / 2 ^ 64 % 2 ^ 64]⟩

/-- `challenge`: the field element of the next two limbs. -/
def FrSponge.challenge (sponge : FrSponge) : StepField × FrSponge :=
  let refilled := sponge.refilled K
  (((refilled.lastSqueezed.getD 0 0 + refilled.lastSqueezed.getD 1 0 * 2 ^ 64 : ℕ) : StepField),
    ⟨refilled.sponge, refilled.lastSqueezed.drop 2⟩)

/-- The columns that every circuit has, in the order in which they are absorbed. -/
def baseColumns (e : ProofEvaluations ChunkedEvals) : List ChunkedEvals :=
  [e.z, e.genericSelector, e.poseidonSelector, e.completeAddSelector, e.mulSelector,
    e.emulSelector, e.endomulScalarSelector] ++ List.ofFn e.w ++ List.ofFn e.coefficients ++
    List.ofFn e.s

/-- The selectors of the optional gates that are present. -/
def optionalGates (e : ProofEvaluations ChunkedEvals) : List ChunkedEvals :=
  [e.rangeCheck0Selector, e.rangeCheck1Selector, e.foreignFieldAddSelector,
    e.foreignFieldMulSelector, e.xorSelector, e.rotSelector].reduceOption

/-- The runtime table and the lookup selectors that are present. -/
def lookupSelectors (e : ProofEvaluations ChunkedEvals) : List ChunkedEvals :=
  [e.runtimeLookupTable, e.runtimeLookupTableSelector, e.xorLookupSelector,
    e.lookupGateLookupSelector, e.rangeCheckLookupSelector,
    e.foreignFieldMulLookupSelector].reduceOption

/-- `absorb_evaluations`. -/
def FrSponge.absorbEvaluations (sponge : FrSponge) (e : ProofEvaluations ChunkedEvals) : FrSponge :=
  (baseColumns e ++ optionalGates e ++ [e.lookupAggregation, e.lookupTable].reduceOption ++
    (List.ofFn e.lookupSorted).reduceOption ++ lookupSelectors e).foldl
    (fun sponge column => (sponge.absorb K column.zeta).absorb K column.zetaOmega)
    ⟨sponge.sponge, []⟩

end FrSponge

/-- `Radix2EvaluationDomain::new` on a power of two: the two-adicity of the field
is 32, and the generator is its root of unity squared down to the size. -/
def radix2Domain (log2 : ℕ) : Option Domain :=
  if log2 ≤ 32 then
    some ⟨2 ^ log2, (fun x => x * x)^[32 - log2]
      (0x2bce74deac30ebda362120830561f81aea322bf2b7bb7584bdad6fabd87ea32f : StepField)⟩
  else none

/-- The value of `permutation_vanishing_polynomial` at a point. -/
def permutationVanishing (domain : Domain) (zkRows : BitVec 64) (x : StepField) : StepField :=
  let term := domain.groupGen ^ wrappingSub (BitVec.ofNat 64 domain.size) zkRows
  (x - term) * (x - term * domain.groupGen) * (x - domain.groupGen ^ (domain.size - 1))

/-- `RecursionChallenge::evals`. -/
def recursionEvals (chals : List StepField) (maxPolySize : ℕ) (point power : StepField) :
    List StepField :=
  let full := bPoly chals point
  if maxPolySize = 2 ^ chals.length then [full]
  else
    let diff := evalPolynomial ((bPolyCoefficients chals).drop maxPolySize) point
    [full - diff * power, diff]

/-- `combine`: the chunks of every column recombined at a pair of points. -/
def combineEvals (e : ProofEvaluations ChunkedEvals) (points : PointEvaluations StepField) :
    ProofEvaluations (PointEvaluations StepField) :=
  e.map fun column =>
    ⟨evalPolynomial column.zeta points.zeta, evalPolynomial column.zetaOmega points.zetaOmega⟩

/-- The powers of alpha of the permutation argument, behind the 21 of the gates. -/
def permutationAlpha (alpha : StepField) (i : ℕ) : StepField := alpha ^ (21 + i)

/-- What `oracles_from_digest` returns and the caller uses. -/
structure DigestOracles where
  /-- `v`, `v_chal` and `u` of the random oracles. -/
  v : StepField
  /-- Challenge that combines the polynomials. -/
  vChal : StepField
  /-- Challenge that combines the points. -/
  u : StepField
  /-- Evaluations of the public input. -/
  publicEvals : ChunkedEvals
  /-- Powers of both evaluation points. -/
  powersOfEvalPoints : PointEvaluations StepField
  /-- Evaluations of the earlier challenge polynomials. -/
  polys : List ChunkedEvals
  /-- The evaluation point to the power of the domain size. -/
  zeta1 : StepField
  /-- Evaluation of the linearized polynomial. -/
  ftEval0 : StepField

/-- What `oracles_from_digest` is called with. -/
structure OracleInputs where
  /-- The step domain. -/
  domain : Domain
  /-- Length of a chunk. -/
  maxPolySize : ℕ
  /-- Rows that hide the witness. -/
  zkRows : BitVec 64
  /-- Shifts of the permutation columns. -/
  shift : Fin 7 → StepField
  /-- Endomorphism coefficient of the curve. -/
  endoCoefficient : StepField
  /-- Features that the step circuit uses. -/
  featureFlags : FeatureFlags
  /-- Digest of the transcript so far. -/
  digest : StepField
  /-- Challenge that separates the constraints. -/
  alpha : StepField
  /-- First permutation challenge. -/
  beta : StepField
  /-- Second permutation challenge. -/
  gamma : StepField
  /-- Evaluation point. -/
  zeta : StepField
  /-- Combiner of the lookup columns, where lookups are used. -/
  jointCombiner : Option StepField
  /-- Challenges of the earlier proofs. -/
  prevChallenges : List (List StepField)
  /-- Evaluations of all columns. -/
  evals : ProofEvaluations ChunkedEvals
  /-- Evaluation of the linearized polynomial at the shifted point. -/
  ftEval1 : StepField

section Oracles

variable (K : Kimchi)

/-- The sponge of the step proof behind its evaluations. -/
def evaluationSponge (o : OracleInputs) (publicEvals : ChunkedEvals) : FrSponge :=
  let prevChallengeDigest := (o.prevChallenges.foldl (FrSponge.absorb K) FrSponge.new).digest K
  let sponge := ((FrSponge.new.absorb K [o.digest]).absorb K [prevChallengeDigest]).absorb K
    [o.ftEval1]
  ((sponge.absorb K publicEvals.zeta).absorb K publicEvals.zetaOmega).absorbEvaluations K o.evals

/-- The permutation and public-input part of `ft_eval0`. -/
def ftEval0Permutation (o : OracleInputs) (publicEvals : ChunkedEvals)
    (powers : PointEvaluations StepField) (zeta1 denominatorInverse : StepField) : StepField :=
  let combined := combineEvals o.evals powers
  let vanishing := permutationVanishing o.domain o.zkRows o.zeta
  let zeta1m1 := zeta1 - 1
  let zkW := o.domain.groupGen ^ wrappingSub (BitVec.ofNat 64 o.domain.size) o.zkRows
  let alpha0 := permutationAlpha o.alpha 0
  let alpha1 := permutationAlpha o.alpha 1
  let alpha2 := permutationAlpha o.alpha 2
  let init := ((combined.w 6).zeta + o.gamma) * combined.z.zetaOmega * alpha0 * vanishing
  let sigmas := (List.ofFn fun i : Fin 6 =>
    o.beta * (combined.s i).zeta + (combined.w (i.castLE (by decide))).zeta + o.gamma).foldl
      (· * ·) init
  let shifted := (List.ofFn fun i : Fin 7 =>
    o.gamma + o.beta * o.zeta * o.shift i + (combined.w (i.castLE (by decide))).zeta).foldl
      (· * ·) (alpha0 * vanishing * combined.z.zeta)
  let numerator := (zeta1m1 * alpha1 * (o.zeta - zkW) + zeta1m1 * alpha2 * (o.zeta - 1)) *
    (1 - combined.z.zeta)
  sigmas - evalPolynomial publicEvals.zeta powers.zeta - shifted + numerator * denominatorInverse

/-- `oracles_from_digest` without a public input, as the verifier calls it. -/
def oraclesFromDigest (o : OracleInputs) : Except String DigestOracles := do
  let zeta1 := o.zeta ^ o.domain.size
  let zetaw := o.zeta * o.domain.groupGen
  let powers : PointEvaluations StepField := ⟨o.zeta ^ o.maxPolySize, zetaw ^ o.maxPolySize⟩
  let polys := o.prevChallenges.map fun chals =>
    (⟨recursionEvals chals o.maxPolySize o.zeta powers.zeta,
      recursionEvals chals o.maxPolySize zetaw powers.zetaOmega⟩ : ChunkedEvals)
  let publicEvals ← expect o.evals.publicEvals "MissingPublicInputEvaluation"
  let first := (evaluationSponge K o publicEvals).challenge K
  let second := first.2.challenge K
  let zkW := o.domain.groupGen ^ wrappingSub (BitVec.ofNat 64 o.domain.size) o.zkRows
  let inverse ← expect (fieldInverse ((o.zeta - zkW) * (o.zeta - 1))) "negligible probability"
  let constantTerm ← K.constantTerm o.featureFlags o.domain o.zeta (combineEvals o.evals powers)
    ⟨o.endoCoefficient, o.zkRows⟩ ⟨o.alpha, o.beta, o.gamma, o.jointCombiner.getD 0⟩
  pure {
    v := toField K.vestaScalarEndo first.1
    vChal := first.1
    u := toField K.vestaScalarEndo second.1
    publicEvals := publicEvals
    powersOfEvalPoints := powers
    polys := polys
    zeta1 := zeta1
    ftEval0 := ftEval0Permutation o publicEvals powers zeta1 inverse - constantTerm }

end Oracles

/-- `combined_inner_product` of polynomials evaluated at two points. A polynomial
with fewer chunks at the second point stops it. -/
def combinedInnerProduct (polyscale evalscale : StepField) (polys : List ChunkedEvals) :
    Except String StepField := do
  require (∀ poly ∈ polys, poly.zeta.length ≤ poly.zetaOmega.length) "index out of bounds"
  pure ((polys.flatMap fun poly => poly.zeta.zip poly.zetaOmega).foldl
    (fun state eval => (state.1 + state.2 * (eval.1 + evalscale * eval.2), state.2 * polyscale))
    (0, 1)).1

/-- `ConstraintSystem::perm_scalars`. -/
def permScalars (e : ProofEvaluations (PointEvaluations StepField)) (beta gamma alpha0 : StepField)
    (zkpZeta : StepField) : StepField :=
  -((List.ofFn fun i : Fin 6 =>
    gamma + beta * (e.s i).zeta + (e.w (i.castLE (by decide))).zeta).foldl (· * ·)
      (e.z.zetaOmega * beta * alpha0 * zkpZeta))

/-- `ExpandedDeferredValues`, the fields that the public input is made of. -/
structure ExpandedDeferredValues where
  /-- Challenge that separates the constraints. -/
  alpha : StepField
  /-- First permutation challenge. -/
  beta : StepField
  /-- Second permutation challenge. -/
  gamma : StepField
  /-- Evaluation point. -/
  zeta : StepField
  /-- Scalar of the permutation argument. -/
  perm : StepField
  /-- The evaluation point to the power of the domain size. -/
  zetaToDomainSize : StepField
  /-- The evaluation point to the power of the length of the reference string. -/
  zetaToSrsLength : StepField
  /-- Combined evaluations of all polynomials. -/
  combinedInnerProduct : StepField
  /-- Challenge that combines the polynomials. -/
  xi : StepField
  /-- Raw challenges of the opening argument. -/
  bulletproofPrechallenges : Fin 16 → StepField
  /-- Evaluation of the challenge polynomials. -/
  b : StepField
  /-- Domain size and proofs-verified mask. -/
  branchData : BranchData
  /-- State of the sponge before the evaluations. -/
  spongeDigestBeforeEvaluations : StepField
  /-- Features that the step circuit uses. -/
  featureFlags : FeatureFlags
  /-- Combiner of the lookup columns, where lookups are used. -/
  jointCombiner : Option StepField

section Expand

variable {K : Kimchi}

/-- The polynomials of the combined inner product, in order. -/
def innerProductPolys (oracles : DigestOracles) (ftEval1 : StepField)
    (e : ProofEvaluations ChunkedEvals) : List ChunkedEvals :=
  oracles.polys ++ [oracles.publicEvals, ⟨[oracles.ftEval0], [ftEval1]⟩] ++ baseColumns e ++
    optionalGates e ++ (List.ofFn e.lookupSorted).reduceOption ++
    [e.lookupAggregation, e.lookupTable].reduceOption ++ lookupSelectors e

/-- The call of `oracles_from_digest` for a proof and a domain. -/
def oracleInputs (verifier : Verifier K) (proof : VerifiableProof K.ProofRest) (domain : Domain) :
    OracleInputs where
  domain := domain
  maxPolySize := usizeShiftOne verifier.stepSrsLengthLog2
  zkRows := verifier.stepZkRows
  shift := K.shifts domain
  endoCoefficient := K.pallasBaseEndo
  featureFlags := proof.rawPlonk.featureFlags
  digest := proof.spongeDigestBeforeEvaluations
  alpha := toField verifier.stepEndo proof.rawPlonk.alpha
  beta := proof.rawPlonk.beta
  gamma := proof.rawPlonk.gamma
  zeta := toField verifier.stepEndo proof.rawPlonk.zeta
  jointCombiner := proof.rawPlonk.jointCombiner.map (toField verifier.stepEndo)
  prevChallenges := proof.oldBulletproofChallenges.map List.ofFn
  evals := toProofEvaluations proof.prevEvals
  ftEval1 := proof.prevEvals.ftEval1

/-- The exponent of the step domain that `expand_deferred` uses. -/
def expansionDomainLog2 (proof : VerifiableProof K.ProofRest) : ℕ := proof.stepDomainLog2.toNat % 64

/-- `expand_deferred`. -/
def expandDeferred (verifier : Verifier K) (proof : VerifiableProof K.ProofRest) :
    Except String ExpandedDeferredValues := do
  let domain ← expect (radix2Domain (expansionDomainLog2 proof))
    ("no radix-2 domain of size 2^" ++ toString proof.stepDomainLog2.toNat)
  let inputs := oracleInputs verifier proof domain
  let oracles ← oraclesFromDigest K inputs
  let zetaw := inputs.zeta * domain.groupGen
  let cip ← combinedInnerProduct oracles.v oracles.u
    (innerProductPolys oracles inputs.ftEval1 inputs.evals)
  let collapsed := combineEvals inputs.evals oracles.powersOfEvalPoints
  let omegaInv ← expect (fieldInverse domain.groupGen) "generator nonzero"
  let zkPolynomial := (inputs.zeta - omegaInv) *
    (inputs.zeta - omegaInv ^ wrappingSub verifier.stepZkRows 1) *
    (inputs.zeta - omegaInv ^ verifier.stepZkRows.toNat)
  let newChals := (List.ofFn proof.rawBulletproofChallenges).map (toField verifier.stepEndo)
  pure {
    alpha := proof.rawPlonk.alpha
    beta := proof.rawPlonk.beta
    gamma := proof.rawPlonk.gamma
    zeta := proof.rawPlonk.zeta
    perm := permScalars collapsed inputs.beta inputs.gamma (permutationAlpha inputs.alpha 0)
      zkPolynomial
    zetaToDomainSize := oracles.zeta1
    zetaToSrsLength := oracles.powersOfEvalPoints.zeta
    combinedInnerProduct := cip
    xi := oracles.vChal
    bulletproofPrechallenges := proof.rawBulletproofChallenges
    b := bPoly newChals inputs.zeta + oracles.u * bPoly newChals zetaw
    branchData := proof.branchData
    spongeDigestBeforeEvaluations := proof.spongeDigestBeforeEvaluations
    featureFlags := proof.rawPlonk.featureFlags
    jointCombiner := proof.rawPlonk.jointCombiner }

/-- The expanded values that are copied from the proof. -/
structure DeferredCarried (proof : VerifiableProof K.ProofRest) (dv : ExpandedDeferredValues) :
    Prop where
  /-- The challenge is the proof's. -/
  alpha_eq : dv.alpha = proof.rawPlonk.alpha
  /-- The challenge is the proof's. -/
  beta_eq : dv.beta = proof.rawPlonk.beta
  /-- The challenge is the proof's. -/
  gamma_eq : dv.gamma = proof.rawPlonk.gamma
  /-- The evaluation point is the proof's. -/
  zeta_eq : dv.zeta = proof.rawPlonk.zeta
  /-- The challenges of the opening are the proof's. -/
  prechallenges_eq : dv.bulletproofPrechallenges = proof.rawBulletproofChallenges
  /-- The branch data are the proof's. -/
  branchData_eq : dv.branchData = proof.branchData
  /-- The sponge digest is the proof's. -/
  digest_eq : dv.spongeDigestBeforeEvaluations = proof.spongeDigestBeforeEvaluations
  /-- The features are the proof's. -/
  features_eq : dv.featureFlags = proof.rawPlonk.featureFlags
  /-- The joint combiner is the proof's. -/
  jointCombiner_eq : dv.jointCombiner = proof.rawPlonk.jointCombiner

/-- Every expansion copies those values. -/
theorem expandDeferred_carried {verifier : Verifier K} {proof : VerifiableProof K.ProofRest}
    {dv : ExpandedDeferredValues} (h : expandDeferred verifier proof = .ok dv) :
    DeferredCarried proof dv := by
  simp only [expandDeferred, bind_eq_ok, pure_eq_ok] at h
  obtain ⟨domain, -, oracles, -, cip, -, omegaInv, -, hdv⟩ := h
  rw [← hdv]
  exact ⟨rfl, rfl, rfl, rfl, rfl, rfl, rfl, rfl, rfl⟩

/-- An expansion used a domain that exists. -/
theorem expandDeferred_domain {verifier : Verifier K} {proof : VerifiableProof K.ProofRest}
    {dv : ExpandedDeferredValues} (h : expandDeferred verifier proof = .ok dv) :
    ∃ domain, radix2Domain (expansionDomainLog2 proof) = some domain := by
  simp only [expandDeferred, bind_eq_ok] at h
  obtain ⟨domain, hdomain, -⟩ := h
  exact ⟨domain, expect_eq_ok.mp hdomain⟩

end Expand

/-- `fp_to_fq`: the integer of a step-field element in the wrap field. -/
def fpToFq (x : StepField) : WrapField := (x.val : WrapField)

/-- `cross_field_type1`. -/
def crossFieldType1 (raw : StepField) : WrapField := fpToFq ((raw - (2 ^ 255 + 1)) * 2⁻¹)

/-- A flag of the public input. -/
def flagField (enabled : Bool) : WrapField := if enabled then 1 else 0

/-- `pack_branch_data`. -/
def packBranchData (branchData : BranchData) : WrapField :=
  4 * fpToFq branchData.domainLog2 + flagField branchData.proofsVerifiedMask.1 +
    2 * flagField branchData.proofsVerifiedMask.2

/-- The flags that the public input carries, in order. -/
def publicFlags (features : FeatureFlags) : List Bool :=
  [features.rangeCheck0, features.rangeCheck1, features.foreignFieldAdd, features.foreignFieldMul,
    features.xor, features.rot, features.lookupFeatures.patterns.lookup,
    features.lookupFeatures.usesRuntimeTables]

/-- The presence flag and the value of the joint combiner. -/
def jointCombinerFields (jointCombiner : Option StepField) : List WrapField :=
  match jointCombiner with
  | some challenge => [1, fpToFq challenge]
  | none => [0, 0]

/-- `wrap_public_input`. -/
def wrapPublicInput (dv : ExpandedDeferredValues) (messagesForNextStepProofDigest : StepField)
    (messagesForNextWrapProofDigest : WrapField) : List WrapField :=
  [crossFieldType1 dv.combinedInnerProduct, crossFieldType1 dv.b,
    crossFieldType1 dv.zetaToSrsLength, crossFieldType1 dv.zetaToDomainSize,
    crossFieldType1 dv.perm, fpToFq dv.beta, fpToFq dv.gamma, fpToFq dv.alpha, fpToFq dv.zeta,
    fpToFq dv.xi, fpToFq dv.spongeDigestBeforeEvaluations, messagesForNextWrapProofDigest,
    fpToFq messagesForNextStepProofDigest] ++
  (List.ofFn dv.bulletproofPrechallenges).map fpToFq ++ [packBranchData dv.branchData] ++
  (publicFlags dv.featureFlags).map flagField ++ jointCombinerFields dv.jointCombiner

end EthereumSettlement.PicklesDeferred
