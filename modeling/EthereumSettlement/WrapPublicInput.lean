import EthereumSettlement.ExpansionBinding

/-!
# The public input of the wrap proof is injective

Forty elements of the wrap field stand for the deferred values and the message
digests of a step proof. Step-field elements keep their integers, which the larger
wrap field holds exactly, and shifted scalars are halved before, which the odd order
of the step field undoes. Branch data is one number of a domain byte and two bits,
and a flag in front of the joint combiner tells zero from none. So nothing that goes
into the public input can be changed without changing it.
-/

namespace EthereumSettlement.WrapPublicInput

open PastaPoseidon PicklesProof PicklesDeferred AccumulatorBinding ExpansionBinding

/-- Two is invertible in the step field. -/
theorem isUnit_two : IsUnit (2 : StepField) := by
  have hhalf : (2 : StepField) *
      0x2000000000000000000000000000000011234c7e04a67c8dcc96987680000001 = 1 := by
    decide
  exact IsUnit.of_mul_eq_one _ hhalf

/-- Shifted scalars keep their scalar. -/
theorem crossFieldType1_injective {a b : StepField} (h : crossFieldType1 a = crossFieldType1 b) :
    a = b := by
  have hhalves : (a - (2 ^ 255 + 1)) * 2⁻¹ = (b - (2 ^ 255 + 1)) * 2⁻¹ := fpToFq_injective h
  have hinverse : (2 : StepField)⁻¹ * 2 = 1 := ZMod.inv_mul_of_unit 2 isUnit_two
  have hshifted : a - (2 ^ 255 + 1) = b - (2 ^ 255 + 1) := by
    calc a - (2 ^ 255 + 1) = (a - (2 ^ 255 + 1)) * 2⁻¹ * 2 := by rw [mul_assoc, hinverse, mul_one]
      _ = (b - (2 ^ 255 + 1)) * 2⁻¹ * 2 := by rw [hhalves]
      _ = b - (2 ^ 255 + 1) := by rw [mul_assoc, hinverse, mul_one]
  exact sub_left_inj.mp hshifted

/-- Flags are determined by their elements. -/
theorem flagField_injective {a b : Bool} (h : flagField a = flagField b) : a = b := by
  rw [← flagField_eq_one a, ← flagField_eq_one b, h]

/-- Everything that goes into the public input is the same on both sides. -/
structure SamePublicValues (first second : ExpandedDeferredValues)
    (stepDigest stepDigest' : StepField) (wrapDigest wrapDigest' : WrapField) : Prop where
  /-- The combined evaluations. -/
  combinedInnerProduct : first.combinedInnerProduct = second.combinedInnerProduct
  /-- The challenge polynomials. -/
  b : first.b = second.b
  /-- The first power of the evaluation point. -/
  zetaToSrsLength : first.zetaToSrsLength = second.zetaToSrsLength
  /-- The second power of the evaluation point. -/
  zetaToDomainSize : first.zetaToDomainSize = second.zetaToDomainSize
  /-- The scalar of the permutation. -/
  perm : first.perm = second.perm
  /-- The constraint challenge. -/
  alpha : first.alpha = second.alpha
  /-- The first permutation challenge. -/
  beta : first.beta = second.beta
  /-- The second permutation challenge. -/
  gamma : first.gamma = second.gamma
  /-- The evaluation point. -/
  zeta : first.zeta = second.zeta
  /-- The combining challenge. -/
  xi : first.xi = second.xi
  /-- The sponge digest. -/
  spongeDigest : first.spongeDigestBeforeEvaluations = second.spongeDigestBeforeEvaluations
  /-- The digest for the next step proof. -/
  stepDigest_eq : stepDigest = stepDigest'
  /-- The digest for the next wrap proof. -/
  wrapDigest_eq : wrapDigest = wrapDigest'
  /-- The challenges of the opening. -/
  prechallenges : first.bulletproofPrechallenges = second.bulletproofPrechallenges
  /-- The branch data. -/
  branchData : first.branchData = second.branchData
  /-- The feature flags. -/
  flags : publicFlags first.featureFlags = publicFlags second.featureFlags
  /-- The joint combiner. -/
  jointCombiner : first.jointCombiner = second.jointCombiner

/-- The public input is injective: for domain exponents of one byte, equal public
inputs come from equal scalars, challenges, digests, branch data and flags and from
the same joint combiner. -/
theorem wrapPublicInput_injective {first second : ExpandedDeferredValues}
    {stepDigest stepDigest' : StepField} {wrapDigest wrapDigest' : WrapField}
    (hfirst : first.branchData.domainLog2.val < 2 ^ 8)
    (hsecond : second.branchData.domainLog2.val < 2 ^ 8)
    (h : wrapPublicInput first stepDigest wrapDigest =
      wrapPublicInput second stepDigest' wrapDigest') :
    SamePublicValues first second stepDigest stepDigest' wrapDigest wrapDigest' := by
  have hprechallenges := wrapPublicInput_challenges h
  simp only [wrapPublicInput, List.append_assoc] at h
  have hscalars := (List.append_inj h (by simp)).1
  have hbehind := (List.append_inj (List.append_inj h (by simp)).2 (by simp)).2
  have hbranch := (List.append_inj hbehind (by simp)).1
  have hflags := (List.append_inj (List.append_inj hbehind (by simp)).2 (by simp [publicFlags])).1
  have hjoint := (List.append_inj (List.append_inj hbehind (by simp)).2 (by simp [publicFlags])).2
  simp only [List.cons.injEq, and_true] at hscalars
  obtain ⟨hcip, hb, hsrs, hdomain, hperm, hbeta, hgamma, halpha, hzeta, hxi, hdigest, hwrap, hstep⟩ :=
    hscalars
  exact {
    combinedInnerProduct := crossFieldType1_injective hcip
    b := crossFieldType1_injective hb
    zetaToSrsLength := crossFieldType1_injective hsrs
    zetaToDomainSize := crossFieldType1_injective hdomain
    perm := crossFieldType1_injective hperm
    alpha := fpToFq_injective halpha
    beta := fpToFq_injective hbeta
    gamma := fpToFq_injective hgamma
    zeta := fpToFq_injective hzeta
    xi := fpToFq_injective hxi
    spongeDigest := fpToFq_injective hdigest
    stepDigest_eq := fpToFq_injective hstep
    wrapDigest_eq := hwrap
    prechallenges := hprechallenges
    branchData := packBranchData_injective hfirst hsecond (List.cons.inj hbranch).1
    flags := List.map_injective_iff.mpr (fun _ _ => flagField_injective) hflags
    jointCombiner := jointCombinerFields_injective hjoint }

/-- Deferred values with a joint combiner of zero, on a domain of the given size. -/
def plainDeferred (domainLog2 : StepField) : ExpandedDeferredValues where
  alpha := 1
  beta := (2 : ℕ)
  gamma := 3
  zeta := (4 : ℕ)
  perm := (5 : ℕ)
  zetaToDomainSize := 6
  zetaToSrsLength := 7
  combinedInnerProduct := 8
  xi := 9
  bulletproofPrechallenges := fun _ => 10
  b := 11
  branchData := ⟨domainLog2, (true, false)⟩
  spongeDigestBeforeEvaluations := 12
  featureFlags := noFeatures
  jointCombiner := some 0

/-- Two ways to write one domain exponent give the same public input, and the values
are the same. -/
theorem wrapPublicInput_injective_plain :
    SamePublicValues (plainDeferred 255) (plainDeferred (256 - 1)) 13 13 14 14 :=
  wrapPublicInput_injective (by decide +kernel) (by decide +kernel) (by decide +kernel)

end EthereumSettlement.WrapPublicInput
