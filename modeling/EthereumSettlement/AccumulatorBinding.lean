import EthereumSettlement.PicklesVerifier
import EthereumSettlement.ReferenceHashes

/-!
# Binding of the accumulator to the wrap proof's statement

The accumulator check compares a carried commitment with the one of the raw
challenges, and these are part of the public input: proofs with one public input
carry one commitment. The digest that the public input holds for the next wrap
proof is carried too, and the guest does not recompute it, nor does it compare the
commitments of the wrap proof's recursion challenges with those of the statement.
Whatever Kimchi checks, the digest belongs to the tested commitment in exactly the
proofs that carry the digest which the host converter would compute.
-/

namespace EthereumSettlement.AccumulatorBinding

open CheckedCalls PastaPoseidon PicklesProof PicklesDeferred PicklesVerifier ReferenceHashes

variable {K : Kimchi}

/-- The integers of the step field are canonical in the larger wrap field. -/
theorem fpToFq_injective {a b : StepField} (h : fpToFq a = fpToFq b) : a = b := by
  have hbound : fieldOrder < wrapFieldOrder := by decide
  have hval := congrArg ZMod.val h
  rw [fpToFq, fpToFq, ZMod.val_natCast, ZMod.val_natCast,
    Nat.mod_eq_of_lt (lt_trans (ZMod.val_lt a) hbound),
    Nat.mod_eq_of_lt (lt_trans (ZMod.val_lt b) hbound)] at hval
  exact ZMod.val_injective fieldOrder hval

/-- The public input starts with thirteen scalars. -/
theorem wrapPublicInput_digest (dv : ExpandedDeferredValues) (stepDigest : StepField)
    (wrapDigest : WrapField) : (wrapPublicInput dv stepDigest wrapDigest)[11]? = some wrapDigest := by
  rfl

/-- Equal public inputs have equal raw challenges. -/
theorem wrapPublicInput_challenges {dv₁ dv₂ : ExpandedDeferredValues} {s₁ s₂ : StepField}
    {w₁ w₂ : WrapField} (h : wrapPublicInput dv₁ s₁ w₁ = wrapPublicInput dv₂ s₂ w₂) :
    dv₁.bulletproofPrechallenges = dv₂.bulletproofPrechallenges := by
  simp only [wrapPublicInput, List.append_assoc] at h
  have hrest := (List.append_inj h (by simp)).2
  have hchallenges := (List.append_inj hrest (by simp)).1
  have hlists := List.map_injective_iff.mpr (fun _ _ => fpToFq_injective) hchallenges
  exact List.ofFn_injective hlists

/-- Proofs with the same public input that pass the accumulator check carry the
same commitment. -/
theorem commitment_determined {verifier : Verifier K} {first second : VerifiableProof K.ProofRest}
    {publicInput : List WrapField} (h₁ : ReachesKimchi verifier first publicInput)
    (h₂ : ReachesKimchi verifier second publicInput) :
    first.challengePolynomialCommitment = second.challengePolynomialCommitment := by
  have hinput₁ := h₁.publicInput_eq
  have hinput₂ := h₂.publicInput_eq
  simp only [provedPublicInput, bind_eq_ok, pure_eq_ok] at hinput₁ hinput₂
  obtain ⟨dv₁, hexpand₁, hpublic₁⟩ := hinput₁
  obtain ⟨dv₂, hexpand₂, hpublic₂⟩ := hinput₂
  have hraw := wrapPublicInput_challenges (hpublic₁.trans hpublic₂.symm)
  rw [(expandDeferred_carried hexpand₁).prechallenges_eq,
    (expandDeferred_carried hexpand₂).prechallenges_eq] at hraw
  rw [← (accumulatorCheck_iff.mp h₁.accumulator).2, ← (accumulatorCheck_iff.mp h₂.accumulator).2,
    hraw]

/-- The digest of the commitment and the challenge vectors that a proof carries,
as the host converter computes it. -/
def carriedMessageDigest (proof : VerifiableProof K.ProofRest) : Option WrapField :=
  if proof.wrapProof.prevChallenges.length ≤ paddedLength then
    some (hashMessagesForNextWrap K proof.challengePolynomialCommitment
      (padChallenges K (proof.wrapProof.prevChallenges.map (·.chals))))
  else none

/-- The commitments of the statement are the last ones of the recursion
challenges; those before them are padding. -/
def CommitmentsMatch (proof : VerifiableProof K.ProofRest) : Prop :=
  (proof.prevStepSgs.map fun sg => [sg]) <:+
    proof.wrapProof.prevChallenges.map (·.comm.chunks)

/-- The accumulator of an accepted proof is bound by its public input. -/
structure AccumulatorBound (kimchi : KimchiVerdict K) (verifier : Verifier K)
    (proof : VerifiableProof K.ProofRest) (publicInput : List WrapField) : Prop where
  /-- The public input holds the digest of the tested commitment and of the wrap
  proof's challenge vectors. -/
  committed : publicInput[11]? = carriedMessageDigest proof
  /-- The wrap proof's recursion commitments are those of the statement. -/
  commitments : CommitmentsMatch proof
  /-- No other accepted proof with this public input has another commitment. -/
  unique : ∀ other, verify kimchi verifier other = .ok true →
    provedPublicInput verifier other = .ok publicInput →
    other.challengePolynomialCommitment = proof.challengePolynomialCommitment

/-- Whatever Kimchi checks, acceptance binds the accumulator of the proof. -/
def BindsAccumulator (verifier : Verifier K) (proof : VerifiableProof K.ProofRest) : Prop :=
  ∀ kimchi, verify kimchi verifier proof = .ok true →
    ∃ publicInput, provedPublicInput verifier proof = .ok publicInput ∧
      AccumulatorBound kimchi verifier proof publicInput

/-- The proof carries the message that the host converter writes for it. -/
structure CarriesMessage (proof : VerifiableProof K.ProofRest) : Prop where
  /-- The carried digest is that of the carried message. -/
  digest : carriedMessageDigest proof = some proof.messagesForNextWrapProofDigest
  /-- The carried commitments are the verified ones. -/
  commitments : CommitmentsMatch proof

/-- The digest in the public input of a proof is the carried one. -/
theorem publicInput_digest {verifier : Verifier K} {proof : VerifiableProof K.ProofRest}
    {publicInput : List WrapField} (h : provedPublicInput verifier proof = .ok publicInput) :
    publicInput[11]? = some proof.messagesForNextWrapProofDigest := by
  simp only [provedPublicInput, bind_eq_ok, pure_eq_ok] at h
  obtain ⟨dv, -, hpublic⟩ := h
  rw [← hpublic]
  exact wrapPublicInput_digest dv _ _

/-- A proof that reaches Kimchi is accepted by some verdict, so that its accumulator
is bound only if it carries the converter's message. -/
theorem BindsAccumulator.carries {verifier : Verifier K} {proof : VerifiableProof K.ProofRest}
    {publicInput : List WrapField} (hbinds : BindsAccumulator verifier proof)
    (hreaches : ReachesKimchi verifier proof publicInput) : CarriesMessage proof := by
  have haccepted : verify (fun _ _ => true) verifier proof = .ok true :=
    (verify_eq_ok_iff _ verifier proof).mpr ⟨publicInput, hreaches, rfl⟩
  obtain ⟨derived, hderived, hbound⟩ := hbinds _ haccepted
  have hcommitted := hbound.committed
  rw [publicInput_digest hderived] at hcommitted
  exact ⟨hcommitted.symm, hbound.commitments⟩

/-- Acceptance binds the accumulator of a proof that carries the converter's message. -/
theorem CarriesMessage.binds {proof : VerifiableProof K.ProofRest} (hcarries : CarriesMessage proof)
    (verifier : Verifier K) : BindsAccumulator verifier proof := by
  intro kimchi haccepted
  obtain ⟨publicInput, hreaches, -⟩ := (verify_eq_ok_iff kimchi verifier proof).mp haccepted
  refine ⟨publicInput, hreaches.publicInput_eq, ?_, hcarries.commitments, ?_⟩
  · rw [publicInput_digest hreaches.publicInput_eq, hcarries.digest]
  · intro other hother hpublic
    obtain ⟨otherInput, hotherReaches, -⟩ := (verify_eq_ok_iff kimchi verifier other).mp hother
    have hsame : otherInput = publicInput :=
      Except.ok.inj (hotherReaches.publicInput_eq.symm.trans hpublic)
    rw [hsame] at hotherReaches
    exact commitment_determined hotherReaches hreaches

/-- Acceptance binds the accumulator in exactly the proofs that the guest's own
checks stop before Kimchi or that carry the message of the host converter. -/
theorem accumulator_binding_iff (verifier : Verifier K) (proof : VerifiableProof K.ProofRest) :
    BindsAccumulator verifier proof ↔
      ((∃ publicInput, ReachesKimchi verifier proof publicInput) → CarriesMessage proof) := by
  constructor
  · intro hbinds hreaches
    obtain ⟨publicInput, hreaches⟩ := hreaches
    exact hbinds.carries hreaches
  · intro hcarries kimchi haccepted
    obtain ⟨publicInput, hreaches, -⟩ := (verify_eq_ok_iff kimchi verifier proof).mp haccepted
    exact (hcarries ⟨publicInput, hreaches⟩).binds verifier kimchi haccepted

/-- Padding a padded list changes nothing. -/
theorem padChallenges_padded (challenges : List (List WrapField))
    (h : challenges.length ≤ paddedLength) :
    (padChallenges K challenges).length = paddedLength ∧
      padChallenges K (padChallenges K challenges) = padChallenges K challenges := by
  have hlength : (padChallenges K challenges).length = paddedLength := by
    rw [padChallenges, List.length_append, List.length_replicate]
    omega
  refine ⟨hlength, ?_⟩
  conv_lhs => rw [padChallenges, hlength, Nat.sub_self, List.replicate_zero, List.nil_append]

/-- The host converter writes that message whenever the wrap proof has the padded
challenge vectors and the commitments of the skeleton. -/
theorem intoVerifiable_carries {skeleton : OcamlProof} {wrapProof : WrapProof K.ProofRest}
    {wrapVk : WrapVerifierIndex K.IndexRest} {appState : List StepField}
    {proof : VerifiableProof K.ProofRest}
    (h : skeleton.intoVerifiable wrapProof wrapVk appState = .ok proof)
    (hchallenges : wrapProof.prevChallenges.map (·.chals) =
      padChallenges K (skeleton.prevWrapExpanded K))
    (hcommitments : (skeleton.prevStepSgs.map fun sg => [sg]) <:+
      wrapProof.prevChallenges.map (·.comm.chunks)) : CarriesMessage proof := by
  simp only [OcamlProof.intoVerifiable, bind_eq_ok, require_eq_ok, exists_const, pure_eq_ok] at h
  obtain ⟨vkFields, -, hlength, hproof⟩ := h
  have hexpanded : (skeleton.prevWrapExpanded K).length ≤ paddedLength := by
    rw [OcamlProof.prevWrapExpanded, List.length_map]
    exact hlength
  obtain ⟨hpadded, hagain⟩ := padChallenges_padded (K := K) _ hexpanded
  have hcount : wrapProof.prevChallenges.length = paddedLength := by
    rw [← hpadded, ← hchallenges, List.length_map]
  subst hproof
  constructor
  · rw [carriedMessageDigest, if_pos (le_of_eq hcount), hchallenges, hagain]
  · exact hcommitments

/-- Acceptance binds the accumulator of a converted proof, whichever verifier accepts
it. -/
theorem binds_of_intoVerifiable {skeleton : OcamlProof} {wrapProof : WrapProof K.ProofRest}
    {wrapVk : WrapVerifierIndex K.IndexRest} {appState : List StepField}
    {proof : VerifiableProof K.ProofRest}
    (h : skeleton.intoVerifiable wrapProof wrapVk appState = .ok proof)
    (hchallenges : wrapProof.prevChallenges.map (·.chals) =
      padChallenges K (skeleton.prevWrapExpanded K))
    (hcommitments : (skeleton.prevStepSgs.map fun sg => [sg]) <:+
      wrapProof.prevChallenges.map (·.comm.chunks)) (verifier : Verifier K) :
    BindsAccumulator verifier proof :=
  (intoVerifiable_carries h hchallenges hcommitments).binds verifier

/-- A column that is zero at both points. -/
def zeroColumn : ChunkedEvals := ⟨[0], [0]⟩

/-- The evaluations of a step proof whose columns are all zero. -/
def zeroEvals : ChunkedAllEvals where
  ftEval1 := 0
  publicEvals := zeroColumn
  z := zeroColumn
  w := fun _ => zeroColumn
  coefficients := fun _ => zeroColumn
  s := fun _ => zeroColumn
  index := fun _ => zeroColumn
  rangeCheck0Selector := none
  rangeCheck1Selector := none
  foreignFieldAddSelector := none
  foreignFieldMulSelector := none
  xorSelector := none
  rotSelector := none
  lookupAggregation := none
  lookupTable := none
  lookupSorted := fun _ => none
  runtimeLookupTable := none
  runtimeLookupTableSelector := none
  xorLookupSelector := none
  lookupGateLookupSelector := none
  rangeCheckLookupSelector := none
  foreignFieldMulLookupSelector := none

/-- No optional feature. -/
def noFeatures : FeatureFlags := ⟨false, false, false, false, false, false,
  ⟨⟨false, false, false, false⟩, false, false⟩⟩

/-- The Kimchi functions on zero columns: the gates are scaled by their selectors,
so that the constant term vanishes. The multi-scalar multiplication and the block
cipher of the wrap field are arbitrary. -/
def zeroKimchi (msm : List (Affine WrapField) → List StepField → Affine WrapField)
    (wrapBlockCipher : WrapField × WrapField × WrapField → WrapField × WrapField × WrapField) :
    Kimchi where
  IndexRest := Unit
  ProofRest := Unit
  msm := msm
  shifts := fun _ i => [1, 0xb9cdc8fd0bd4b27e2a74af7aebd5734d52d75bdf85ebf1cad03413e914a2e3,
    0x33bfcf8112720332825bd83d44d92cadc0c30466e8102c419c30fa2665695a,
    0x87f4bb29954e16960f2de3a1fa5ac7b62146db348c7c9f0e8bf10b2c8e8411,
    0xec71373b9f6cf15ed1949647365db60b2e26c3a8abba5bb06bf23e9dbe5893,
    0xf39197cc4c55084c68d31f64f1a172406b585cb86445f00c248c721c496d10,
    0xb8dd039799dbee12d2e6a4299a83e067353c0143c5dfd203190c239159eea3].getD i 0
  constantTerm := fun _ _ _ _ _ _ => .ok 0
  pallasBaseEndo := 0x2d33357cb532458ed3552a23a8554e5005270d29d19fc7d27b7fd22f0201b547
  vestaScalarEndo := 0x12ccca834acdba712caad5dc57aab1b01d1f8bd237ad31491dad5ebdfdfe4ab9
  pallasScalarEndo := 0x397e65a7d7c1ad71aee24b27e308f0a61259527ec1d4752e619d1840af55f1b1
  stepBlockCipher := fun state =>
    let result := poseidonBlockCipher ⟨state.1, state.2.1, state.2.2⟩
    (result.first, result.second, result.capacity)
  wrapBlockCipher := wrapBlockCipher
  dummyChallenge := fun _ => 0

section Sample

variable (msm : List (Affine WrapField) → List StepField → Affine WrapField)
  (wrapBlockCipher : WrapField × WrapField × WrapField → WrapField × WrapField × WrapField)
  (srs : List (Affine WrapField))

/-- A commitment to the zero polynomial. -/
def zeroComm : PolyComm StepField := ⟨[⟨0, 0, true⟩]⟩

/-- A verifier with the given generators. -/
def sampleVerifier : Verifier (zeroKimchi msm wrapBlockCipher) where
  wrapVk := ⟨fun _ => zeroComm, fun _ => zeroComm, zeroComm, zeroComm, zeroComm, zeroComm, zeroComm,
    zeroComm, ()⟩
  vestaSrs := srs
  stepZkRows := 3
  stepSrsLengthLog2 := 16
  stepEndo := 0x12ccca834acdba712caad5dc57aab1b01d1f8bd237ad31491dad5ebdfdfe4ab9

/-- The recursion challenge of a padded slot. -/
def sampleRecursion : RecursionChallenge := ⟨List.replicate 15 0, zeroComm⟩

/-- A proof record without earlier proofs, on a step domain of sixteen rows, with
the given features, branch data and digest for the next wrap proof. -/
def sampleProof (featureFlags : FeatureFlags) (branchData : BranchData) (wrapDigest : WrapField) :
    VerifiableProof (zeroKimchi msm wrapBlockCipher).ProofRest where
  wrapProof := ⟨[sampleRecursion, sampleRecursion], ()⟩
  rawPlonk := ⟨0, 0, 0, 0, none, featureFlags⟩
  rawBulletproofChallenges := fun _ => 0
  branchData := branchData
  spongeDigestBeforeEvaluations := 0
  prevEvals := zeroEvals
  pEval0Chunks := [0]
  oldBulletproofChallenges := []
  appState := [0, 0]
  prevStepSgs := []
  challengePolynomialCommitment :=
    computeSg (sampleVerifier msm wrapBlockCipher srs) fun _ => 0
  messagesForNextStepProofDigest :=
    spongeDigest (zeroKimchi msm wrapBlockCipher).stepBlockCipher
      (stepMessageInputs (List.replicate 56 0) [0, 0] [])
  messagesForNextWrapProofDigest := wrapDigest
  stepDomainLog2 := 4

end Sample

/-- There are as many coefficients as subsets of the challenges. -/
theorem bPolyCoefficients_length (chals : List StepField) :
    (bPolyCoefficients chals).length = 2 ^ chals.length := by
  induction chals with
  | nil => rfl
  | cons chal chals ih =>
    have hlength : (bPolyCoefficients chals ++ (bPolyCoefficients chals).map (· * chal)).length =
        2 ^ (chals.length + 1) := by
      rw [List.length_append, List.length_map, ih]
      omega
    exact hlength

/-- The denominator of `ft_eval0`. -/
def ftDenominator (o : OracleInputs) : StepField :=
  (o.zeta - o.domain.groupGen ^ wrappingSub (BitVec.ofNat 64 o.domain.size) o.zkRows) * (o.zeta - 1)

/-- The oracles of a step proof are computed when the public evaluations are given,
the denominator does not vanish and the linearization can be evaluated. -/
theorem oraclesFromDigest_succeeds (o : OracleInputs) {publicEvals : ChunkedEvals}
    (hpublic : o.evals.publicEvals = some publicEvals) (hdenominator : ftDenominator o ≠ 0)
    (hconstant : ∀ domain zeta evals constants challenges, ∃ value,
      K.constantTerm o.featureFlags domain zeta evals constants challenges = .ok value) :
    ∃ oracles, oraclesFromDigest K o = .ok oracles ∧ oracles.publicEvals = publicEvals ∧
      oracles.polys.length = o.prevChallenges.length := by
  obtain ⟨value, hvalue⟩ := hconstant o.domain o.zeta
    (combineEvals o.evals ⟨o.zeta ^ o.maxPolySize, (o.zeta * o.domain.groupGen) ^ o.maxPolySize⟩)
    ⟨o.endoCoefficient, o.zkRows⟩ ⟨o.alpha, o.beta, o.gamma, o.jointCombiner.getD 0⟩
  have hinverse : fieldInverse (ftDenominator o) = some (ftDenominator o)⁻¹ := by
    rw [fieldInverse, if_neg hdenominator]
  unfold ftDenominator at hinverse
  unfold oraclesFromDigest
  simp only [hpublic, hinverse, hvalue, expect, context, pure_bind]
  refine ⟨_, rfl, rfl, ?_⟩
  exact List.length_map _

/-- A computable domain of sixteen rows. -/
def sampleDomain : Domain := ⟨16, (fun x => x * x)^[28]
  ((0x2bce74deac30ebda362120830561f81aea322bf2b7bb7584bdad6fabd87ea32f : ℕ) : StepField)⟩

/-- The effective scalar of the sample's evaluation point. -/
def sampleZeta : StepField :=
  toField 0x12ccca834acdba712caad5dc57aab1b01d1f8bd237ad31491dad5ebdfdfe4ab9 0

/-- The evaluation point avoids the last rows of the domain. -/
theorem sample_denominator :
    (sampleZeta - sampleDomain.groupGen ^ wrappingSub (BitVec.ofNat 64 sampleDomain.size) 3) *
      (sampleZeta - 1) ≠ 0 := by
  decide +kernel

section Sample

variable (msm : List (Affine WrapField) → List StepField → Affine WrapField)
  (wrapBlockCipher : WrapField × WrapField × WrapField → WrapField × WrapField × WrapField)
  (srs : List (Affine WrapField)) (featureFlags : FeatureFlags) (branchData : BranchData)
  (wrapDigest : WrapField)

/-- The deferred values of the sample can be expanded. -/
theorem sample_expands : ∃ dv, expandDeferred (sampleVerifier msm wrapBlockCipher srs)
    (sampleProof msm wrapBlockCipher srs featureFlags branchData wrapDigest) = .ok dv := by
  have hdomain : radix2Domain (expansionDomainLog2
      (sampleProof msm wrapBlockCipher srs featureFlags branchData wrapDigest)) =
        some sampleDomain := rfl
  have hgenerator : sampleDomain.groupGen ≠ 0 := by decide
  have hdenominator : ftDenominator (oracleInputs (sampleVerifier msm wrapBlockCipher srs)
      (sampleProof msm wrapBlockCipher srs featureFlags branchData wrapDigest) sampleDomain) ≠ 0 := by
    unfold ftDenominator
    exact sample_denominator
  obtain ⟨oracles, horacles, hpublic, hpolys⟩ := oraclesFromDigest_succeeds
    (K := zeroKimchi msm wrapBlockCipher)
    (oracleInputs (sampleVerifier msm wrapBlockCipher srs)
      (sampleProof msm wrapBlockCipher srs featureFlags branchData wrapDigest) sampleDomain)
    rfl hdenominator (fun _ _ _ _ _ => ⟨0, rfl⟩)
  have hnone : oracles.polys = [] := List.length_eq_zero_iff.mp hpolys
  have hcolumns : ∀ poly ∈ innerProductPolys oracles 0 (toProofEvaluations zeroEvals),
      poly.zeta.length ≤ poly.zetaOmega.length := by
    have hbase : ∀ poly ∈ baseColumns (toProofEvaluations zeroEvals), poly = zeroColumn := by
      intro poly hpoly
      simpa [baseColumns, toProofEvaluations, zeroEvals] using hpoly
    have hpublicZero : oracles.publicEvals = zeroColumn := hpublic
    have hgates : optionalGates (toProofEvaluations zeroEvals) = [] := rfl
    have hsorted : (List.ofFn (toProofEvaluations zeroEvals).lookupSorted).reduceOption = [] := rfl
    have hselectors : lookupSelectors (toProofEvaluations zeroEvals) = [] := rfl
    intro poly hpoly
    rw [innerProductPolys, hnone, hpublicZero, hgates, hsorted, hselectors] at hpoly
    simp only [List.nil_append, List.append_nil, List.mem_append, List.mem_cons, List.not_mem_nil,
      or_false] at hpoly
    rcases hpoly with ((hzero | hft) | hcolumn) | hlookup
    · rw [hzero]
      rfl
    · rw [hft]
      rfl
    · rw [hbase poly hcolumn]
      rfl
    · cases hlookup
  obtain ⟨cip, hcip⟩ : ∃ cip, combinedInnerProduct oracles.v oracles.u
      (innerProductPolys oracles 0 (toProofEvaluations zeroEvals)) = .ok cip :=
    ⟨_, require_bind_eq_ok.mpr ⟨hcolumns, rfl⟩⟩
  have hinverse : fieldInverse sampleDomain.groupGen = some sampleDomain.groupGen⁻¹ := by
    rw [fieldInverse, if_neg hgenerator]
  refine ⟨_, bind_eq_ok.mpr ⟨sampleDomain, ?_, bind_eq_ok.mpr ⟨oracles, horacles,
    bind_eq_ok.mpr ⟨cip, hcip, bind_eq_ok.mpr ⟨sampleDomain.groupGen⁻¹, ?_, rfl⟩⟩⟩⟩⟩
  · rw [hdomain]
    rfl
  · rw [hinverse]
    rfl

/-- The sample carries the digest of its statement. -/
theorem sample_checked : checkAppStateBinding (sampleVerifier msm wrapBlockCipher srs)
    (sampleProof msm wrapBlockCipher srs featureFlags branchData wrapDigest) = true := by
  have hvk : wrapVkStepFields (sampleVerifier msm wrapBlockCipher srs).wrapVk =
      some (List.replicate 56 0) := rfl
  exact checkAppStateBinding_iff.mpr ⟨rfl, _, hvk, rfl⟩

/-- The sample passes every check of the guest. -/
theorem sample_reaches (hsrs : 2 ^ 16 ≤ srs.length) :
    ∃ publicInput, ReachesKimchi (sampleVerifier msm wrapBlockCipher srs)
      (sampleProof msm wrapBlockCipher srs featureFlags branchData wrapDigest) publicInput := by
  obtain ⟨dv, hdv⟩ := sample_expands msm wrapBlockCipher srs featureFlags branchData wrapDigest
  have hlength : (bPolyCoefficients ((List.ofFn fun _ : Fin 16 => (0 : StepField)).map
      (toField (sampleVerifier msm wrapBlockCipher srs).stepEndo))).length = 2 ^ 16 := by
    rw [bPolyCoefficients_length, List.length_map, List.length_ofFn]
  refine ⟨_, ?_, ?_, bind_eq_ok.mpr ⟨dv, hdv, rfl⟩⟩
  · exact sample_checked msm wrapBlockCipher srs featureFlags branchData wrapDigest
  · exact accumulatorCheck_iff.mpr ⟨⟨hlength, hsrs⟩, rfl⟩

end Sample

/-- The sample with a digest that differs from that of its commitment by one. -/
def unboundProof (msm : List (Affine WrapField) → List StepField → Affine WrapField)
    (wrapBlockCipher : WrapField × WrapField × WrapField → WrapField × WrapField × WrapField)
    (srs : List (Affine WrapField)) :
    VerifiableProof (zeroKimchi msm wrapBlockCipher).ProofRest :=
  sampleProof msm wrapBlockCipher srs noFeatures ⟨(4 : ℕ), (false, false)⟩
    (hashMessagesForNextWrap (zeroKimchi msm wrapBlockCipher)
      (computeSg (sampleVerifier msm wrapBlockCipher srs) fun _ => 0)
      [List.replicate 15 0, List.replicate 15 0] + 1)

/-- For every multi-scalar multiplication, every block cipher of the wrap field and
every SRS of the protocol's size, acceptance of that proof does not bind its
accumulator. -/
def DigestUnbound : Prop :=
  ∀ msm wrapBlockCipher srs, 2 ^ 16 ≤ srs.length →
    ¬BindsAccumulator (sampleVerifier msm wrapBlockCipher srs)
      (unboundProof msm wrapBlockCipher srs)

/-- The guest hands a proof to Kimchi whose digest belongs to no commitment it
tests. -/
theorem digest_unbound : DigestUnbound := by
  intro msm wrapBlockCipher srs hsrs hbinds
  obtain ⟨publicInput, hreaches⟩ := sample_reaches msm wrapBlockCipher srs noFeatures
    ⟨4, (false, false)⟩ _ hsrs
  have hdigest := (hbinds.carries hreaches).digest
  have hcarried : carriedMessageDigest (unboundProof msm wrapBlockCipher srs) =
      some (hashMessagesForNextWrap (zeroKimchi msm wrapBlockCipher)
        (computeSg (sampleVerifier msm wrapBlockCipher srs) fun _ => 0)
        [List.replicate 15 0, List.replicate 15 0]) := rfl
  rw [hcarried] at hdigest
  have hsame := Option.some.inj hdigest
  have hone : (1 : WrapField) = 0 := left_eq_add.mp hsame
  exact absurd hone (by decide)

end EthereumSettlement.AccumulatorBinding
