import EthereumSettlement.AccumulatorBinding

/-!
# Binding of the deferred expansion to the public input

The expansion of a step proof reads its domain from `step_domain_log2` and its
linearization from the carried feature set, while the public input packs
`branch_data.domain_log2` and eight of the flags. The domain of the expansion, the
lookup patterns besides `lookup` and the joint-lookup flag are therefore the
prover's choice. They agree with the public input in exactly the proofs whose
copies agree as the wire parser fills them.
-/

namespace EthereumSettlement.ExpansionBinding

open CheckedCalls PastaPoseidon PicklesProof PicklesDeferred PicklesVerifier AccumulatorBinding

variable {K : Kimchi}

/-- The flags in a public input, as the wire of a proof skeleton has them. -/
def publicWireFlags (publicInput : List WrapField) : WireFlags where
  rangeCheck0 := publicInput.getD 30 0 = 1
  rangeCheck1 := publicInput.getD 31 0 = 1
  foreignFieldAdd := publicInput.getD 32 0 = 1
  foreignFieldMul := publicInput.getD 33 0 = 1
  xor := publicInput.getD 34 0 = 1
  rot := publicInput.getD 35 0 = 1
  lookup := publicInput.getD 36 0 = 1
  runtimeTables := publicInput.getD 37 0 = 1

/-- The eight flags of a feature set that the public input carries. -/
def wireFlags (features : FeatureFlags) : WireFlags where
  rangeCheck0 := features.rangeCheck0
  rangeCheck1 := features.rangeCheck1
  foreignFieldAdd := features.foreignFieldAdd
  foreignFieldMul := features.foreignFieldMul
  xor := features.xor
  rot := features.rot
  lookup := features.lookupFeatures.patterns.lookup
  runtimeTables := features.lookupFeatures.usesRuntimeTables

/-- A flag of the public input is read back. -/
theorem flagField_eq_one (enabled : Bool) : decide (flagField enabled = 1) = enabled := by
  cases enabled with
  | false => decide
  | true => decide

/-- The packed branch data of a public input. -/
theorem wrapPublicInput_branch (dv : ExpandedDeferredValues) (stepDigest : StepField)
    (wrapDigest : WrapField) :
    (wrapPublicInput dv stepDigest wrapDigest)[29]? = some (packBranchData dv.branchData) := by
  rfl

/-- The flags of a public input are those of the expanded features. -/
theorem wrapPublicInput_flags (dv : ExpandedDeferredValues) (stepDigest : StepField)
    (wrapDigest : WrapField) :
    publicWireFlags (wrapPublicInput dv stepDigest wrapDigest) = wireFlags dv.featureFlags := by
  have hflags : publicWireFlags (wrapPublicInput dv stepDigest wrapDigest) =
      ⟨decide (flagField dv.featureFlags.rangeCheck0 = 1),
        decide (flagField dv.featureFlags.rangeCheck1 = 1),
        decide (flagField dv.featureFlags.foreignFieldAdd = 1),
        decide (flagField dv.featureFlags.foreignFieldMul = 1),
        decide (flagField dv.featureFlags.xor = 1), decide (flagField dv.featureFlags.rot = 1),
        decide (flagField dv.featureFlags.lookupFeatures.patterns.lookup = 1),
        decide (flagField dv.featureFlags.lookupFeatures.usesRuntimeTables = 1)⟩ := by
    rfl
  rw [hflags]
  simp only [flagField_eq_one]
  rfl

/-- Branch data with one mask is determined by its packing. -/
theorem packBranchData_domain {a b : StepField} {mask : Bool × Bool}
    (h : packBranchData ⟨a, mask⟩ = packBranchData ⟨b, mask⟩) : a = b := by
  have hquarter : (0x3000000000000000000000000000000019b4f2bd072f7ea629353058c0000001 : WrapField) * 4 = 1 := by
    decide
  have hfour : 4 * fpToFq a = 4 * fpToFq b := add_right_cancel (add_right_cancel h)
  have hfields : fpToFq a = fpToFq b := by
    have hscaled := congrArg
      (fun x => (0x3000000000000000000000000000000019b4f2bd072f7ea629353058c0000001 : WrapField) * x) hfour
    simpa only [← mul_assoc, hquarter, one_mul] using hscaled
  exact fpToFq_injective hfields

/-- Branch data is packed as a number. -/
theorem packBranchData_eq_natCast (branchData : BranchData) :
    packBranchData branchData =
      ((4 * branchData.domainLog2.val + branchData.proofsVerifiedMask.1.toNat +
        2 * branchData.proofsVerifiedMask.2.toNat : ℕ) : WrapField) := by
  have hflag : ∀ flag : Bool, flagField flag = (flag.toNat : WrapField) := by
    intro flag
    cases flag with
    | false => rfl
    | true => rfl
  rw [packBranchData, fpToFq, hflag, hflag]
  push_cast
  rfl

/-- The packing of branch data with domain exponents of one byte determines it. -/
theorem packBranchData_injective {first second : BranchData}
    (hfirst : first.domainLog2.val < 2 ^ 8) (hsecond : second.domainLog2.val < 2 ^ 8)
    (h : packBranchData first = packBranchData second) : first = second := by
  rw [packBranchData_eq_natCast, packBranchData_eq_natCast] at h
  have hbound : 2048 ≤ wrapFieldOrder := by decide
  have hbit₁ := first.proofsVerifiedMask.1.toNat_le
  have hbit₂ := first.proofsVerifiedMask.2.toNat_le
  have hbit₃ := second.proofsVerifiedMask.1.toNat_le
  have hbit₄ := second.proofsVerifiedMask.2.toNat_le
  have hval := congrArg ZMod.val h
  rw [ZMod.val_natCast, ZMod.val_natCast, Nat.mod_eq_of_lt (by omega),
    Nat.mod_eq_of_lt (by omega)] at hval
  have hdomain : first.domainLog2 = second.domainLog2 := ZMod.val_injective fieldOrder (by omega)
  have hbits : ∀ a b : Bool, a.toNat = b.toNat → a = b := by decide
  have hlow := hbits first.proofsVerifiedMask.1 second.proofsVerifiedMask.1 (by omega)
  have hhigh := hbits first.proofsVerifiedMask.2 second.proofsVerifiedMask.2 (by omega)
  have hmask : first.proofsVerifiedMask = second.proofsVerifiedMask := Prod.ext hlow hhigh
  cases first with
  | mk domain mask =>
    cases second with
    | mk domain' mask' =>
      rw [BranchData.mk.injEq]
      exact ⟨hdomain, hmask⟩

/-- The packing of a small domain determines it, whatever the masks. -/
theorem packBranchData_small_injective {a b : ℕ} (ha : a < 64) (hb : b < 64)
    {first second : Bool × Bool}
    (h : packBranchData ⟨(a : StepField), first⟩ = packBranchData ⟨(b : StepField), second⟩) :
    a = b := by
  have hval : ∀ {log2 : ℕ}, log2 < 64 → ((log2 : ℕ) : StepField).val = log2 := by
    intro log2 hlog2
    rw [ZMod.val_natCast, Nat.mod_eq_of_lt (lt_trans hlog2 (by decide))]
  have hdata := @packBranchData_injective ⟨(a : StepField), first⟩ ⟨(b : StepField), second⟩
    (by rw [hval ha]; omega) (by rw [hval hb]; omega) h
  have hdomain := congrArg (fun data => data.domainLog2.val) hdata
  dsimp only at hdomain
  rw [hval ha, hval hb] at hdomain
  exact hdomain

/-- What the expansion uses is what the public input says. -/
structure ExpansionBound (proof : VerifiableProof K.ProofRest) (publicInput : List WrapField) :
    Prop where
  /-- The packed domain is the one of the expansion. -/
  domain : publicInput[29]? = some (packBranchData
    ⟨(expansionDomainLog2 proof : StepField), proof.branchData.proofsVerifiedMask⟩)
  /-- The features of the linearization are those that the parser derives from the
  flags of the public input. -/
  features : proof.rawPlonk.featureFlags = parseFeatureFlags (publicWireFlags publicInput)

/-- The copies that the prover carries agree as the wire parser fills them. -/
structure CopiesAgree (proof : VerifiableProof K.ProofRest) : Prop where
  /-- The domain is the one of the branch data. -/
  domain : proof.branchData.domainLog2 = ((proof.stepDomainLog2.toNat % 64 : ℕ) : StepField)
  /-- The exclusive or agrees with its lookups. -/
  xor : proof.rawPlonk.featureFlags.lookupFeatures.patterns.xor = proof.rawPlonk.featureFlags.xor
  /-- The range checks agree with their lookups. -/
  rangeCheck : proof.rawPlonk.featureFlags.lookupFeatures.patterns.rangeCheck =
    (proof.rawPlonk.featureFlags.rangeCheck0 || proof.rawPlonk.featureFlags.rangeCheck1 ||
      proof.rawPlonk.featureFlags.rot)
  /-- The foreign-field multiplication agrees with its lookups. -/
  foreignFieldMul : proof.rawPlonk.featureFlags.lookupFeatures.patterns.foreignFieldMul =
    proof.rawPlonk.featureFlags.foreignFieldMul
  /-- Joint lookups are used when some gate looks up. -/
  jointLookupUsed : proof.rawPlonk.featureFlags.lookupFeatures.jointLookupUsed =
    (proof.rawPlonk.featureFlags.xor || proof.rawPlonk.featureFlags.lookupFeatures.patterns.lookup)

/-- The features of agreeing copies are those derived from the eight flags. -/
theorem parseFeatureFlags_iff (features : FeatureFlags) :
    features = parseFeatureFlags (wireFlags features) ↔
      features.lookupFeatures.patterns.xor = features.xor ∧
      features.lookupFeatures.patterns.rangeCheck =
        (features.rangeCheck0 || features.rangeCheck1 || features.rot) ∧
      features.lookupFeatures.patterns.foreignFieldMul = features.foreignFieldMul ∧
      features.lookupFeatures.jointLookupUsed =
        (features.xor || features.lookupFeatures.patterns.lookup) := by
  obtain ⟨rangeCheck0, rangeCheck1, foreignFieldAdd, foreignFieldMul, xor, rot,
    ⟨⟨patternXor, lookup, patternRange, patternMul⟩, joint, runtime⟩⟩ := features
  simp only [parseFeatureFlags, wireFlags, LookupPatterns.jointLookupsUsed, FeatureFlags.mk.injEq,
    LookupFeatures.mk.injEq, LookupPatterns.mk.injEq, true_and, and_true, and_assoc]

/-- What the public input of a proof says of its branch and features. -/
theorem publicInput_carried {verifier : Verifier K} {proof : VerifiableProof K.ProofRest}
    {publicInput : List WrapField} (h : ReachesKimchi verifier proof publicInput) :
    publicInput[29]? = some (packBranchData proof.branchData) ∧
      publicWireFlags publicInput = wireFlags proof.rawPlonk.featureFlags := by
  have hinput := h.publicInput_eq
  simp only [provedPublicInput, bind_eq_ok, pure_eq_ok] at hinput
  obtain ⟨dv, hexpand, hpublic⟩ := hinput
  have hcarried := expandDeferred_carried hexpand
  rw [← hpublic, wrapPublicInput_branch, wrapPublicInput_flags, hcarried.branchData_eq,
    hcarried.features_eq]
  exact ⟨rfl, rfl⟩

/-- The expansion of a proof that reaches Kimchi is bound by its public input in
exactly the case that the copies agree. -/
theorem expansionBound_iff {verifier : Verifier K} {proof : VerifiableProof K.ProofRest}
    {publicInput : List WrapField} (h : ReachesKimchi verifier proof publicInput) :
    ExpansionBound proof publicInput ↔ CopiesAgree proof := by
  obtain ⟨hbranch, hflags⟩ := publicInput_carried h
  constructor
  · intro hbound
    have hdomain := hbound.domain
    rw [hbranch] at hdomain
    have hfeatures := hbound.features
    rw [hflags] at hfeatures
    obtain ⟨hxor, hrange, hmul, hjoint⟩ := (parseFeatureFlags_iff _).mp hfeatures
    exact ⟨packBranchData_domain (Option.some.inj hdomain), hxor, hrange, hmul, hjoint⟩
  · intro hcopies
    have hfeatures := (parseFeatureFlags_iff proof.rawPlonk.featureFlags).mpr
      ⟨hcopies.xor, hcopies.rangeCheck, hcopies.foreignFieldMul, hcopies.jointLookupUsed⟩
    constructor
    · rw [hbranch, expansionDomainLog2, ← hcopies.domain]
    · rw [hflags]
      exact hfeatures

/-- Two public inputs with the same challenges, branch data, flags and joint
combiner. -/
structure SamePublic (first second : List WrapField) : Prop where
  /-- The four challenges. -/
  challenges : (first.drop 5).take 4 = (second.drop 5).take 4
  /-- The branch data. -/
  branch : first[29]? = second[29]?
  /-- The feature flags. -/
  flags : publicWireFlags first = publicWireFlags second
  /-- The entries from the joint combiner on. -/
  jointCombiner : first.drop 38 = second.drop 38

/-- Two proofs are expanded with the same domain, shifts, linearization and
challenges. -/
structure ExpandedAlike (verifier : Verifier K) (first second : VerifiableProof K.ProofRest)
    (domain : Domain) : Prop where
  /-- The first is expanded over the domain. -/
  domain_first : radix2Domain (expansionDomainLog2 first) = some domain
  /-- The second is expanded over the domain. -/
  domain_second : radix2Domain (expansionDomainLog2 second) = some domain
  /-- The shifts agree. -/
  shift : (oracleInputs verifier first domain).shift = (oracleInputs verifier second domain).shift
  /-- The constant terms agree. -/
  linearization : K.constantTerm (oracleInputs verifier first domain).featureFlags =
    K.constantTerm (oracleInputs verifier second domain).featureFlags
  /-- The constraint challenges agree. -/
  alpha : (oracleInputs verifier first domain).alpha = (oracleInputs verifier second domain).alpha
  /-- The first permutation challenges agree. -/
  beta : (oracleInputs verifier first domain).beta = (oracleInputs verifier second domain).beta
  /-- The second permutation challenges agree. -/
  gamma : (oracleInputs verifier first domain).gamma = (oracleInputs verifier second domain).gamma
  /-- The evaluation points agree. -/
  zeta : (oracleInputs verifier first domain).zeta = (oracleInputs verifier second domain).zeta
  /-- The joint combiners agree. -/
  jointCombiner : (oracleInputs verifier first domain).jointCombiner =
    (oracleInputs verifier second domain).jointCombiner

/-- A joint combiner is determined by its fields, also if it is zero. -/
theorem jointCombinerFields_injective {a b : Option StepField}
    (h : jointCombinerFields a = jointCombinerFields b) : a = b := by
  have hne : (1 : WrapField) ≠ 0 := by decide
  cases a with
  | none =>
    cases b with
    | none => rfl
    | some second => exact absurd (List.cons.inj h).1.symm hne
  | some first =>
    cases b with
    | none => exact absurd (List.cons.inj h).1 hne
    | some second =>
      have hfields := (List.cons.inj (List.cons.inj h).2).1
      rw [fpToFq_injective hfields]

/-- The challenges and the joint combiner of a public input. -/
theorem publicInput_challenges {verifier : Verifier K} {proof : VerifiableProof K.ProofRest}
    {publicInput : List WrapField} (h : ReachesKimchi verifier proof publicInput) :
    (publicInput.drop 5).take 4 = [fpToFq proof.rawPlonk.beta, fpToFq proof.rawPlonk.gamma,
        fpToFq proof.rawPlonk.alpha, fpToFq proof.rawPlonk.zeta] ∧
      publicInput.drop 38 = jointCombinerFields proof.rawPlonk.jointCombiner := by
  have hinput := h.publicInput_eq
  simp only [provedPublicInput, bind_eq_ok, pure_eq_ok] at hinput
  obtain ⟨dv, hexpand, hpublic⟩ := hinput
  have hcarried := expandDeferred_carried hexpand
  rw [← hpublic, ← hcarried.alpha_eq, ← hcarried.beta_eq, ← hcarried.gamma_eq, ← hcarried.zeta_eq,
    ← hcarried.jointCombiner_eq]
  exact ⟨rfl, rfl⟩

/-- Proofs whose copies agree and whose public inputs agree are expanded alike. -/
theorem expandedAlike_of_samePublic {verifier : Verifier K}
    {first second : VerifiableProof K.ProofRest} {input₁ input₂ : List WrapField}
    (h₁ : ReachesKimchi verifier first input₁) (h₂ : ReachesKimchi verifier second input₂)
    (hcopies₁ : CopiesAgree first) (hcopies₂ : CopiesAgree second)
    (hsame : SamePublic input₁ input₂) : ∃ domain, ExpandedAlike verifier first second domain := by
  obtain ⟨hbranch₁, hflags₁⟩ := publicInput_carried h₁
  obtain ⟨hbranch₂, hflags₂⟩ := publicInput_carried h₂
  obtain ⟨hchallenges₁, hjoint₁⟩ := publicInput_challenges h₁
  obtain ⟨hchallenges₂, hjoint₂⟩ := publicInput_challenges h₂
  have hdomains : expansionDomainLog2 first = expansionDomainLog2 second := by
    have hpacked := hsame.branch
    rw [hbranch₁, hbranch₂, Option.some.injEq] at hpacked
    have hdata₁ : first.branchData =
        ⟨(expansionDomainLog2 first : StepField), first.branchData.proofsVerifiedMask⟩ := by
      rw [expansionDomainLog2, ← hcopies₁.domain]
    have hdata₂ : second.branchData =
        ⟨(expansionDomainLog2 second : StepField), second.branchData.proofsVerifiedMask⟩ := by
      rw [expansionDomainLog2, ← hcopies₂.domain]
    rw [hdata₁, hdata₂] at hpacked
    exact packBranchData_small_injective (Nat.mod_lt _ (by decide)) (Nat.mod_lt _ (by decide))
      hpacked
  have hfeatures : first.rawPlonk.featureFlags = second.rawPlonk.featureFlags := by
    have hbound₁ := ((expansionBound_iff h₁).mpr hcopies₁).features
    have hbound₂ := ((expansionBound_iff h₂).mpr hcopies₂).features
    rw [hbound₁, hbound₂, hsame.flags]
  have hchallenges := hsame.challenges
  rw [hchallenges₁, hchallenges₂] at hchallenges
  simp only [List.cons.injEq, and_true] at hchallenges
  obtain ⟨hbeta, hgamma, halpha, hzeta⟩ := hchallenges
  have hjoint : first.rawPlonk.jointCombiner = second.rawPlonk.jointCombiner := by
    have hfields := hsame.jointCombiner
    rw [hjoint₁, hjoint₂] at hfields
    exact jointCombinerFields_injective hfields
  have hinput := h₁.publicInput_eq
  simp only [provedPublicInput, bind_eq_ok] at hinput
  obtain ⟨dv, hexpand, -⟩ := hinput
  obtain ⟨domain, hdomain⟩ := expandDeferred_domain hexpand
  refine ⟨domain, hdomain, ?_, rfl, ?_, ?_, fpToFq_injective hbeta, fpToFq_injective hgamma, ?_, ?_⟩
  · rw [← hdomains]
    exact hdomain
  · simp only [oracleInputs, hfeatures]
  · simp only [oracleInputs, fpToFq_injective halpha]
  · simp only [oracleInputs, fpToFq_injective hzeta]
  · simp only [oracleInputs, hjoint]

/-- For every proof that reaches Kimchi: the expansion uses the domain and the
features of the public input if and only if the redundant copies of the proof
agree; and two such proofs with the same domain, flags and challenges in their
public inputs are expanded with the same domain, shifts and linearization. -/
theorem expansion_binding_iff (verifier : Verifier K) :
    (∀ proof : VerifiableProof K.ProofRest,
      (∀ publicInput, ReachesKimchi verifier proof publicInput → ExpansionBound proof publicInput) ↔
        ((∃ publicInput, ReachesKimchi verifier proof publicInput) → CopiesAgree proof)) ∧
    ∀ (first second : VerifiableProof K.ProofRest) (input₁ input₂ : List WrapField),
      ReachesKimchi verifier first input₁ → ReachesKimchi verifier second input₂ →
      CopiesAgree first → CopiesAgree second → SamePublic input₁ input₂ →
      ∃ domain, ExpandedAlike verifier first second domain := by
  refine ⟨?_, ?_⟩
  · intro proof
    constructor
    · intro hbound hreaches
      obtain ⟨publicInput, hreaches⟩ := hreaches
      exact (expansionBound_iff hreaches).mp (hbound publicInput hreaches)
    · intro hcopies publicInput hreaches
      exact (expansionBound_iff hreaches).mpr (hcopies ⟨publicInput, hreaches⟩)
  · intro first second input₁ input₂ h₁ h₂ hcopies₁ hcopies₂ hsame
    exact expandedAlike_of_samePublic h₁ h₂ hcopies₁ hcopies₂ hsame

/-- The copies that the wire parser fills agree, for every domain byte that the
shift does not wrap. -/
theorem intoVerifiable_copiesAgree {skeleton : OcamlProof} {wrapProof : WrapProof K.ProofRest}
    {wrapVk : WrapVerifierIndex K.IndexRest} {appState : List StepField}
    {proof : VerifiableProof K.ProofRest} {mask : Bool × Bool} {flags : WireFlags}
    (h : skeleton.intoVerifiable wrapProof wrapVk appState = .ok proof)
    (hbranch : skeleton.branchData = parseBranchData skeleton.stepDomainLog2 mask)
    (hfeatures : skeleton.rawPlonk.featureFlags = parseFeatureFlags flags)
    (hlog2 : skeleton.stepDomainLog2.toNat < 64) : CopiesAgree proof := by
  simp only [OcamlProof.intoVerifiable, bind_eq_ok, require_eq_ok, exists_const, pure_eq_ok] at h
  obtain ⟨vkFields, -, -, hproof⟩ := h
  have hwidth : (skeleton.stepDomainLog2.setWidth 64).toNat % 64 = skeleton.stepDomainLog2.toNat := by
    rw [BitVec.toNat_setWidth]
    omega
  subst hproof
  constructor
  · dsimp only
    rw [hbranch, hwidth]
    rfl
  all_goals
    dsimp only
    rw [hfeatures]
    rfl

/-- The sample on a domain of sixteen rows, with a packed domain of thirty-two. -/
def otherDomain (msm : List (Affine WrapField) → List StepField → Affine WrapField)
    (wrapBlockCipher : WrapField × WrapField × WrapField → WrapField × WrapField × WrapField)
    (srs : List (Affine WrapField)) :
    VerifiableProof (zeroKimchi msm wrapBlockCipher).ProofRest :=
  sampleProof msm wrapBlockCipher srs noFeatures ⟨5, (false, false)⟩ 0

/-- The sample with the joint-lookup flag set and no lookup pattern. -/
def otherFeatures (msm : List (Affine WrapField) → List StepField → Affine WrapField)
    (wrapBlockCipher : WrapField × WrapField × WrapField → WrapField × WrapField × WrapField)
    (srs : List (Affine WrapField)) :
    VerifiableProof (zeroKimchi msm wrapBlockCipher).ProofRest :=
  sampleProof msm wrapBlockCipher srs
    { noFeatures with lookupFeatures := { noFeatures.lookupFeatures with jointLookupUsed := true } }
    ⟨(4 : ℕ), (false, false)⟩ 0

/-- For every multi-scalar multiplication, every block cipher of the wrap field and
every SRS of the protocol's size, both proofs reach Kimchi with an expansion that
their public input does not bind. -/
def ExpansionUnbound : Prop :=
  ∀ msm wrapBlockCipher srs, 2 ^ 16 ≤ srs.length →
    (∃ publicInput, ReachesKimchi (sampleVerifier msm wrapBlockCipher srs)
        (otherDomain msm wrapBlockCipher srs) publicInput ∧
      ¬ExpansionBound (otherDomain msm wrapBlockCipher srs) publicInput) ∧
    ∃ publicInput, ReachesKimchi (sampleVerifier msm wrapBlockCipher srs)
        (otherFeatures msm wrapBlockCipher srs) publicInput ∧
      ¬ExpansionBound (otherFeatures msm wrapBlockCipher srs) publicInput

/-- The prover chooses the domain and the features apart from the public input. -/
theorem expansion_unbound : ExpansionUnbound := by
  intro msm wrapBlockCipher srs hsrs
  constructor
  · obtain ⟨publicInput, hreaches⟩ := sample_reaches msm wrapBlockCipher srs noFeatures
      ⟨5, (false, false)⟩ 0 hsrs
    refine ⟨publicInput, hreaches, ?_⟩
    intro hbound
    have hdomain := ((expansionBound_iff hreaches).mp hbound).domain
    have hsame : (5 : StepField) = 4 := hdomain
    exact absurd hsame (by decide)
  · obtain ⟨publicInput, hreaches⟩ := sample_reaches msm wrapBlockCipher srs
      { noFeatures with lookupFeatures := { noFeatures.lookupFeatures with jointLookupUsed := true } }
      ⟨4, (false, false)⟩ 0 hsrs
    refine ⟨publicInput, hreaches, ?_⟩
    intro hbound
    have hjoint := ((expansionBound_iff hreaches).mp hbound).jointLookupUsed
    have hsame : true = false := hjoint
    cases hsame

end EthereumSettlement.ExpansionBinding
