import Mathlib.Data.List.DropRight
import EthereumSettlement.AccumulatorBinding

/-!
# Binding of the application statement

The digest over the application statement is taken of three parts without
separators: the wrap key, the statement, and for every earlier proof a commitment
with its challenges. The key has one length for one verifier and the settlement
guest insists on a statement of two elements, so the statement sits at two fixed
places, whatever follows it and whatever zeros end the input. The host pairs
commitments and challenge vectors up to the shorter list, the guest insists on equal
lengths: these are the converted proofs that it refuses.
-/

namespace EthereumSettlement.StatementBinding

open CheckedCalls PastaPoseidon PicklesProof PicklesDeferred PicklesVerifier AccumulatorBinding
open SettlementReceipt

variable {K : Kimchi}

/-- An input without the zeros that it ends in. -/
def withoutPadding (input : List StepField) : List StepField :=
  input.rdropWhile fun element => element = 0

/-- The inputs have no two digests in common, except for zeros behind them. -/
def PaddedCollisionFree (K : Kimchi) (inputs : List (List StepField)) : Prop :=
  ∀ first ∈ inputs, ∀ second ∈ inputs,
    spongeDigest K.stepBlockCipher first = spongeDigest K.stepBlockCipher second →
    withoutPadding first = withoutPadding second

/-- Every place of an input is read without the zeros behind it. -/
theorem withoutPadding_getD (input : List StepField) (i : ℕ) :
    (withoutPadding input).getD i 0 = input.getD i 0 := by
  induction input using List.reverseRecOn with
  | nil => rfl
  | append_singleton input last ih =>
    rw [withoutPadding, List.rdropWhile_concat]
    by_cases hlast : last = 0
    · rw [if_pos (decide_eq_true hlast)]
      rw [withoutPadding] at ih
      rw [ih, hlast, getD_concat_zero]
    · rw [if_neg (by rw [decide_eq_true_eq]; exact hlast)]

/-- Inputs that differ only in padding agree at every place. -/
theorem getD_of_samePadding {first second : List StepField}
    (h : withoutPadding first = withoutPadding second) (i : ℕ) :
    first.getD i 0 = second.getD i 0 := by
  rw [← withoutPadding_getD first, ← withoutPadding_getD second, h]

/-- The input that `app_state_digest` hashes. -/
def statementInput (verifier : Verifier K) (proof : VerifiableProof K.ProofRest) : List StepField :=
  stepMessageInputs ((wrapVkStepFields verifier.wrapVk).getD []) proof.appState
    (proof.prevStepSgs.zip proof.oldBulletproofChallenges)

/-- A proof that passes the check carries the digest of its input. -/
theorem checkAppStateBinding_digest {verifier : Verifier K} {proof : VerifiableProof K.ProofRest}
    (h : checkAppStateBinding verifier proof = true) :
    spongeDigest K.stepBlockCipher (statementInput verifier proof) =
      proof.messagesForNextStepProofDigest := by
  obtain ⟨-, vkFields, hvk, hdigest⟩ := checkAppStateBinding_iff.mp h
  rw [statementInput, hvk]
  exact hdigest

/-- The statement stands behind the key. -/
theorem statementInput_getD (verifier : Verifier K) {proof : VerifiableProof K.ProofRest} {i : ℕ}
    (hi : i < proof.appState.length) :
    (statementInput verifier proof).getD
        (((wrapVkStepFields verifier.wrapVk).getD []).length + i) 0 = proof.appState.getD i 0 := by
  have hinside : ((wrapVkStepFields verifier.wrapVk).getD []).length + i <
      ((wrapVkStepFields verifier.wrapVk).getD [] ++ proof.appState).length := by
    rw [List.length_append]
    omega
  rw [statementInput, stepMessageInputs, List.getD_append _ _ _ _ hinside,
    List.getD_append_right _ _ _ _ (Nat.le_add_right _ _), Nat.add_sub_cancel_left]

/-- Inputs that differ only in padding have the same statement, once both
statements have one length. -/
theorem appState_of_samePadding {verifier : Verifier K} {first second : VerifiableProof K.ProofRest}
    (hsame : withoutPadding (statementInput verifier first) =
      withoutPadding (statementInput verifier second))
    (hlength : first.appState.length = second.appState.length) :
    first.appState = second.appState := by
  apply List.ext_getElem hlength
  intro i hfirst hsecond
  have hplace := getD_of_samePadding hsame
    (((wrapVkStepFields verifier.wrapVk).getD []).length + i)
  rw [statementInput_getD verifier hfirst, statementInput_getD verifier hsecond,
    List.getD_eq_getElem _ _ hfirst, List.getD_eq_getElem _ _ hsecond] at hplace
  exact hplace

/-- A converted proof passes the check of the guest exactly if its skeleton has as
many commitments as challenge vectors. -/
theorem intoVerifiable_checked {verifier : Verifier K} {skeleton : OcamlProof}
    {wrapProof : WrapProof K.ProofRest} {appState : List StepField}
    {proof : VerifiableProof K.ProofRest}
    (h : skeleton.intoVerifiable wrapProof verifier.wrapVk appState = .ok proof) :
    checkAppStateBinding verifier proof = true ↔
      skeleton.prevStepSgs.length = skeleton.prevStepChalsRaw.length := by
  simp only [OcamlProof.intoVerifiable, bind_eq_ok, require_eq_ok, exists_const, pure_eq_ok] at h
  obtain ⟨vkFields, hvk, -, hproof⟩ := h
  rw [checkAppStateBinding_iff, ← hproof]
  dsimp only
  rw [List.length_map]
  constructor
  · intro hchecked
    exact hchecked.1
  · intro hlength
    exact ⟨hlength, vkFields, expect_eq_ok.mp hvk, rfl⟩

/-- The application statement is bound by its digest: two proofs that pass the check
of one verifier with the same digest, and whose statements have the length that the
settlement guest requires, have the same statement, whatever they carry of earlier
proofs. A proof converted with the verifier's key passes the check exactly if its
commitments and challenge vectors are equally many. -/
theorem appState_bound (verifier : Verifier K) :
    (∀ first second : VerifiableProof K.ProofRest,
      PaddedCollisionFree K [statementInput verifier first, statementInput verifier second] →
      checkAppStateBinding verifier first = true → checkAppStateBinding verifier second = true →
      first.messagesForNextStepProofDigest = second.messagesForNextStepProofDigest →
      first.appState.length = 2 → second.appState.length = 2 →
      first.appState = second.appState) ∧
    ∀ (skeleton : OcamlProof) (wrapProof : WrapProof K.ProofRest) (appState : List StepField)
      (proof : VerifiableProof K.ProofRest),
      skeleton.intoVerifiable wrapProof verifier.wrapVk appState = .ok proof →
      (checkAppStateBinding verifier proof = true ↔
        skeleton.prevStepSgs.length = skeleton.prevStepChalsRaw.length) := by
  constructor
  · intro first second hcf hfirst hsecond hdigest hlength₁ hlength₂
    have hdigests : spongeDigest K.stepBlockCipher (statementInput verifier first) =
        spongeDigest K.stepBlockCipher (statementInput verifier second) := by
      rw [checkAppStateBinding_digest hfirst, checkAppStateBinding_digest hsecond, hdigest]
    have hsame := hcf _ List.mem_cons_self _ (List.mem_cons_of_mem _ List.mem_cons_self) hdigests
    exact appState_of_samePadding hsame (hlength₁.trans hlength₂.symm)
  · intro skeleton wrapProof appState proof h
    exact intoVerifiable_checked h

/-- A Kimchi environment whose curve operations are trivial. -/
abbrev plainKimchi : Kimchi := zeroKimchi (fun _ _ => ⟨0, 0, true⟩) id

/-- A verifier in this environment, without generators. -/
abbrev plainVerifier : Verifier plainKimchi := sampleVerifier (fun _ _ => ⟨0, 0, true⟩) id []

/-- The commitments of two earlier proofs, with their challenges. -/
def earlierProofs : List (Affine StepField × (Fin 16 → StepField)) :=
  [(⟨(7 : ℕ), (9 : ℕ), false⟩, fun i => (i.val + 1 : ℕ)),
    (⟨(2 : ℕ), (3 : ℕ), false⟩, fun i => (2 * i.val : ℕ))]

/-- A proof of a statement after two earlier proofs, with the given digest for the next
wrap proof. -/
abbrev plainProof (wrapDigest : WrapField) : VerifiableProof plainKimchi.ProofRest :=
  { sampleProof (fun _ _ => ⟨0, 0, true⟩) id [] noFeatures ⟨(4 : ℕ), (false, false)⟩ wrapDigest with
    appState := [(3 : ℕ), (5 : ℕ)]
    prevStepSgs := earlierProofs.map Prod.fst
    oldBulletproofChallenges := earlierProofs.map Prod.snd
    messagesForNextStepProofDigest :=
      spongeDigest plainKimchi.stepBlockCipher
        (stepMessageInputs (List.replicate 56 0) [(3 : ℕ), (5 : ℕ)] earlierProofs) }

/-- A skeleton with one commitment and two challenge vectors. -/
def unpairedSkeleton : OcamlProof where
  rawPlonk := ⟨0, 0, 0, 0, none, noFeatures⟩
  rawBulletproofChallenges := fun _ => 0
  branchData := ⟨(4 : ℕ), (false, false)⟩
  spongeDigestBeforeEvaluations := 0
  challengePolynomialCommitment := ⟨0, 0, true⟩
  stepDomainLog2 := 4
  prevEvals := zeroEvals
  pEval0Chunks := [0]
  prevStepSgs := [⟨0, 0, true⟩]
  prevStepChalsRaw := [fun _ => 0, fun _ => 0]
  prevWrapChalsRaw := []

/-- Two proofs with different digests for the next wrap proof have one statement, and
the guest refuses the converted proof of the unpaired skeleton. -/
theorem appState_bound_plain :
    (plainProof 0).appState = (plainProof 1).appState ∧
    ∃ proof, unpairedSkeleton.intoVerifiable ⟨[], ()⟩ plainVerifier.wrapVk [0, 0] = .ok proof ∧
      (checkAppStateBinding plainVerifier proof = true ↔ 1 = 2) := by
  have hvk : wrapVkStepFields plainVerifier.wrapVk = some (List.replicate 56 0) := rfl
  have hzip : (earlierProofs.map Prod.fst).zip (earlierProofs.map Prod.snd) = earlierProofs := rfl
  have hchecked : ∀ wrapDigest,
      checkAppStateBinding plainVerifier (plainProof wrapDigest) = true := by
    intro wrapDigest
    refine checkAppStateBinding_iff.mpr ⟨rfl, _, hvk, ?_⟩
    rw [hzip]
  have hinput : statementInput plainVerifier (plainProof 1) =
      statementInput plainVerifier (plainProof 0) := rfl
  have hcf : PaddedCollisionFree plainKimchi [statementInput plainVerifier (plainProof 0),
      statementInput plainVerifier (plainProof 1)] := by
    rw [hinput]
    intro first hfirst second hsecond _
    have hleft : first = statementInput plainVerifier (plainProof 0) := by simpa using hfirst
    have hright : second = statementInput plainVerifier (plainProof 0) := by simpa using hsecond
    rw [hleft, hright]
  obtain ⟨proof, hproof⟩ : ∃ proof : VerifiableProof plainKimchi.ProofRest,
      unpairedSkeleton.intoVerifiable ⟨[], ()⟩ plainVerifier.wrapVk [0, 0] = .ok proof :=
    ⟨_, rfl⟩
  exact ⟨(appState_bound plainVerifier).1 _ _ hcf (hchecked 0) (hchecked 1) rfl rfl rfl, proof, hproof,
    (appState_bound plainVerifier).2 unpairedSkeleton ⟨[], ()⟩ [0, 0] proof hproof⟩

end EthereumSettlement.StatementBinding
