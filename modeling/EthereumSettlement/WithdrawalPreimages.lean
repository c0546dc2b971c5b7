import EthereumSettlement.ReceiptBinding

/-!
# Withdrawal preimages

The auxiliary field of an inner action is the prefixed Poseidon hash of the
parameters of a withdrawal. The token parameters may have any length from nine on,
and an odd input may be continued by a zero without effect. The zero then stands in
the slot of the longer reading's parity and its predecessor, the zero parity of the
shorter one, in the slot of the recipient. Readings with non-zero recipients are
therefore equally long, and one auxiliary field has one of them.
-/

namespace EthereumSettlement.WithdrawalPreimages

open CheckedCalls PastaPoseidon InnerActionCommitment RegistryCheckpoint SettlementReceipt
open ReceiptBinding HashCommitments ReferenceHashes ReferenceDeployment

/-- The metadata that a witness may give for an action. -/
inductive WithdrawalMetadata
  | native (withdrawal : NativeWithdrawalV2)
  | token (withdrawal : TokenWithdrawalV3)

/-- What the metadata says of the withdrawal, the token contract apart. -/
inductive WithdrawalContent
  | native (recipient : Address) (amount : BitVec 64)
  | token (registryIndex : BitVec 32) (recordCommitment assetId : Bytes32) (recipient : Address)
      (amount : BitVec 64)

namespace WithdrawalMetadata

/-- The recipient named by the metadata. -/
def recipient : WithdrawalMetadata → Address
  | native withdrawal => withdrawal.recipient
  | token withdrawal => withdrawal.recipient

/-- The content of the metadata. -/
def content : WithdrawalMetadata → WithdrawalContent
  | native withdrawal => .native withdrawal.recipient withdrawal.amount
  | token withdrawal => .token withdrawal.registryIndex withdrawal.recordCommitment
      withdrawal.assetId withdrawal.recipient withdrawal.amount

/-- Metadata of one kind. -/
def SameKind : WithdrawalMetadata → WithdrawalMetadata → Prop
  | native _, native _ => True
  | token _, token _ => True
  | _, _ => False

variable (H : Hashes)

/-- The guest's preimage check accepts the metadata for an action with the given
fields. -/
def Accepted (fields : List StepField) : WithdrawalMetadata → Prop
  | native withdrawal => assertNativeWithdrawalPreimage H fields withdrawal = .ok ()
  | token withdrawal => assertErc20WithdrawalPreimage H fields withdrawal = .ok ()

/-- The input that the check of the metadata hashes. -/
def input : WithdrawalMetadata → PrefixedInput
  | native withdrawal =>
    nativeInput withdrawal ((fieldFromAddress withdrawal.recipient).toOption.getD 0)
  | token withdrawal => tokenInput ((withdrawal.paramsFields.mapM fieldFromBytes).toOption.getD [])

end WithdrawalMetadata

section Preimages

variable {H : Hashes} {fields : List StepField}

/-- A checked native withdrawal is what the action's auxiliary hash commits to. -/
theorem nativePreimage_input {withdrawal : NativeWithdrawalV2}
    (h : assertNativeWithdrawalPreimage H fields withdrawal = .ok ()) :
    ∃ recipient, fieldFromAddress withdrawal.recipient = .ok recipient ∧
      fields.getD 1 0 = prefixedHash H (nativeInput withdrawal recipient) := by
  simp only [assertNativeWithdrawalPreimage, bind_eq_ok, require_eq_ok, exists_const] at h
  obtain ⟨-, recipient, hrecipient, haux⟩ := h
  exact ⟨recipient, hrecipient, haux⟩

/-- The parameters of a checked token withdrawal are at least nine, and the last of
them is zero. -/
theorem tokenPreimage_parity {withdrawal : TokenWithdrawalV3} {params : List StepField}
    (hparams : withdrawal.paramsFields.mapM fieldFromBytes = .ok params)
    (h : assertErc20WithdrawalPreimage H fields withdrawal = .ok ()) :
    9 ≤ params.length ∧ params.getD (params.length - 1) 0 = 0 := by
  simp only [assertErc20WithdrawalPreimage, bind_eq_ok, require_eq_ok, exists_const] at h
  obtain ⟨-, -, -, params', hparams', hlength, -, -, -, -, -, -, -, -, -, -, -, -, -, -, -, -, -,
    hparity, -⟩ := h
  obtain rfl := Except.ok.inj (hparams.symm.trans hparams')
  have hlast : params.length - 4 + 3 = params.length - 1 := by omega
  rw [hlast] at hparity
  exact ⟨hlength, hparity⟩

/-- The auxiliary field of an action is the digest of the accepted metadata. -/
theorem accepted_aux {metadata : WithdrawalMetadata} (h : metadata.Accepted H fields) :
    fields.getD 1 0 = prefixedHash H metadata.input := by
  cases metadata with
  | native withdrawal =>
    obtain ⟨recipient, hrecipient, haux⟩ := nativePreimage_input h
    rw [haux, WithdrawalMetadata.input, hrecipient]
    rfl
  | token withdrawal =>
    obtain ⟨params, hpreimage⟩ := tokenPreimage_input h
    rw [hpreimage.aux_eq, WithdrawalMetadata.input, hpreimage.params_eq]
    rfl

/-- Two inputs that agree up to the zero and differ in length: the longer one is the
shorter one with the zero. -/
theorem evenInput_longer {short long : List StepField} (hlt : short.length < long.length)
    (h : evenInput short = evenInput long) : long = short ++ [0] := by
  have hlengths := congrArg List.length h
  unfold evenInput at h hlengths
  by_cases hshort : short.length % 2 = 1
  · rw [if_pos hshort] at h hlengths
    by_cases hlong : long.length % 2 = 1
    · rw [if_pos hlong, List.length_append, List.length_append, List.length_singleton] at hlengths
      omega
    · rw [if_neg hlong] at h
      exact h.symm
  · rw [if_neg hshort] at h hlengths
    by_cases hlong : long.length % 2 = 1
    · rw [if_pos hlong, List.length_append, List.length_singleton] at hlengths
      omega
    · rw [if_neg hlong] at hlengths
      omega

/-- A longer reading of the token parameters has the zero parity of the shorter one
as its recipient. -/
theorem longer_recipient {first second : TokenWithdrawalV3} {short long : List StepField}
    (hshort : first.paramsFields.mapM fieldFromBytes = .ok short)
    (hfirst : assertErc20WithdrawalPreimage H fields first = .ok ())
    (hsecond : TokenPreimage H fields second long) (hlt : short.length < long.length)
    (h : evenInput short = evenInput long) : second.recipient = 0 := by
  obtain ⟨hnine, hparity⟩ := tokenPreimage_parity hshort hfirst
  have hlong := evenInput_longer hlt h
  have hlength : long.length = short.length + 1 := by
    rw [hlong, List.length_append, List.length_singleton]
  have hslot : long.length - 4 + 2 = short.length - 1 := by omega
  have hrecipient := hsecond.recipient_eq
  rw [hslot, hlong, List.getD_append _ _ _ _ (by omega), hparity] at hrecipient
  have hzero : fieldFromAddress 0 = .ok 0 := rfl
  exact fieldFromAddress_injective hrecipient hzero

/-- Token withdrawals accepted for one action have equally long parameters, unless a
recipient is zero. -/
theorem params_length_eq {first second : TokenWithdrawalV3} {params₁ params₂ : List StepField}
    (h₁ : assertErc20WithdrawalPreimage H fields first = .ok ())
    (h₂ : assertErc20WithdrawalPreimage H fields second = .ok ())
    (p₁ : TokenPreimage H fields first params₁) (p₂ : TokenPreimage H fields second params₂)
    (h : evenInput params₁ = evenInput params₂) (hfirst : first.recipient ≠ 0)
    (hsecond : second.recipient ≠ 0) : params₁.length = params₂.length := by
  rcases Nat.lt_trichotomy params₁.length params₂.length with hlt | heq | hgt
  · exact absurd (longer_recipient p₁.params_eq h₁ p₂ hlt h) hsecond
  · exact heq
  · exact absurd (longer_recipient p₂.params_eq h₂ p₁ hgt h.symm) hfirst

/-- Token withdrawals with the same parameters have the same content. -/
theorem token_content_eq {first second : TokenWithdrawalV3} {params : List StepField}
    (p₁ : TokenPreimage H fields first params) (p₂ : TokenPreimage H fields second params) :
    (WithdrawalMetadata.token first).content = (WithdrawalMetadata.token second).content := by
  have hindex := word_injective (by decide) (p₁.registryIndex_eq.symm.trans p₂.registryIndex_eq)
  have hcommitment := fieldFromBytes_injective p₁.commitment_eq p₂.commitment_eq
  have hasset := limbs_injective (fieldFromBytes_injective p₁.high_eq p₂.high_eq)
    (fieldFromBytes_injective p₁.low_eq p₂.low_eq)
  have hamount := word_injective (by decide) (p₁.amount_eq.symm.trans p₂.amount_eq)
  have hrecipient := fieldFromAddress_injective p₁.recipient_eq p₂.recipient_eq
  simp only [WithdrawalMetadata.content, hindex, hcommitment, hasset, hamount, hrecipient]

/-- Withdrawal preimages are unambiguous: two metadata values that the guest accepts
for one action are of one kind and, if neither recipient is zero, of one content. -/
theorem accepted_metadata_unique {fields : List StepField} {first second : WithdrawalMetadata}
    (h₁ : first.Accepted H fields) (h₂ : second.Accepted H fields)
    (hcf : PrefixedCollisionFree H [first.input, second.input]) :
    first.SameKind second ∧
      (first.recipient ≠ 0 → second.recipient ≠ 0 → first.content = second.content) := by
  have hdigests : prefixedHash H first.input = prefixedHash H second.input := by
    rw [← accepted_aux h₁, ← accepted_aux h₂]
  have hsame := hcf.same List.mem_cons_self (List.mem_cons_of_mem _ List.mem_cons_self) hdigests
  cases first with
  | native w₁ =>
    cases second with
    | native w₂ =>
      refine ⟨trivial, fun _ _ => ?_⟩
      obtain ⟨recipient₁, hrecipient₁, -⟩ := nativePreimage_input h₁
      obtain ⟨recipient₂, hrecipient₂, -⟩ := nativePreimage_input h₂
      rw [WithdrawalMetadata.input, WithdrawalMetadata.input, hrecipient₁, hrecipient₂] at hsame
      rw [native_bound hrecipient₁ hrecipient₂ hsame.2]
    | token t₂ => exact absurd hsame.1 (by simp [WithdrawalMetadata.input, nativeInput, tokenInput])
  | token t₁ =>
    cases second with
    | native w₂ => exact absurd hsame.1 (by simp [WithdrawalMetadata.input, nativeInput, tokenInput])
    | token t₂ =>
      refine ⟨trivial, fun hfirst hsecond => ?_⟩
      obtain ⟨params₁, p₁⟩ := tokenPreimage_input h₁
      obtain ⟨params₂, p₂⟩ := tokenPreimage_input h₂
      rw [WithdrawalMetadata.input, WithdrawalMetadata.input, p₁.params_eq, p₂.params_eq] at hsame
      have hinputs : evenInput params₁ = evenInput params₂ := hsame.2
      have hlengths := params_length_eq h₁ h₂ p₁ p₂ hinputs hfirst hsecond
      have hparams := evenInput_injective hlengths hinputs
      subst hparams
      exact token_content_eq p₁ p₂

end Preimages

/-- The token withdrawal of the concrete batch. -/
def tokenMetadata : TokenWithdrawalV3 :=
  ⟨2, 0, recordCommitment, token, assetRecord.assetId, ReferenceDeployment.recipient, 3,
    [2, 0, recordCommitment, highLimb assetRecord.assetId, lowLimb assetRecord.assetId, 0, 3,
      ByteWords.toWord ReferenceDeployment.recipient, 0]⟩

/-- Its action field vector. -/
def tokenFields : List StepField :=
  [0, 0x27d313b8db8617e69e9c71037a387bceebb337b931d255f5992c76632f4ac08d, 0]

/-- The guest accepts the withdrawal with its own token and with another one, and
both readings have the same content. -/
theorem accepted_metadata_unique_otherToken :
    (WithdrawalMetadata.token tokenMetadata).Accepted referenceHashes tokenFields ∧
      (WithdrawalMetadata.token { tokenMetadata with token := token + 1 }).Accepted referenceHashes
        tokenFields ∧
      (WithdrawalMetadata.token tokenMetadata).content =
        (WithdrawalMetadata.token { tokenMetadata with token := token + 1 }).content := by
  have hchecked : assertErc20WithdrawalPreimage referenceHashes tokenFields tokenMetadata = .ok () ∧
      assertErc20WithdrawalPreimage referenceHashes tokenFields
        { tokenMetadata with token := token + 1 } = .ok () := by
    decide +kernel
  obtain ⟨hfirst, hsecond⟩ := hchecked
  have hcf : PrefixedCollisionFree referenceHashes
      [(WithdrawalMetadata.token tokenMetadata).input,
        (WithdrawalMetadata.token { tokenMetadata with token := token + 1 }).input] := by
    decide +kernel
  have hnonzero : ReferenceDeployment.recipient ≠ 0 := by decide
  have haccepted : (WithdrawalMetadata.token tokenMetadata).Accepted referenceHashes tokenFields :=
    hfirst
  have hother : (WithdrawalMetadata.token { tokenMetadata with token := token + 1 }).Accepted
      referenceHashes tokenFields := hsecond
  have hunique := accepted_metadata_unique haccepted hother hcf
  exact ⟨haccepted, hother, hunique.2 hnonzero hnonzero⟩

end EthereumSettlement.WithdrawalPreimages
