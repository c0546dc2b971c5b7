import EthereumSettlement.InnerActionRanges
import EthereumSettlement.ClaimSoundness

/-!
# What the committed statement leaves open

The settlement guest receives the account update in parts of the prover's choice
and checks them against two digests. Up to collisions of the prefixed Poseidon
hash, and up to the zero that an odd input may end in, the digests determine the
first-version receipt in every field except the pause key. An inner action
determines the withdrawal metadata that a witness may give for it, up to the token
named there and the length of the preimage. The witness may also leave the metadata
out, which makes the action a raw leaf and the root another one.
-/

namespace EthereumSettlement.ReceiptBinding

open ByteWords CheckedCalls HashCommitments PastaPoseidon InnerActionCommitment RegistryCheckpoint
open SettlementCodec SettlementReceipt ClaimSoundness ReferenceHashes ReferenceDeployment InnerActionRanges

section Inputs

variable (H : Hashes)

/-- A domain text with the field elements hashed under it. -/
abbrev PrefixedInput := String × List StepField

/-- The digest of a prefixed input. -/
def prefixedHash (input : PrefixedInput) : StepField := hashWithPrefix H input.1 input.2

/-- An input of odd length continued by a zero. -/
def evenInput (input : List StepField) : List StepField :=
  if input.length % 2 = 1 then input ++ [0] else input

/-- No two of the inputs collide, except that a zero may follow an odd one. -/
def PrefixedCollisionFree (inputs : List PrefixedInput) : Prop :=
  CollisionFree (prefixedHash H) (inputs.map fun input => (input.1, evenInput input.2))

instance (inputs : List PrefixedInput) : Decidable (PrefixedCollisionFree H inputs) :=
  inferInstanceAs (Decidable (CollisionFree _ _))

variable {H}

/-- Fewer inputs have fewer collisions. -/
theorem PrefixedCollisionFree.mono {inputs more : List PrefixedInput}
    (h : PrefixedCollisionFree H more) (hs : inputs ⊆ more) : PrefixedCollisionFree H inputs :=
  CollisionFree.mono h (List.map_subset _ hs)

/-- A zero behind an odd input is absorbed without effect. -/
theorem absorbChunks_concat_zero (state : SpongeState) (input : List StepField)
    (hodd : input.length % 2 = 1) :
    absorbChunks H state (input ++ [0]) = absorbChunks H state input := by
  induction state, input using absorbChunks.induct H with
  | case1 state => exact absurd hodd (by decide)
  | case2 state a => simp only [List.singleton_append, absorbChunks, add_zero]
  | case3 state a b rest ih =>
    have hrest : rest.length % 2 = 1 := by
      simp only [List.length_cons] at hodd
      omega
    simp only [List.cons_append, absorbChunks]
    exact ih hrest

/-- The zero behind an odd input does not change the digest. -/
theorem prefixedHash_even (domain : String) (input : List StepField) :
    prefixedHash H (domain, evenInput input) = prefixedHash H (domain, input) := by
  unfold evenInput
  by_cases hodd : input.length % 2 = 1
  · have hinput : input ≠ [] := by
      intro hempty
      rw [hempty] at hodd
      exact absurd hodd (by decide)
    have hlonger : input ++ [0] ≠ [] := List.append_ne_nil_of_right_ne_nil _ (List.cons_ne_nil _ _)
    rw [if_pos hodd, prefixedHash, prefixedHash, hashWithPrefix, hashWithPrefix, poseidonUpdate,
      poseidonUpdate, if_neg hlonger, if_neg hinput, absorbChunks_concat_zero _ _ hodd]
  · rw [if_neg hodd]

/-- Equal digests of listed inputs come from one domain and, up to the zero, from
one input. -/
theorem PrefixedCollisionFree.same {inputs : List PrefixedInput}
    (h : PrefixedCollisionFree H inputs) {first second : PrefixedInput} (hfirst : first ∈ inputs)
    (hsecond : second ∈ inputs) (hsame : prefixedHash H first = prefixedHash H second) :
    first.1 = second.1 ∧ evenInput first.2 = evenInput second.2 := by
  have hmapped := h _ (List.mem_map_of_mem hfirst) _ (List.mem_map_of_mem hsecond)
    (by rw [prefixedHash_even, prefixedHash_even]; exact hsame)
  rw [Prod.mk.injEq] at hmapped
  exact hmapped

/-- An even input is itself. -/
theorem evenInput_of_even {input : List StepField} (h : input.length % 2 = 0) :
    evenInput input = input := by
  rw [evenInput, if_neg (by omega)]

/-- A pair is even. -/
theorem evenInput_pair (a b : StepField) : evenInput [a, b] = [a, b] :=
  evenInput_of_even (by simp)

/-- The elements of an input do not depend on the zero behind it. -/
theorem evenInput_getD (input : List StepField) (i : ℕ) :
    (evenInput input).getD i 0 = input.getD i 0 := by
  unfold evenInput
  by_cases hodd : input.length % 2 = 1
  · rw [if_pos hodd, getD_concat_zero]
  · rw [if_neg hodd]

end Inputs

section Receipt

variable (H : Hashes)

/-- The domain text of an account-update body. -/
def bodyDomain : MinaSignatureKindV1 → String
  | .mainnet => "MainnetZkappBody****"
  | .testnet => "TestnetZkappBody****"

/-- The input hashed for an account-update body. -/
def bodyInput (signatureKind : MinaSignatureKindV1) (input : ChunkedRandomOracleInputV1) :
    PrefixedInput :=
  (bodyDomain signatureKind, (input.fieldElements.mapM fieldFromBytes).toOption.getD [] ++
    (packChunks 0 0 input.packed).toOption.getD [])

/-- The actions of a witness as field elements. -/
def readActions (actions : List (List Bytes32)) : List (List StepField) :=
  (actions.mapM fun event : List Bytes32 => event.mapM fieldFromBytes).toOption.getD []

/-- The inputs hashed by `hash_actions`. -/
def actionsInputs : List (List StepField) → List PrefixedInput
  | [] => []
  | event :: events =>
    ("MinaZkappEvent******", event) ::
      ("MinaZkappSeqEvents**", [hashActions H events,
        hashWithPrefix H "MinaZkappEvent******" event]) :: actionsInputs events

/-- The inputs hashed for the body and the actions of a witness. -/
def bindingInputs (binding : SettlementBindingV1) : List PrefixedInput :=
  bodyInput binding.minaSignatureKind binding.accountUpdateBody ::
    actionsInputs H (readActions binding.actions)

/-- A receipt with the pause key of both states cleared. -/
def clearPauseKey (v : SettlementPublicValuesV1) : SettlementPublicValuesV1 :=
  { v with
    stateBefore := ⟨Function.update v.stateBefore.fields 0 0⟩
    stateAfter := ⟨Function.update v.stateAfter.fields 0 0⟩ }

variable {H}

/-- A hashed body is the digest of its input, which starts with the body's fields. -/
theorem hashAccountUpdateBody_input {signatureKind : MinaSignatureKindV1}
    {input : ChunkedRandomOracleInputV1} {digest : StepField}
    (h : hashAccountUpdateBody H signatureKind input = .ok digest) :
    prefixedHash H (bodyInput signatureKind input) = digest := by
  simp only [hashAccountUpdateBody, bind_eq_ok, pure_eq_ok] at h
  obtain ⟨fields, hfields, packed, hpacked, hdigest⟩ := h
  rw [prefixedHash, bodyInput, hfields, hpacked, ← hdigest]
  cases signatureKind with
  | mainnet => rfl
  | testnet => rfl

/-- The fields of a body are the first elements of its input. -/
theorem bodyInput_getD (signatureKind : MinaSignatureKindV1) {input : ChunkedRandomOracleInputV1}
    {body : List StepField} (h : input.fieldElements.mapM fieldFromBytes = .ok body) {i : ℕ}
    (hi : i < body.length) : (bodyInput signatureKind input).2.getD i 0 = body.getD i 0 := by
  rw [bodyInput, h]
  exact List.getD_append _ _ _ _ hi

section Pair

variable {appState : List StepField} {first second : SettlementWitnessV1} {vkHash : Bytes32}
  {body₁ body₂ action₁ action₂ before₁ before₂ : List StepField}
  {v₁ v₂ : SettlementPublicValuesV1}

/-- Two accepted bodies have the same binding fields. -/
theorem body_bound (h₁ : ReceiptDerived H appState first vkHash body₁ action₁ before₁ v₁)
    (h₂ : ReceiptDerived H appState second vkHash body₂ action₂ before₂ v₂)
    (hcf : PrefixedCollisionFree H (bindingInputs H first.binding ++ bindingInputs H second.binding))
    {i : ℕ} (hi : i ≤ 36) : body₁.getD i 0 = body₂.getD i 0 := by
  have hdigest : prefixedHash H (bodyInput first.binding.minaSignatureKind
        first.binding.accountUpdateBody) =
      prefixedHash H (bodyInput second.binding.minaSignatureKind
        second.binding.accountUpdateBody) := by
    rw [hashAccountUpdateBody_input h₁.bodyHash, hashAccountUpdateBody_input h₂.bodyHash]
  have hinputs := (hcf.same (List.mem_append_left _ List.mem_cons_self)
    (List.mem_append_right _ List.mem_cons_self) hdigest).2
  have hlength₁ := h₁.body_length
  have hlength₂ := h₂.body_length
  have hfirst := bodyInput_getD first.binding.minaSignatureKind h₁.body_eq
    (lt_of_le_of_lt hi hlength₁)
  have hsecond := bodyInput_getD second.binding.minaSignatureKind h₂.body_eq
    (lt_of_le_of_lt hi hlength₂)
  rw [← evenInput_getD] at hfirst hsecond
  rw [← hfirst, ← hsecond, hinputs]

/-- Two accepted witnesses carry the same action. -/
theorem action_bound (h₁ : ReceiptDerived H appState first vkHash body₁ action₁ before₁ v₁)
    (h₂ : ReceiptDerived H appState second vkHash body₂ action₂ before₂ v₂)
    (hcf : PrefixedCollisionFree H
      (bindingInputs H first.binding ++ bindingInputs H second.binding)) :
    action₁ = action₂ := by
  have hinputs₁ : actionsInputs H [action₁] ⊆ bindingInputs H first.binding := by
    rw [bindingInputs, readActions, h₁.actions_eq]
    exact List.subset_cons_self _ _
  have hinputs₂ : actionsInputs H [action₂] ⊆ bindingInputs H second.binding := by
    rw [bindingInputs, readActions, h₂.actions_eq]
    exact List.subset_cons_self _ _
  have hevent₁ := List.mem_append_left (bindingInputs H second.binding) (hinputs₁ List.mem_cons_self)
  have hevent₂ := List.mem_append_right (bindingInputs H first.binding) (hinputs₂ List.mem_cons_self)
  have hlist₁ := List.mem_append_left (bindingInputs H second.binding)
    (hinputs₁ (List.mem_cons_of_mem _ List.mem_cons_self))
  have hlist₂ := List.mem_append_right (bindingInputs H first.binding)
    (hinputs₂ (List.mem_cons_of_mem _ List.mem_cons_self))
  have hlists : hashActions H [action₁] = hashActions H [action₂] := by
    rw [h₁.actionsHash, h₂.actionsHash, body_bound h₁ h₂ hcf (by decide)]
  have hevents := (hcf.same hlist₁ hlist₂ hlists).2
  dsimp only at hevents
  rw [evenInput_pair, evenInput_pair, List.cons.injEq, List.cons.injEq] at hevents
  have hactions := (hcf.same hevent₁ hevent₂ hevents.2.1).2
  dsimp only at hactions
  rw [evenInput_of_even (by rw [h₁.action_length]), evenInput_of_even (by rw [h₂.action_length])]
    at hactions
  exact hactions

/-- Two accepted source states agree behind the pause key. -/
theorem before_bound (h₁ : ReceiptDerived H appState first vkHash body₁ action₁ before₁ v₁)
    (h₂ : ReceiptDerived H appState second vkHash body₂ action₂ before₂ v₂)
    (hcf : PrefixedCollisionFree H (bindingInputs H first.binding ++ bindingInputs H second.binding))
    {i : ℕ} (hpositive : 0 < i) (hi : i < 8) : before₁.getD i 0 = before₂.getD i 0 := by
  have hrange : i ∈ List.range' 1 7 := by
    rw [List.mem_range'_1]
    omega
  rw [h₁.preconditions i hrange, h₂.preconditions i hrange, body_bound h₁ h₂ hcf (by omega)]

/-- Two accepted target states agree behind the pause key. -/
theorem after_bound (h₁ : ReceiptDerived H appState first vkHash body₁ action₁ before₁ v₁)
    (h₂ : ReceiptDerived H appState second vkHash body₂ action₂ before₂ v₂)
    (hcf : PrefixedCollisionFree H (bindingInputs H first.binding ++ bindingInputs H second.binding))
    {i : ℕ} (hpositive : 0 < i) (hi : i < 8) :
    stateAfterField body₁ before₁ i = stateAfterField body₂ before₂ i := by
  unfold stateAfterField
  by_cases hupdated : i ∈ updatedStateFields
  · rw [if_pos hupdated, if_pos hupdated, body_bound h₁ h₂ hcf (by omega)]
  · rw [if_neg hupdated, if_neg hupdated, before_bound h₁ h₂ hcf hpositive hi]

end Pair

/-- States that agree behind the first field are equal once it is cleared. -/
theorem update_first_eq {f g : Fin 8 → Bytes32} (h : ∀ i : Fin 8, 0 < i.val → f i = g i) :
    Function.update f 0 0 = Function.update g 0 0 := by
  funext i
  by_cases hzero : i = 0
  · rw [hzero, Function.update_self, Function.update_self]
  · have hpositive : 0 < i.val := by
      by_contra hle
      exact hzero (Fin.ext (by omega))
    rw [Function.update_of_ne hzero, Function.update_of_ne hzero, h i hpositive]

/-- The receipt is bound to the committed statement: for one statement, context
and verification-key hash, any two witnesses that the guest accepts give
first-version receipts that agree in everything but the pause key, however the
prover splits the body into fields and packed chunks. -/
theorem receipt_bound {appState : List StepField} {vkHash : Bytes32}
    {first second : SettlementWitnessV1} {v₁ v₂ : SettlementPublicValuesV1}
    (hcontext : first.context = second.context)
    (h₁ : deriveReceiptForAppState H appState first vkHash = .ok v₁)
    (h₂ : deriveReceiptForAppState H appState second vkHash = .ok v₂)
    (hcf : PrefixedCollisionFree H
      (bindingInputs H first.binding ++ bindingInputs H second.binding)) :
    clearPauseKey v₁ = clearPauseKey v₂ := by
  obtain ⟨body₁, action₁, before₁, d₁⟩ := deriveReceiptForAppState_eq_ok H h₁
  obtain ⟨body₂, action₂, before₂, d₂⟩ := deriveReceiptForAppState_eq_ok H h₂
  have haction := action_bound d₁ d₂ hcf
  have houter := body_bound d₁ d₂ hcf (le_refl 36)
  subst haction
  have hbefore : Function.update v₁.stateBefore.fields 0 0 =
      Function.update v₂.stateBefore.fields 0 0 := by
    rw [d₁.stateBefore_eq, d₂.stateBefore_eq]
    apply update_first_eq
    intro i hpositive
    dsimp only
    rw [before_bound d₁ d₂ hcf hpositive i.isLt]
  have hafter : Function.update v₁.stateAfter.fields 0 0 =
      Function.update v₂.stateAfter.fields 0 0 := by
    rw [d₁.stateAfter_eq, d₂.stateAfter_eq]
    apply update_first_eq
    intro i hpositive
    dsimp only
    rw [after_bound d₁ d₂ hcf hpositive i.isLt]
  have hlengthBefore : v₁.outerActionStateLengthBefore = v₂.outerActionStateLengthBefore := by
    rw [d₁.lengthBefore_eq, d₂.lengthBefore_eq, hcontext]
  have hlengthAfter : v₁.outerActionStateLengthAfter = v₂.outerActionStateLengthAfter := by
    have hsame := d₁.lengthAfter_eq
    rw [hcontext, d₂.lengthAfter_eq] at hsame
    exact (Except.ok.inj hsame).symm
  have hsynchronized : v₁.synchronizedOuterActionStateLength =
      v₂.synchronizedOuterActionStateLength :=
    Except.ok.inj (d₁.synchronizedLength_eq.symm.trans d₂.synchronizedLength_eq)
  have hlower : v₁.slotLower = v₂.slotLower :=
    Except.ok.inj (d₁.slotLower_eq.symm.trans d₂.slotLower_eq)
  have hupper : v₁.slotUpper = v₂.slotUpper :=
    Except.ok.inj (d₁.slotUpper_eq.symm.trans d₂.slotUpper_eq)
  simp only [clearPauseKey, hbefore, hafter, d₁.daMode_eq, d₂.daMode_eq, d₁.chainId_eq,
    d₂.chainId_eq, d₁.settlementContract_eq, d₂.settlementContract_eq, d₁.batchSequence_eq,
    d₂.batchSequence_eq, d₁.vkHash_eq, d₂.vkHash_eq, d₁.appStatement_eq, d₂.appStatement_eq,
    d₁.minaTransactionHash_eq, d₂.minaTransactionHash_eq, d₁.outerBefore_eq, d₂.outerBefore_eq,
    d₁.outerAfter_eq, d₂.outerAfter_eq, d₁.synchronized_eq, d₂.synchronized_eq, hcontext, houter,
    hlengthBefore, hlengthAfter, hsynchronized, hlower, hupper]

end Receipt

/-- The lowering commit with a zero bit packed behind its odd body, another pause
key and another call forest. -/
def resplitWitness : SettlementWitnessV1 :=
  { loweringWitness with
    binding := { loweringWitness.binding with
      accountUpdateBody := ⟨loweringWitness.binding.accountUpdateBody.fieldElements, [⟨0, 1⟩]⟩
      stateBefore := ⟨fun index => [5, 0, 0, innerActionState, 3, 0, 0, 0].getD index 0⟩
      callForest := [checkpointCall] } }

/-- The statement of the lowering commit. -/
def loweringAppState : List StepField := [loweringStatement.toNat, 0]

/-- The guest accepts both witnesses under one statement, and their receipts agree
in everything but the pause key. -/
theorem receipt_bound_resplit : ∃ v₁ v₂,
    deriveReceiptForAppState referenceHashes loweringAppState loweringWitness vkHash = .ok v₁ ∧
    deriveReceiptForAppState referenceHashes loweringAppState resplitWitness vkHash = .ok v₂ ∧
    clearPauseKey v₁ = clearPauseKey v₂ := by
  have hfirst : (deriveReceiptForAppState referenceHashes loweringAppState loweringWitness
      vkHash).toOption.isSome = true := by decide +kernel
  have hsecond : (deriveReceiptForAppState referenceHashes loweringAppState resplitWitness
      vkHash).toOption.isSome = true := by decide +kernel
  have hcf : PrefixedCollisionFree referenceHashes
      (bindingInputs referenceHashes loweringWitness.binding ++
        bindingInputs referenceHashes resplitWitness.binding) := by decide +kernel
  obtain ⟨v₁, h₁⟩ : ∃ v, deriveReceiptForAppState referenceHashes loweringAppState loweringWitness
      vkHash = .ok v := ⟨_, eq_ok_get hfirst⟩
  obtain ⟨v₂, h₂⟩ : ∃ v, deriveReceiptForAppState referenceHashes loweringAppState resplitWitness
      vkHash = .ok v := ⟨_, eq_ok_get hsecond⟩
  have hcontext : loweringWitness.context = resplitWitness.context := rfl
  have hbound := receipt_bound hcontext h₁ h₂ hcf
  exact ⟨v₁, v₂, h₁, h₂, hbound⟩

section Metadata

variable (H : Hashes)

/-- The input hashed for a native withdrawal. -/
def nativeInput (withdrawal : NativeWithdrawalV2) (recipient : StepField) : PrefixedInput :=
  ("Withdrawal_params - qFB3jXP*)", [0, withdrawal.amount.toNat, recipient, 0])

/-- The input hashed for a token withdrawal. -/
def tokenInput (params : List StepField) : PrefixedInput := ("Ethereum ERC20 withdrawal V2", params)

variable {H}

/-- Small numbers are determined by their field elements. -/
theorem natCast_injective_of_lt {a b : ℕ} (ha : a < 2 ^ 64) (hb : b < 2 ^ 64)
    (h : (a : StepField) = b) : a = b := by
  have hbound : (2 : ℕ) ^ 64 ≤ fieldOrder := by decide
  have hval := congrArg ZMod.val h
  rw [ZMod.val_natCast, ZMod.val_natCast, Nat.mod_eq_of_lt (lt_of_lt_of_le ha hbound),
    Nat.mod_eq_of_lt (lt_of_lt_of_le hb hbound)] at hval
  exact hval

/-- Machine words of at most 64 bits are determined by their field elements. -/
theorem word_injective {w : ℕ} (hw : w ≤ 64) {a b : BitVec w}
    (h : (a.toNat : StepField) = b.toNat) : a = b := by
  have hpow : (2 : ℕ) ^ w ≤ 2 ^ 64 := Nat.pow_le_pow_right (by decide) hw
  exact BitVec.eq_of_toNat_eq (natCast_injective_of_lt (lt_of_lt_of_le a.isLt hpow)
    (lt_of_lt_of_le b.isLt hpow) h)

/-- Canonical words are determined by what is read from them. -/
theorem fieldFromBytes_injective {a b : Bytes32} {value : StepField}
    (ha : fieldFromBytes a = .ok value) (hb : fieldFromBytes b = .ok value) : a = b := by
  rw [fieldFromBytes_eq_ok] at ha hb
  exact ha.symm.trans hb

/-- Addresses are determined by their field elements. -/
theorem fieldFromAddress_injective {a b : Address} {value : StepField}
    (ha : fieldFromAddress a = .ok value) (hb : fieldFromAddress b = .ok value) : a = b :=
  toWord_injective (by decide) (fieldFromBytes_injective ha hb)

/-- A word is determined by its two limbs. -/
theorem limbs_injective {a b : Bytes32} (hhigh : highLimb a = highLimb b)
    (hlow : lowLimb a = lowLimb b) : a = b := by
  have hhighBits := congrArg BitVec.toNat (toWord_injective (by decide) hhigh)
  have hlowBits := congrArg BitVec.toNat (toWord_injective (by decide) hlow)
  simp only [BitVec.extractLsb'_toNat, Nat.shiftRight_eq_div_pow, pow_zero, Nat.div_one] at hhighBits hlowBits
  have ha := a.isLt
  have hb := b.isLt
  apply BitVec.eq_of_toNat_eq
  omega

/-- Equally long inputs are equal if they are so up to the zero. -/
theorem evenInput_injective {first second : List StepField}
    (hlength : first.length = second.length) (h : evenInput first = evenInput second) :
    first = second := by
  unfold evenInput at h
  by_cases hodd : first.length % 2 = 1
  · rw [if_pos hodd, if_pos (by omega)] at h
    exact List.append_cancel_right h
  · rw [if_neg hodd, if_neg (by omega)] at h
    exact h

/-- What a checked token withdrawal says about its parameters. -/
structure TokenPreimage (H : Hashes) (fields : List StepField) (withdrawal : TokenWithdrawalV3)
    (params : List StepField) : Prop where
  /-- The parameters are field elements. -/
  params_eq : withdrawal.paramsFields.mapM fieldFromBytes = .ok params
  /-- It has the second encoding. -/
  encodingVersion_eq : withdrawal.encodingVersion = erc20ActionEncodingV2
  /-- The second parameter is the registry index. -/
  registryIndex_eq : params.getD 1 0 = withdrawal.registryIndex.toNat
  /-- The third parameter is the record commitment. -/
  commitment_eq : fieldFromBytes withdrawal.recordCommitment = .ok (params.getD 2 0)
  /-- The fourth parameter is the upper half of the asset. -/
  high_eq : fieldFromBytes (highLimb withdrawal.assetId) = .ok (params.getD 3 0)
  /-- The fifth parameter is the lower half of the asset. -/
  low_eq : fieldFromBytes (lowLimb withdrawal.assetId) = .ok (params.getD 4 0)
  /-- The amount stands third from the end. -/
  amount_eq : params.getD (params.length - 4 + 1) 0 = withdrawal.amount.toNat
  /-- The recipient stands second from the end. -/
  recipient_eq : fieldFromAddress withdrawal.recipient =
    .ok (params.getD (params.length - 4 + 2) 0)
  /-- The action carries the hash of the parameters. -/
  aux_eq : fields.getD 1 0 = prefixedHash H (tokenInput params)

/-- A checked token withdrawal is what the action's auxiliary hash commits to, the
token itself apart. -/
theorem tokenPreimage_input {fields : List StepField} {withdrawal : TokenWithdrawalV3}
    (h : assertErc20WithdrawalPreimage H fields withdrawal = .ok ()) :
    ∃ params, TokenPreimage H fields withdrawal params := by
  simp only [assertErc20WithdrawalPreimage, bind_eq_ok, require_eq_ok, exists_const] at h
  obtain ⟨-, -, -, params, hparams, -, hversion, -, -, hindex, commitment, hcommitment, hsame, high,
    hhigh, hhighSame, low, hlow, hlowSame, hamount, recipient, hrecipient, hrecipientSame, -,
    haux⟩ := h
  refine ⟨params, hparams, hversion, hindex, ?_, ?_, ?_, hamount, ?_, haux⟩
  · rw [hsame, hcommitment]
  · rw [hhighSame, hhigh]
  · rw [hlowSame, hlow]
  · rw [hrecipientSame, hrecipient]

/-- Native withdrawals with the same input are equal. -/
theorem native_bound {w₁ w₂ : NativeWithdrawalV2} {r₁ r₂ : StepField}
    (hr₁ : fieldFromAddress w₁.recipient = .ok r₁) (hr₂ : fieldFromAddress w₂.recipient = .ok r₂)
    (hinputs : evenInput (nativeInput w₁ r₁).2 = evenInput (nativeInput w₂ r₂).2) : w₁ = w₂ := by
  have hlists := evenInput_injective (by simp [nativeInput]) hinputs
  simp only [nativeInput, List.cons.injEq, true_and, and_true] at hlists
  obtain ⟨hamount, hrecipient⟩ := hlists
  rw [← hrecipient] at hr₂
  have hamounts := word_injective (by decide) hamount
  have hrecipients := fieldFromAddress_injective hr₁ hr₂
  cases w₁
  cases w₂
  simp only [NativeWithdrawalV2.mk.injEq]
  exact ⟨hrecipients, hamounts⟩

end Metadata

section Root

variable (H : Hashes) {V : PicklesVerdict}

/-- The inner actions that a guest input carries. -/
def inputActions (input : SettlementGuestInput V) : List InnerActionWitnessV2 :=
  ((input.settlement.bind (·.innerActionBatch)).map (·.actions)).getD []

/-- The guest commits to a receipt with a batch. -/
structure BatchEmitted (vkHash : Bytes32) (input : SettlementGuestInput V)
    (decoded : DecodedPublicValues) : Prop where
  /-- The guest emits the receipt. -/
  emitted : ∃ publicValues, settlementGuest H V vkHash input = .ok publicValues ∧
    decodePublicValues publicValues = .ok decoded
  /-- It has a batch. -/
  version : 2 ≤ decoded.version

variable {H} {vkHash : Bytes32}

/-- The published root is that of the leaf strings of the carried actions, whose
metadata was checked. -/
theorem BatchEmitted.root_eq {input : SettlementGuestInput V} {decoded : DecodedPublicValues}
    (h : BatchEmitted H vkHash input decoded) :
    decoded.innerActionRoot = treeRoot (hashNode H) treeDepth
      (padded 0 ((innerActionInputs H decoded.chainId decoded.bridgeAddress
        decoded.innerActionStartIndex 0 (inputActions input)).map H.keccak256)) ∧
    ∀ action ∈ inputActions input, ActionChecked H action := by
  obtain ⟨publicValues, hguest, hdecode⟩ := h.emitted
  have hversion := h.version
  obtain ⟨witness, values, hwitness, hvalues, -, rfl⟩ := settlementGuest_decoded H hguest hdecode
  obtain ⟨receipt, hreceipt⟩ := batch_of_version hversion
  obtain ⟨-, hbatches⟩ := deriveReceiptValues_eq_ok H hvalues
  obtain ⟨batch, hbatch, haccepted⟩ := hbatches receipt hreceipt
  have hactions : inputActions input = batch.actions := by
    rw [inputActions, hwitness, Option.bind_some, hbatch]
    rfl
  rw [hactions]
  refine ⟨?_, haccepted.checked⟩
  have hroot := haccepted.root_eq
  rw [← haccepted.bridgeAddress_eq] at hroot
  cases values with
  | v1 => cases hreceipt
  | v2 => cases hreceipt; exact hroot
  | v3 => cases hreceipt; exact hroot
  | v4 => cases hreceipt; exact hroot

end Root

/-- The guest input of a commit. -/
def batchInput (statement : List StepField) (witness : SettlementWitnessV1) :
    SettlementGuestInput anyStatement := ⟨statement, some witness⟩

/-- The batch with another token in the metadata of its token withdrawal. -/
def otherToken : List InnerActionWitnessV2 :=
  innerActions.modify 2 fun action => { action with
    tokenWithdrawal := action.tokenWithdrawal.map fun withdrawal =>
      { withdrawal with token := token + 1 } }

end EthereumSettlement.ReceiptBinding
