import EthereumSettlement.LabelledForests
import EthereumSettlement.ReceiptBinding

/-!
# What a call-forest hash fixes

Up to collisions of the prefixed Poseidon hash, the hash of a call forest determines
its shape and the elements hashed for every body, however the prover splits a body
into fields and packed chunks. The registry checkpoint calls are counted over the
listed fields alone: a call whose call data sits in a packed chunk is hashed all the
same and not counted.
-/

namespace EthereumSettlement.CallForests

open ByteWords CheckedCalls HashCommitments PastaPoseidon InnerActionCommitment RegistryCheckpoint
open SettlementCodec SettlementReceipt ClaimSoundness ReceiptBinding LabelledForests
open ReferenceHashes ReferenceDeployment

/-- Field elements in pairs, as the sponge absorbs them. -/
abbrev EvenInput := { input : List StepField // input.length % 2 = 0 }

/-- A continued input is even. -/
theorem evenInput_length (input : List StepField) : (evenInput input).length % 2 = 0 := by
  unfold evenInput
  by_cases hodd : input.length % 2 = 1
  · rw [if_pos hodd, List.length_append, List.length_singleton]
    omega
  · rw [if_neg hodd]
    omega

/-- Continuing an input leaves its even places alone. -/
theorem evenInput_getElem? (input : List StepField) {i : ℕ} (hi : i % 2 = 0) :
    (evenInput input)[i]? = input[i]? := by
  unfold evenInput
  by_cases hodd : input.length % 2 = 1
  · rw [if_pos hodd]
    by_cases hlt : i < input.length
    · rw [List.getElem?_append_left hlt]
    · have hpast : input.length + 1 ≤ i := by omega
      rw [List.getElem?_eq_none (by omega : input.length ≤ i),
        List.getElem?_eq_none (by rw [List.length_append, List.length_singleton]; exact hpast)]
  · rw [if_neg hodd]

/-- The elements absorbed for a body. -/
def bodyElements (signatureKind : MinaSignatureKindV1) (body : ChunkedRandomOracleInputV1) :
    EvenInput :=
  ⟨evenInput (bodyInput signatureKind body).2, evenInput_length _⟩

mutual

/-- The bodies of a call forest. -/
def bodies : List CallForestNodeV3 → List (Node ChunkedRandomOracleInputV1)
  | [] => []
  | node :: forest => nodeBodies node :: bodies forest

/-- The bodies of a call and its child calls. -/
def nodeBodies : CallForestNodeV3 → Node ChunkedRandomOracleInputV1
  | .node body calls => .node body (bodies calls)

end

section Hashing

variable (H : Hashes) (signatureKind : MinaSignatureKindV1)

/-- The body hashes of a call forest, in its shape. -/
def bodyHashes (forest : List CallForestNodeV3) : List (Node (Except String StepField)) :=
  mapLabels (hashAccountUpdateBody H signatureKind) (bodies forest)

/-- The hashed elements of a call forest, in its shape. -/
def hashedForest (forest : List CallForestNodeV3) : List (Node EvenInput) :=
  mapLabels (bodyElements signatureKind) (bodies forest)

/-- The digest of absorbed body elements. -/
def elementsHash (elements : EvenInput) : StepField :=
  prefixedHash H (bodyDomain signatureKind, elements.val)

/-- The digest of a call before the calls of the given digest. -/
def callStep (arguments : EvenInput × StepField × StepField) : StepField :=
  hashCallForestNode H (elementsHash H signatureKind arguments.1) arguments.2.1 arguments.2.2

/-- The input hashed for the call alone. -/
def nodeInput (arguments : EvenInput × StepField × StepField) : PrefixedInput :=
  ("MinaAcctUpdateNode**", [elementsHash H signatureKind arguments.1, arguments.2.1])

/-- The input hashed for the list from the call on. -/
def consInput (arguments : EvenInput × StepField × StepField) : PrefixedInput :=
  ("MinaAcctUpdateCons**", [prefixedHash H (nodeInput H signatureKind arguments), arguments.2.2])

/-- The inputs hashed in one step: the body, the call and the list from it on. -/
def callInputs (arguments : EvenInput × StepField × StepField) : List PrefixedInput :=
  [(bodyDomain signatureKind, arguments.1.val), nodeInput H signatureKind arguments,
   consInput H signatureKind arguments]

/-- The inputs hashed by `hash_call_forest`. -/
def forestInputs (forest : List CallForestNodeV3) : List PrefixedInput :=
  (steps 0 (callStep H signatureKind) (hashedForest signatureKind forest)).flatMap
    (callInputs H signatureKind)

variable {H signatureKind}

/-- A hashed body is the digest of its elements. -/
theorem hashAccountUpdateBody_elements {body : ChunkedRandomOracleInputV1} {hash : StepField}
    (h : hashAccountUpdateBody H signatureKind body = .ok hash) :
    elementsHash H signatureKind (bodyElements signatureKind body) = hash := by
  rw [← hashAccountUpdateBody_input h]
  exact prefixedHash_even _ _

/-- The hash of a call forest is the digest of its elements. -/
theorem hashCallForest_digest : ∀ (forest : List CallForestNodeV3) {hash : StepField},
    hashCallForest H signatureKind forest = .ok hash →
    digest 0 (callStep H signatureKind) (hashedForest signatureKind forest) = hash
  | [], _, h => by
    simp only [hashCallForest, pure_eq_ok] at h
    simp only [hashedForest, bodies, mapLabels, digest, h]
  | .node body calls :: forest, _, h => by
    simp only [hashCallForest, hashCallForestEntry, bind_eq_ok, pure_eq_ok] at h
    obtain ⟨tail, htail, accountUpdate, hbody, children, hcalls, hnode⟩ := h
    have htail := hashCallForest_digest forest htail
    have hcalls := hashCallForest_digest calls hcalls
    have hbody := hashAccountUpdateBody_elements hbody
    rw [hashedForest] at htail hcalls
    simp only [hashedForest, bodies, nodeBodies, mapLabels, mapNode, digest, nodeDigest, callStep,
      htail, hcalls, hbody, hnode]

/-- Every body of a hashed call forest is hashed. -/
theorem hashCallForest_body : ∀ (forest : List CallForestNodeV3) {hash : StepField},
    hashCallForest H signatureKind forest = .ok hash → ∀ body ∈ labels (bodies forest),
    ∃ bodyHash, hashAccountUpdateBody H signatureKind body = .ok bodyHash
  | [], _, _, body, hbody => by
    simp only [bodies, labels, List.not_mem_nil] at hbody
  | .node body calls :: forest, _, h, other, hother => by
    simp only [hashCallForest, hashCallForestEntry, bind_eq_ok, pure_eq_ok] at h
    obtain ⟨tail, htail, accountUpdate, hbody, children, hcalls, -⟩ := h
    simp only [bodies, nodeBodies, labels, nodeLabels, List.mem_append, List.mem_cons] at hother
    rcases hother with (rfl | hother) | hother
    · exact ⟨accountUpdate, hbody⟩
    · exact hashCallForest_body calls hcalls other hother
    · exact hashCallForest_body forest htail other hother

/-- The body hashes of a hashed call forest are the digests of its elements. -/
theorem bodyHashes_eq {forest : List CallForestNodeV3} {hash : StepField}
    (h : hashCallForest H signatureKind forest = .ok hash) :
    bodyHashes H signatureKind forest =
      mapLabels (fun elements => Except.ok (elementsHash H signatureKind elements))
        (hashedForest signatureKind forest) := by
  rw [bodyHashes, hashedForest, mapLabels_mapLabels]
  apply mapLabels_congr
  intro body hmem
  obtain ⟨bodyHash, hbody⟩ := hashCallForest_body forest h body hmem
  rw [hbody, Function.comp_apply, hashAccountUpdateBody_elements hbody]

/-- A step is the digest of the list from the call on. -/
theorem callStep_eq (arguments : EvenInput × StepField × StepField) :
    callStep H signatureKind arguments = prefixedHash H (consInput H signatureKind arguments) := rfl

/-- Steps over listed inputs do not collide. -/
theorem callStep_injOn {inputs : List PrefixedInput} (hcf : PrefixedCollisionFree H inputs) :
    Set.InjOn (callStep H signatureKind)
      {arguments | callInputs H signatureKind arguments ⊆ inputs} := by
  intro first hfirst second hsecond hsame
  rw [Set.mem_ofPred_eq, callInputs, List.cons_subset, List.cons_subset, List.cons_subset]
    at hfirst hsecond
  rw [callStep_eq, callStep_eq] at hsame
  have hcons := (hcf.same hfirst.2.2.1 hsecond.2.2.1 hsame).2
  rw [consInput, consInput, evenInput_pair, evenInput_pair, List.cons.injEq, List.cons.injEq]
    at hcons
  have hnode := (hcf.same hfirst.2.1 hsecond.2.1 hcons.1).2
  rw [nodeInput, nodeInput, evenInput_pair, evenInput_pair, List.cons.injEq, List.cons.injEq]
    at hnode
  have hbody := (hcf.same hfirst.1 hsecond.1 hnode.1).2
  rw [evenInput_of_even first.1.property, evenInput_of_even second.1.property] at hbody
  have helements : first.1 = second.1 := Subtype.ext hbody
  have htail : first.2 = second.2 := Prod.ext hnode.2.1 hcons.2.1
  exact Prod.ext helements htail

/-- Call forests of one hash have the same shape and the same hashed elements. -/
theorem hashedForest_bound {first second : List CallForestNodeV3} {calls : StepField}
    (h₁ : hashCallForest H signatureKind first = .ok calls)
    (h₂ : hashCallForest H signatureKind second = .ok calls)
    (hcf : PrefixedCollisionFree H
      (forestInputs H signatureKind first ++ forestInputs H signatureKind second))
    (hzero : ∀ input ∈ forestInputs H signatureKind first ++ forestInputs H signatureKind second,
      prefixedHash H input ≠ 0) :
    hashedForest signatureKind first = hashedForest signatureKind second := by
  have hdigests := (hashCallForest_digest first h₁).trans (hashCallForest_digest second h₂).symm
  apply digest_injective _ (callStep_injOn hcf) _ _ _ _ _ hdigests
  · intro arguments harguments
    rw [Set.mem_ofPred_eq, callInputs, List.cons_subset, List.cons_subset, List.cons_subset]
      at harguments
    rw [callStep_eq]
    exact hzero _ harguments.2.2.1
  · intro arguments harguments input hinput
    exact List.mem_append_left _ (List.mem_flatMap_of_mem harguments hinput)
  · intro arguments harguments input hinput
    exact List.mem_append_right _ (List.mem_flatMap_of_mem harguments hinput)

end Hashing

/-- A body lists the call data of a checkpoint among its fields. -/
def ListsCallData (expectedCallData : Bytes32) (body : ChunkedRandomOracleInputV1) : Prop :=
  16 < body.fieldElements.length ∧ body.fieldElements.getD 16 0 = expectedCallData

instance (expectedCallData : Bytes32) : DecidablePred (ListsCallData expectedCallData) :=
  fun _ => inferInstanceAs (Decidable (_ ∧ _))

/-- Hashed elements hold the call data of a checkpoint at its place. -/
def HashesCallData (expectedCallData : Bytes32) (elements : List StepField) : Prop :=
  elements[16]?.map fieldToBytes = some expectedCallData

instance (expectedCallData : Bytes32) : DecidablePred (HashesCallData expectedCallData) :=
  fun _ => inferInstanceAs (Decidable (_ = _))

/-- A body hides the call data of a checkpoint: the call data is hashed at its
place, and comes from the packed chunks. -/
def HidesCallData (signatureKind : MinaSignatureKindV1) (expectedCallData : Bytes32)
    (body : ChunkedRandomOracleInputV1) : Prop :=
  body.fieldElements.length ≤ 16 ∧
    HashesCallData expectedCallData (bodyInput signatureKind body).2

instance (signatureKind : MinaSignatureKindV1) (expectedCallData : Bytes32) :
    DecidablePred (HidesCallData signatureKind expectedCallData) :=
  fun _ => inferInstanceAs (Decidable (_ ∧ _))

/-- The number of calls that hide the call data of a checkpoint. -/
def hiddenCalls (signatureKind : MinaSignatureKindV1) (expectedCallData : Bytes32)
    (forest : List CallForestNodeV3) : ℕ :=
  (labels (bodies forest)).countP fun body => HidesCallData signatureKind expectedCallData body

/-- The number of calls whose hashed elements hold the call data of a checkpoint. -/
def committedCalls (expectedCallData : Bytes32) (forest : List (Node EvenInput)) : ℕ :=
  (labels forest).countP fun elements => HashesCallData expectedCallData elements.val

/-- The counted calls are those that list the call data. -/
theorem countCallData_eq (expectedCallData : Bytes32) : ∀ forest : List CallForestNodeV3,
    countCallData expectedCallData forest =
      (labels (bodies forest)).countP fun body => ListsCallData expectedCallData body
  | [] => by simp only [countCallData, bodies, labels, List.countP_nil]
  | .node body calls :: forest => by
    have hcalls := countCallData_eq expectedCallData calls
    have hforest := countCallData_eq expectedCallData forest
    have hentry : countCallDataEntry expectedCallData (.node body calls) =
        (if ListsCallData expectedCallData body then 1 else 0) +
          countCallData expectedCallData calls := by
      rw [countCallDataEntry]
      rfl
    simp only [countCallData, hentry, bodies, nodeBodies, labels, nodeLabels, hcalls, hforest,
      List.countP_append, List.countP_cons, decide_eq_true_eq]
    omega

/-- The elements of a body start with its listed fields. -/
theorem bodyInput_getElem? {H : Hashes} {signatureKind : MinaSignatureKindV1}
    {body : ChunkedRandomOracleInputV1} {hash : StepField}
    (h : hashAccountUpdateBody H signatureKind body = .ok hash) {i : ℕ}
    (hi : i < body.fieldElements.length) :
    (bodyInput signatureKind body).2[i]?.map fieldToBytes = some (body.fieldElements.getD i 0) := by
  simp only [hashAccountUpdateBody, bind_eq_ok, pure_eq_ok] at h
  obtain ⟨fields, hfields, -⟩ := h
  have hencoded := mapM_fieldFromBytes_eq_ok.mp hfields
  have hlt : i < fields.length := by
    rw [← hencoded, List.length_map] at hi
    exact hi
  have hmapped : i < (fields.map fieldToBytes).length := by
    rw [List.length_map]
    exact hlt
  rw [bodyInput, hfields, ← hencoded, List.getD_eq_getElem _ _ hmapped, List.getElem_map]
  dsimp only [Except.toOption, Option.getD_some]
  rw [List.getElem?_append_left hlt, List.getElem?_eq_getElem hlt, Option.map_some]

/-- A hashed body holds the call data of a checkpoint where it lists it or hides it. -/
theorem hashesCallData_iff {H : Hashes} {signatureKind : MinaSignatureKindV1}
    {body : ChunkedRandomOracleInputV1} {hash : StepField}
    (h : hashAccountUpdateBody H signatureKind body = .ok hash) (expectedCallData : Bytes32) :
    HashesCallData expectedCallData (bodyElements signatureKind body).val ↔
      ListsCallData expectedCallData body ∨ HidesCallData signatureKind expectedCallData body := by
  have helements : HashesCallData expectedCallData (bodyElements signatureKind body).val ↔
      HashesCallData expectedCallData (bodyInput signatureKind body).2 := by
    rw [HashesCallData, HashesCallData, bodyElements, evenInput_getElem? _ (by decide)]
  rw [helements, ListsCallData, HidesCallData]
  by_cases hlisted : 16 < body.fieldElements.length
  · rw [HashesCallData, bodyInput_getElem? h hlisted, Option.some.injEq]
    constructor
    · intro hword
      exact Or.inl ⟨hlisted, hword⟩
    · intro hcases
      rcases hcases with hlists | hhides
      · exact hlists.2
      · exact absurd hlisted (Nat.not_lt.mpr hhides.1)
  · constructor
    · intro hhashed
      exact Or.inr ⟨Nat.not_lt.mp hlisted, hhashed⟩
    · intro hcases
      rcases hcases with hlists | hhides
      · exact absurd hlists.1 hlisted
      · exact hhides.2

/-- The calls whose hashed elements hold the call data are counted or hidden. -/
theorem countCallData_add_hiddenCalls {H : Hashes} {signatureKind : MinaSignatureKindV1}
    {forest : List CallForestNodeV3} {hash : StepField}
    (h : hashCallForest H signatureKind forest = .ok hash) (expectedCallData : Bytes32) :
    countCallData expectedCallData forest + hiddenCalls signatureKind expectedCallData forest =
      committedCalls expectedCallData (hashedForest signatureKind forest) := by
  have hbodies := hashCallForest_body forest h
  rw [countCallData_eq, hiddenCalls, committedCalls, hashedForest, labels_mapLabels,
    List.countP_map]
  generalize labels (bodies forest) = listed at hbodies
  induction listed with
  | nil => simp only [List.countP_nil]
  | cons body rest ih =>
    have hrest := ih fun other hother => hbodies other (List.mem_cons_of_mem _ hother)
    obtain ⟨bodyHash, hbody⟩ := hbodies body List.mem_cons_self
    have hiff := hashesCallData_iff hbody expectedCallData
    have hdisjoint : ListsCallData expectedCallData body →
        ¬ HidesCallData signatureKind expectedCallData body :=
      fun hlists hhides => Nat.not_lt.mpr hhides.1 hlists.1
    simp only [List.countP_cons, Function.comp_apply, decide_eq_true_eq, hiff]
    by_cases hlists : ListsCallData expectedCallData body
    · rw [if_pos hlists, if_neg (hdisjoint hlists), if_pos (Or.inl hlists)]
      omega
    · by_cases hhides : HidesCallData signatureKind expectedCallData body
      · rw [if_neg hlists, if_pos hhides, if_pos (Or.inr hhides)]
        omega
      · rw [if_neg hlists, if_neg hhides, if_neg (not_or_intro hlists hhides)]
        omega

/-- A call-forest hash fixes the tree, and fixes the number of counted checkpoint
calls exactly up to the calls that hide the call data: two forests of one hash have
one shape and equal body hashes at every node, and count the same number of
checkpoint calls just where they hide the same number. -/
theorem forest_bound {H : Hashes} {signatureKind : MinaSignatureKindV1}
    {first second : List CallForestNodeV3} {calls : StepField}
    {registryPublicKey root expectedCallData : Bytes32} {count schemaVersion : BitVec 32} {m n : ℕ}
    (h₁ : hashCallForest H signatureKind first = .ok calls)
    (h₂ : hashCallForest H signatureKind second = .ok calls)
    (hcf : PrefixedCollisionFree H
      (forestInputs H signatureKind first ++ forestInputs H signatureKind second))
    (hzero : ∀ input ∈ forestInputs H signatureKind first ++ forestInputs H signatureKind second,
      prefixedHash H input ≠ 0)
    (hword : registryCheckpointCallData H registryPublicKey root count schemaVersion =
      .ok expectedCallData)
    (hm : countRegistryCheckpointCalls H first registryPublicKey root count schemaVersion = .ok m)
    (hn : countRegistryCheckpointCalls H second registryPublicKey root count schemaVersion = .ok n) :
    bodyHashes H signatureKind first = bodyHashes H signatureKind second ∧
      (m = n ↔ hiddenCalls signatureKind expectedCallData first =
        hiddenCalls signatureKind expectedCallData second) := by
  have hforests := hashedForest_bound h₁ h₂ hcf hzero
  have hbodies : bodyHashes H signatureKind first = bodyHashes H signatureKind second := by
    rw [bodyHashes_eq h₁, bodyHashes_eq h₂, hforests]
  have hfirst := countCallData_add_hiddenCalls h₁ expectedCallData
  have hsecond := countCallData_add_hiddenCalls h₂ expectedCallData
  simp only [countRegistryCheckpointCalls, hword, bind_eq_ok, pure_eq_ok, Except.ok.injEq,
    exists_eq_left'] at hm hn
  rw [hm] at hfirst
  rw [hn, ← hforests] at hsecond
  refine ⟨hbodies, ?_⟩
  constructor
  · intro hsame
    omega
  · intro hhidden
    omega

/-- The checkpoint call with its call data in a packed chunk. -/
def hidingCall : CallForestNodeV3 :=
  .node ⟨List.replicate 16 0,
    [⟨0x292d9899b7c51ddd2bc9cafdb6baf11ae8630c224615db87bed9bb7e9cea115a, 254⟩]⟩ []

/-- The checkpoint call twice, and with the second one hidden. -/
def repeatedCalls : List CallForestNodeV3 := [checkpointCall, checkpointCall]

/-- The repeated checkpoint call with the second one hidden. -/
def hidingCalls : List CallForestNodeV3 := [checkpointCall, hidingCall]

/-- The hash of the repeated checkpoint call. -/
def repeatedHash : StepField :=
  26309580770075927182240610426569736089615409164664630665297519840814711721444

/-- The settlement witness over another call forest. -/
def witnessOf (forest : List CallForestNodeV3) : SettlementWitnessV1 :=
  { settlementWitness with binding := { settlementWitness.binding with callForest := forest } }

/-- Hiding a call does not change the hashed elements. -/
theorem hidingCalls_hashed :
    hashedForest .testnet hidingCalls = hashedForest .testnet repeatedCalls := by
  have hbody : bodyElements .testnet ⟨List.replicate 16 0,
        [⟨0x292d9899b7c51ddd2bc9cafdb6baf11ae8630c224615db87bed9bb7e9cea115a, 254⟩]⟩ =
      bodyElements .testnet ⟨List.replicate 16 0 ++
        [0x292d9899b7c51ddd2bc9cafdb6baf11ae8630c224615db87bed9bb7e9cea115a], []⟩ := by
    decide +kernel
  simp only [hashedForest, hidingCalls, repeatedCalls, checkpointCall, hidingCall, bodies,
    nodeBodies, mapLabels, mapNode, hbody]

/-- The inputs hashed for the two forests do not collide, and no digest is zero. -/
theorem repeatedCalls_inputs :
    PrefixedCollisionFree referenceHashes (forestInputs referenceHashes .testnet repeatedCalls ++
      forestInputs referenceHashes .testnet hidingCalls) ∧
    ∀ input ∈ forestInputs referenceHashes .testnet repeatedCalls ++
      forestInputs referenceHashes .testnet hidingCalls, prefixedHash referenceHashes input ≠ 0 := by
  have hinputs : forestInputs referenceHashes .testnet hidingCalls =
      forestInputs referenceHashes .testnet repeatedCalls := by
    rw [forestInputs, forestInputs, hidingCalls_hashed]
  have hchecked : PrefixedCollisionFree referenceHashes
        (forestInputs referenceHashes .testnet repeatedCalls) ∧
      ∀ input ∈ forestInputs referenceHashes .testnet repeatedCalls,
        prefixedHash referenceHashes input ≠ 0 := by
    decide +kernel
  have hsubset : forestInputs referenceHashes .testnet repeatedCalls ++
      forestInputs referenceHashes .testnet hidingCalls ⊆
      forestInputs referenceHashes .testnet repeatedCalls := by
    rw [hinputs]
    exact List.append_subset.mpr ⟨List.Subset.refl _, List.Subset.refl _⟩
  exact ⟨hchecked.1.mono hsubset, fun input hinput => hchecked.2 input (hsubset hinput)⟩

/-- The two forests have one hash. -/
theorem repeatedCalls_hash :
    hashCallForest referenceHashes .testnet repeatedCalls = .ok repeatedHash ∧
    hashCallForest referenceHashes .testnet hidingCalls = .ok repeatedHash := by
  decide +kernel

/-- The repeated call is counted twice, or once where the second is hidden. -/
theorem repeatedCalls_counts :
    countRegistryCheckpointCalls referenceHashes repeatedCalls 10 registryRoot 1 1 = .ok 2 ∧
    countRegistryCheckpointCalls referenceHashes hidingCalls 10 registryRoot 1 1 = .ok 1 := by
  decide +kernel

/-- A prover hides the second of two checkpoint calls: the forest keeps its hash, is
counted once instead of twice, and passes the check that refuses the repeated call. -/
theorem matching_call_hidden :
    hashCallForest referenceHashes .testnet repeatedCalls = .ok repeatedHash ∧
    hashCallForest referenceHashes .testnet hidingCalls = .ok repeatedHash ∧
    (PrefixedCollisionFree referenceHashes (forestInputs referenceHashes .testnet repeatedCalls ++
        forestInputs referenceHashes .testnet hidingCalls) ∧
      ∀ input ∈ forestInputs referenceHashes .testnet repeatedCalls ++
        forestInputs referenceHashes .testnet hidingCalls,
        prefixedHash referenceHashes input ≠ 0) ∧
    countRegistryCheckpointCalls referenceHashes repeatedCalls 10 registryRoot 1 1 = .ok 2 ∧
    countRegistryCheckpointCalls referenceHashes hidingCalls 10 registryRoot 1 1 = .ok 1 ∧
    checkRegistryBinding referenceHashes (witnessOf repeatedCalls) repeatedHash =
      .error "registry checkpoint must match exactly one authenticated child call" ∧
    checkRegistryBinding referenceHashes (witnessOf hidingCalls) repeatedHash = .ok () := by
  have hchecks : checkRegistryBinding referenceHashes (witnessOf repeatedCalls) repeatedHash =
        .error "registry checkpoint must match exactly one authenticated child call" ∧
      checkRegistryBinding referenceHashes (witnessOf hidingCalls) repeatedHash = .ok () := by
    decide +kernel
  exact ⟨repeatedCalls_hash.1, repeatedCalls_hash.2, repeatedCalls_inputs, repeatedCalls_counts.1,
    repeatedCalls_counts.2, hchecks.1, hchecks.2⟩

/-- The two forests of one hash have equal body hashes at every node, and differ in
their counts as they differ in their hidden calls. -/
theorem forest_bound_hidden :
    bodyHashes referenceHashes .testnet repeatedCalls =
        bodyHashes referenceHashes .testnet hidingCalls ∧
      (2 = 1 ↔ hiddenCalls .testnet
          0x292d9899b7c51ddd2bc9cafdb6baf11ae8630c224615db87bed9bb7e9cea115a repeatedCalls =
        hiddenCalls .testnet
          0x292d9899b7c51ddd2bc9cafdb6baf11ae8630c224615db87bed9bb7e9cea115a hidingCalls) := by
  have hword : registryCheckpointCallData referenceHashes 10 registryRoot 1 1 =
      .ok 0x292d9899b7c51ddd2bc9cafdb6baf11ae8630c224615db87bed9bb7e9cea115a := by
    decide +kernel
  exact forest_bound repeatedCalls_hash.1 repeatedCalls_hash.2 repeatedCalls_inputs.1
    repeatedCalls_inputs.2 hword repeatedCalls_counts.1 repeatedCalls_counts.2

end EthereumSettlement.CallForests
