import EthereumSettlement.SettlementCodec

/-!
# Bridge receipts: the guest's encoder and the contract's decoder

The bridge guest commits a header and one 192-byte entry for each deposit
action. `EthereumZekoBridge` decodes the header and later reads the state after
each action at its own offset. The main results read an encoded receipt back.
-/

namespace EthereumSettlement.BridgeCodec

open ByteWords CheckedCalls OpenZeppelin PastaPoseidon

/-- `BridgeOuterActionV2`: the five action fields and the state after them. -/
structure BridgeOuterActionV2 where
  /-- The five field elements of the action. -/
  fields : Fin 5 → Bytes32
  /-- Outer action state after it. -/
  stateAfter : Bytes32
  deriving DecidableEq

/-- `BridgeTransitionPublicValuesV2`. -/
structure BridgeTransitionPublicValuesV2 where
  /-- Deposit accumulator before the range. -/
  ethereumStateBefore : Bytes32
  /-- Deposit accumulator after the range. -/
  ethereumStateAfter : Bytes32
  /-- Last deposit before the range. -/
  ethereumNonceBefore : BitVec 64
  /-- Last deposit of the range. -/
  ethereumNonceAfter : BitVec 64
  /-- Outer action state before the appended actions. -/
  zekoActionStateBefore : Bytes32
  /-- Outer action state after the appended actions. -/
  zekoActionStateAfter : Bytes32
  /-- Outer length before the appended actions. -/
  zekoActionStateLengthBefore : BitVec 32
  /-- Outer length after the appended actions. -/
  zekoActionStateLengthAfter : BitVec 32
  /-- One outer action for each deposit. -/
  actions : List BridgeOuterActionV2
  deriving DecidableEq

/-- `BRIDGE_PUBLIC_VALUES_V2_MAGIC`, the text `ZKBR`. -/
def bridgePublicValuesMagic : Bytes := asciiBytes "ZKBR"

/-- One action entry. -/
def BridgeOuterActionV2.encode (action : BridgeOuterActionV2) : Bytes :=
  abiEncode (List.ofFn action.fields ++ [action.stateAfter])

/-- The header with a given action count. -/
def BridgeTransitionPublicValuesV2.header (v : BridgeTransitionPublicValuesV2) (count : BitVec 32) :
    Bytes :=
  bridgePublicValuesMagic ++ (bytesOf (2 : BitVec 16) ++ (bytesOf (0 : Byte) ++ (bytesOf (0 : Byte) ++
  (bytesOf v.ethereumStateBefore ++ (bytesOf v.ethereumStateAfter ++
  (bytesOf v.ethereumNonceBefore ++ (bytesOf v.ethereumNonceAfter ++
  (bytesOf v.zekoActionStateBefore ++ (bytesOf v.zekoActionStateAfter ++
  (bytesOf v.zekoActionStateLengthBefore ++ (bytesOf v.zekoActionStateLengthAfter ++
  bytesOf count)))))))))))

/-- `BridgeTransitionPublicValuesV2::encode`. -/
def BridgeTransitionPublicValuesV2.encode (v : BridgeTransitionPublicValuesV2) :
    Except String Bytes := do
  require (v.actions.length < 2 ^ 32) "bridge action count fits u32"
  pure (v.header (BitVec.ofNat 32 v.actions.length) ++ v.actions.flatMap (·.encode))

/-- The reverts of `EthereumZekoBridge` and of what it calls. -/
inductive BridgeError
  | accessControl (error : AccessControlError)
  | pausable (error : PausableError)
  | proofRejected
  | arithmeticPanic
  | invalidZekoField
  | safeERC20FailedOperation (token : Address)
  | settlementReverted (error : SettlementCodec.SettlementError)
  | zeroAddress
  | zeroAmount
  | feeOnTransferTokenNotSupported
  | tokenNotAllowed (token : Address)
  | invalidAmountPrecision (token : Address) (amount : BitVec 256)
      (ethereumDecimals zekoDecimals : BitVec 8)
  | nativeTransferFailed
  | tokenAlreadyAdded (token : Address)
  | tokenNotAdded (token : Address)
  | canonicalRecordNotBound (token : Address)
  | amountExceedsZekoUInt64 (amount : BitVec 256)
  | tokenDepositCapExceeded (token : Address) (cap requestedLiability : BitVec 256)
  | invalidSettlementActionState (actionState : Bytes32)
  | actionStateAlreadyProcessed (actionState : Bytes32)
  | invalidBridgePublicValuesLength (expected actual : ℕ)
  | invalidBridgePublicValuesMagic (actual : Bytes)
  | invalidBridgePublicValuesVersion (actual : BitVec 16)
  | invalidDepositState (expected actual : Bytes32)
  | invalidDepositNonce (expected actual : BitVec 64)
  | invalidWithdrawProof
  | withdrawalNotYetClaimable (currentSlot claimableSlot : BitVec 64)
  | withdrawalIndexAlreadyProcessed (recipient : Address) (currentIndex suppliedIndex : BitVec 32)
  | insufficientNativeEscrow (available requested : BitVec 256)
  | insufficientTokenEscrow (token : Address) (available requested : BitVec 256)
  | insufficientExcessTokenBalance (token : Address) (available requested : BitVec 256)
  | tokenWithdrawalIndexAlreadyProcessed (token recipient : Address)
      (currentIndex suppliedIndex : BitVec 32)
  | unauthorizedAssetRegistryModule (caller : Address)
  | invalidAssetRecord
  | assetRecordAlreadyProposed (recordHash : Bytes32)
  | assetIdentityAlreadyProposed (identity : Bytes32)
  | assetRecordNotPending (recordHash : Bytes32)
  | assetRecordNotSettled (recordHash : Bytes32)
  | assetProposalNotTail (token : Address) (registryIndex proposedCount : BitVec 32)
  | assetProposalAlreadySettled (recordHash : Bytes32) (registryIndex settledCount : BitVec 32)
  | invalidAssetRecordBatch (expectedRoot actualRoot : Bytes32) (settlementSequence : BitVec 64)
  | registryCheckpointMismatch (expectedRoot : Bytes32) (expectedCount expectedSchema : BitVec 32)
      (actualRoot : Bytes32) (actualCount actualSchema : BitVec 32)
  | invalidEthereumDecimals (token : Address) (expected actual : BitVec 8)
  | unauthorizedAssetRegistryCaller (caller : Address)
  | callToNonContract (target : Address)
  deriving DecidableEq

/-- `DecodedBridgePublicValues`. -/
structure DecodedBridgePublicValues where
  /-- Deposit accumulator before the range. -/
  ethereumStateBefore : Bytes32
  /-- Deposit accumulator after the range. -/
  ethereumStateAfter : Bytes32
  /-- Last deposit before the range. -/
  ethereumNonceBefore : BitVec 64
  /-- Last deposit of the range. -/
  ethereumNonceAfter : BitVec 64
  /-- Outer action state before the appended actions. -/
  zekoActionStateBefore : Bytes32
  /-- Outer action state after the appended actions. -/
  zekoActionStateAfter : Bytes32
  /-- Outer length before the appended actions. -/
  zekoActionStateLengthBefore : BitVec 32
  /-- Outer length after the appended actions. -/
  zekoActionStateLengthAfter : BitVec 32
  /-- Number of bridged deposits. -/
  depositCount : BitVec 32
  deriving DecidableEq

/-- The header fields at their offsets. -/
def readBridgePublicValues (publicValues : Bytes) : DecodedBridgePublicValues where
  ethereumStateBefore := readWord 256 publicValues 8
  ethereumStateAfter := readWord 256 publicValues 40
  ethereumNonceBefore := readWord 64 publicValues 72
  ethereumNonceAfter := readWord 64 publicValues 80
  zekoActionStateBefore := readWord 256 publicValues 88
  zekoActionStateAfter := readWord 256 publicValues 120
  zekoActionStateLengthBefore := readWord 32 publicValues 152
  zekoActionStateLengthAfter := readWord 32 publicValues 156
  depositCount := readWord 32 publicValues 160

/-- `decodeBridgePublicValues`. -/
def decodeBridgePublicValues (publicValues : Bytes) :
    Except BridgeError DecodedBridgePublicValues := do
  require (164 ≤ publicValues.length) (.invalidBridgePublicValuesLength 164 publicValues.length)
  require (slice publicValues 0 4 = bridgePublicValuesMagic)
    (.invalidBridgePublicValuesMagic (slice publicValues 0 4))
  require (readWord 16 publicValues 4 = 2)
    (.invalidBridgePublicValuesVersion (readWord 16 publicValues 4))
  require (readWord 8 publicValues 6 = 0 ∧ readWord 8 publicValues 7 = 0) .invalidWithdrawProof
  let decoded := readBridgePublicValues publicValues
  require (publicValues.length = 164 + decoded.depositCount.toNat * 192)
    (.invalidBridgePublicValuesLength (164 + decoded.depositCount.toNat * 192) publicValues.length)
  pure decoded

/-- The state after the action at a position, read where
`submitBridgeTransition` reads it. -/
def readActionState (publicValues : Bytes) (i : ℕ) : Bytes32 :=
  readWord 256 publicValues (164 + 192 * i + 160)

/-- The decoded form of a receipt. -/
def BridgeTransitionPublicValuesV2.decoded (v : BridgeTransitionPublicValuesV2) :
    DecodedBridgePublicValues where
  ethereumStateBefore := v.ethereumStateBefore
  ethereumStateAfter := v.ethereumStateAfter
  ethereumNonceBefore := v.ethereumNonceBefore
  ethereumNonceAfter := v.ethereumNonceAfter
  zekoActionStateBefore := v.zekoActionStateBefore
  zekoActionStateAfter := v.zekoActionStateAfter
  zekoActionStateLengthBefore := v.zekoActionStateLengthBefore
  zekoActionStateLengthAfter := v.zekoActionStateLengthAfter
  depositCount := BitVec.ofNat 32 v.actions.length

/-- The magic occupies four bytes. -/
@[simp] theorem bridgePublicValuesMagic_length : bridgePublicValuesMagic.length = 4 := by
  decide

/-- An action entry occupies 192 bytes. -/
@[simp] theorem BridgeOuterActionV2.encode_length (action : BridgeOuterActionV2) :
    action.encode.length = 192 := by
  rw [encode, abiEncode_length, List.length_append, List.length_ofFn, List.length_singleton]

/-- The header occupies 164 bytes. -/
@[simp] theorem header_length (v : BridgeTransitionPublicValuesV2) (count : BitVec 32) :
    (v.header count).length = 164 := by
  simp [BridgeTransitionPublicValuesV2.header]

/-- The entries occupy 192 bytes each. -/
theorem encode_actions_length (actions : List BridgeOuterActionV2) :
    (actions.flatMap (·.encode)).length = actions.length * 192 := by
  induction actions with
  | nil => rfl
  | cons action actions ih =>
    rw [List.flatMap_cons, List.length_append, ih, BridgeOuterActionV2.encode_length,
      List.length_cons]
    omega

/-- Reading past the magic. -/
theorem readWord_skip_bridgeMagic {w : ℕ} (rest : Bytes) {offset : ℕ} (h : 4 ≤ offset) :
    readWord w (bridgePublicValuesMagic ++ rest) offset = readWord w rest (offset - 4) :=
  readWord_skip bridgePublicValuesMagic_length h

/-- Every header field is read back. -/
theorem readBridgePublicValues_header (v : BridgeTransitionPublicValuesV2) (rest : Bytes) :
    readBridgePublicValues (v.header (BitVec.ofNat 32 v.actions.length) ++ rest) = v.decoded := by
  simp (disch := decide) [readBridgePublicValues, BridgeTransitionPublicValuesV2.header,
    readWord_skip_bridgeMagic, readWord_skip_word, readWord_here,
    BridgeTransitionPublicValuesV2.decoded]

/-- The contract reads back exactly the header the guest encoded. -/
theorem decodeBridgePublicValues_encode {v : BridgeTransitionPublicValuesV2} {encoded : Bytes}
    (h : v.encode = .ok encoded) : decodeBridgePublicValues encoded = .ok v.decoded := by
  rw [BridgeTransitionPublicValuesV2.encode, require_bind_eq_ok, pure_eq_ok] at h
  obtain ⟨hcount, rfl⟩ := h
  have hread := readBridgePublicValues_header v (v.actions.flatMap (·.encode))
  have hlength := encode_actions_length v.actions
  have htotal : (v.header (BitVec.ofNat 32 v.actions.length) ++
      v.actions.flatMap (·.encode)).length = 164 + v.actions.length * 192 := by
    rw [List.length_append, header_length, hlength]
  have hdeposits : v.decoded.depositCount.toNat = v.actions.length := by
    change (BitVec.ofNat 32 v.actions.length).toNat = _
    rw [BitVec.toNat_ofNat, Nat.mod_eq_of_lt hcount]
  simp only [decodeBridgePublicValues, bind_eq_ok, require_eq_ok, exists_const, pure_eq_ok]
  rw [hread, htotal, hdeposits]
  refine ⟨by omega, ?_, ?_, ⟨?_, ?_⟩, rfl, rfl⟩
  · rw [BridgeTransitionPublicValuesV2.header, List.append_assoc,
      slice_here bridgePublicValuesMagic_length]
  all_goals
    simp (disch := decide) only [BridgeTransitionPublicValuesV2.header, List.append_assoc,
      readWord_skip_bridgeMagic, readWord_skip_word, Nat.reduceSub, Nat.reduceDiv, readWord_here]

/-- The last word of an entry is the state after its action. -/
theorem readWord_entry (action : BridgeOuterActionV2) (rest : Bytes) :
    readWord 256 (action.encode ++ rest) 160 = action.stateAfter := by
  have hread := readWord_abiEncode (List.ofFn action.fields ++ [action.stateAfter]) rest 5
    (by simp)
  rw [BridgeOuterActionV2.encode, hread]
  simp

/-- The entries are read back at their positions. -/
theorem readWord_entries (actions : List BridgeOuterActionV2) (i : ℕ) (hi : i < actions.length) :
    readWord 256 (actions.flatMap (·.encode)) (192 * i + 160) = actions[i].stateAfter := by
  induction actions generalizing i with
  | nil => simp at hi
  | cons action actions ih =>
    rw [List.flatMap_cons]
    cases i with
    | zero => exact readWord_entry action _
    | succ i =>
      rw [readWord_skip action.encode_length (by omega),
        show 192 * (i + 1) + 160 - 192 = 192 * i + 160 by omega]
      exact ih i (by simpa using hi)

/-- The contract reads the state after each action of an encoded receipt. -/
theorem readActionState_encode {v : BridgeTransitionPublicValuesV2} {encoded : Bytes}
    (h : v.encode = .ok encoded) (i : ℕ) (hi : i < v.actions.length) :
    readActionState encoded i = v.actions[i].stateAfter := by
  rw [BridgeTransitionPublicValuesV2.encode, require_bind_eq_ok, pure_eq_ok] at h
  obtain ⟨-, rfl⟩ := h
  rw [readActionState, readWord_skip (header_length v _) (by omega),
    show 164 + 192 * i + 160 - 164 = 192 * i + 160 by omega]
  exact readWord_entries v.actions i hi

end EthereumSettlement.BridgeCodec
