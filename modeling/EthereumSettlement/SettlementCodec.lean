import EthereumSettlement.OpenZeppelin

/-!
# Settlement receipts: the guest's encoder and the contract's decoder

The settlement guest commits one of four receipt versions as a fixed-layout
big-endian byte string; `ZekoSettlement.decodePublicValues` reads it back at
fixed offsets. Later versions extend the first one by overwriting its version
word and appending fields. The main result reads every encoded receipt back
field by field. The JSON transport of the same structures is left out: neither
the guest's commitment nor the contract uses it.
-/

namespace EthereumSettlement.SettlementCodec

open ByteWords CheckedCalls OpenZeppelin PastaPoseidon

/-- `SettlementDaMode`. -/
inductive SettlementDaMode
  | multisig
  deriving DecidableEq

/-- The wire byte of a data-availability mode. -/
def SettlementDaMode.toByte : SettlementDaMode → Byte
  | .multisig => 1

/-- The eight app-state fields have literal indices. -/
instance stateFieldIndices : NeZero 8 := ⟨by decide⟩

/-- `OuterStateV1`: the eight app-state fields, pause key first. -/
structure OuterStateV1 where
  /-- Fields in app-state order. -/
  fields : Fin 8 → Bytes32
  deriving DecidableEq

namespace OuterStateV1

/-- `inner_action_state`. -/
def innerActionState (state : OuterStateV1) : Bytes32 := state.fields 3

/-- `inner_action_state_length`. -/
def innerActionStateLength (state : OuterStateV1) : Bytes32 := state.fields 4

/-- The eight fields in wire order. -/
def encode (state : OuterStateV1) : Bytes := abiEncode (List.ofFn state.fields)

/-- The eight fields occupy 256 bytes. -/
@[simp] theorem encode_length (state : OuterStateV1) : state.encode.length = 256 := by
  rw [encode, abiEncode_length, List.length_ofFn]

end OuterStateV1

/-- `SettlementPublicValuesV1`. -/
structure SettlementPublicValuesV1 where
  /-- Data-availability mode. -/
  daMode : SettlementDaMode
  /-- Identifier of the Ethereum chain. -/
  chainId : BitVec 64
  /-- Address of the settlement contract. -/
  settlementContract : Address
  /-- Sequence number of the receipt. -/
  batchSequence : BitVec 64
  /-- Digest of the Mina verifier index. -/
  vkHash : Bytes32
  /-- App state that the Pickles proof is about. -/
  appStatement : Bytes32
  /-- Hash of the Mina transaction that is settled. -/
  minaTransactionHash : Bytes32
  /-- App state before the commit. -/
  stateBefore : OuterStateV1
  /-- App state after the commit. -/
  stateAfter : OuterStateV1
  /-- Outer action state before the settlement. -/
  outerActionStateBefore : Bytes32
  /-- Outer action state after the settlement. -/
  outerActionStateAfter : Bytes32
  /-- Length of the outer action chain before the settlement. -/
  outerActionStateLengthBefore : BitVec 32
  /-- Length of the outer action chain after the settlement. -/
  outerActionStateLengthAfter : BitVec 32
  /-- Outer action state that Zeko has processed. -/
  synchronizedOuterActionState : Bytes32
  /-- Number of outer actions that Zeko has processed. -/
  synchronizedOuterActionStateLength : BitVec 32
  /-- Lower slot bound of the commit. -/
  slotLower : BitVec 32
  /-- Upper slot bound of the commit. -/
  slotUpper : BitVec 32
  deriving DecidableEq

/-- `SettlementPublicValuesV2`: adds the inner-action range and its claim tree. -/
structure SettlementPublicValuesV2 where
  /-- The values of the first version. -/
  settlement : SettlementPublicValuesV1
  /-- Address of the bridge contract. -/
  bridgeAddress : Address
  /-- Root of the tree of inner actions. -/
  innerActionRoot : Bytes32
  /-- Index of the first inner action. -/
  innerActionStartIndex : BitVec 32
  /-- Number of inner actions. -/
  innerActionCount : BitVec 32
  deriving DecidableEq

/-- `SettlementPublicValuesV3`: adds one settled asset record. -/
structure SettlementPublicValuesV3 where
  /-- The values of the second version. -/
  settlement : SettlementPublicValuesV2
  /-- Root of the asset registry. -/
  assetRegistryRoot : Bytes32
  /-- Number of records in the asset registry. -/
  assetRegistryCount : BitVec 32
  /-- Schema of the asset registry. -/
  assetRegistrySchemaVersion : BitVec 32
  /-- Keccak hash of the settled record. -/
  assetRecordHash : Bytes32
  /-- Poseidon commitment of the settled record. -/
  assetRecordCommitment : Bytes32
  deriving DecidableEq

/-- `SettlementPublicValuesV4`: adds a tree of settled asset records. -/
structure SettlementPublicValuesV4 where
  /-- The values of the second version. -/
  settlement : SettlementPublicValuesV2
  /-- Root of the asset registry. -/
  assetRegistryRoot : Bytes32
  /-- Number of records in the asset registry. -/
  assetRegistryCount : BitVec 32
  /-- Schema of the asset registry. -/
  assetRegistrySchemaVersion : BitVec 32
  /-- Root of the tree of settled records. -/
  assetRecordBatchRoot : Bytes32
  /-- Number of settled records. -/
  assetRecordBatchCount : BitVec 32
  deriving DecidableEq

/-- `SETTLEMENT_PUBLIC_VALUES_MAGIC`, the text `ZKST`. -/
def settlementPublicValuesMagic : Bytes := asciiBytes "ZKST"

/-- Everything of the first version behind its magic and version words. -/
def SettlementPublicValuesV1.body (v : SettlementPublicValuesV1) : Bytes :=
  bytesOf v.daMode.toByte ++ (bytesOf (0 : Byte) ++ (bytesOf v.chainId ++
  (bytesOf v.settlementContract ++ (bytesOf v.batchSequence ++ (bytesOf v.vkHash ++
  (bytesOf v.appStatement ++ (bytesOf v.minaTransactionHash ++ (v.stateBefore.encode ++
  (v.stateAfter.encode ++ (bytesOf v.outerActionStateBefore ++ (bytesOf v.outerActionStateAfter ++
  (bytesOf v.outerActionStateLengthBefore ++ (bytesOf v.outerActionStateLengthAfter ++
  (bytesOf v.synchronizedOuterActionState ++ (bytesOf v.synchronizedOuterActionStateLength ++
  (bytesOf v.slotLower ++ bytesOf v.slotUpper))))))))))))))))

/-- `SettlementPublicValuesV1::encode`. -/
def SettlementPublicValuesV1.encode (v : SettlementPublicValuesV1) : Bytes :=
  settlementPublicValuesMagic ++ (bytesOf (1 : BitVec 16) ++ v.body)

/-- Overwrite the two version bytes of an encoded receipt. -/
def setVersion (version : BitVec 16) (encoded : Bytes) : Bytes :=
  encoded.take 4 ++ (bytesOf version ++ encoded.drop 6)

/-- The fields appended by the second version. -/
def SettlementPublicValuesV2.extension (v : SettlementPublicValuesV2) : Bytes :=
  bytesOf v.bridgeAddress ++ (bytesOf v.innerActionRoot ++ (bytesOf v.innerActionStartIndex ++
  bytesOf v.innerActionCount))

/-- `SettlementPublicValuesV2::encode`. -/
def SettlementPublicValuesV2.encode (v : SettlementPublicValuesV2) : Bytes :=
  setVersion 2 v.settlement.encode ++ v.extension

/-- The fields appended by the third version. -/
def SettlementPublicValuesV3.extension (v : SettlementPublicValuesV3) : Bytes :=
  bytesOf v.assetRegistryRoot ++ (bytesOf v.assetRegistryCount ++
  (bytesOf v.assetRegistrySchemaVersion ++ (bytesOf v.assetRecordHash ++
  bytesOf v.assetRecordCommitment)))

/-- `SettlementPublicValuesV3::encode`. -/
def SettlementPublicValuesV3.encode (v : SettlementPublicValuesV3) : Bytes :=
  setVersion 3 v.settlement.encode ++ v.extension

/-- The fields appended by the fourth version. -/
def SettlementPublicValuesV4.extension (v : SettlementPublicValuesV4) : Bytes :=
  bytesOf v.assetRegistryRoot ++ (bytesOf v.assetRegistryCount ++
  (bytesOf v.assetRegistrySchemaVersion ++ (bytesOf v.assetRecordBatchRoot ++
  bytesOf v.assetRecordBatchCount)))

/-- `SettlementPublicValuesV4::encode`. -/
def SettlementPublicValuesV4.encode (v : SettlementPublicValuesV4) : Bytes :=
  setVersion 4 v.settlement.encode ++ v.extension

/-- `SettlementPublicValues`: a receipt of any version. -/
inductive SettlementPublicValues
  | v1 (values : SettlementPublicValuesV1)
  | v2 (values : SettlementPublicValuesV2)
  | v3 (values : SettlementPublicValuesV3)
  | v4 (values : SettlementPublicValuesV4)
  deriving DecidableEq

namespace SettlementPublicValues

/-- The bytes committed for a receipt of any version. -/
def encode : SettlementPublicValues → Bytes
  | v1 values => values.encode
  | v2 values => values.encode
  | v3 values => values.encode
  | v4 values => values.encode

/-- `SettlementPublicValues::settlement`. -/
def settlement : SettlementPublicValues → SettlementPublicValuesV1
  | v1 values => values
  | v2 values => values.settlement
  | v3 values => values.settlement.settlement
  | v4 values => values.settlement.settlement

/-- `SettlementPublicValues::inner_action_batch`. -/
def innerActionBatch : SettlementPublicValues → Option SettlementPublicValuesV2
  | v1 _ => none
  | v2 values => some values
  | v3 values => some values.settlement
  | v4 values => some values.settlement

end SettlementPublicValues

/-- The reverts of `ZekoSettlement`, with the values each reports. -/
inductive SettlementError
  | accessControl (error : AccessControlError)
  | proofRejected
  | arithmeticPanic
  | zeroAddress
  | invalidPublicValuesLength (expected actual : ℕ)
  | invalidPublicValuesMagic (actual : Bytes)
  | invalidPublicValuesVersion (actual : BitVec 16)
  | invalidReservedByte (actual : Byte)
  | invalidDaMode (actual : Byte)
  | invalidChainId (expected actual : BitVec 64)
  | invalidSettlementContract (expected actual : Address)
  | invalidBatchSequence (expected actual : BitVec 64)
  | invalidVkHash (expected actual : Bytes32)
  | invalidOuterState (field : ℕ) (expected actual : Bytes32)
  | invalidActionState (expected actual : Bytes32)
  | invalidActionStateLength (expected actual : BitVec 32)
  | invalidActionStateTransition (beforeLength afterLength : BitVec 32)
  | invalidSynchronizedActionLength (synchronized available : BitVec 32)
  | unknownSynchronizedActionState (state : Bytes32) (length : BitVec 32)
  | invalidBridgeContract (expected actual : Address)
  | invalidInnerActionTransition (beforeLength afterLength : BitVec 32)
  | invalidInnerActionBatch (root : Bytes32) (startIndex count : BitVec 32)
  | invalidSlotRange (lower upper : BitVec 32)
  | outsideSlotRange (current : BitVec 64) (lower upper : BitVec 32)
  | invalidSlotDuration
  | fieldDoesNotFitUint32 (value : Bytes32)
  | invalidAssetRegistryCheckpoint (root : Bytes32) (count schemaVersion : BitVec 32)
      (recordHash : Bytes32)
  | invalidAssetRegistryBatch (root : Bytes32) (count schemaVersion : BitVec 32)
      (recordBatchRoot : Bytes32) (recordBatchCount : BitVec 32)
  deriving DecidableEq

/-- `DecodedPublicValues`. Fields of later versions are zero where absent. -/
structure DecodedPublicValues where
  /-- Version of the receipt. -/
  version : BitVec 16
  /-- Data-availability mode. -/
  daMode : Byte
  /-- Identifier of the Ethereum chain. -/
  chainId : BitVec 64
  /-- Address of the settlement contract. -/
  settlementContract : Address
  /-- Sequence number of the receipt. -/
  batchSequence : BitVec 64
  /-- Digest of the Mina verifier index. -/
  vkHash : Bytes32
  /-- App state that the Pickles proof is about. -/
  appStatement : Bytes32
  /-- Hash of the Mina transaction that is settled. -/
  minaTransactionHash : Bytes32
  /-- App state before the commit. -/
  stateBefore : Fin 8 → Bytes32
  /-- App state after the commit. -/
  stateAfter : Fin 8 → Bytes32
  /-- Outer action state before the settlement. -/
  outerActionStateBefore : Bytes32
  /-- Outer action state after the settlement. -/
  outerActionStateAfter : Bytes32
  /-- Length of the outer action chain before the settlement. -/
  outerActionStateLengthBefore : BitVec 32
  /-- Length of the outer action chain after the settlement. -/
  outerActionStateLengthAfter : BitVec 32
  /-- Outer action state that Zeko has processed. -/
  synchronizedOuterActionState : Bytes32
  /-- Number of outer actions that Zeko has processed. -/
  synchronizedOuterActionStateLength : BitVec 32
  /-- Lower slot bound of the commit. -/
  slotLower : BitVec 32
  /-- Upper slot bound of the commit. -/
  slotUpper : BitVec 32
  /-- Address of the bridge contract. -/
  bridgeAddress : Address
  /-- Root of the tree of inner actions. -/
  innerActionRoot : Bytes32
  /-- Index of the first inner action. -/
  innerActionStartIndex : BitVec 32
  /-- Number of inner actions. -/
  innerActionCount : BitVec 32
  /-- Root of the asset registry. -/
  assetRegistryRoot : Bytes32
  /-- Number of records in the asset registry. -/
  assetRegistryCount : BitVec 32
  /-- Schema of the asset registry. -/
  assetRegistrySchemaVersion : BitVec 32
  /-- Keccak hash of the settled record. -/
  assetRecordHash : Bytes32
  /-- Poseidon commitment of the settled record. -/
  assetRecordCommitment : Bytes32
  /-- Root of the tree of settled records. -/
  assetRecordBatchRoot : Bytes32
  /-- Number of settled records. -/
  assetRecordBatchCount : BitVec 32
  deriving DecidableEq

/-- The length the contract demands of each supported version. -/
def publicValuesLength (version : BitVec 16) : ℕ :=
  if version = 1 then 768 else if version = 2 then 828 else if version = 3 then 932 else 904

/-- The fields read from a receipt whose length and version were accepted. -/
def readPublicValues (publicValues : Bytes) : DecodedPublicValues :=
  let version := readWord 16 publicValues 4
  let fromV2 := 2 ≤ version
  let isV3 := version = 3
  let isV4 := version = 4
  { version := version
    daMode := readWord 8 publicValues 6
    chainId := readWord 64 publicValues 8
    settlementContract := readWord 160 publicValues 16
    batchSequence := readWord 64 publicValues 36
    vkHash := readWord 256 publicValues 44
    appStatement := readWord 256 publicValues 76
    minaTransactionHash := readWord 256 publicValues 108
    stateBefore := fun i => readWord 256 publicValues (140 + 32 * i)
    stateAfter := fun i => readWord 256 publicValues (396 + 32 * i)
    outerActionStateBefore := readWord 256 publicValues 652
    outerActionStateAfter := readWord 256 publicValues 684
    outerActionStateLengthBefore := readWord 32 publicValues 716
    outerActionStateLengthAfter := readWord 32 publicValues 720
    synchronizedOuterActionState := readWord 256 publicValues 724
    synchronizedOuterActionStateLength := readWord 32 publicValues 756
    slotLower := readWord 32 publicValues 760
    slotUpper := readWord 32 publicValues 764
    bridgeAddress := if fromV2 then readWord 160 publicValues 768 else 0
    innerActionRoot := if fromV2 then readWord 256 publicValues 788 else 0
    innerActionStartIndex := if fromV2 then readWord 32 publicValues 820 else 0
    innerActionCount := if fromV2 then readWord 32 publicValues 824 else 0
    assetRegistryRoot := if isV3 ∨ isV4 then readWord 256 publicValues 828 else 0
    assetRegistryCount := if isV3 ∨ isV4 then readWord 32 publicValues 860 else 0
    assetRegistrySchemaVersion := if isV3 ∨ isV4 then readWord 32 publicValues 864 else 0
    assetRecordHash := if isV3 then readWord 256 publicValues 868 else 0
    assetRecordCommitment := if isV3 then readWord 256 publicValues 900 else 0
    assetRecordBatchRoot := if isV4 then readWord 256 publicValues 868 else 0
    assetRecordBatchCount := if isV4 then readWord 32 publicValues 900 else 0 }

/-- `decodePublicValues`. The closing cursor assertion compares the length that
the version check already fixed. -/
def decodePublicValues (publicValues : Bytes) : Except SettlementError DecodedPublicValues := do
  require (publicValues.length = 768 ∨ publicValues.length = 828 ∨ publicValues.length = 932 ∨
    publicValues.length = 904) (.invalidPublicValuesLength 768 publicValues.length)
  require (slice publicValues 0 4 = settlementPublicValuesMagic)
    (.invalidPublicValuesMagic (slice publicValues 0 4))
  let version := readWord 16 publicValues 4
  require (version = 1 ∨ version = 2 ∨ version = 3 ∨ version = 4)
    (.invalidPublicValuesVersion version)
  require (publicValues.length = publicValuesLength version)
    (.invalidPublicValuesLength (publicValuesLength version) publicValues.length)
  require (readWord 8 publicValues 7 = 0) (.invalidReservedByte (readWord 8 publicValues 7))
  pure (readPublicValues publicValues)

/-- Decoding succeeds exactly on strings of a supported version, its length, the
magic and a zero reserved byte, and then returns the fields at their offsets. -/
theorem decodePublicValues_eq_ok {publicValues : Bytes} {decoded : DecodedPublicValues} :
    decodePublicValues publicValues = .ok decoded ↔
      (slice publicValues 0 4 = settlementPublicValuesMagic ∧
        (readWord 16 publicValues 4 = 1 ∨ readWord 16 publicValues 4 = 2 ∨
          readWord 16 publicValues 4 = 3 ∨ readWord 16 publicValues 4 = 4) ∧
        publicValues.length = publicValuesLength (readWord 16 publicValues 4) ∧
        readWord 8 publicValues 7 = 0) ∧ readPublicValues publicValues = decoded := by
  unfold decodePublicValues
  simp only [require_bind_eq_ok, pure_eq_ok]
  constructor
  · rintro ⟨-, hmagic, hversion, hlength, hreserved, hdecoded⟩
    exact ⟨⟨hmagic, hversion, hlength, hreserved⟩, hdecoded⟩
  · rintro ⟨⟨hmagic, hversion, hlength, hreserved⟩, hdecoded⟩
    refine ⟨?_, hmagic, hversion, hlength, hreserved, hdecoded⟩
    rw [hlength, publicValuesLength]
    split
    · exact .inl rfl
    · split
      · exact .inr (.inl rfl)
      · split
        · exact .inr (.inr (.inl rfl))
        · exact .inr (.inr (.inr rfl))

/-- The version word of a receipt. -/
def SettlementPublicValues.version : SettlementPublicValues → BitVec 16
  | .v1 _ => 1
  | .v2 _ => 2
  | .v3 _ => 3
  | .v4 _ => 4

/-- What follows the first version's fields. -/
def SettlementPublicValues.extension : SettlementPublicValues → Bytes
  | .v1 _ => []
  | .v2 values => values.extension
  | .v3 values => values.settlement.extension ++ values.extension
  | .v4 values => values.settlement.extension ++ values.extension

/-- The decoded form of a receipt. -/
def SettlementPublicValues.decoded (v : SettlementPublicValues) : DecodedPublicValues where
  version := v.version
  daMode := v.settlement.daMode.toByte
  chainId := v.settlement.chainId
  settlementContract := v.settlement.settlementContract
  batchSequence := v.settlement.batchSequence
  vkHash := v.settlement.vkHash
  appStatement := v.settlement.appStatement
  minaTransactionHash := v.settlement.minaTransactionHash
  stateBefore := v.settlement.stateBefore.fields
  stateAfter := v.settlement.stateAfter.fields
  outerActionStateBefore := v.settlement.outerActionStateBefore
  outerActionStateAfter := v.settlement.outerActionStateAfter
  outerActionStateLengthBefore := v.settlement.outerActionStateLengthBefore
  outerActionStateLengthAfter := v.settlement.outerActionStateLengthAfter
  synchronizedOuterActionState := v.settlement.synchronizedOuterActionState
  synchronizedOuterActionStateLength := v.settlement.synchronizedOuterActionStateLength
  slotLower := v.settlement.slotLower
  slotUpper := v.settlement.slotUpper
  bridgeAddress := (v.innerActionBatch.map (·.bridgeAddress)).getD 0
  innerActionRoot := (v.innerActionBatch.map (·.innerActionRoot)).getD 0
  innerActionStartIndex := (v.innerActionBatch.map (·.innerActionStartIndex)).getD 0
  innerActionCount := (v.innerActionBatch.map (·.innerActionCount)).getD 0
  assetRegistryRoot := match v with
    | .v3 r => r.assetRegistryRoot | .v4 r => r.assetRegistryRoot | _ => 0
  assetRegistryCount := match v with
    | .v3 r => r.assetRegistryCount | .v4 r => r.assetRegistryCount | _ => 0
  assetRegistrySchemaVersion := match v with
    | .v3 r => r.assetRegistrySchemaVersion | .v4 r => r.assetRegistrySchemaVersion | _ => 0
  assetRecordHash := match v with | .v3 r => r.assetRecordHash | _ => 0
  assetRecordCommitment := match v with | .v3 r => r.assetRecordCommitment | _ => 0
  assetRecordBatchRoot := match v with | .v4 r => r.assetRecordBatchRoot | _ => 0
  assetRecordBatchCount := match v with | .v4 r => r.assetRecordBatchCount | _ => 0

/-- The magic occupies four bytes. -/
@[simp] theorem settlementPublicValuesMagic_length : settlementPublicValuesMagic.length = 4 := by
  decide

/-- Overwriting the version word of an encoding replaces only that word. -/
theorem setVersion_encode (old new : BitVec 16) (rest : Bytes) :
    setVersion new (settlementPublicValuesMagic ++ (bytesOf old ++ rest)) =
      settlementPublicValuesMagic ++ (bytesOf new ++ rest) := by
  have htake : (settlementPublicValuesMagic ++ (bytesOf old ++ rest)).take 4 =
      settlementPublicValuesMagic := by
    rw [← settlementPublicValuesMagic_length, List.take_left]
  have hdrop : (settlementPublicValuesMagic ++ (bytesOf old ++ rest)).drop 6 = rest := by
    rw [← List.append_assoc]
    have hlen : (settlementPublicValuesMagic ++ bytesOf old).length = 6 := by simp
    rw [← hlen, List.drop_left]
  rw [setVersion, htake, hdrop]

/-- The first version's fields under any version word, followed by an extension. -/
def layout (version : BitVec 16) (v : SettlementPublicValuesV1) (extension : Bytes) : Bytes :=
  settlementPublicValuesMagic ++ (bytesOf version ++ (v.body ++ extension))

/-- Overwriting the version of a laid-out receipt and appending to it. -/
theorem setVersion_layout (old new : BitVec 16) (v : SettlementPublicValuesV1)
    (extension more : Bytes) :
    setVersion new (layout old v extension) ++ more = layout new v (extension ++ more) := by
  rw [layout, setVersion_encode, layout, List.append_assoc, List.append_assoc, List.append_assoc]

/-- The first version has no extension. -/
theorem encode_v1 (v : SettlementPublicValuesV1) : v.encode = layout 1 v [] := by
  rw [SettlementPublicValuesV1.encode, layout, List.append_nil]

/-- The second version's layout. -/
theorem encode_v2 (v : SettlementPublicValuesV2) : v.encode = layout 2 v.settlement v.extension := by
  rw [SettlementPublicValuesV2.encode, encode_v1, setVersion_layout, List.nil_append]

/-- The third version's layout. -/
theorem encode_v3 (v : SettlementPublicValuesV3) :
    v.encode = layout 3 v.settlement.settlement (v.settlement.extension ++ v.extension) := by
  rw [SettlementPublicValuesV3.encode, encode_v2, setVersion_layout]

/-- The fourth version's layout. -/
theorem encode_v4 (v : SettlementPublicValuesV4) :
    v.encode = layout 4 v.settlement.settlement (v.settlement.extension ++ v.extension) := by
  rw [SettlementPublicValuesV4.encode, encode_v2, setVersion_layout]

/-- Every version is the first version's layout under its own version word,
followed by its extension. -/
theorem encode_layout (v : SettlementPublicValues) :
    v.encode = layout v.version v.settlement v.extension := by
  cases v with
  | v1 values => exact encode_v1 values
  | v2 values => exact encode_v2 values
  | v3 values => exact encode_v3 values
  | v4 values => exact encode_v4 values

/-- Reading past the magic. -/
theorem readWord_skip_magic {w : ℕ} (rest : Bytes) {offset : ℕ} (h : 4 ≤ offset) :
    readWord w (settlementPublicValuesMagic ++ rest) offset = readWord w rest (offset - 4) :=
  readWord_skip settlementPublicValuesMagic_length h

/-- Reading past an outer state. -/
theorem readWord_skip_state {w : ℕ} (state : OuterStateV1) (rest : Bytes) {offset : ℕ}
    (h : 256 ≤ offset) : readWord w (state.encode ++ rest) offset = readWord w rest (offset - 256) :=
  readWord_skip state.encode_length h

/-- The fields of an outer state are read back at their positions. -/
theorem readWord_state (state : OuterStateV1) (rest : Bytes) {offset : ℕ} (i : Fin 8)
    (h : offset = 32 * i) : readWord 256 (state.encode ++ rest) offset = state.fields i := by
  have hread := readWord_abiEncode (List.ofFn state.fields) rest i (by simp)
  rw [h, OuterStateV1.encode, hread, List.getElem_ofFn]

/-- The source outer state is read back from any layout. -/
theorem layout_stateBefore (version : BitVec 16) (v : SettlementPublicValuesV1) (extension : Bytes)
    (i : Fin 8) :
    readWord 256 (layout version v extension) (140 + 32 * i) = v.stateBefore.fields i := by
  simp (disch := omega) only [layout, SettlementPublicValuesV1.body, List.append_assoc,
    readWord_skip_magic, readWord_skip_word]
  exact readWord_state v.stateBefore _ i (by omega)

/-- The target outer state is read back from any layout. -/
theorem layout_stateAfter (version : BitVec 16) (v : SettlementPublicValuesV1) (extension : Bytes)
    (i : Fin 8) :
    readWord 256 (layout version v extension) (396 + 32 * i) = v.stateAfter.fields i := by
  simp (disch := omega) only [layout, SettlementPublicValuesV1.body, List.append_assoc,
    readWord_skip_magic, readWord_skip_word, readWord_skip_state]
  exact readWord_state v.stateAfter _ i (by omega)

/-- The extension starts at byte 768 of any layout. -/
theorem layout_extension {w : ℕ} (version : BitVec 16) (v : SettlementPublicValuesV1)
    (extension : Bytes) {offset : ℕ} (h : 768 ≤ offset) :
    readWord w (layout version v extension) offset = readWord w extension (offset - 768) := by
  simp (disch := omega) only [layout, SettlementPublicValuesV1.body, List.append_assoc,
    readWord_skip_magic, readWord_skip_word, readWord_skip_state, Nat.sub_sub, Nat.reduceDiv,
    Nat.reduceAdd]

/-- A layout is as long as its extension and 768 bytes. -/
theorem layout_length (version : BitVec 16) (v : SettlementPublicValuesV1) (extension : Bytes) :
    (layout version v extension).length = 768 + extension.length := by
  simp only [layout, SettlementPublicValuesV1.body, List.length_append, bytesOf_length,
    settlementPublicValuesMagic_length, OuterStateV1.encode_length]
  omega

/-- Every receipt has the length of its version. -/
theorem encode_length (v : SettlementPublicValues) :
    v.encode.length = publicValuesLength v.version := by
  rw [encode_layout, layout_length]
  cases v <;>
    simp [SettlementPublicValues.extension, SettlementPublicValuesV2.extension,
      SettlementPublicValuesV3.extension, SettlementPublicValuesV4.extension,
      SettlementPublicValues.version, publicValuesLength]

/-- Every field of a receipt is read back from its encoding. -/
theorem readPublicValues_encode (v : SettlementPublicValues) :
    readPublicValues v.encode = v.decoded := by
  rw [encode_layout]
  cases v
  all_goals
    simp only [readPublicValues, layout_stateBefore, layout_stateAfter]
    simp (disch := decide) only [layout_extension]
    simp (disch := decide) [layout, SettlementPublicValuesV1.body, readWord_skip_magic,
      readWord_skip_word, readWord_here, readWord_skip_state, readWord_bytesOf,
      SettlementPublicValues.decoded, SettlementPublicValues.version,
      SettlementPublicValues.settlement, SettlementPublicValues.innerActionBatch,
      SettlementPublicValues.extension, SettlementPublicValuesV2.extension,
      SettlementPublicValuesV3.extension, SettlementPublicValuesV4.extension]

/-- The contract reads back exactly what the guest encoded. -/
theorem decodePublicValues_encode (v : SettlementPublicValues) :
    decodePublicValues v.encode = .ok v.decoded := by
  have hread := readPublicValues_encode v
  have hversion : readWord 16 v.encode 4 = v.version := congrArg (·.version) hread
  have hlength := encode_length v
  rw [decodePublicValues_eq_ok, hversion]
  refine ⟨⟨?_, ?_, hlength, ?_⟩, hread⟩
  · rw [encode_layout, layout, slice_here settlementPublicValuesMagic_length]
  · cases v <;> simp [SettlementPublicValues.version]
  · rw [encode_layout]
    simp (disch := decide) only [layout, SettlementPublicValuesV1.body, List.append_assoc,
      readWord_skip_magic, readWord_skip_word, Nat.reduceSub, Nat.reduceDiv, readWord_here]

end EthereumSettlement.SettlementCodec
