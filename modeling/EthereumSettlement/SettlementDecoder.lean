import EthereumSettlement.CursorReads
import EthereumSettlement.SettlementCodec

/-!
# The gateway's decoder of settlement receipts

`SettlementPublicValues::decode` chooses a version by the length of the string;
every version after the first restores the version word of the one it extends
and hands that part on. The decoder accepts exactly the encodings of receipts:
it inverts the encoder in both directions, no string has two versions, and it
agrees with the contract's decoder on every string.
-/

namespace EthereumSettlement.SettlementDecoder

open ByteWords CheckedCalls CursorReads PastaPoseidon SettlementCodec

/-- `read_array`. -/
def readArray (w : ℕ) (input : Bytes) : CursorRead (BitVec w) :=
  readAt "public values length checked" w input

/-- The loop that fills the fields of an outer state. -/
def readState (input : Bytes) : CursorRead OuterStateV1 := do
  let fields ← readAll "public values length checked" 256 input 8
  pure ⟨fields⟩

/-- The wire byte of a supported data-availability mode. -/
def SettlementDaMode.ofByte (mode : Byte) : Except String SettlementDaMode :=
  if mode = 1 then .ok .multisig
  else .error s!"settlement public values: unsupported DA mode {mode.toNat}"

/-- The reads of `SettlementPublicValuesV1::decode`, from its magic on. -/
def readV1 (input : Bytes) : CursorRead SettlementPublicValuesV1 := do
  let magic ← readArray 32 input
  check (bytesOf magic = settlementPublicValuesMagic) "settlement public values: invalid magic"
  let version ← readArray 16 input
  check (version = 1) s!"settlement public values: unsupported version {version.toNat}"
  let mode ← readArray 8 input
  let reserved ← readArray 8 input
  check (reserved = 0) "settlement public values: reserved byte must be zero"
  let daMode ← liftM (SettlementDaMode.ofByte mode)
  let chainId ← readArray 64 input
  let settlementContract ← readArray 160 input
  let batchSequence ← readArray 64 input
  let vkHash ← readArray 256 input
  let appStatement ← readArray 256 input
  let minaTransactionHash ← readArray 256 input
  let stateBefore ← readState input
  let stateAfter ← readState input
  let outerActionStateBefore ← readArray 256 input
  let outerActionStateAfter ← readArray 256 input
  let outerActionStateLengthBefore ← readArray 32 input
  let outerActionStateLengthAfter ← readArray 32 input
  let synchronizedOuterActionState ← readArray 256 input
  let synchronizedOuterActionStateLength ← readArray 32 input
  let slotLower ← readArray 32 input
  let slotUpper ← readArray 32 input
  pure {
    daMode, chainId, settlementContract, batchSequence, vkHash, appStatement, minaTransactionHash,
    stateBefore, stateAfter, outerActionStateBefore, outerActionStateAfter,
    outerActionStateLengthBefore, outerActionStateLengthAfter, synchronizedOuterActionState,
    synchronizedOuterActionStateLength, slotLower, slotUpper }

/-- `SettlementPublicValuesV1::decode`. -/
def SettlementPublicValuesV1.decode (input : Bytes) : Except String SettlementPublicValuesV1 := do
  require (input.length = 768)
    s!"settlement public values: expected {768} bytes, got {input.length}"
  let decoded ← (readV1 input).run 0
  pure decoded.1

/-- The length, magic and version checks that open the decoders of the later
versions, in their order. -/
def checkHeader (name : String) (length : ℕ) (version : BitVec 16) (input : Bytes) :
    Except String Unit := do
  require (input.length = length)
    s!"settlement {name} public values: expected {length} bytes, got {input.length}"
  require (slice input 0 4 = settlementPublicValuesMagic)
    s!"settlement {name} public values: invalid magic"
  require (readWord 16 input 4 = version)
    s!"settlement {name} public values: unsupported version {(readWord 16 input 4).toNat}"

/-- The fields that the second version appends. -/
def readV2Extension (input : Bytes) (settlement : SettlementPublicValuesV1) :
    CursorRead SettlementPublicValuesV2 := do
  let bridgeAddress ← readArray 160 input
  let innerActionRoot ← readArray 256 input
  let innerActionStartIndex ← readArray 32 input
  let innerActionCount ← readArray 32 input
  pure { settlement, bridgeAddress, innerActionRoot, innerActionStartIndex, innerActionCount }

/-- `SettlementPublicValuesV2::decode`. -/
def SettlementPublicValuesV2.decode (input : Bytes) : Except String SettlementPublicValuesV2 := do
  checkHeader "V2" 828 2 input
  let settlement ← SettlementPublicValuesV1.decode (setVersion 1 (input.take 768))
  let decoded ← (readV2Extension input settlement).run 768
  pure decoded.1

/-- The fields that the third version appends. -/
def readV3Extension (input : Bytes) (settlement : SettlementPublicValuesV2) :
    CursorRead SettlementPublicValuesV3 := do
  let assetRegistryRoot ← readArray 256 input
  let assetRegistryCount ← readArray 32 input
  let assetRegistrySchemaVersion ← readArray 32 input
  let assetRecordHash ← readArray 256 input
  let assetRecordCommitment ← readArray 256 input
  pure {
    settlement, assetRegistryRoot, assetRegistryCount, assetRegistrySchemaVersion, assetRecordHash,
    assetRecordCommitment }

/-- `SettlementPublicValuesV3::decode`. -/
def SettlementPublicValuesV3.decode (input : Bytes) : Except String SettlementPublicValuesV3 := do
  checkHeader "V3" 932 3 input
  let settlement ← SettlementPublicValuesV2.decode (setVersion 2 (input.take 828))
  let decoded ← (readV3Extension input settlement).run 828
  pure decoded.1

/-- The fields that the fourth version appends. -/
def readV4Extension (input : Bytes) (settlement : SettlementPublicValuesV2) :
    CursorRead SettlementPublicValuesV4 := do
  let assetRegistryRoot ← readArray 256 input
  let assetRegistryCount ← readArray 32 input
  let assetRegistrySchemaVersion ← readArray 32 input
  let assetRecordBatchRoot ← readArray 256 input
  let assetRecordBatchCount ← readArray 32 input
  pure {
    settlement, assetRegistryRoot, assetRegistryCount, assetRegistrySchemaVersion,
    assetRecordBatchRoot, assetRecordBatchCount }

/-- `SettlementPublicValuesV4::decode`. -/
def SettlementPublicValuesV4.decode (input : Bytes) : Except String SettlementPublicValuesV4 := do
  checkHeader "V4" 904 4 input
  let settlement ← SettlementPublicValuesV2.decode (setVersion 2 (input.take 828))
  let decoded ← (readV4Extension input settlement).run 828
  pure decoded.1

/-- `SettlementPublicValues::decode`. -/
def SettlementPublicValues.decode (input : Bytes) : Except String SettlementPublicValues :=
  if input.length = 768 then .v1 <$> SettlementPublicValuesV1.decode input
  else if input.length = 828 then .v2 <$> SettlementPublicValuesV2.decode input
  else if input.length = 932 then .v3 <$> SettlementPublicValuesV3.decode input
  else if input.length = 904 then .v4 <$> SettlementPublicValuesV4.decode input
  else .error s!"settlement public values: unsupported length {input.length}"

/-- The strings of a version: its length, the magic, its version word, a zero
reserved byte and the one supported mode. -/
structure WellFormed (version : BitVec 16) (length : ℕ) (input : Bytes) : Prop where
  /-- It has the length of its version. -/
  length_eq : input.length = length
  /-- It starts with the magic. -/
  magic : slice input 0 4 = settlementPublicValuesMagic
  /-- It has the version. -/
  version_eq : readWord 16 input 4 = version
  /-- It has the supported mode. -/
  mode : readWord 8 input 6 = 1
  /-- The reserved byte is zero. -/
  reserved : readWord 8 input 7 = 0

/-- Re-encoding a word of a well-formed string gives the bytes it was read from. -/
theorem WellFormed.word {version : BitVec 16} {length : ℕ} {input : Bytes}
    (h : WellFormed version length input) {w offset : ℕ} (hw : 8 ∣ w)
    (hbound : offset + w / 8 ≤ length) :
    bytesOf (readWord w input offset) = slice input offset (w / 8) :=
  bytesOf_readWord hw (h.length_eq ▸ hbound)

/-- The opening checks of the later versions. -/
theorem checkHeader_eq_ok {name : String} {length : ℕ} {version : BitVec 16} {input : Bytes}
    {u : Unit} :
    checkHeader name length version input = .ok u ↔ input.length = length ∧
      slice input 0 4 = settlementPublicValuesMagic ∧ readWord 16 input 4 = version := by
  rw [checkHeader, require_bind_eq_ok, require_bind_eq_ok, require_eq_ok]

section Restored

variable {version other : BitVec 16} {length n : ℕ} {input : Bytes}

/-- Reading a leading part with a restored version word past that word. -/
theorem readWord_restored {w offset : ℕ} (hn : n ≤ input.length) (hoffset : 6 ≤ offset)
    (hbound : offset + w / 8 ≤ n) :
    readWord w (setVersion other (input.take n)) offset = readWord w input offset := by
  have hfour : ((input.take n).take 4).length = 4 := by
    rw [List.length_take, List.length_take]
    omega
  rw [setVersion, readWord_skip hfour (by omega), readWord_skip_word _ _ (by omega), readWord_drop,
    readWord_take (by omega)]
  congr 1
  omega

/-- Restoring the version word of an extended version keeps the other checks. -/
theorem wellFormed_restored_iff (hlength : input.length = length)
    (hmagic : slice input 0 4 = settlementPublicValuesMagic)
    (hversion : readWord 16 input 4 = version) (hlower : 8 ≤ n) (hupper : n ≤ length) :
    WellFormed other n (setVersion other (input.take n)) ↔ WellFormed version length input := by
  have hfour : ((input.take n).take 4).length = 4 := by
    rw [List.length_take, List.length_take]
    omega
  have hmode : readWord 8 (setVersion other (input.take n)) 6 = readWord 8 input 6 :=
    readWord_restored (by omega) (by omega) (by omega)
  have hreserved : readWord 8 (setVersion other (input.take n)) 7 = readWord 8 input 7 :=
    readWord_restored (by omega) (by omega) (by omega)
  constructor
  · intro h
    exact ⟨hlength, hmagic, hversion, hmode ▸ h.mode, hreserved ▸ h.reserved⟩
  · intro h
    refine ⟨?_, ?_, ?_, hmode.trans h.mode, hreserved.trans h.reserved⟩
    · rw [setVersion, List.length_append, List.length_append, hfour, bytesOf_length,
        List.length_drop, List.length_take]
      omega
    · rw [setVersion, slice_here hfour, List.take_take, ← hmagic, slice, List.drop_zero]
      congr 1
      omega
    · rw [setVersion, readWord_skip hfour (by omega), Nat.sub_self, readWord_here (by decide)]

/-- Putting the version word of an extended version back. -/
theorem setVersion_restored (hversion : readWord 16 input 4 = version) (hlower : 6 ≤ n)
    (hupper : n ≤ input.length) :
    setVersion version (setVersion other (input.take n)) = input.take n := by
  have hfour : ((input.take n).take 4).length = 4 := by
    rw [List.length_take, List.length_take]
    omega
  have hsix : ((input.take n).take 4 ++ bytesOf other).length = 6 := by
    rw [List.length_append, hfour, bytesOf_length]
  have hword : bytesOf version = slice (input.take n) 4 2 := by
    rw [slice_take (by omega), ← hversion]
    exact bytesOf_readWord (by decide) (by omega)
  have htake : (setVersion other (input.take n)).take 4 = (input.take n).take 4 := by
    exact List.take_left' hfour
  have hdrop : (setVersion other (input.take n)).drop 6 = (input.take n).drop 6 := by
    rw [setVersion, ← List.append_assoc]
    exact List.drop_left' hsix
  rw [setVersion, htake, hdrop, hword, slice, ← List.append_assoc, ← List.take_add,
    List.take_append_drop]

end Restored

/-- The first version's fields at their offsets. -/
def fieldsV1 (input : Bytes) : SettlementPublicValuesV1 where
  daMode := .multisig
  chainId := readWord 64 input 8
  settlementContract := readWord 160 input 16
  batchSequence := readWord 64 input 36
  vkHash := readWord 256 input 44
  appStatement := readWord 256 input 76
  minaTransactionHash := readWord 256 input 108
  stateBefore := ⟨fun i => readWord 256 input (140 + 32 * i)⟩
  stateAfter := ⟨fun i => readWord 256 input (396 + 32 * i)⟩
  outerActionStateBefore := readWord 256 input 652
  outerActionStateAfter := readWord 256 input 684
  outerActionStateLengthBefore := readWord 32 input 716
  outerActionStateLengthAfter := readWord 32 input 720
  synchronizedOuterActionState := readWord 256 input 724
  synchronizedOuterActionStateLength := readWord 32 input 756
  slotLower := readWord 32 input 760
  slotUpper := readWord 32 input 764

/-- The eight fields of an outer state stand at consecutive offsets. -/
theorem readState_eq_ok {input : Bytes} {cursor after : ℕ} {state : OuterStateV1} :
    readState input cursor = .ok (state, after) ↔
      cursor + 256 ≤ input.length ∧
      (⟨fun i => readWord 256 input (cursor + 32 * i)⟩ : OuterStateV1) = state ∧
      cursor + 256 = after := by
  rw [readState, read_bind_eq_ok]
  constructor
  · rintro ⟨fields, middle, hread, hdone⟩
    obtain ⟨hbound, rfl, rfl⟩ := (readAll_eq_ok (by simp)).mp hread
    rw [read_pure_eq_ok, Prod.mk.injEq] at hdone
    exact ⟨hbound, hdone⟩
  · rintro ⟨hbound, rfl, rfl⟩
    exact ⟨_, _, (readAll_eq_ok (by simp)).mpr ⟨hbound, rfl, rfl⟩, rfl⟩

/-- The one supported mode. -/
theorem ofByte_eq_ok {mode : Byte} {daMode : SettlementDaMode} :
    SettlementDaMode.ofByte mode = .ok daMode ↔ mode = 1 := by
  cases daMode
  rw [SettlementDaMode.ofByte]
  by_cases hmode : mode = 1
  · rw [if_pos hmode]
    exact ⟨fun _ => hmode, fun _ => rfl⟩
  · rw [if_neg hmode]
    constructor
    · intro h
      cases h
    · intro h
      exact absurd h hmode

/-- A mode accepted between reads leaves the cursor. -/
theorem liftMode_eq_ok {mode : Byte} {daMode : SettlementDaMode} {cursor after : ℕ} :
    (liftM (SettlementDaMode.ofByte mode) : CursorRead SettlementDaMode) cursor =
      .ok (daMode, after) ↔ mode = 1 ∧ cursor = after := by
  change (SettlementDaMode.ofByte mode >>= fun accepted => pure (accepted, cursor)) = _ ↔ _
  rw [bind_eq_ok]
  constructor
  · rintro ⟨accepted, hmode, hdone⟩
    rw [pure_eq_ok, Prod.mk.injEq] at hdone
    exact ⟨ofByte_eq_ok.mp hmode, hdone.2⟩
  · rintro ⟨hmode, rfl⟩
    exact ⟨_, ofByte_eq_ok.mpr hmode, rfl⟩

/-- On a string of its length the first version's reads end exactly at its end. -/
theorem readV1_eq_ok {input : Bytes} {v : SettlementPublicValuesV1} {after : ℕ}
    (hlength : input.length = 768) :
    readV1 input 0 = .ok (v, after) ↔ WellFormed 1 768 input ∧ fieldsV1 input = v ∧ 768 = after := by
  have hmagic : bytesOf (readWord 32 input 0) = slice input 0 4 :=
    bytesOf_readWord (by decide) (by omega)
  simp only [readV1, readArray, read_bind_eq_ok, readAt_eq_ok, readState_eq_ok, check_eq_ok,
    liftMode_eq_ok, read_pure_eq_ok, and_assoc, exists_and_left, exists_eq_left', exists_const,
    Nat.reduceDiv, Nat.reduceAdd, Prod.mk.injEq, hlength, Nat.reduceLeDiff, true_and, hmagic]
  constructor
  · rintro ⟨hmagic, hversion, hreserved, hmode, daMode, hdone⟩
    cases daMode
    exact ⟨⟨hlength, hmagic, hversion, hmode, hreserved⟩, hdone⟩
  · rintro ⟨hformed, hdone⟩
    exact ⟨hformed.magic, hformed.version_eq, hformed.reserved, hformed.mode, .multisig, hdone⟩

/-- The first version's decoder accepts exactly its well-formed strings and
returns their fields. -/
theorem decodeV1_eq_ok {input : Bytes} {v : SettlementPublicValuesV1} :
    SettlementPublicValuesV1.decode input = .ok v ↔ WellFormed 1 768 input ∧ fieldsV1 input = v := by
  rw [SettlementPublicValuesV1.decode, require_bind_eq_ok, bind_eq_ok]
  constructor
  · rintro ⟨hlength, ⟨decoded, after⟩, hread, hdone⟩
    obtain ⟨hformed, hfields, -⟩ := (readV1_eq_ok hlength).mp hread
    rw [pure_eq_ok] at hdone
    exact ⟨hformed, hfields.trans hdone⟩
  · rintro ⟨hformed, hfields⟩
    exact ⟨hformed.length_eq, (v, 768), (readV1_eq_ok hformed.length_eq).mpr ⟨hformed, hfields, rfl⟩, rfl⟩

/-- Re-encoding the fields of a well-formed string gives the string back. -/
theorem encode_fieldsV1 {input : Bytes} (h : WellFormed 1 768 input) :
    (fieldsV1 input).encode = input := by
  have hlength := h.length_eq
  have hstate : ∀ offset : ℕ, offset + 256 ≤ 768 →
      (⟨fun i => readWord 256 input (offset + 32 * i)⟩ : OuterStateV1).encode =
        slice input offset 256 :=
    fun offset hbound => abiEncode_readWords (by omega)
  have hversion : bytesOf (1 : BitVec 16) = slice input 4 2 := by
    rw [← h.version_eq]
    exact h.word (by decide) (by decide)
  have hmode : bytesOf SettlementDaMode.multisig.toByte = slice input 6 1 := by
    change bytesOf (1 : Byte) = _
    rw [← h.mode]
    exact h.word (by decide) (by decide)
  have hreserved : bytesOf (0 : Byte) = slice input 7 1 := by
    rw [← h.reserved]
    exact h.word (by decide) (by decide)
  simp only [SettlementPublicValuesV1.encode, SettlementPublicValuesV1.body, fieldsV1, hversion,
    hmode, hreserved, ← h.magic]
  simp (disch := decide) only [h.word, hstate, slice_join, Nat.reduceDiv, Nat.reduceAdd]
  exact slice_self hlength

/-- The second version's fields at their offsets. -/
def fieldsV2 (input : Bytes) : SettlementPublicValuesV2 where
  settlement := fieldsV1 (setVersion 1 (input.take 768))
  bridgeAddress := readWord 160 input 768
  innerActionRoot := readWord 256 input 788
  innerActionStartIndex := readWord 32 input 820
  innerActionCount := readWord 32 input 824

/-- The third version's fields at their offsets. -/
def fieldsV3 (input : Bytes) : SettlementPublicValuesV3 where
  settlement := fieldsV2 (setVersion 2 (input.take 828))
  assetRegistryRoot := readWord 256 input 828
  assetRegistryCount := readWord 32 input 860
  assetRegistrySchemaVersion := readWord 32 input 864
  assetRecordHash := readWord 256 input 868
  assetRecordCommitment := readWord 256 input 900

/-- The fourth version's fields at their offsets. -/
def fieldsV4 (input : Bytes) : SettlementPublicValuesV4 where
  settlement := fieldsV2 (setVersion 2 (input.take 828))
  assetRegistryRoot := readWord 256 input 828
  assetRegistryCount := readWord 32 input 860
  assetRegistrySchemaVersion := readWord 32 input 864
  assetRecordBatchRoot := readWord 256 input 868
  assetRecordBatchCount := readWord 32 input 900

/-- What the decoders of the later versions have in common: the header checks,
the decoder of the extended part behind its restored version word, and reads
that end exactly at the end of the string. -/
theorem decodeExtended_eq_ok {α β : Type} {name : String} {version other : BitVec 16} {length n : ℕ}
    {input : Bytes} {decodeInner : Bytes → Except String α} {inner : Bytes → α}
    {read : α → CursorRead β} {v : β} (fields : α → β) (hlower : 8 ≤ n) (hupper : n ≤ length)
    (hinner : ∀ {string : Bytes} {value : α}, decodeInner string = .ok value ↔
      WellFormed other n string ∧ inner string = value)
    (hread : input.length = length → ∀ {value : α} {result : β} {after : ℕ},
      read value n = .ok (result, after) ↔ fields value = result ∧ length = after) :
    (do checkHeader name length version input
        let settlement ← decodeInner (setVersion other (input.take n))
        let decoded ← (read settlement).run n
        pure decoded.1) = .ok v ↔
      WellFormed version length input ∧ fields (inner (setVersion other (input.take n))) = v := by
  simp only [bind_eq_ok, checkHeader_eq_ok, pure_eq_ok, StateT.run]
  constructor
  · rintro ⟨-, ⟨hlength, hmagic, hversion⟩, settlement, hsettlement, ⟨result, after⟩, hresult, rfl⟩
    obtain ⟨hformed, rfl⟩ := hinner.mp hsettlement
    have hfields := ((hread hlength).mp hresult).1
    exact ⟨(wellFormed_restored_iff hlength hmagic hversion hlower hupper).mp hformed, hfields⟩
  · rintro ⟨hformed, hfields⟩
    have hrestored : WellFormed other n (setVersion other (input.take n)) :=
      (wellFormed_restored_iff hformed.length_eq hformed.magic hformed.version_eq hlower
        hupper).mpr hformed
    exact ⟨(), ⟨hformed.length_eq, hformed.magic, hformed.version_eq⟩, _,
      hinner.mpr ⟨hrestored, rfl⟩, (v, length), (hread hformed.length_eq).mpr ⟨hfields, rfl⟩, rfl⟩

/-- The second version's decoder accepts exactly its well-formed strings. -/
theorem decodeV2_eq_ok {input : Bytes} {v : SettlementPublicValuesV2} :
    SettlementPublicValuesV2.decode input = .ok v ↔ WellFormed 2 828 input ∧ fieldsV2 input = v := by
  refine decodeExtended_eq_ok (fun settlement => { fieldsV2 input with settlement := settlement })
    ?_ ?_ decodeV1_eq_ok ?_
  · decide
  · decide
  intro hlength value result after
  simp only [readV2Extension, readArray, read_bind_eq_ok, readAt_eq_ok, read_pure_eq_ok, and_assoc,
    exists_and_left, exists_eq_left', Nat.reduceDiv, Nat.reduceAdd, Prod.mk.injEq, hlength,
    Nat.reduceLeDiff, true_and, fieldsV2]

/-- The third version's decoder accepts exactly its well-formed strings. -/
theorem decodeV3_eq_ok {input : Bytes} {v : SettlementPublicValuesV3} :
    SettlementPublicValuesV3.decode input = .ok v ↔ WellFormed 3 932 input ∧ fieldsV3 input = v := by
  refine decodeExtended_eq_ok (fun settlement => { fieldsV3 input with settlement := settlement })
    ?_ ?_ decodeV2_eq_ok ?_
  · decide
  · decide
  intro hlength value result after
  simp only [readV3Extension, readArray, read_bind_eq_ok, readAt_eq_ok, read_pure_eq_ok, and_assoc,
    exists_and_left, exists_eq_left', Nat.reduceDiv, Nat.reduceAdd, Prod.mk.injEq, hlength,
    Nat.reduceLeDiff, true_and, fieldsV3]

/-- The fourth version's decoder accepts exactly its well-formed strings. -/
theorem decodeV4_eq_ok {input : Bytes} {v : SettlementPublicValuesV4} :
    SettlementPublicValuesV4.decode input = .ok v ↔ WellFormed 4 904 input ∧ fieldsV4 input = v := by
  refine decodeExtended_eq_ok (fun settlement => { fieldsV4 input with settlement := settlement })
    ?_ ?_ decodeV2_eq_ok ?_
  · decide
  · decide
  intro hlength value result after
  simp only [readV4Extension, readArray, read_bind_eq_ok, readAt_eq_ok, read_pure_eq_ok, and_assoc,
    exists_and_left, exists_eq_left', Nat.reduceDiv, Nat.reduceAdd, Prod.mk.injEq, hlength,
    Nat.reduceLeDiff, true_and, fieldsV4]

/-- A leading part whose version word was put back, followed by the bytes behind
it, is the whole string. -/
theorem encode_extended {version other : BitVec 16} {length n : ℕ} {input inner : Bytes}
    (h : WellFormed version length input) (hlower : 6 ≤ n) (hupper : n ≤ length)
    (hinner : inner = setVersion other (input.take n)) :
    setVersion version inner ++ slice input n (length - n) = input := by
  have hlength := h.length_eq
  have hleading : setVersion version inner = slice input 0 n := by
    rw [hinner, setVersion_restored h.version_eq hlower (by omega), slice, List.drop_zero]
  rw [hleading, slice_join (Nat.zero_add n)]
  exact slice_self (by omega)

/-- Re-encoding the fields of a well-formed string of the second version. -/
theorem encode_fieldsV2 {input : Bytes} (h : WellFormed 2 828 input) :
    (fieldsV2 input).encode = input := by
  have hlength := h.length_eq
  have hinner : (fieldsV1 (setVersion 1 (input.take 768))).encode = setVersion 1 (input.take 768) :=
    encode_fieldsV1 ((wellFormed_restored_iff hlength h.magic h.version_eq (by decide)
      (by decide)).mpr h)
  have hwhole := encode_extended h (by decide) (by decide) hinner
  simp only [SettlementPublicValuesV2.encode, SettlementPublicValuesV2.extension, fieldsV2]
  simp (disch := decide) only [h.word, slice_join, Nat.reduceDiv, Nat.reduceAdd]
  exact hwhole

/-- Re-encoding the fields of a well-formed string of the third version. -/
theorem encode_fieldsV3 {input : Bytes} (h : WellFormed 3 932 input) :
    (fieldsV3 input).encode = input := by
  have hlength := h.length_eq
  have hinner : (fieldsV2 (setVersion 2 (input.take 828))).encode = setVersion 2 (input.take 828) :=
    encode_fieldsV2 ((wellFormed_restored_iff hlength h.magic h.version_eq (by decide)
      (by decide)).mpr h)
  have hwhole := encode_extended h (by decide) (by decide) hinner
  simp only [SettlementPublicValuesV3.encode, SettlementPublicValuesV3.extension, fieldsV3]
  simp (disch := decide) only [h.word, slice_join, Nat.reduceDiv, Nat.reduceAdd]
  exact hwhole

/-- Re-encoding the fields of a well-formed string of the fourth version. -/
theorem encode_fieldsV4 {input : Bytes} (h : WellFormed 4 904 input) :
    (fieldsV4 input).encode = input := by
  have hlength := h.length_eq
  have hinner : (fieldsV2 (setVersion 2 (input.take 828))).encode = setVersion 2 (input.take 828) :=
    encode_fieldsV2 ((wellFormed_restored_iff hlength h.magic h.version_eq (by decide)
      (by decide)).mpr h)
  have hwhole := encode_extended h (by decide) (by decide) hinner
  simp only [SettlementPublicValuesV4.encode, SettlementPublicValuesV4.extension, fieldsV4]
  simp (disch := decide) only [h.word, slice_join, Nat.reduceDiv, Nat.reduceAdd]
  exact hwhole

/-- The four receipt versions. -/
inductive ReceiptVersion
  | v1 | v2 | v3 | v4
  deriving DecidableEq

namespace ReceiptVersion

/-- The version word. -/
def number : ReceiptVersion → BitVec 16
  | v1 => 1
  | v2 => 2
  | v3 => 3
  | v4 => 4

/-- The length of a version's strings. -/
def length : ReceiptVersion → ℕ
  | v1 => 768
  | v2 => 828
  | v3 => 932
  | v4 => 904

/-- The decoder of one version. -/
def decode (input : Bytes) : ReceiptVersion → Except String SettlementPublicValues
  | v1 => .v1 <$> SettlementPublicValuesV1.decode input
  | v2 => .v2 <$> SettlementPublicValuesV2.decode input
  | v3 => .v3 <$> SettlementPublicValuesV3.decode input
  | v4 => .v4 <$> SettlementPublicValuesV4.decode input

/-- A version's fields at their offsets. -/
def fields (input : Bytes) : ReceiptVersion → SettlementPublicValues
  | v1 => .v1 (fieldsV1 input)
  | v2 => .v2 (fieldsV2 input)
  | v3 => .v3 (fieldsV3 input)
  | v4 => .v4 (fieldsV4 input)

/-- The contract demands the same lengths. -/
theorem publicValuesLength_number (version : ReceiptVersion) :
    publicValuesLength version.number = version.length := by
  cases version <;> rfl

/-- Every version's decoder accepts exactly its well-formed strings. -/
theorem decode_eq_ok {version : ReceiptVersion} {input : Bytes} {v : SettlementPublicValues} :
    version.decode input = .ok v ↔
      WellFormed version.number version.length input ∧ version.fields input = v := by
  cases version with
  | v1 => simp only [decode, map_eq_ok, decodeV1_eq_ok, number, length, fields, and_assoc,
      exists_and_left, exists_eq_left']
  | v2 => simp only [decode, map_eq_ok, decodeV2_eq_ok, number, length, fields, and_assoc,
      exists_and_left, exists_eq_left']
  | v3 => simp only [decode, map_eq_ok, decodeV3_eq_ok, number, length, fields, and_assoc,
      exists_and_left, exists_eq_left']
  | v4 => simp only [decode, map_eq_ok, decodeV4_eq_ok, number, length, fields, and_assoc,
      exists_and_left, exists_eq_left']

/-- Re-encoding the fields of a well-formed string gives the string back. -/
theorem encode_fields {version : ReceiptVersion} {input : Bytes}
    (h : WellFormed version.number version.length input) :
    (version.fields input).encode = input := by
  cases version with
  | v1 => exact encode_fieldsV1 h
  | v2 => exact encode_fieldsV2 h
  | v3 => exact encode_fieldsV3 h
  | v4 => exact encode_fieldsV4 h

end ReceiptVersion

/-- The version of a receipt. -/
def receiptVersion : SettlementPublicValues → ReceiptVersion
  | .v1 _ => .v1
  | .v2 _ => .v2
  | .v3 _ => .v3
  | .v4 _ => .v4

/-- The decoder of any version is the decoder of the one version with that length. -/
theorem decode_eq_ok_iff_version {input : Bytes} {v : SettlementPublicValues} :
    SettlementPublicValues.decode input = .ok v ↔
      ∃ version : ReceiptVersion, version.decode input = .ok v := by
  constructor
  · intro h
    rw [SettlementPublicValues.decode] at h
    split at h
    · exact ⟨.v1, h⟩
    split at h
    · exact ⟨.v2, h⟩
    split at h
    · exact ⟨.v3, h⟩
    split at h
    · exact ⟨.v4, h⟩
    · cases h
  · rintro ⟨version, h⟩
    have hlength := (ReceiptVersion.decode_eq_ok.mp h).1.length_eq
    cases version <;> rw [SettlementPublicValues.decode, hlength] <;> exact h

/-- The first version's part of the contract's view. -/
def settlementOf (d : DecodedPublicValues) : SettlementPublicValuesV1 where
  daMode := .multisig
  chainId := d.chainId
  settlementContract := d.settlementContract
  batchSequence := d.batchSequence
  vkHash := d.vkHash
  appStatement := d.appStatement
  minaTransactionHash := d.minaTransactionHash
  stateBefore := ⟨d.stateBefore⟩
  stateAfter := ⟨d.stateAfter⟩
  outerActionStateBefore := d.outerActionStateBefore
  outerActionStateAfter := d.outerActionStateAfter
  outerActionStateLengthBefore := d.outerActionStateLengthBefore
  outerActionStateLengthAfter := d.outerActionStateLengthAfter
  synchronizedOuterActionState := d.synchronizedOuterActionState
  synchronizedOuterActionStateLength := d.synchronizedOuterActionStateLength
  slotLower := d.slotLower
  slotUpper := d.slotUpper

/-- The second version's part of the contract's view. -/
def innerActionBatchOf (d : DecodedPublicValues) : SettlementPublicValuesV2 :=
  ⟨settlementOf d, d.bridgeAddress, d.innerActionRoot, d.innerActionStartIndex, d.innerActionCount⟩

/-- The receipt of the contract's view. -/
def receiptOf (d : DecodedPublicValues) : SettlementPublicValues :=
  if d.version = 1 then .v1 (settlementOf d)
  else if d.version = 2 then .v2 (innerActionBatchOf d)
  else if d.version = 3 then .v3 ⟨innerActionBatchOf d, d.assetRegistryRoot, d.assetRegistryCount,
    d.assetRegistrySchemaVersion, d.assetRecordHash, d.assetRecordCommitment⟩
  else .v4 ⟨innerActionBatchOf d, d.assetRegistryRoot, d.assetRegistryCount,
    d.assetRegistrySchemaVersion, d.assetRecordBatchRoot, d.assetRecordBatchCount⟩

/-- The contract's view of a receipt keeps its first version's part. -/
theorem settlementOf_decoded (v : SettlementPublicValues) : settlementOf v.decoded = v.settlement := by
  have hmode : v.settlement.daMode = .multisig := by cases v.settlement.daMode; rfl
  rw [settlementOf, ← hmode]
  rfl

/-- The contract's view of a receipt determines the receipt. -/
theorem receiptOf_decoded (v : SettlementPublicValues) : receiptOf v.decoded = v := by
  have hsettlement := settlementOf_decoded v
  cases v with
  | v1 r => exact congrArg SettlementPublicValues.v1 hsettlement
  | v2 r =>
    have hbatch : innerActionBatchOf (SettlementPublicValues.decoded (.v2 r)) = r := by
      rw [innerActionBatchOf, hsettlement]
      rfl
    exact congrArg SettlementPublicValues.v2 hbatch
  | v3 r =>
    have hbatch : innerActionBatchOf (SettlementPublicValues.decoded (.v3 r)) = r.settlement := by
      rw [innerActionBatchOf, hsettlement]
      rfl
    change SettlementPublicValues.v3 ⟨innerActionBatchOf _, _, _, _, _, _⟩ = _
    rw [hbatch]
    rfl
  | v4 r =>
    have hbatch : innerActionBatchOf (SettlementPublicValues.decoded (.v4 r)) = r.settlement := by
      rw [innerActionBatchOf, hsettlement]
      rfl
    change SettlementPublicValues.v4 ⟨innerActionBatchOf _, _, _, _, _, _⟩ = _
    rw [hbatch]
    rfl

/-- Receipts with one encoding are equal. -/
theorem encode_injective {v w : SettlementPublicValues} (h : v.encode = w.encode) : v = w := by
  have hdecoded : v.decoded = w.decoded := by
    rw [← readPublicValues_encode v, h, readPublicValues_encode w]
  rw [← receiptOf_decoded v, hdecoded, receiptOf_decoded]

/-- An encoding is a well-formed string of its version. -/
theorem wellFormed_encode (v : SettlementPublicValues) :
    WellFormed (receiptVersion v).number (receiptVersion v).length v.encode := by
  have hversion : v.version = (receiptVersion v).number := by cases v <;> rfl
  have hread := readPublicValues_encode v
  have hword : readWord 16 v.encode 4 = v.version := congrArg (·.version) hread
  have hmode : readWord 8 v.encode 6 = v.settlement.daMode.toByte := congrArg (·.daMode) hread
  obtain ⟨⟨hmagic, -, hlength, hreserved⟩, -⟩ :=
    decodePublicValues_eq_ok.mp (decodePublicValues_encode v)
  rw [hword, hversion, ReceiptVersion.publicValuesLength_number] at hlength
  refine ⟨hlength, hmagic, hword.trans hversion, hmode.trans ?_, hreserved⟩
  cases v.settlement.daMode
  rfl

/-- A version's decoder accepts exactly the encodings of its receipts. -/
theorem version_decode_iff {version : ReceiptVersion} {input : Bytes} {v : SettlementPublicValues} :
    version.decode input = .ok v ↔ v.encode = input ∧ receiptVersion v = version := by
  rw [ReceiptVersion.decode_eq_ok]
  constructor
  · rintro ⟨hformed, rfl⟩
    refine ⟨ReceiptVersion.encode_fields hformed, ?_⟩
    cases version <;> rfl
  · rintro ⟨rfl, rfl⟩
    have hformed := wellFormed_encode v
    exact ⟨hformed, encode_injective (ReceiptVersion.encode_fields hformed)⟩

/-- The decoder of any version accepts exactly the encodings of receipts. -/
theorem decode_iff {input : Bytes} {v : SettlementPublicValues} :
    SettlementPublicValues.decode input = .ok v ↔ v.encode = input := by
  rw [decode_eq_ok_iff_version]
  constructor
  · rintro ⟨version, h⟩
    exact (version_decode_iff.mp h).1
  · intro h
    exact ⟨receiptVersion v, version_decode_iff.mpr ⟨h, rfl⟩⟩

/-- Receipts of every version round trip: decoding an encoding returns the
receipt, under its version, whatever a decoder accepts re-encodes to the same
string, and no string decodes under two versions. -/
theorem receipts_round_trip :
    (∀ v : SettlementPublicValues, SettlementPublicValues.decode v.encode = .ok v ∧
      (receiptVersion v).decode v.encode = .ok v) ∧
    (∀ (input : Bytes) (v : SettlementPublicValues),
      SettlementPublicValues.decode input = .ok v → v.encode = input) ∧
    ∀ (input : Bytes) (version other : ReceiptVersion) (v w : SettlementPublicValues),
      version.decode input = .ok v → other.decode input = .ok w →
        version = other ∧ v.encode = input ∧ v = w := by
  refine ⟨?_, ?_, ?_⟩
  · intro v
    exact ⟨decode_iff.mpr rfl, version_decode_iff.mpr ⟨rfl, rfl⟩⟩
  · intro input v h
    exact decode_iff.mp h
  · intro input version other v w hv hw
    obtain ⟨hencode, hversion⟩ := version_decode_iff.mp hv
    obtain ⟨hencode', hversion'⟩ := version_decode_iff.mp hw
    have hvw : v = w := encode_injective (hencode.trans hencode'.symm)
    refine ⟨?_, hencode, hvw⟩
    rw [← hversion, hvw, hversion']

/-- A receipt with zero fields, for evaluation. -/
def zeroReceipt : SettlementPublicValuesV1 :=
  settlementOf (readPublicValues [])

/-- The round trip of a concrete receipt of the second version. -/
theorem receipts_round_trip_zero :
    SettlementPublicValues.decode
      (SettlementPublicValues.v2 ⟨zeroReceipt, 1, 2, 3, 4⟩).encode = .ok (.v2 ⟨zeroReceipt, 1, 2, 3, 4⟩) ∧
    ∀ w, ReceiptVersion.v3.decode (SettlementPublicValues.v2 ⟨zeroReceipt, 1, 2, 3, 4⟩).encode ≠ .ok w := by
  obtain ⟨hdecode, hencode, hversions⟩ := receipts_round_trip
  have hv2 := (hdecode (.v2 ⟨zeroReceipt, 1, 2, 3, 4⟩)).2
  refine ⟨(hdecode _).1, ?_⟩
  intro w hw
  have hsame := (hversions _ .v2 .v3 _ w hv2 hw).1
  cases hsame

/-- The contract's decoder and the gateway's agree on every string: the contract
returns, with the mode that `verifyAndUpdateRoot` demands, exactly when the gateway
does, and then with the same fields. -/
theorem decoders_agree (publicValues : Bytes) :
    ((∃ decoded, decodePublicValues publicValues = .ok decoded ∧ decoded.daMode = 1) ↔
      ∃ v, SettlementPublicValues.decode publicValues = .ok v) ∧
    ∀ decoded v, decodePublicValues publicValues = .ok decoded →
      SettlementPublicValues.decode publicValues = .ok v → decoded = v.decoded := by
  have hfields : ∀ decoded v, decodePublicValues publicValues = .ok decoded →
      SettlementPublicValues.decode publicValues = .ok v → decoded = v.decoded := by
    intro decoded v hdecoded hv
    have hencode := decode_iff.mp hv
    have hread := decodePublicValues_encode v
    rw [hencode, hdecoded] at hread
    exact Except.ok.inj hread
  refine ⟨⟨?_, ?_⟩, hfields⟩
  · rintro ⟨decoded, hdecoded, hmode⟩
    obtain ⟨⟨hmagic, hversion, hlength, hreserved⟩, rfl⟩ := decodePublicValues_eq_ok.mp hdecoded
    have hnumber : ∃ version : ReceiptVersion, readWord 16 publicValues 4 = version.number := by
      rcases hversion with h | h | h | h
      · exact ⟨.v1, h⟩
      · exact ⟨.v2, h⟩
      · exact ⟨.v3, h⟩
      · exact ⟨.v4, h⟩
    obtain ⟨version, hnumber⟩ := hnumber
    rw [hnumber, version.publicValuesLength_number] at hlength
    exact ⟨_, decode_eq_ok_iff_version.mpr ⟨version,
      ReceiptVersion.decode_eq_ok.mpr ⟨⟨hlength, hmagic, hnumber, hmode, hreserved⟩, rfl⟩⟩⟩
  · rintro ⟨v, hv⟩
    have hread := decodePublicValues_encode v
    rw [decode_iff.mp hv] at hread
    refine ⟨v.decoded, hread, ?_⟩
    change v.settlement.daMode.toByte = 1
    cases v.settlement.daMode
    rfl

/-- The agreement at a concrete receipt and at the empty string. -/
theorem decoders_agree_zero :
    (∃ decoded, decodePublicValues (SettlementPublicValues.v1 zeroReceipt).encode = .ok decoded ∧
      decoded.daMode = 1) ∧ ¬ ∃ v, SettlementPublicValues.decode [] = .ok v := by
  refine ⟨(decoders_agree _).1.mpr ⟨_, decode_iff.mpr rfl⟩, ?_⟩
  intro h
  obtain ⟨decoded, hdecoded, -⟩ := (decoders_agree []).1.mpr h
  exact absurd (decodePublicValues_eq_ok.mp hdecoded).1.2.2.1 (by decide)

end EthereumSettlement.SettlementDecoder
