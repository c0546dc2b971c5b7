import EthereumSettlement.BridgeCodec
import EthereumSettlement.SettlementDecoder

/-!
# The gateway's decoder of bridge receipts

`BridgeTransitionPublicValuesV2::decode` reads a header with an action count and
then that many 192-byte entries. It accepts exactly the encodings of receipts.
The contract's decoder accepts the same strings with the same header, and reads
the state after each action where the gateway reads it.
-/

namespace EthereumSettlement.BridgeDecoder

open ByteWords CheckedCalls CursorReads PastaPoseidon BridgeCodec
open SettlementDecoder (readArray)

/-- One action entry. -/
def readAction (input : Bytes) : CursorRead BridgeOuterActionV2 := do
  let fields ← readAll "public values length checked" 256 input 5
  let stateAfter ← readArray 256 input
  pure ⟨fields, stateAfter⟩

/-- The expected length for an action count, in the gateway's 64-bit sizes. -/
def expectedLength (count : BitVec 32) : Except String (BitVec 64) :=
  checkedAdd "bridge V2 public values: length overflow" 164 (count.setWidth 64 * 192)

/-- The reads of `BridgeTransitionPublicValuesV2::decode` behind the reserved bytes. -/
def readBridgeTransition (input : Bytes) : CursorRead BridgeTransitionPublicValuesV2 := do
  let ethereumStateBefore ← readArray 256 input
  let ethereumStateAfter ← readArray 256 input
  let ethereumNonceBefore ← readArray 64 input
  let ethereumNonceAfter ← readArray 64 input
  let zekoActionStateBefore ← readArray 256 input
  let zekoActionStateAfter ← readArray 256 input
  let zekoActionStateLengthBefore ← readArray 32 input
  let zekoActionStateLengthAfter ← readArray 32 input
  let count ← readArray 32 input
  let expected ← liftM (expectedLength count)
  check (input.length = expected.toNat)
    s!"bridge V2 public values: expected {expected.toNat} bytes, got {input.length}"
  let actions ← readCounted (readAction input) count.toNat
  pure {
    ethereumStateBefore, ethereumStateAfter, ethereumNonceBefore, ethereumNonceAfter,
    zekoActionStateBefore, zekoActionStateAfter, zekoActionStateLengthBefore,
    zekoActionStateLengthAfter, actions }

/-- `BridgeTransitionPublicValuesV2::decode`. -/
def BridgeTransitionPublicValuesV2.decode (input : Bytes) :
    Except String BridgeTransitionPublicValuesV2 := do
  require (164 ≤ input.length) "bridge V2 public values: truncated header"
  require (slice input 0 4 = bridgePublicValuesMagic) "bridge V2 public values: invalid magic"
  require (readWord 16 input 4 = 2)
    s!"bridge V2 public values: unsupported version {(readWord 16 input 4).toNat}"
  require (slice input 6 2 = [0, 0]) "bridge V2 public values: reserved bytes must be zero"
  let decoded ← (readBridgeTransition input).run 8
  pure decoded.1

/-- The entry at an offset. -/
def actionAt (input : Bytes) (cursor : ℕ) : BridgeOuterActionV2 :=
  ⟨fun i => readWord 256 input (cursor + 32 * i), readWord 256 input (cursor + 160)⟩

/-- The receipt at its offsets. -/
def receiptAt (input : Bytes) : BridgeTransitionPublicValuesV2 where
  ethereumStateBefore := readWord 256 input 8
  ethereumStateAfter := readWord 256 input 40
  ethereumNonceBefore := readWord 64 input 72
  ethereumNonceAfter := readWord 64 input 80
  zekoActionStateBefore := readWord 256 input 88
  zekoActionStateAfter := readWord 256 input 120
  zekoActionStateLengthBefore := readWord 32 input 152
  zekoActionStateLengthAfter := readWord 32 input 156
  actions := countedItems (actionAt input) 192 (readWord 32 input 160).toNat 164

/-- The receipt from the contract's header and the entries behind it. -/
theorem receiptAt_header (input : Bytes) :
    receiptAt input =
      { ethereumStateBefore := (readBridgePublicValues input).ethereumStateBefore
        ethereumStateAfter := (readBridgePublicValues input).ethereumStateAfter
        ethereumNonceBefore := (readBridgePublicValues input).ethereumNonceBefore
        ethereumNonceAfter := (readBridgePublicValues input).ethereumNonceAfter
        zekoActionStateBefore := (readBridgePublicValues input).zekoActionStateBefore
        zekoActionStateAfter := (readBridgePublicValues input).zekoActionStateAfter
        zekoActionStateLengthBefore := (readBridgePublicValues input).zekoActionStateLengthBefore
        zekoActionStateLengthAfter := (readBridgePublicValues input).zekoActionStateLengthAfter
        actions := countedItems (actionAt input) 192
          (readBridgePublicValues input).depositCount.toNat 164 } := rfl

/-- The strings of bridge receipts. -/
structure WellFormedBridge (input : Bytes) : Prop where
  /-- It starts with the magic. -/
  magic : slice input 0 4 = bridgePublicValuesMagic
  /-- It has the second version. -/
  version : readWord 16 input 4 = 2
  /-- The reserved bytes are zero. -/
  reserved : slice input 6 2 = [0, 0]
  /-- Its length fits the declared number of actions. -/
  length : input.length = 164 + (readWord 32 input 160).toNat * 192

/-- The expected length never overflows. -/
theorem expectedLength_eq_ok {count : BitVec 32} {expected : BitVec 64} :
    expectedLength count = .ok expected ↔ expected.toNat = 164 + count.toNat * 192 := by
  have hcount := count.isLt
  have hproduct : (count.setWidth 64 * 192 : BitVec 64).toNat = count.toNat * 192 := by
    rw [BitVec.toNat_mul, BitVec.toNat_setWidth]
    have hnumber : (192 : BitVec 64).toNat = 192 := rfl
    rw [hnumber]
    omega
  have hheader : (164 : BitVec 64).toNat = 164 := rfl
  rw [expectedLength, checkedAdd_eq_ok, hproduct, hheader]

/-- An entry occupies 192 bytes from the cursor on. -/
theorem readAction_eq_ok {input : Bytes} {cursor after : ℕ} {action : BridgeOuterActionV2} :
    readAction input cursor = .ok (action, after) ↔
      cursor + 192 ≤ input.length ∧ actionAt input cursor = action ∧ cursor + 192 = after := by
  rw [readAction, read_bind_eq_ok]
  constructor
  · rintro ⟨fields, middle, hfields, hrest⟩
    obtain ⟨hbound, rfl, rfl⟩ := (readAll_eq_ok (by simp)).mp hfields
    obtain ⟨stateAfter, last, hstate, hdone⟩ := read_bind_eq_ok.mp hrest
    obtain ⟨hbound', rfl, rfl⟩ := readAt_eq_ok.mp hstate
    rw [read_pure_eq_ok, Prod.mk.injEq] at hdone
    exact ⟨hbound', hdone⟩
  · rintro ⟨hbound, rfl, rfl⟩
    refine ⟨_, _, (readAll_eq_ok (by simp)).mpr ⟨by omega, rfl, rfl⟩, ?_⟩
    exact read_bind_eq_ok.mpr ⟨_, _, readAt_eq_ok.mpr ⟨hbound, rfl, rfl⟩, rfl⟩

/-- A length accepted between reads leaves the cursor. -/
theorem liftLength_eq_ok {count : BitVec 32} {expected : BitVec 64} {cursor after : ℕ} :
    (liftM (expectedLength count) : CursorRead (BitVec 64)) cursor = .ok (expected, after) ↔
      expected.toNat = 164 + count.toNat * 192 ∧ cursor = after := by
  change (expectedLength count >>= fun length => pure (length, cursor)) = _ ↔ _
  rw [bind_eq_ok]
  constructor
  · rintro ⟨length, hlength, hdone⟩
    rw [pure_eq_ok, Prod.mk.injEq] at hdone
    obtain ⟨rfl, hcursor⟩ := hdone
    exact ⟨expectedLength_eq_ok.mp hlength, hcursor⟩
  · rintro ⟨hlength, rfl⟩
    exact ⟨expected, expectedLength_eq_ok.mpr hlength, rfl⟩

/-- The reads behind the reserved bytes succeed exactly on strings of the counted
length, and end at their end. -/
theorem readBridgeTransition_eq_ok {input : Bytes} {v : BridgeTransitionPublicValuesV2} {after : ℕ}
    (hheader : 164 ≤ input.length) :
    readBridgeTransition input 8 = .ok (v, after) ↔
      input.length = 164 + (readWord 32 input 160).toNat * 192 ∧ receiptAt input = v ∧
      164 + (readWord 32 input 160).toNat * 192 = after := by
  have hbounds : ∀ n ≤ 164, n ≤ input.length := fun n hn => le_trans hn hheader
  simp (disch := decide) only [readBridgeTransition, readArray, read_bind_eq_ok, readAt_eq_ok,
    check_eq_ok, liftLength_eq_ok, read_pure_eq_ok, and_assoc, exists_and_left, exists_eq_left',
    Nat.reduceDiv, Nat.reduceAdd, Prod.mk.injEq, hbounds, true_and]
  constructor
  · rintro ⟨expected, hexpected, hlength, -, actions, last, hactions, hfields, hlast⟩
    rw [hexpected] at hlength
    obtain ⟨-, rfl, rfl⟩ := (readCounted_eq_ok readAction_eq_ok hheader).mp hactions
    exact ⟨hlength, hfields, hlast⟩
  · rintro ⟨hlength, hfields, hlast⟩
    have hcount := (readWord 32 input 160).isLt
    have hexpected : (BitVec.ofNat 64 (164 + (readWord 32 input 160).toNat * 192)).toNat =
        164 + (readWord 32 input 160).toNat * 192 := by
      rw [BitVec.toNat_ofNat]
      omega
    exact ⟨_, hexpected, hlength.trans hexpected.symm, (), _, _,
      (readCounted_eq_ok readAction_eq_ok hheader).mpr ⟨le_of_eq hlength.symm, rfl, rfl⟩, hfields,
      hlast⟩

/-- The decoder accepts exactly the well-formed strings and returns their fields. -/
theorem decode_eq_ok {input : Bytes} {v : BridgeTransitionPublicValuesV2} :
    BridgeTransitionPublicValuesV2.decode input = .ok v ↔
      WellFormedBridge input ∧ receiptAt input = v := by
  simp only [BridgeTransitionPublicValuesV2.decode, StateT.run, bind_eq_ok, require_eq_ok,
    exists_const, pure_eq_ok]
  constructor
  · rintro ⟨hheader, hmagic, hversion, hreserved, ⟨decoded, after⟩, hread, rfl⟩
    obtain ⟨hlength, hfields, -⟩ := (readBridgeTransition_eq_ok hheader).mp hread
    exact ⟨⟨hmagic, hversion, hreserved, hlength⟩, hfields⟩
  · rintro ⟨hformed, hfields⟩
    have hheader : 164 ≤ input.length := by
      rw [hformed.length]
      omega
    exact ⟨hheader, hformed.magic, hformed.version, hformed.reserved, (v, _),
      (readBridgeTransition_eq_ok hheader).mpr ⟨hformed.length, hfields, rfl⟩, rfl⟩

/-- Re-encoding an entry gives the bytes it was read from. -/
theorem encode_actionAt {input : Bytes} (cursor : ℕ) (h : cursor + 192 ≤ input.length) :
    (actionAt input cursor).encode = slice input cursor 192 := by
  have hwords : List.ofFn (actionAt input cursor).fields ++ [(actionAt input cursor).stateAfter] =
      List.ofFn fun i : Fin 6 => readWord 256 input (cursor + 32 * i) := by
    rw [List.ofFn_succ_last]
    rfl
  rw [BridgeOuterActionV2.encode, hwords]
  exact abiEncode_readWords h

/-- An entry is read back from its encoding. -/
theorem actionAt_encode (before rest : Bytes) (action : BridgeOuterActionV2) :
    actionAt (before ++ (action.encode ++ rest)) before.length = action := by
  have hword : ∀ offset, readWord 256 (before ++ (action.encode ++ rest)) (before.length + offset) =
      readWord 256 (action.encode ++ rest) offset := by
    intro offset
    rw [readWord_skip rfl (Nat.le_add_right _ _), Nat.add_sub_cancel_left]
  have hfield : ∀ i : Fin 5, readWord 256 (action.encode ++ rest) (32 * i) = action.fields i := by
    intro i
    have hread := readWord_abiEncode (List.ofFn action.fields ++ [action.stateAfter]) rest i
      (by simp; omega)
    rw [BridgeOuterActionV2.encode, hread, List.getElem_append_left (by simp), List.getElem_ofFn]
  rw [actionAt, hword, readWord_entry]
  congr 1
  funext i
  rw [hword, hfield]

/-- Re-encoding the fields of a well-formed string gives the string back. -/
theorem encode_receiptAt {input : Bytes} (h : WellFormedBridge input) :
    (receiptAt input).encode = .ok input := by
  have hlength := h.length
  have hcount := (readWord 32 input 160).isLt
  have hactions : (receiptAt input).actions.length = (readWord 32 input 160).toNat := by
    rw [receiptAt, countedItems_length]
  have hword : ∀ w offset : ℕ, 8 ∣ w → offset + w / 8 ≤ 164 →
      bytesOf (readWord w input offset) = slice input offset (w / 8) :=
    fun w offset hw hbound => bytesOf_readWord hw (by omega)
  have hversion : bytesOf (2 : BitVec 16) = slice input 4 2 := by
    rw [← h.version]
    exact hword 16 4 (by decide) (by decide)
  have hreserved : bytesOf (0 : Byte) ++ bytesOf (0 : Byte) = slice input 6 2 := by
    rw [h.reserved]
    decide
  have hentries : (receiptAt input).actions.flatMap (·.encode) =
      slice input 164 ((readWord 32 input 160).toNat * 192) :=
    flatMap_countedItems encode_actionAt (le_of_eq hlength.symm)
  have hheader : (receiptAt input).header (readWord 32 input 160) = slice input 0 164 := by
    simp only [BridgeTransitionPublicValuesV2.header, receiptAt, hversion, ← h.magic]
    rw [← List.append_assoc (bytesOf 0) (bytesOf 0), hreserved]
    simp (disch := decide) only [hword, slice_join, Nat.reduceDiv, Nat.reduceAdd]
  rw [BridgeTransitionPublicValuesV2.encode, require_bind_eq_ok, pure_eq_ok, hactions,
    BitVec.ofNat_toNat, BitVec.setWidth_eq, hheader, hentries, slice_join rfl]
  exact ⟨hcount, slice_self hlength⟩

/-- The contract's decoder accepts exactly the well-formed strings and returns
their header. -/
theorem decodeBridgePublicValues_eq_ok {input : Bytes} {decoded : DecodedBridgePublicValues} :
    decodeBridgePublicValues input = .ok decoded ↔
      WellFormedBridge input ∧ readBridgePublicValues input = decoded := by
  simp only [decodeBridgePublicValues, bind_eq_ok, require_eq_ok, exists_const, pure_eq_ok]
  have hreserved : 164 ≤ input.length →
      ((readWord 8 input 6 = 0 ∧ readWord 8 input 7 = 0) ↔ slice input 6 2 = [0, 0]) := by
    intro hheader
    have hsix : bytesOf (readWord 8 input 6) = slice input 6 1 :=
      bytesOf_readWord (by decide) (by omega)
    have hseven : bytesOf (readWord 8 input 7) = slice input 7 1 :=
      bytesOf_readWord (by decide) (by omega)
    have hboth : slice input 6 2 = bytesOf (readWord 8 input 6) ++ bytesOf (readWord 8 input 7) := by
      rw [hsix, hseven, slice_join rfl]
    have hzero : ([0, 0] : Bytes) = bytesOf (0 : Byte) ++ bytesOf (0 : Byte) := by decide
    rw [hboth, hzero]
    constructor
    · rintro ⟨h6, h7⟩
      rw [h6, h7]
    · intro h
      obtain ⟨h6, h7⟩ := List.append_inj h (by simp)
      exact ⟨bytesOf_injective (by decide) h6, bytesOf_injective (by decide) h7⟩
  constructor
  · rintro ⟨hheader, hmagic, hversion, hzero, hlength, hdecoded⟩
    exact ⟨⟨hmagic, hversion, (hreserved hheader).mp hzero, hlength⟩, hdecoded⟩
  · rintro ⟨hformed, hdecoded⟩
    have hheader : 164 ≤ input.length := by
      rw [hformed.length]
      omega
    exact ⟨hheader, hformed.magic, hformed.version, (hreserved hheader).mpr hformed.reserved,
      hformed.length, hdecoded⟩

/-- The fields of an encoding are those that were encoded. -/
theorem receiptAt_encode {v : BridgeTransitionPublicValuesV2} {encoded : Bytes}
    (h : v.encode = .ok encoded) : receiptAt encoded = v := by
  have hdecoded := (decodeBridgePublicValues_eq_ok.mp (decodeBridgePublicValues_encode h)).2
  rw [BridgeTransitionPublicValuesV2.encode, require_bind_eq_ok, pure_eq_ok] at h
  obtain ⟨hcount, rfl⟩ := h
  have hdeposits : v.decoded.depositCount.toNat = v.actions.length := by
    change (BitVec.ofNat 32 v.actions.length).toNat = _
    rw [BitVec.toNat_ofNat, Nat.mod_eq_of_lt hcount]
  have hactions : countedItems (actionAt (v.header (BitVec.ofNat 32 v.actions.length) ++
      v.actions.flatMap (·.encode))) 192 v.actions.length
      (v.header (BitVec.ofNat 32 v.actions.length)).length = v.actions :=
    countedItems_encoded BridgeOuterActionV2.encode_length actionAt_encode _ v.actions
  rw [header_length] at hactions
  rw [receiptAt_header, hdecoded, hdeposits, hactions]
  rfl

/-- The decoder accepts exactly the encodings of receipts. -/
theorem decode_iff {input : Bytes} {v : BridgeTransitionPublicValuesV2} :
    BridgeTransitionPublicValuesV2.decode input = .ok v ↔ v.encode = .ok input := by
  rw [decode_eq_ok]
  constructor
  · rintro ⟨hformed, rfl⟩
    exact encode_receiptAt hformed
  · intro h
    exact ⟨(decodeBridgePublicValues_eq_ok.mp (decodeBridgePublicValues_encode h)).1,
      receiptAt_encode h⟩

/-- Bridge receipts have one format on both sides. With fewer than `2 ^ 32` actions
a receipt is encoded and decodes to itself; whatever the gateway's decoder accepts
re-encodes to the same string; the contract's decoder accepts exactly the same
strings with the same header fields; and the checkpoint the contract reads for an
action is that action's state. -/
theorem bridge_receipts_agree :
    (∀ v : BridgeTransitionPublicValuesV2, v.actions.length < 2 ^ 32 →
      ∃ encoded, v.encode = .ok encoded ∧
        BridgeTransitionPublicValuesV2.decode encoded = .ok v) ∧
    ∀ input : Bytes,
      (∀ v, BridgeTransitionPublicValuesV2.decode input = .ok v → v.encode = .ok input) ∧
      ((∃ decoded, decodeBridgePublicValues input = .ok decoded) ↔
        ∃ v, BridgeTransitionPublicValuesV2.decode input = .ok v) ∧
      ∀ decoded v, decodeBridgePublicValues input = .ok decoded →
        BridgeTransitionPublicValuesV2.decode input = .ok v →
        decoded = v.decoded ∧
        ∀ (i : ℕ) (hi : i < v.actions.length),
          readActionState input i = (v.actions.get ⟨i, hi⟩).stateAfter := by
  refine ⟨?_, ?_⟩
  · intro v hcount
    have hencode : ∃ encoded, v.encode = .ok encoded := by
      rw [BridgeTransitionPublicValuesV2.encode]
      simp only [require_bind_eq_ok, pure_eq_ok]
      exact ⟨_, hcount, rfl⟩
    obtain ⟨encoded, hencode⟩ := hencode
    exact ⟨encoded, hencode, decode_iff.mpr hencode⟩
  · intro input
    refine ⟨fun v h => decode_iff.mp h, ⟨?_, ?_⟩, ?_⟩
    · rintro ⟨decoded, h⟩
      exact ⟨_, decode_eq_ok.mpr ⟨(decodeBridgePublicValues_eq_ok.mp h).1, rfl⟩⟩
    · rintro ⟨v, h⟩
      exact ⟨_, decodeBridgePublicValues_eq_ok.mpr ⟨(decode_eq_ok.mp h).1, rfl⟩⟩
    · intro decoded v hdecoded hv
      have hencode := decode_iff.mp hv
      have hread := decodeBridgePublicValues_encode hencode
      rw [hdecoded] at hread
      exact ⟨Except.ok.inj hread, fun i hi => readActionState_encode hencode i hi⟩

/-- The format at a concrete receipt with one action. -/
theorem bridge_receipts_agree_one :
    ∃ encoded, (⟨1, 2, 3, 4, 5, 6, 7, 8, [⟨fun _ => 9, 10⟩]⟩ :
        BridgeTransitionPublicValuesV2).encode = .ok encoded ∧
      BridgeTransitionPublicValuesV2.decode encoded =
        .ok ⟨1, 2, 3, 4, 5, 6, 7, 8, [⟨fun _ => 9, 10⟩]⟩ ∧
      (∃ decoded, decodeBridgePublicValues encoded = .ok decoded) ∧
      readActionState encoded 0 = 10 := by
  obtain ⟨hencode, hinput⟩ := bridge_receipts_agree
  obtain ⟨encoded, hencoded, hdecode⟩ :=
    hencode ⟨1, 2, 3, 4, 5, 6, 7, 8, [⟨fun _ => 9, 10⟩]⟩ (by decide)
  obtain ⟨-, haccepted, hfields⟩ := hinput encoded
  obtain ⟨decoded, hdecoded⟩ := haccepted.mpr ⟨_, hdecode⟩
  have hstate := (hfields decoded _ hdecoded hdecode).2 0 (by decide)
  exact ⟨encoded, hencoded, hdecode, ⟨decoded, hdecoded⟩, hstate⟩

end EthereumSettlement.BridgeDecoder
