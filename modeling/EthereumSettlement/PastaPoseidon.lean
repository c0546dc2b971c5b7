import Mathlib.Data.List.GetD
import Mathlib.Data.ZMod.Basic
import EthereumSettlement.ByteWords
import EthereumSettlement.CheckedCalls

/-!
# Pasta field encodings and the prefixed Poseidon hash

Both guest programs read Mina field elements from canonical 32-byte strings and
hash them with Mina's prefixed Poseidon sponge. The block cipher itself and
Keccak-256 are parameters; everything around them, including the treatment of
odd and empty inputs, follows the programs.
-/

namespace EthereumSettlement.PastaPoseidon

open ByteWords CheckedCalls

/-- Order of the Pasta base field that Mina state lives in (`Fp`, Tick). -/
def fieldOrder : ℕ := 0x40000000000000000000000000000000224698fc094cf91b992d30ed00000001

/-- Order of the other Pasta field (`Fq`, Tock). -/
def wrapFieldOrder : ℕ := 0x40000000000000000000000000000000224698fc0994a8dd8c46eb2100000001

instance : NeZero fieldOrder := ⟨by decide⟩

instance : NeZero wrapFieldOrder := ⟨by decide⟩

/-- Step-proof field. -/
abbrev StepField := ZMod fieldOrder

/-- Wrap-proof field. -/
abbrev WrapField := ZMod wrapFieldOrder

/-- A 32-byte string, also an EVM word. -/
abbrev Bytes32 := BitVec 256

/-- A twenty-byte Ethereum address. -/
abbrev Address := BitVec 160

/-- The three-element Poseidon state. -/
structure SpongeState where
  /-- First rate element, also the squeezed output. -/
  first : StepField
  /-- Second rate element. -/
  second : StepField
  /-- Capacity element. -/
  capacity : StepField
  deriving DecidableEq

/-- The two hash primitives the programs call. -/
structure Hashes where
  /-- Keccak-256 of a byte string. -/
  keccak256 : Bytes → Bytes32
  /-- Mina's Poseidon permutation over the step field. -/
  poseidonBlockCipher : SpongeState → SpongeState

variable (H : Hashes)

/-- Absorb the input two elements at a time; a last single element is added to
the first rate element only. -/
def absorbChunks : SpongeState → List StepField → SpongeState
  | state, [] => state
  | state, [a] => H.poseidonBlockCipher ⟨state.first + a, state.second, state.capacity⟩
  | state, a :: b :: rest =>
    absorbChunks (H.poseidonBlockCipher ⟨state.first + a, state.second + b, state.capacity⟩) rest

/-- `poseidon_update`: an empty input still costs one permutation. -/
def poseidonUpdate (state : SpongeState) (input : List StepField) : SpongeState :=
  if input = [] then H.poseidonBlockCipher state else absorbChunks H state input

/-- `prefix_to_field`: the little-endian value of a domain text. Every domain
text of the programs is shorter than 32 bytes. -/
def prefixToField (domain : String) : StepField :=
  (bigEndianValue (asciiBytes domain).reverse : ℕ)

/-- The sponge state after a domain text. -/
def prefixState (domain : String) : SpongeState :=
  poseidonUpdate H ⟨0, 0, 0⟩ [prefixToField domain]

/-- `hash_with_prefix`. -/
def hashWithPrefix (domain : String) (input : List StepField) : StepField :=
  (poseidonUpdate H (prefixState H domain) input).first

/-- `empty_hash_with_prefix`. -/
def emptyHashWithPrefix (domain : String) : StepField := (prefixState H domain).first

/-- `field_to_bytes`: the big-endian integer of a field element. -/
def fieldToBytes (value : StepField) : Bytes32 := BitVec.ofNat 256 value.val

/-- `field_from_bytes`: only canonical encodings are accepted. -/
def fieldFromBytes (bytes : Bytes32) : Except String StepField := do
  require (fieldToBytes (bytes.toNat : StepField) = bytes) "non-canonical Mina field"
  pure (bytes.toNat : StepField)

/-- Every field element fits in thirty-two bytes. -/
theorem val_lt_word (value : StepField) : value.val < 2 ^ 256 :=
  lt_trans (ZMod.val_lt value) (by decide)

/-- The encoding of a field element denotes its integer. -/
@[simp] theorem fieldToBytes_toNat (value : StepField) : (fieldToBytes value).toNat = value.val := by
  rw [fieldToBytes, BitVec.toNat_ofNat, Nat.mod_eq_of_lt (val_lt_word value)]

/-- Field elements are determined by their encodings. -/
theorem fieldToBytes_injective {a b : StepField} (h : fieldToBytes a = fieldToBytes b) : a = b := by
  apply ZMod.val_injective
  rw [← fieldToBytes_toNat, h, fieldToBytes_toNat]

/-- Reading returns exactly the element with that encoding. -/
theorem fieldFromBytes_eq_ok {bytes : Bytes32} {value : StepField} :
    fieldFromBytes bytes = .ok value ↔ fieldToBytes value = bytes := by
  unfold fieldFromBytes
  rw [require_bind_eq_ok, pure_eq_ok]
  constructor
  · rintro ⟨hc, rfl⟩
    exact hc
  · rintro rfl
    rw [fieldToBytes_toNat, ZMod.natCast_zmod_val]
    exact ⟨rfl, rfl⟩

/-- An encoded field element is always read back. -/
@[simp] theorem fieldFromBytes_fieldToBytes (value : StepField) :
    fieldFromBytes (fieldToBytes value) = .ok value := fieldFromBytes_eq_ok.mpr rfl

/-- A zero behind field elements is what is read there anyway. -/
theorem getD_concat_zero (elements : List StepField) (i : ℕ) :
    (elements ++ [0]).getD i 0 = elements.getD i 0 := by
  by_cases hlt : i < elements.length
  · rw [List.getD_append _ _ _ _ hlt]
  · have hpast : elements.length ≤ i := Nat.le_of_not_lt hlt
    rw [List.getD_eq_default elements _ hpast, List.getD_append_right _ _ _ _ hpast]
    by_cases hnext : i - elements.length = 0
    · rw [hnext]
      rfl
    · rw [List.getD_eq_default _ _ (by rw [List.length_singleton]; omega)]

/-- A list is read exactly as the elements that it encodes. -/
theorem mapM_fieldFromBytes_eq_ok {words : List Bytes32} {values : List StepField} :
    words.mapM fieldFromBytes = .ok values ↔ values.map fieldToBytes = words := by
  rw [mapM_eq_ok, ← List.forall₂_eq_eq_eq, List.forall₂_map_left_iff]
  constructor
  · intro h
    exact List.Forall₂.flip (h.imp fun _ _ hword => fieldFromBytes_eq_ok.mp hword)
  · intro h
    exact List.Forall₂.flip (h.imp fun _ _ hword => fieldFromBytes_eq_ok.mpr hword)

/-- A list of encoded elements is always read back. -/
theorem mapM_fieldToBytes (values : List StepField) :
    (values.map fieldToBytes).mapM fieldFromBytes = .ok values :=
  mapM_fieldFromBytes_eq_ok.mpr rfl

/-- A thirty-two-byte string is canonical when it encodes a field element. -/
def Canonical (bytes : Bytes32) : Prop := ∃ value, fieldToBytes value = bytes

/-- Canonical strings are those below the field order. -/
theorem canonical_iff_lt {bytes : Bytes32} : Canonical bytes ↔ bytes.toNat < fieldOrder := by
  constructor
  · rintro ⟨value, rfl⟩
    rw [fieldToBytes_toNat]
    exact ZMod.val_lt value
  · intro h
    refine ⟨(bytes.toNat : StepField), ?_⟩
    apply BitVec.eq_of_toNat_eq
    rw [fieldToBytes_toNat, ZMod.val_natCast, Nat.mod_eq_of_lt h]

/-- Reading succeeds exactly on canonical strings. -/
theorem fieldFromBytes_isOk {bytes : Bytes32} :
    (∃ value, fieldFromBytes bytes = .ok value) ↔ Canonical bytes := by
  simp only [fieldFromBytes_eq_ok, Canonical]

end EthereumSettlement.PastaPoseidon
