import EthereumSettlement.HexTexts
import EthereumSettlement.RadixConversion
import EthereumSettlement.ReferenceHashes

/-!
# Addresses in Base58Check

A packed Zeko address is the horizontal coordinate of a public key with the parity in
the top bit. The explorer shows it as Mina's Base58Check text of a version, the
little-endian coordinate, the parity and the first four bytes of a double SHA-256
digest. The digest is a parameter. The Base58 functions are inverse on all inputs, and
so are the Base58Check functions. The reader of an address never looks at the top bit
of the coordinate, where the parity goes: an address with that bit set is accepted, and
its packed value is shown as another address.
-/

namespace EthereumSettlement.Base58Addresses

open ByteWords CheckedCalls FixedBytesText HexTexts PastaPoseidon RadixConversion

/-- The `ALPHABET`. -/
def alphabet : Bytes := asciiBytes "123456789ABCDEFGHJKLMNPQRSTUVWXYZabcdefghijkmnopqrstuvwxyz"

/-- The character of a digit. -/
def alphabetChar (digit : ℕ) : Char := Char.ofNat (alphabet.getD digit 0).toNat

/-- `base58_encode`. -/
def base58Encode (value : Bytes) : List Char :=
  let leadingZeroes := (value.takeWhile fun byte => byte = 0).length
  let digits := value.foldl (fun digits byte => accumulate 58 256 digits byte.toNat) []
  List.replicate leadingZeroes '1' ++ digits.reverse.map alphabetChar

/-- The digit of a byte of the text. -/
def alphabetPosition (character : Byte) : Except String ℕ :=
  context (alphabet.idxOf? character) "invalid Base58 character"

/-- The body of the loop over the text. -/
def decodeCharacter (bytes : List ℕ) (character : Byte) : Except String (List ℕ) := do
  let carry ← alphabetPosition character
  pure (accumulate 256 58 bytes carry)

/-- `base58_decode`. -/
def base58Decode (value : List Char) : Except String Bytes := do
  let leadingZeroes := ((textBytes value).takeWhile fun byte => byte = 0x31).length
  let bytes ← (textBytes value).foldlM decodeCharacter []
  pure (List.replicate leadingZeroes 0 ++ bytes.reverse.map (BitVec.ofNat 8))

section

variable (sha256 : Bytes → Bytes32)

/-- `base58_checksum`. -/
def base58Checksum (value : Bytes) : Bytes := (bytesOf (sha256 (bytesOf (sha256 value)))).take 4

/-- `base58_check_encode`. -/
def base58CheckEncode (version : Byte) (payload : Bytes) : List Char :=
  base58Encode (version :: payload ++ base58Checksum sha256 (version :: payload))

/-- `base58_check_decode`. -/
def base58CheckDecode (value : List Char) : Except String (Byte × Bytes) := do
  let bytes ← base58Decode value
  require (5 ≤ bytes.length) "Base58Check value is too short"
  let body := bytes.take (bytes.length - 4)
  let checksum := bytes.drop (bytes.length - 4)
  require (checksum = base58Checksum sha256 body) "invalid Base58Check checksum"
  pure (body.headD 0, body.drop 1)

/-- `MINA_PUBLIC_KEY_VERSION`. -/
def minaPublicKeyVersion : Byte := 203

/-- `MINA_PUBLIC_KEY_PAYLOAD_LEN`. -/
def minaPublicKeyPayloadLen : ℕ := 35

/-- Whether the top bit of big-endian bytes is set. -/
def topBit (bytes : Bytes) : Bool := bytes.headD 0 &&& 0x80 ≠ 0

/-- The bytes of a packed address. -/
def packedBytes [HexCrate] (packed : List Char) : Except String Bytes := do
  let value ← context (stripPrefix ['0', 'x'] packed) "packed Zeko address must start with 0x"
  let bytes ← context (HexCrate.decode (textBytes value)).toOption "decode packed Zeko address"
  require (bytes.length = 32) "packed Zeko address must be 32 bytes"
  pure bytes

/-- The payload of a public key. -/
def publicKeyPayload (coordinate : Bytes) (isOdd : Bool) : Bytes :=
  [1, 1] ++ coordinate ++ [if isOdd then 1 else 0]

/-- `packed_zeko_address_to_base58`. -/
def packedZekoAddressToBase58 [HexCrate] (packed : List Char) : Except String (List Char) := do
  let bytes ← packedBytes packed
  let isOdd := topBit bytes
  let bytes := bytes.modifyHead (· &&& 0x7f)
  pure (base58CheckEncode sha256 minaPublicKeyVersion (publicKeyPayload bytes.reverse isOdd))

/-- The text of packed bytes. -/
def packedText [HexCrate] (bytes : Bytes) : List Char := ['0', 'x'] ++ HexCrate.encode bytes

/-- The packed bytes of a coordinate and a parity. -/
def packBytes (coordinate : Bytes) (isOdd : Bool) : Bytes :=
  if isOdd then coordinate.reverse.modifyHead (· ||| 0x80) else coordinate.reverse

/-- `packed_zeko_address_from_base58`. -/
def packedZekoAddressFromBase58 [HexCrate] (address : List Char) : Except String (List Char) := do
  let decoded ← base58CheckDecode sha256 address
  let payload := decoded.2
  require (decoded.1 = minaPublicKeyVersion) "unexpected Mina public-key version"
  require (payload.length = minaPublicKeyPayloadLen) "unexpected Mina public-key payload length"
  require (payload.take 2 = [1, 1]) "unexpected Mina public-key encoding"
  require (payload.getD 34 0 = 0 ∨ payload.getD 34 0 = 1) "invalid public-key parity"
  pure (packedText (packBytes ((payload.drop 2).take 32) (payload.getD 34 0 = 1)))

/-- The address text of a coordinate and a parity. -/
def addressOf (coordinate : FixedBytes 32) (isOdd : Bool) : List Char :=
  base58CheckEncode sha256 minaPublicKeyVersion (publicKeyPayload coordinate.toList isOdd)

end

/-- The characters of the digits are ASCII, and each is read as its digit. -/
theorem alphabetPosition_char {digit : ℕ} (h : digit < 58) :
    (alphabetChar digit).toNat < 128 ∧
      alphabetPosition (BitVec.ofNat 8 (alphabetChar digit).toNat) = .ok digit := by
  have hall : ∀ digit < 58, (alphabetChar digit).toNat < 128 ∧
      alphabetPosition (BitVec.ofNat 8 (alphabetChar digit).toNat) = .ok digit := by
    decide +kernel
  exact hall digit h

/-- Only the characters of the digits are read, and only the first is a zero. -/
theorem alphabetPosition_eq_ok {character : Byte} {digit : ℕ}
    (h : alphabetPosition character = .ok digit) :
    digit < 58 ∧ character.toNat < 128 ∧ alphabetChar digit = Char.ofNat character.toNat ∧
      (character = 0x31 ↔ digit = 0) := by
  have hall : ∀ n < 256, ∀ digit ∈ (alphabetPosition (BitVec.ofNat 8 n)).toOption,
      digit < 58 ∧ n < 128 ∧ alphabetChar digit = Char.ofNat n ∧
        (BitVec.ofNat 8 n = 0x31 ↔ digit = 0) := by
    decide +kernel
  have hbyte := hall character.toNat character.isLt digit
  rw [BitVec.ofNat_toNat, BitVec.setWidth_eq] at hbyte
  exact hbyte (mem_toOption.mpr h)

/-- An ASCII character is read as a digit exactly when it is that digit's. -/
theorem alphabetPosition_ascii {c : Char} (hascii : c.toNat < 128) (digit : ℕ) :
    alphabetPosition (BitVec.ofNat 8 c.toNat) = .ok digit ↔ digit < 58 ∧ c = alphabetChar digit := by
  constructor
  · intro h
    have hchar := alphabetPosition_eq_ok h
    have hbyte : (BitVec.ofNat 8 c.toNat).toNat = c.toNat := by
      rw [BitVec.toNat_ofNat]
      omega
    rw [hbyte, Char.ofNat_toNat] at hchar
    exact ⟨hchar.1, hchar.2.2.1.symm⟩
  · intro h
    rw [h.2]
    exact (alphabetPosition_char h.1).2

/-- The bytes of an ASCII text are read as digits exactly when it is their text. -/
theorem mapM_ascii {text : List Char} (hascii : ∀ c ∈ text, c.toNat < 128) (digits : List ℕ) :
    (text.map fun c => BitVec.ofNat 8 c.toNat).mapM alphabetPosition = .ok digits ↔
      (∀ digit ∈ digits, digit < 58) ∧ text = digits.map alphabetChar := by
  rw [mapM_eq_ok, List.forall₂_map_left_iff]
  induction text generalizing digits with
  | nil =>
    rw [List.forall₂_nil_left_iff]
    constructor
    · intro h
      rw [h]
      exact ⟨fun digit hdigit => absurd hdigit List.not_mem_nil, rfl⟩
    · intro h
      exact List.map_eq_nil_iff.mp h.2.symm
  | cons c text ih =>
    have htext := ih fun other hother => hascii other (List.mem_cons_of_mem _ hother)
    cases digits with
    | nil => simp only [List.forall₂_nil_right_iff, List.map_nil, reduceCtorEq, and_false]
    | cons digit digits =>
      rw [List.forall₂_cons, htext, alphabetPosition_ascii (hascii c List.mem_cons_self),
        List.map_cons, List.cons.injEq, List.forall_mem_cons]
      exact and_and_and_comm

/-- The texts whose bytes are all digits are the texts of digits. -/
theorem mapM_alphabetPosition {text : List Char} {digits : List ℕ} :
    (textBytes text).mapM alphabetPosition = .ok digits ↔
      (∀ digit ∈ digits, digit < 58) ∧ text = digits.map alphabetChar := by
  by_cases hascii : ∀ c ∈ text, c.toNat < 128
  · rw [textBytes_ascii hascii, mapM_ascii hascii]
  · constructor
    · intro h
      have hbytes : (textBytes text).all (fun b => b.toNat < 128) = true := by
        rw [List.all_eq_true]
        intro b hb
        have hread := mapM_eq_ok.mp h
        obtain ⟨i, hi, hget⟩ := List.mem_iff_getElem.mp hb
        have hpair := hread.get hi (hread.length_eq ▸ hi)
        rw [List.get_eq_getElem, hget] at hpair
        exact decide_eq_true (alphabetPosition_eq_ok hpair).2.1
      have hkind : ∀ b : Byte, decide (b.toNat < 128) = true → b.toNat < 128 := by
        intro b
        exact of_decide_eq_true
      exact absurd (fun c hc => ((textBytes_all hkind text).mp hbytes c hc).1) hascii
    · intro h
      refine absurd (fun c hc => ?_) hascii
      rw [h.2] at hc
      obtain ⟨digit, hdigit, hchar⟩ := List.mem_map.mp hc
      rw [← hchar]
      exact (alphabetPosition_char (h.1 digit hdigit)).1

/-- The loop over the text is the reading of its digits and the conversion of them. -/
theorem foldlM_decodeCharacter (characters : Bytes) (bytes : List ℕ) :
    characters.foldlM decodeCharacter bytes =
      (characters.mapM alphabetPosition).map fun digits => digits.foldl (accumulate 256 58) bytes := by
  induction characters generalizing bytes with
  | nil => rfl
  | cons character characters ih =>
    rw [List.foldlM_cons, List.mapM_cons, decodeCharacter]
    cases hposition : alphabetPosition character with
    | error error => rfl
    | ok digit =>
      change characters.foldlM decodeCharacter (accumulate 256 58 bytes digit) = _
      rw [ih]
      cases hrest : characters.mapM alphabetPosition with
      | error error => rfl
      | ok digits => rfl

/-- The leading ones of a text are the leading zeros of its digits. -/
theorem takeWhile_ones {characters : Bytes} {digits : List ℕ}
    (h : List.Forall₂ (fun character digit => alphabetPosition character = .ok digit) characters digits) :
    (characters.takeWhile fun byte => byte = 0x31).length = leadingZeroes digits := by
  induction h with
  | nil => rfl
  | @cons character digit characters digits hhead htail ih =>
    have hzero := (alphabetPosition_eq_ok hhead).2.2.2
    rw [leadingZeroes] at ih ⊢
    by_cases hdigit : digit = 0
    · rw [List.takeWhile_cons_of_pos (by simpa using hzero.mpr hdigit),
        List.takeWhile_cons_of_pos (by simpa using hdigit), List.length_cons, List.length_cons, ih]
    · rw [List.takeWhile_cons_of_neg (by simpa using mt hzero.mp hdigit),
        List.takeWhile_cons_of_neg (by simpa using hdigit)]
      rfl

/-- A text is decoded exactly when it is a text of digits, which are converted. -/
theorem base58Decode_eq_ok {text : List Char} {bytes : Bytes} :
    base58Decode text = .ok bytes ↔ ∃ digits : List ℕ, (∀ digit ∈ digits, digit < 58) ∧
      text = digits.map alphabetChar ∧ bytes = (convert 58 256 digits).map (BitVec.ofNat 8) := by
  have hconvert : ∀ digits : List ℕ, (textBytes text).mapM alphabetPosition = .ok digits →
      List.replicate ((textBytes text).takeWhile fun byte => byte = 0x31).length 0 ++
        (digits.foldl (accumulate 256 58) []).reverse.map (BitVec.ofNat 8) =
      (convert 58 256 digits).map (BitVec.ofNat 8) := by
    intro digits h
    rw [convert, takeWhile_ones (mapM_eq_ok.mp h), List.map_append, List.map_replicate]
    rfl
  rw [base58Decode, foldlM_decodeCharacter]
  constructor
  · intro h
    cases hread : (textBytes text).mapM alphabetPosition with
    | error error =>
      rw [hread] at h
      cases h
    | ok digits =>
      rw [hread] at h
      have hbytes := pure_eq_ok.mp h
      rw [hconvert digits hread] at hbytes
      have htext := mapM_alphabetPosition.mp hread
      exact ⟨digits, htext.1, htext.2, hbytes.symm⟩
  · intro h
    obtain ⟨digits, hdigits, htext, hbytes⟩ := h
    have hread := mapM_alphabetPosition.mpr ⟨hdigits, htext⟩
    rw [hread, hbytes, ← hconvert digits hread]
    rfl

/-- The text of bytes is that of their digits. -/
theorem base58Encode_eq (bytes : Bytes) :
    base58Encode bytes = (convert 256 58 (bytes.map BitVec.toNat)).map alphabetChar := by
  have hzeroes : (bytes.takeWhile fun byte => byte = 0).length =
      leadingZeroes (bytes.map BitVec.toNat) := by
    have hsame : (fun digit : ℕ => decide (digit = 0)) ∘ BitVec.toNat =
        fun byte : Byte => decide (byte = 0) := by
      funext byte
      have hiff : byte.toNat = 0 ↔ byte = 0 := BitVec.toNat_inj (y := 0)
      simp only [Function.comp_apply, hiff]
    rw [leadingZeroes, List.takeWhile_map, List.length_map, hsame]
  have hone : alphabetChar 0 = '1' := by decide
  rw [base58Encode, convert, List.map_append, List.map_replicate, hone, hzeroes, List.foldl_map]

/-- The digits of bytes are below 256. -/
theorem toNat_lt_of_mem {bytes : Bytes} {digit : ℕ} (h : digit ∈ bytes.map BitVec.toNat) :
    digit < 256 := by
  obtain ⟨byte, -, hbyte⟩ := List.mem_map.mp h
  have hlt := byte.isLt
  omega

/-- The bytes of the digits of bytes. -/
theorem map_ofNat_toNat (bytes : Bytes) : (bytes.map BitVec.toNat).map (BitVec.ofNat 8) = bytes := by
  induction bytes with
  | nil => rfl
  | cons byte bytes ih => rw [List.map_cons, List.map_cons, ih, BitVec.ofNat_toNat, BitVec.setWidth_eq]

/-- The digits of the bytes of digits below 256. -/
theorem map_toNat_ofNat {digits : List ℕ} (h : ∀ digit ∈ digits, digit < 256) :
    (digits.map (BitVec.ofNat 8)).map BitVec.toNat = digits := by
  induction digits with
  | nil => rfl
  | cons digit digits ih =>
    have hrest := ih fun other hother => h other (List.mem_cons_of_mem _ hother)
    have hdigit := h digit List.mem_cons_self
    rw [List.map_cons, List.map_cons, hrest, BitVec.toNat_ofNat]
    congr 1
    omega

/-- What is encoded is decoded. -/
theorem base58Decode_base58Encode (bytes : Bytes) : base58Decode (base58Encode bytes) = .ok bytes := by
  have hdigits : ∀ digit ∈ bytes.map BitVec.toNat, digit < 256 := fun digit => toNat_lt_of_mem
  have hback : convert 58 256 (convert 256 58 (bytes.map BitVec.toNat)) = bytes.map BitVec.toNat :=
    convert_convert (by omega) (by omega) hdigits
  rw [base58Decode_eq_ok]
  refine ⟨convert 256 58 (bytes.map BitVec.toNat), ?_, base58Encode_eq bytes, ?_⟩
  · intro digit hdigit
    exact convert_lt (by omega) (by omega) hdigit
  · rw [hback, map_ofNat_toNat]

/-- What is decoded is encoded again. -/
theorem base58Encode_of_decode {text : List Char} {bytes : Bytes} (h : base58Decode text = .ok bytes) :
    base58Encode bytes = text := by
  obtain ⟨digits, hdigits, htext, hbytes⟩ := base58Decode_eq_ok.mp h
  have hlt : ∀ digit ∈ convert 58 256 digits, digit < 256 := by
    intro digit hdigit
    exact convert_lt (by omega) (by omega) hdigit
  have hback : convert 256 58 (convert 58 256 digits) = digits :=
    convert_convert (by omega) (by omega) hdigits
  rw [base58Encode_eq, hbytes, map_toNat_ofNat hlt, hback, htext]

section

variable (sha256 : Bytes → Bytes32)

/-- A checksum has four bytes. -/
@[simp] theorem base58Checksum_length (value : Bytes) : (base58Checksum sha256 value).length = 4 := by
  rw [base58Checksum, List.length_take, bytesOf_length]
  rfl

/-- A text is decoded exactly when it is the text of what is decoded. -/
theorem base58CheckDecode_eq_ok {text : List Char} {version : Byte} {payload : Bytes} :
    base58CheckDecode sha256 text = .ok (version, payload) ↔
      text = base58CheckEncode sha256 version payload := by
  have hchecksum := base58Checksum_length sha256
  constructor
  · intro h
    obtain ⟨bytes, hdecode, h⟩ := bind_eq_ok.mp h
    rw [require_bind_eq_ok, require_bind_eq_ok, pure_eq_ok, Prod.mk.injEq] at h
    obtain ⟨hlength, hsum, hversion, hpayload⟩ := h
    have hbody : version :: payload = bytes.take (bytes.length - 4) := by
      cases htake : bytes.take (bytes.length - 4) with
      | nil =>
        have hcount := congrArg List.length htake
        rw [List.length_take, List.length_nil] at hcount
        omega
      | cons first rest =>
        rw [← hversion, ← hpayload, htake]
        rfl
    have hbytes : version :: payload ++ base58Checksum sha256 (version :: payload) = bytes := by
      rw [hbody, ← hsum, List.take_append_drop]
    rw [base58CheckEncode, hbytes, base58Encode_of_decode hdecode]
  · intro h
    have hdecode := base58Decode_base58Encode
      (version :: payload ++ base58Checksum sha256 (version :: payload))
    have hlength : (version :: payload ++ base58Checksum sha256 (version :: payload)).length =
        (version :: payload).length + 4 := by
      rw [List.length_append, hchecksum]
    rw [h, base58CheckEncode, base58CheckDecode, hdecode]
    refine require_bind_eq_ok.mpr ⟨?_, require_bind_eq_ok.mpr ⟨?_, ?_⟩⟩
    · rw [hlength, List.length_cons]
      omega
    · rw [hlength, Nat.add_sub_cancel, List.drop_left, List.take_left]
    · rw [hlength, Nat.add_sub_cancel, List.take_left]
      rfl

/-- Clearing, setting and flipping the top bit of a byte. -/
theorem topBit_byte (byte : Byte) :
    ((byte &&& 0x7f) &&& 0x80 = 0 ∧ (byte ||| 0x80) &&& 0x80 ≠ 0) ∧
      (byte &&& 0x80 = 0 → byte &&& 0x7f = byte ∧ (byte ||| 0x80) &&& 0x7f = byte) ∧
      (byte &&& 0x80 ≠ 0 → (byte &&& 0x7f) ||| 0x80 = byte ∧ byte ||| 0x80 = byte) ∧
      (byte ^^^ 0x80) ||| 0x80 = byte ||| 0x80 ∧ byte ^^^ 0x80 ≠ byte := by
  have hall : ∀ n < 256, ((BitVec.ofNat 8 n &&& 0x7f) &&& 0x80 = 0 ∧
      (BitVec.ofNat 8 n ||| 0x80) &&& 0x80 ≠ 0) ∧
      (BitVec.ofNat 8 n &&& 0x80 = 0 → BitVec.ofNat 8 n &&& 0x7f = BitVec.ofNat 8 n ∧
        (BitVec.ofNat 8 n ||| 0x80) &&& 0x7f = BitVec.ofNat 8 n) ∧
      (BitVec.ofNat 8 n &&& 0x80 ≠ 0 → (BitVec.ofNat 8 n &&& 0x7f) ||| 0x80 = BitVec.ofNat 8 n ∧
        BitVec.ofNat 8 n ||| 0x80 = BitVec.ofNat 8 n) ∧
      (BitVec.ofNat 8 n ^^^ 0x80) ||| 0x80 = BitVec.ofNat 8 n ||| 0x80 ∧
        BitVec.ofNat 8 n ^^^ 0x80 ≠ BitVec.ofNat 8 n := by
    decide +kernel
  have hbyte := hall byte.toNat byte.isLt
  rwa [BitVec.ofNat_toNat, BitVec.setWidth_eq] at hbyte

/-- The bytes of a packed address. -/
theorem packedBytes_eq_ok [HexCrate] {text : List Char} {bytes : Bytes} :
    packedBytes text = .ok bytes ↔ ∃ value, stripPrefix ['0', 'x'] text = some value ∧
      HexCrate.decode (textBytes value) = .ok bytes ∧ bytes.length = 32 := by
  constructor
  · intro h
    obtain ⟨value, hvalue, h⟩ := bind_eq_ok.mp h
    obtain ⟨decoded, hdecoded, h⟩ := bind_eq_ok.mp h
    rw [require_bind_eq_ok, pure_eq_ok] at h
    have hbytes := mem_toOption.mp (context_eq_ok.mp hdecoded)
    exact ⟨value, context_eq_ok.mp hvalue, h.2 ▸ hbytes, h.2 ▸ h.1⟩
  · intro h
    obtain ⟨value, hvalue, hdecoded, hlength⟩ := h
    have hsome := mem_toOption.mpr hdecoded
    exact bind_eq_ok.mpr ⟨value, context_eq_ok.mpr hvalue,
      bind_eq_ok.mpr ⟨bytes, context_eq_ok.mpr hsome, require_bind_eq_ok.mpr ⟨hlength, rfl⟩⟩⟩

/-- Thirty-two bytes are read from their text. -/
theorem packedBytes_packedText [HexCrate] {bytes : Bytes} (h : bytes.length = 32) :
    packedBytes (packedText bytes) = .ok bytes :=
  packedBytes_eq_ok.mpr ⟨HexCrate.encode bytes, rfl, decode_encode bytes, h⟩

/-- The address of a packed value. -/
theorem toBase58_of_packedBytes [HexCrate] {text : List Char} {bytes : Bytes}
    (h : packedBytes text = .ok bytes) :
    packedZekoAddressToBase58 sha256 text = .ok (base58CheckEncode sha256 minaPublicKeyVersion
      (publicKeyPayload (bytes.modifyHead (· &&& 0x7f)).reverse (topBit bytes))) := by
  rw [packedZekoAddressToBase58, h]
  rfl

/-- The parity byte of a payload. -/
theorem publicKeyPayload_getD (coordinate : FixedBytes 32) (isOdd : Bool) :
    (publicKeyPayload coordinate.toList isOdd).getD 34 0 = if isOdd then 1 else 0 := by
  have hlength := coordinate.toList_length
  rw [publicKeyPayload, List.getD_append_right, List.length_append, hlength]
  · rfl
  · rw [List.length_append, hlength]
    decide

/-- The coordinate of a payload. -/
theorem publicKeyPayload_coordinate (coordinate : FixedBytes 32) (isOdd : Bool) :
    ((publicKeyPayload coordinate.toList isOdd).drop 2).take 32 = coordinate.toList := by
  have hlength := coordinate.toList_length
  have hmarker : ([1, 1] : Bytes).length = 2 := rfl
  rw [publicKeyPayload, List.append_assoc, List.drop_left' hmarker, List.take_left' hlength]

/-- The payloads that are accepted are those of a coordinate and a parity. -/
theorem payload_iff (payload : Bytes) :
    (payload.length = minaPublicKeyPayloadLen ∧ payload.take 2 = [1, 1] ∧
      (payload.getD 34 0 = 0 ∨ payload.getD 34 0 = 1)) ↔
    ∃ (coordinate : FixedBytes 32) (isOdd : Bool), payload = publicKeyPayload coordinate.toList isOdd := by
  constructor
  · intro h
    obtain ⟨hlength, hmarker, hparity⟩ := h
    rw [minaPublicKeyPayloadLen] at hlength
    have hcoordinate : ((payload.drop 2).take 32).length = 32 := by
      rw [List.length_take, List.length_drop]
      omega
    have hlast : payload.drop 34 = [payload.getD 34 0] := by
      have hbound : 34 < payload.length := by omega
      rw [List.drop_eq_getElem_cons hbound, List.drop_eq_nil_of_le (by omega),
        List.getD_eq_getElem _ _ hbound]
    have hsplit : payload = payload.take 2 ++ ((payload.drop 2).take 32 ++ payload.drop 34) := by
      have hrest : (payload.drop 2).drop 32 = payload.drop 34 := List.drop_drop
      rw [← hrest, List.take_append_drop, List.take_append_drop]
    have hbyte : payload.getD 34 0 = if decide (payload.getD 34 0 = 1) then 1 else 0 := by
      rcases hparity with hzero | hone
      · rw [hzero]
        rfl
      · rw [hone]
        rfl
    refine ⟨⟨(payload.drop 2).take 32, hcoordinate⟩, payload.getD 34 0 = 1, ?_⟩
    rw [publicKeyPayload, ← hbyte, ← hlast, List.append_assoc, ← hmarker]
    exact hsplit
  · intro h
    obtain ⟨coordinate, isOdd, hpayload⟩ := h
    have hlength := coordinate.toList_length
    rw [hpayload, publicKeyPayload_getD]
    refine ⟨?_, ?_, ?_⟩
    · rw [publicKeyPayload, List.length_append, List.length_append, hlength]
      rfl
    · have hmarker : ([1, 1] : Bytes).length = 2 := rfl
      rw [publicKeyPayload, List.append_assoc, List.take_left' hmarker]
    · cases isOdd
      · exact Or.inl rfl
      · exact Or.inr rfl

/-- The addresses that are accepted. -/
theorem fromBase58_eq_ok [HexCrate] {address packed : List Char} :
    packedZekoAddressFromBase58 sha256 address = .ok packed ↔
      ∃ (coordinate : FixedBytes 32) (isOdd : Bool), address = addressOf sha256 coordinate isOdd ∧
        packed = packedText (packBytes coordinate.toList isOdd) := by
  constructor
  · intro h
    obtain ⟨decoded, hdecoded, h⟩ := bind_eq_ok.mp h
    obtain ⟨version, payload⟩ := decoded
    simp only [require_bind_eq_ok, pure_eq_ok] at h
    obtain ⟨hversion, hlength, hmarker, hparity, hpacked⟩ := h
    obtain ⟨coordinate, isOdd, hpayload⟩ := (payload_iff payload).mp ⟨hlength, hmarker, hparity⟩
    have haddress := (base58CheckDecode_eq_ok sha256).mp hdecoded
    refine ⟨coordinate, isOdd, ?_, ?_⟩
    · rw [haddress, addressOf, hversion, hpayload]
    · have hodd : decide (payload.getD 34 0 = 1) = isOdd := by
        rw [hpayload, publicKeyPayload_getD]
        cases isOdd <;> rfl
      rw [← hpacked, hodd, hpayload, publicKeyPayload_coordinate]
  · intro h
    obtain ⟨coordinate, isOdd, haddress, hpacked⟩ := h
    have hdecoded := (base58CheckDecode_eq_ok sha256).mpr haddress
    obtain ⟨hlength, hmarker, hparity⟩ :=
      (payload_iff (publicKeyPayload coordinate.toList isOdd)).mpr ⟨coordinate, isOdd, rfl⟩
    have hodd : decide ((publicKeyPayload coordinate.toList isOdd).getD 34 0 = 1) = isOdd := by
      rw [publicKeyPayload_getD]
      cases isOdd <;> rfl
    refine bind_eq_ok.mpr ⟨_, hdecoded, ?_⟩
    simp only [require_bind_eq_ok, pure_eq_ok]
    refine ⟨trivial, hlength, hmarker, hparity, ?_⟩
    rw [hpacked, hodd, publicKeyPayload_coordinate]

/-- Texts of thirty-two bytes are equal only for equal bytes. -/
theorem packedText_injective [HexCrate] {first second : Bytes} (hfirst : first.length = 32)
    (hsecond : second.length = 32) (h : packedText first = packedText second) : first = second := by
  have hread := packedBytes_packedText hfirst
  rw [h, packedBytes_packedText hsecond] at hread
  exact (Except.ok.inj hread).symm

/-- Address texts are equal only for equal coordinates and parities. -/
theorem addressOf_injective {first second : FixedBytes 32} {firstOdd secondOdd : Bool}
    (h : addressOf sha256 first firstOdd = addressOf sha256 second secondOdd) :
    first.toList = second.toList ∧ firstOdd = secondOdd := by
  have hread := (base58CheckDecode_eq_ok sha256).mpr (rfl : addressOf sha256 first firstOdd = _)
  have hother := (base58CheckDecode_eq_ok sha256).mpr (rfl : addressOf sha256 second secondOdd = _)
  rw [h, hother] at hread
  have hpayload : publicKeyPayload second.toList secondOdd = publicKeyPayload first.toList firstOdd :=
    congrArg Prod.snd (Except.ok.inj hread)
  have hcoordinate := publicKeyPayload_coordinate second secondOdd
  rw [hpayload, publicKeyPayload_coordinate] at hcoordinate
  have hparity := publicKeyPayload_getD second secondOdd
  rw [hpayload, publicKeyPayload_getD] at hparity
  refine ⟨hcoordinate, ?_⟩
  cases firstOdd <;> cases secondOdd
  · rfl
  · exact absurd hparity (by decide)
  · exact absurd hparity (by decide)
  · rfl

/-- Packed bytes have the length of the coordinate. -/
theorem packBytes_length (coordinate : Bytes) (isOdd : Bool) :
    (packBytes coordinate isOdd).length = coordinate.length := by
  cases isOdd
  · exact List.length_reverse
  · rw [packBytes, if_pos rfl, List.length_modifyHead, List.length_reverse]

/-- A packed value is packed again from its coordinate and its parity. -/
theorem packBytes_unpacked (bytes : Bytes) :
    packBytes (bytes.modifyHead (· &&& 0x7f)).reverse (topBit bytes) = bytes := by
  cases bytes with
  | nil => rfl
  | cons head rest =>
    have hhead := topBit_byte head
    by_cases htop : head &&& 0x80 = 0
    · have hbit : topBit (head :: rest) = false := decide_eq_false (not_not_intro htop)
      rw [packBytes, hbit, List.reverse_reverse, List.modifyHead_cons, (hhead.2.1 htop).1]
      rfl
    · have hbit : topBit (head :: rest) = true := decide_eq_true htop
      rw [packBytes, hbit, List.reverse_reverse, if_pos rfl, List.modifyHead_cons,
        List.modifyHead_cons, (hhead.2.2.1 htop).1]

/-- A cleared bit is clear. -/
theorem topBit_cleared (bytes : Bytes) : topBit (bytes.modifyHead (· &&& 0x7f)) = false := by
  cases bytes with
  | nil => rfl
  | cons head rest => exact decide_eq_false (not_not_intro (topBit_byte head).1.1)

/-- A set bit is set. -/
theorem topBit_set {bytes : Bytes} (h : bytes ≠ []) :
    topBit (bytes.modifyHead (· ||| 0x80)) = true := by
  cases bytes with
  | nil => exact absurd rfl h
  | cons head rest => exact decide_eq_true (topBit_byte head).1.2

/-- A coordinate whose top bit is clear is read from its packed bytes, and so is its
parity. -/
theorem unpacked_packBytes {coordinate : Bytes} (isOdd : Bool) (hlength : coordinate.length = 32)
    (h : topBit coordinate.reverse = false) :
    topBit (packBytes coordinate isOdd) = isOdd ∧
      ((packBytes coordinate isOdd).modifyHead (· &&& 0x7f)).reverse = coordinate := by
  cases hbytes : coordinate.reverse with
  | nil =>
    have hcount := congrArg List.length hbytes
    rw [List.length_reverse, hlength] at hcount
    exact absurd hcount (by decide)
  | cons head rest =>
    have hhead := topBit_byte head
    have hclear : head &&& 0x80 = 0 := by
      rw [hbytes] at h
      exact not_not.mp (of_decide_eq_false h)
    have hcoordinate : coordinate = (head :: rest).reverse := by
      rw [← hbytes, List.reverse_reverse]
    rw [packBytes, hbytes, hcoordinate]
    cases isOdd with
    | false =>
      refine ⟨decide_eq_false (not_not_intro hclear), ?_⟩
      rw [if_neg Bool.false_ne_true, List.modifyHead_cons, (hhead.2.1 hclear).1]
    | true =>
      refine ⟨decide_eq_true hhead.1.2, ?_⟩
      rw [if_pos rfl, List.modifyHead_cons, List.modifyHead_cons, (hhead.2.1 hclear).2]

/-- An accepted address is shown again exactly when the top bit of its coordinate is
clear. -/
theorem toBase58_packBytes [HexCrate] (coordinate : FixedBytes 32) (isOdd : Bool) :
    packedZekoAddressToBase58 sha256 (packedText (packBytes coordinate.toList isOdd)) =
      .ok (addressOf sha256 coordinate isOdd) ↔ topBit coordinate.toList.reverse = false := by
  have hlength : (packBytes coordinate.toList isOdd).length = 32 := by
    rw [packBytes_length, coordinate.toList_length]
  have hcleared : (((packBytes coordinate.toList isOdd).modifyHead (· &&& 0x7f)).reverse).length = 32 := by
    rw [List.length_reverse, List.length_modifyHead, hlength]
  rw [toBase58_of_packedBytes sha256 (packedBytes_packedText hlength), Except.ok.injEq]
  constructor
  · intro h
    have hsame : addressOf sha256 ⟨_, hcleared⟩ (topBit (packBytes coordinate.toList isOdd)) =
        addressOf sha256 coordinate isOdd := h
    have hcoordinate : ((packBytes coordinate.toList isOdd).modifyHead (· &&& 0x7f)).reverse =
        coordinate.toList := (addressOf_injective sha256 hsame).1
    rw [← hcoordinate, List.reverse_reverse]
    exact topBit_cleared _
  · intro h
    obtain ⟨hparity, hcoordinate⟩ := unpacked_packBytes isOdd coordinate.toList_length h
    rw [hparity, hcoordinate, addressOf]

/-- The packed value of an address that is accepted. -/
theorem fromBase58_addressOf [HexCrate] (coordinate : FixedBytes 32) (isOdd : Bool) :
    packedZekoAddressFromBase58 sha256 (addressOf sha256 coordinate isOdd) =
      .ok (packedText (packBytes coordinate.toList isOdd)) :=
  (fromBase58_eq_ok sha256).mpr ⟨coordinate, isOdd, rfl, rfl⟩

/-- With an odd parity or the top bit set, the coordinate with the other top bit has the
same packed bytes. -/
theorem packBytes_shared (coordinate : FixedBytes 32) {isOdd : Bool}
    (h : topBit coordinate.toList.reverse = true ∨ isOdd = true) :
    ∃ other : FixedBytes 32, other.toList ≠ coordinate.toList ∧
      packBytes other.toList true = packBytes coordinate.toList isOdd := by
  have hlength := coordinate.toList_length
  cases hbytes : coordinate.toList.reverse with
  | nil =>
    have hcount := congrArg List.length hbytes
    rw [List.length_reverse, hlength] at hcount
    exact absurd hcount (by decide)
  | cons head rest =>
    have hhead := topBit_byte head
    have hcount := congrArg List.length hbytes
    rw [List.length_reverse, hlength] at hcount
    have hflipped : ((head ^^^ 0x80) :: rest).reverse.length = 32 := by
      rw [List.length_reverse, List.length_cons, hcount, List.length_cons]
    have hpacked : packBytes coordinate.toList isOdd = (head ||| 0x80) :: rest := by
      rw [packBytes, hbytes]
      by_cases hodd : isOdd = true
      · rw [if_pos hodd, List.modifyHead_cons]
      · have htop : head &&& 0x80 ≠ 0 := by
          rcases h with htop | hother
          · rw [hbytes] at htop
            exact of_decide_eq_true htop
          · exact absurd hother hodd
        rw [if_neg hodd, (hhead.2.2.1 htop).2]
    refine ⟨⟨_, hflipped⟩, ?_, ?_⟩
    · intro hsame
      have hreverse : (head ^^^ 0x80) :: rest = head :: rest := by
        rw [← hbytes, ← hsame]
        exact (List.reverse_reverse _).symm
      exact hhead.2.2.2.2 (List.cons.inj hreverse).1
    · change packBytes ((head ^^^ 0x80) :: rest).reverse true = _
      rw [hpacked, packBytes, if_pos rfl, List.reverse_reverse, List.modifyHead_cons, hhead.2.2.2.1]

/-- Only one accepted address has its packed value exactly when the top bit of its
coordinate is clear and the parity is even. -/
theorem fromBase58_unique_iff [HexCrate] (coordinate : FixedBytes 32) (isOdd : Bool) :
    (∀ other, packedZekoAddressFromBase58 sha256 other =
      packedZekoAddressFromBase58 sha256 (addressOf sha256 coordinate isOdd) →
        other = addressOf sha256 coordinate isOdd) ↔
      topBit coordinate.toList.reverse = false ∧ isOdd = false := by
  rw [fromBase58_addressOf]
  constructor
  · intro h
    by_contra hcondition
    have hshared : topBit coordinate.toList.reverse = true ∨ isOdd = true := by
      cases htop : topBit coordinate.toList.reverse with
      | true => exact Or.inl rfl
      | false => exact Or.inr (Bool.eq_true_of_not_eq_false fun hodd => hcondition ⟨htop, hodd⟩)
    obtain ⟨other, hne, hsame⟩ := packBytes_shared coordinate hshared
    have haddress := h (addressOf sha256 other true) (by rw [fromBase58_addressOf, hsame])
    exact hne (addressOf_injective sha256 haddress).1
  · intro h other hother
    obtain ⟨htop, hodd⟩ := h
    obtain ⟨coordinate', isOdd', haddress, hpacked⟩ := (fromBase58_eq_ok sha256).mp hother
    have hbytes : packBytes coordinate.toList isOdd = packBytes coordinate'.toList isOdd' :=
      packedText_injective (by rw [packBytes_length, coordinate.toList_length])
        (by rw [packBytes_length, coordinate'.toList_length]) hpacked
    have hreverse : packBytes coordinate.toList isOdd = coordinate.toList.reverse := by
      rw [packBytes, hodd, if_neg Bool.false_ne_true]
    cases isOdd' with
    | true =>
      have hne : coordinate'.toList.reverse ≠ [] := by
        intro hnil
        have hcount := congrArg List.length hnil
        rw [List.length_reverse, coordinate'.toList_length] at hcount
        exact absurd hcount (by decide)
      have hset := topBit_set hne
      rw [← hreverse, hbytes, packBytes, if_pos rfl, hset] at htop
      exact absurd htop (by decide)
    | false =>
      have hsame : coordinate = coordinate' := by
        apply List.Vector.toList_injective
        apply List.reverse_injective
        rw [← hreverse, hbytes, packBytes, if_neg Bool.false_ne_true]
      rw [haddress, hsame, hodd]

/-- The Base58 and address codec. What Base58 encodes is decoded and what it decodes is
encoded again. Every packed value is read from its address, whichever letters its
digits have. The accepted addresses are those of a coordinate and a parity. Such an
address is shown again exactly when the top bit of its coordinate is clear, two such
addresses have one packed value only when they are equal, and no other accepted address
at all has its packed value exactly when the parity is even too. -/
theorem packedAddresses_codec_iff [HexCrate] :
    (∀ value, base58Decode (base58Encode value) = .ok value) ∧
    (∀ text value, base58Decode text = .ok value → base58Encode value = text) ∧
    (∀ packed bytes, packedBytes packed = .ok bytes → ∃ address,
      packedZekoAddressToBase58 sha256 packed = .ok address ∧
        packedZekoAddressFromBase58 sha256 address = .ok (packedText bytes)) ∧
    (∀ bytes : FixedBytes 32, packedBytes (packedText bytes.toList) = .ok bytes.toList) ∧
    (∀ address, (∃ packed, packedZekoAddressFromBase58 sha256 address = .ok packed) ↔
      ∃ coordinate isOdd, address = addressOf sha256 coordinate isOdd) ∧
    (∀ coordinate isOdd packed,
      packedZekoAddressFromBase58 sha256 (addressOf sha256 coordinate isOdd) = .ok packed →
        (packedZekoAddressToBase58 sha256 packed = .ok (addressOf sha256 coordinate isOdd) ↔
          topBit coordinate.toList.reverse = false)) ∧
    (∀ first second firstOdd secondOdd, topBit first.toList.reverse = false →
      topBit second.toList.reverse = false →
      packedZekoAddressFromBase58 sha256 (addressOf sha256 first firstOdd) =
        packedZekoAddressFromBase58 sha256 (addressOf sha256 second secondOdd) →
      addressOf sha256 first firstOdd = addressOf sha256 second secondOdd) ∧
    ∀ coordinate isOdd, (∀ other, packedZekoAddressFromBase58 sha256 other =
      packedZekoAddressFromBase58 sha256 (addressOf sha256 coordinate isOdd) →
        other = addressOf sha256 coordinate isOdd) ↔
      topBit coordinate.toList.reverse = false ∧ isOdd = false := by
  refine ⟨base58Decode_base58Encode, fun _ _ => base58Encode_of_decode, ?_, ?_, ?_, ?_, ?_,
    fromBase58_unique_iff sha256⟩
  · intro packed bytes h
    obtain ⟨-, -, -, hlength⟩ := packedBytes_eq_ok.mp h
    have hcleared : ((bytes.modifyHead (· &&& 0x7f)).reverse).length = 32 := by
      rw [List.length_reverse, List.length_modifyHead, hlength]
    have hback := fromBase58_addressOf sha256 ⟨_, hcleared⟩ (topBit bytes)
    refine ⟨_, toBase58_of_packedBytes sha256 h, hback.trans ?_⟩
    change Except.ok (packedText (packBytes (bytes.modifyHead (· &&& 0x7f)).reverse (topBit bytes))) = _
    rw [packBytes_unpacked]
  · intro bytes
    exact packedBytes_packedText bytes.toList_length
  · intro address
    constructor
    · intro h
      obtain ⟨packed, hpacked⟩ := h
      obtain ⟨coordinate, isOdd, haddress, -⟩ := (fromBase58_eq_ok sha256).mp hpacked
      exact ⟨coordinate, isOdd, haddress⟩
    · intro h
      obtain ⟨coordinate, isOdd, haddress⟩ := h
      rw [haddress]
      exact ⟨_, fromBase58_addressOf sha256 coordinate isOdd⟩
  · intro coordinate isOdd packed h
    rw [fromBase58_addressOf, Except.ok.injEq] at h
    rw [← h]
    exact toBase58_packBytes sha256 coordinate isOdd
  · intro first second firstOdd secondOdd hfirst hsecond hsame
    rw [fromBase58_addressOf, fromBase58_addressOf, Except.ok.injEq] at hsame
    have hleft := (toBase58_packBytes sha256 first firstOdd).mpr hfirst
    have hright := (toBase58_packBytes sha256 second secondOdd).mpr hsecond
    rw [hsame, hright] at hleft
    exact (Except.ok.inj hleft).symm

end

attribute [local instance] asciiHex

/-- An address whose coordinate is two to the 255 with even parity is accepted, and its
packed value is shown as the address of the zero coordinate with odd parity, which has
that packed value too. -/
theorem packedAddresses_shared :
    packedZekoAddressFromBase58 ReferenceHashes.sha256
        "B62qiTKpEPjGTSHZrtM8uXiKgn8So916pLmNJKDhKeyBQLAYxWA5Rw1".toList =
      .ok "0x8000000000000000000000000000000000000000000000000000000000000000".toList ∧
    packedZekoAddressToBase58 ReferenceHashes.sha256
        "0x8000000000000000000000000000000000000000000000000000000000000000".toList =
      .ok "B62qiTKpEPjGTSHZrtM8uXiKgn8So916pLmNJKDhKeyBQL9TDeaDyof".toList ∧
    packedZekoAddressFromBase58 ReferenceHashes.sha256
        "B62qiTKpEPjGTSHZrtM8uXiKgn8So916pLmNJKDhKeyBQL9TDeaDyof".toList =
      .ok "0x8000000000000000000000000000000000000000000000000000000000000000".toList := by
  decide +kernel

example : packedZekoAddressToBase58 ReferenceHashes.sha256
      "0x16bbb00183854f6126da6d40cf43b0bb13a6dc426b08f80e998b3fbb650f8e41".toList =
    .ok "B62qkekmS9273D1EsFfMSJMMDAmgvh1WyoYE2vs1r7k4GtGBqVYABn2".toList := by
  decide +kernel

end EthereumSettlement.Base58Addresses
