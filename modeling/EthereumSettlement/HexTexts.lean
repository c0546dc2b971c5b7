import EthereumSettlement.FixedBytesText

/-!
# The hex crate

Cursors, packed addresses and field elements travel as hexadecimal texts. The `hex`
crate writes and reads them. The crate is not part of the repository, so its two
functions are parameters with the behaviour that its documentation promises: two
lower-case digits for each byte, and any text of whole bytes read in either case. A
decoder that reads the text pair by pair keeps these promises.
-/

namespace EthereumSettlement.HexTexts

open ByteWords CheckedCalls FixedBytesText

/-- Hexadecimal digits of whole bytes. -/
structure HexDigits (hex : Bytes) : Prop where
  /-- There are two digits for each byte. -/
  whole : hex.length % 2 = 0
  /-- All of them are digits. -/
  digits : hex.all isAsciiHexdigit = true

/-- `hex`: its functions, and what they promise. -/
class HexCrate where
  /-- `hex::encode`. -/
  encode : Bytes → List Char
  /-- `hex::decode`. -/
  decode : Bytes → Except String Bytes
  /-- Bytes are written in lower case. -/
  encode_eq : ∀ bytes, encode bytes = lowerHex bytes
  /-- Digits of whole bytes are read, in either case. -/
  decode_of_digits : ∀ {hex}, HexDigits hex → ∃ bytes, decode hex = .ok bytes ∧
    bigEndianValue bytes = digitsValue hex ∧ bytes.length * 2 = hex.length
  /-- Nothing else is read. -/
  digits_of_decode : ∀ {hex bytes}, decode hex = .ok bytes → HexDigits hex

/-- A text of two digits for each byte has the bytes of digits, and no other text has. -/
theorem hexDigits_textBytes (hex : List Char) :
    HexDigits (textBytes hex) ↔ (∀ c ∈ hex, c ∈ hexDigits) ∧ hex.length % 2 = 0 := by
  constructor
  · intro h
    have hdigits := (all_isAsciiHexdigit hex).mp h.digits
    have hwhole := h.whole
    rw [textBytes_digits hdigits, List.length_map] at hwhole
    exact ⟨hdigits, hwhole⟩
  · intro h
    refine ⟨?_, (all_isAsciiHexdigit hex).mpr h.1⟩
    rw [textBytes_digits h.1, List.length_map]
    exact h.2

/-- The digits of bytes determine the bytes. -/
theorem lowerHex_injective {first second : Bytes} (h : lowerHex first = lowerHex second) :
    first = second := by
  obtain ⟨hfirst, hwidth, -⟩ := hexValue_lowerHex first
  obtain ⟨hsecond, hother, -⟩ := hexValue_lowerHex second
  rw [h] at hfirst hwidth
  exact bytes_of_value (by omega) (hfirst.symm.trans hsecond)

/-- What is encoded is decoded to the same bytes. -/
theorem decode_encode [HexCrate] (bytes : Bytes) :
    HexCrate.decode (textBytes (HexCrate.encode bytes)) = .ok bytes := by
  obtain ⟨hvalue, hlength, hdigits⟩ := hexValue_lowerHex bytes
  have heven : (lowerHex bytes).length % 2 = 0 := by omega
  obtain ⟨found, hread, hfound, hcount⟩ :=
    HexCrate.decode_of_digits ((hexDigits_textBytes _).mpr ⟨hdigits, heven⟩)
  rw [digitsValue_textBytes hdigits, hvalue] at hfound
  rw [textBytes_digits hdigits, List.length_map, hlength] at hcount
  have hsame : found = bytes := bytes_of_value (by omega) hfound
  rw [HexCrate.encode_eq, hread, hsame]

/-- The half-byte of a digit. -/
def hexVal (b : Byte) : Except String Byte :=
  if 0x41 ≤ b.toNat ∧ b.toNat ≤ 0x46 then pure (b - 0x41 + 10)
  else if 0x61 ≤ b.toNat ∧ b.toNat ≤ 0x66 then pure (b - 0x61 + 10)
  else if 0x30 ≤ b.toNat ∧ b.toNat ≤ 0x39 then pure (b - 0x30)
  else throw "Invalid character"

/-- Read two digits after the other. -/
def hexPairs : Bytes → Except String Bytes
  | high :: low :: rest => do
    let high ← hexVal high
    let low ← hexVal low
    let bytes ← hexPairs rest
    pure ((high <<< 4 ||| low) :: bytes)
  | _ => pure []

/-- Read a text of whole bytes. -/
def decodePairs (hex : Bytes) : Except String Bytes := do
  require (hex.length % 2 = 0) "Odd number of digits"
  hexPairs hex

/-- A digit byte has its half-byte, and no other byte has one. -/
theorem hexVal_eq_ok {b nibble : Byte} :
    hexVal b = .ok nibble ↔ isAsciiHexdigit b = true ∧ nibble = BitVec.ofNat 8 (nibbleValue b) := by
  have hall : ∀ n < 256, (hexVal (BitVec.ofNat 8 n)).toOption =
      if isAsciiHexdigit (BitVec.ofNat 8 n) = true then
        some (BitVec.ofNat 8 (nibbleValue (BitVec.ofNat 8 n))) else none := by
    decide +kernel
  have hb := hall b.toNat b.isLt
  rw [BitVec.ofNat_toNat, BitVec.setWidth_eq] at hb
  rw [← mem_toOption, hb, Option.mem_def]
  by_cases hdigit : isAsciiHexdigit b = true
  · rw [if_pos hdigit, Option.some.injEq]
    exact ⟨fun h => ⟨hdigit, h.symm⟩, fun h => h.2.symm⟩
  · rw [if_neg hdigit]
    constructor
    · intro h
      cases h
    · intro h
      exact absurd h.1 hdigit

/-- A half-byte is below sixteen. -/
theorem nibbleValue_lt {b : Byte} (h : isAsciiHexdigit b = true) : nibbleValue b < 16 := by
  obtain ⟨nibble, -, hvalue, hsmall⟩ := nibbleOf_hexdigit h
  omega

/-- Two half-bytes make one byte. -/
theorem joined_toNat {high low : ℕ} (hhigh : high < 16) (hlow : low < 16) :
    (BitVec.ofNat 8 high <<< 4 ||| BitVec.ofNat 8 low).toNat = high * 16 + low := by
  have hall : ∀ high < 16, ∀ low < 16,
      (BitVec.ofNat 8 high <<< 4 ||| BitVec.ofNat 8 low).toNat = high * 16 + low := by
    decide
  exact hall high hhigh low hlow

/-- Pairs of digits are read to the bytes of their value, and nothing else is read. -/
theorem hexPairs_spec (hex : Bytes) (heven : hex.length % 2 = 0) :
    (hex.all isAsciiHexdigit = true → ∃ bytes, hexPairs hex = .ok bytes ∧
      bigEndianValue bytes = digitsValue hex ∧ bytes.length * 2 = hex.length) ∧
    (Succeeds (hexPairs hex) → hex.all isAsciiHexdigit = true) := by
  induction hex using hexPairs.induct with
  | case1 high low rest ih =>
    have hrest : rest.length % 2 = 0 := by
      rw [List.length_cons, List.length_cons] at heven
      omega
    obtain ⟨hread, haccepted⟩ := ih hrest
    constructor
    · intro hall
      rw [List.all_cons, List.all_cons, Bool.and_eq_true, Bool.and_eq_true] at hall
      obtain ⟨hhigh, hlow, hdigits⟩ := hall
      obtain ⟨bytes, hbytes, hvalue, hlength⟩ := hread hdigits
      have hhighVal := hexVal_eq_ok.mpr ⟨hhigh, rfl⟩
      have hlowVal := hexVal_eq_ok.mpr ⟨hlow, rfl⟩
      refine ⟨(BitVec.ofNat 8 (nibbleValue high) <<< 4 ||| BitVec.ofNat 8 (nibbleValue low)) :: bytes,
        ?_, ?_, ?_⟩
      · rw [hexPairs]
        simp only [bind_eq_ok, hhighVal, hlowVal, hbytes, Except.ok.injEq, exists_eq_left']
        rfl
      · have hjoined := joined_toNat (nibbleValue_lt hhigh) (nibbleValue_lt hlow)
        rw [bigEndianValue_cons, hjoined, hvalue, digitsValue, digitsValue, List.map_cons,
          List.map_cons, ofDigits_reverse_cons, ofDigits_reverse_cons, List.length_cons,
          List.length_map, ← hlength, pow_succ, Nat.mul_comm bytes.length 2, pow_mul]
        have hsquare : (16 : ℕ) ^ 2 = 256 := by decide
        rw [hsquare]
        ring
      · rw [List.length_cons, List.length_cons, List.length_cons]
        omega
    · intro h
      obtain ⟨bytes, hbytes⟩ := h
      rw [hexPairs] at hbytes
      simp only [bind_eq_ok] at hbytes
      obtain ⟨_, hhigh, _, hlow, _, hdigits, -⟩ := hbytes
      have hhighDigit := (hexVal_eq_ok.mp hhigh).1
      have hlowDigit := (hexVal_eq_ok.mp hlow).1
      have hrestDigits := haccepted ⟨_, hdigits⟩
      rw [List.all_cons, List.all_cons, hhighDigit, hlowDigit, hrestDigits]
      rfl
  | case2 hex hshort =>
    have hempty : hex = [] := by
      cases hex with
      | nil => rfl
      | cons first hex =>
        cases hex with
        | nil => exact absurd heven (by simp)
        | cons second rest => exact absurd rfl (hshort first second rest)
    rw [hempty]
    exact ⟨fun _ => ⟨[], rfl, rfl, rfl⟩, fun _ => rfl⟩

/-- A decoder that reads pairs of digits. -/
@[reducible] def asciiHex : HexCrate where
  encode := lowerHex
  decode := decodePairs
  encode_eq := fun _ => rfl
  decode_of_digits := by
    intro hex h
    obtain ⟨bytes, hread, hvalue, hlength⟩ := (hexPairs_spec hex h.whole).1 h.digits
    exact ⟨bytes, require_bind_eq_ok.mpr ⟨h.whole, hread⟩, hvalue, hlength⟩
  digits_of_decode := by
    intro hex bytes h
    obtain ⟨hwhole, hpairs⟩ := require_bind_eq_ok.mp h
    exact ⟨hwhole, (hexPairs_spec hex hwhole).2 ⟨bytes, hpairs⟩⟩

end EthereumSettlement.HexTexts
