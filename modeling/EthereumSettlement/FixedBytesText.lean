import Mathlib.Data.List.DropRight
import Mathlib.Data.List.Lemmas
import Mathlib.Data.Nat.Digits.Defs
import Mathlib.Data.Vector.Basic
import EthereumSettlement.ByteWords
import EthereumSettlement.CheckedCalls

/-!
# Fixed-width byte arrays as text

The JSON inputs write a byte array as prefixed hexadecimal digits, and a word also
in decimal. Hexadecimal digits are put into their half-bytes from the right end of a
zeroed array. Decimal digits are multiplied in over the thirty-two bytes with a
carry. Both readers return the exact value of the digits, and the decimal one
refuses exactly the texts that are empty, have another character or do not fit.
-/

namespace EthereumSettlement.FixedBytesText

open ByteWords CheckedCalls

/-- `[u8; N]`. -/
abbrev FixedBytes (size : ℕ) := List.Vector Byte size

/-- `str::bytes`. -/
def textBytes (text : List Char) : Bytes :=
  text.flatMap fun c => (String.utf8EncodeChar c).map UInt8.toBitVec

/-- `char::is_whitespace`: the characters of the Unicode property `White_Space`. -/
def isWhitespace (c : Char) : Bool :=
  (9 ≤ c.toNat && c.toNat ≤ 13) || (0x2000 ≤ c.toNat && c.toNat ≤ 0x200a) ||
    [0x20, 0x85, 0xa0, 0x1680, 0x2028, 0x2029, 0x202f, 0x205f, 0x3000].contains c.toNat

/-- `str::trim`. -/
def trim (text : List Char) : List Char := (text.dropWhile isWhitespace).rdropWhile isWhitespace

/-- `str::strip_prefix`. -/
def stripPrefix (marker text : List Char) : Option (List Char) :=
  if marker.isPrefixOf text then some (text.drop marker.length) else none

/-- `fixed_bytes_to_hex`. -/
def fixedBytesToHex {size : ℕ} (value : FixedBytes size) : List Char :=
  '0' :: 'x' :: value.toList.flatMap fun byte =>
    [Nat.digitChar (byte.toNat / 16), Nat.digitChar (byte.toNat % 16)]

/-- `B256::to_string`. -/
def wordText (word : BitVec 256) : String :=
  "0x" ++ String.ofList ((Nat.toDigits 16 word.toNat).leftpad 64 '0')

/-- `ensure_hex_eq` on the texts of two words. -/
def ensureHexEq (actual expected : BitVec 256) (name : String) : Except String Unit :=
  require (actual = expected)
    (name ++ " mismatch: local=" ++ wordText actual ++ ", onchain=" ++ wordText expected)

/-- The texts of two words agree when the words do. -/
@[simp] theorem ensureHexEq_eq_ok {actual expected : BitVec 256} {name : String} {u : Unit} :
    ensureHexEq actual expected name = .ok u ↔ actual = expected :=
  require_eq_ok

/-- `u8::is_ascii_hexdigit`. -/
def isAsciiHexdigit (b : Byte) : Bool :=
  (0x30 ≤ b.toNat && b.toNat ≤ 0x39) || (0x61 ≤ b.toNat && b.toNat ≤ 0x66) ||
    (0x41 ≤ b.toNat && b.toNat ≤ 0x46)

/-- The digit match of `parse_hex_fixed`. -/
def nibbleOf (b : Byte) : Except String Byte :=
  if 0x30 ≤ b.toNat ∧ b.toNat ≤ 0x39 then pure (b - 0x30)
  else if 0x61 ≤ b.toNat ∧ b.toNat ≤ 0x66 then pure (b - 0x61 + 10)
  else if 0x41 ≤ b.toNat ∧ b.toNat ≤ 0x46 then pure (b - 0x41 + 10)
  else throw "internal error: entered unreachable code"

/-- An array with one byte updated. -/
def modifyByte {size : ℕ} (out : FixedBytes size) (index : ℕ) (update : Byte → Byte) :
    FixedBytes size :=
  ⟨out.toList.modify index update, by rw [List.length_modify, out.toList_length]⟩

/-- An update of one byte, which panics behind the end. -/
def updateByte {size : ℕ} (out : FixedBytes size) (index : ℕ) (update : Byte → Byte) :
    Except String (FixedBytes size) := do
  require (index < size) "index out of bounds"
  pure (modifyByte out index update)

/-- The digit loop of `parse_hex_fixed`. -/
def hexLoop {size : ℕ} : Bytes → ℕ → FixedBytes size → Except String (FixedBytes size)
  | [], _, out => pure out
  | b :: rest, nibbleIndex, out => do
    let nibble ← nibbleOf b
    let out ← updateByte out (nibbleIndex / 2) fun byte =>
      if nibbleIndex % 2 = 0 then nibble <<< 4 else byte ||| nibble
    hexLoop rest (nibbleIndex + 1) out

/-- `parse_hex_fixed`. -/
def parseHexFixed (size : ℕ) (hex : List Char) : Except String (FixedBytes size) := do
  require ((textBytes hex).length ≤ size * 2) s!"hex string is too long for {size} bytes"
  require ((textBytes hex).all isAsciiHexdigit) "hex string contains a non-hex character"
  hexLoop (textBytes hex) (size * 2 - (textBytes hex).length) (List.Vector.replicate size 0)

/-- `u8::is_ascii_digit`. -/
def isAsciiDigit (b : Byte) : Bool := 0x30 ≤ b.toNat && b.toNat ≤ 0x39

/-- One byte of the carry loop of `parse_decimal_u256`. -/
def multiplyByte (byte : Byte) (carry : BitVec 16) : BitVec 16 × Byte :=
  let next := byte.setWidth 16 * 10 + carry
  (next >>> 8, next.setWidth 8)

/-- The carry loop of `parse_decimal_u256`: the last carry and the array. -/
def multiplyDigit (out : FixedBytes 32) (digit : Byte) : BitVec 16 × FixedBytes 32 :=
  out.mapAccumr multiplyByte ((digit - 0x30).setWidth 16)

/-- The digit loop of `parse_decimal_u256`. -/
def decimalLoop : Bytes → FixedBytes 32 → Except String (FixedBytes 32)
  | [], out => pure out
  | digit :: rest, out => do
    require (isAsciiDigit digit) "decimal string contains a non-digit character"
    let multiplied := multiplyDigit out digit
    require (multiplied.1 = 0) "decimal string overflows uint256"
    decimalLoop rest multiplied.2

/-- `parse_decimal_u256`. -/
def parseDecimalU256 (value : List Char) : Except String (FixedBytes 32) := do
  require (value ≠ []) "empty decimal string"
  decimalLoop (textBytes value) (List.Vector.replicate 32 0)

/-- `parse_fixed_bytes`. -/
def parseFixedBytes (size : ℕ) (value : List Char) : Except String (FixedBytes size) := do
  let trimmed := trim value
  match (stripPrefix ['0', 'x'] trimmed).or (stripPrefix ['0', 'X'] trimmed) with
  | some hex => parseHexFixed size hex
  | none =>
    if h : size = 32 then h ▸ parseDecimalU256 trimmed
    else throw "decimal strings are only supported for uint256/bytes32 fields"

/-- The value of a decimal text. -/
def decimalValue (text : List Char) : ℕ :=
  Nat.ofDigits 10 (text.map fun c => c.toNat - '0'.toNat).reverse

/-- The hexadecimal digits in both cases. -/
def hexDigits : List Char := "0123456789abcdefABCDEF".toList

/-- The value of a hexadecimal digit. -/
def hexDigit (c : Char) : ℕ := "0123456789abcdef".toList.idxOf c.toLower

/-- The value of a hexadecimal text. -/
def hexValue (text : List Char) : ℕ := Nat.ofDigits 16 (text.map hexDigit).reverse

/-- The value of an array. -/
def FixedBytes.value {size : ℕ} (bytes : FixedBytes size) : ℕ := bigEndianValue bytes.toList

/-- A digit before others counts with the weight of their number. -/
theorem ofDigits_reverse_cons (base digit : ℕ) (digits : List ℕ) :
    Nat.ofDigits base (digit :: digits).reverse =
      digit * base ^ digits.length + Nat.ofDigits base digits.reverse := by
  rw [List.reverse_cons, Nat.ofDigits_append, Nat.ofDigits_singleton, List.length_reverse]
  ring

/-- The bytes of a concatenation. -/
theorem bigEndianValue_append (first second : Bytes) :
    bigEndianValue (first ++ second) =
      bigEndianValue first * 256 ^ second.length + bigEndianValue second := by
  rw [bigEndianValue, List.foldl_append, foldl_bigEndianValue]
  rfl

/-- Arrays are determined by their values. -/
theorem value_injective {size : ℕ} {first second : FixedBytes size}
    (h : first.value = second.value) : first = second := by
  apply List.Vector.toList_injective
  apply bytes_of_value
  · rw [List.Vector.toList_length, List.Vector.toList_length]
  · exact h

/-- The value of an array fits its width. -/
theorem value_lt {size : ℕ} (bytes : FixedBytes size) : bytes.value < 256 ^ size := by
  have hlt := bigEndianValue_lt bytes.toList
  rw [List.Vector.toList_length] at hlt
  exact hlt

/-- Zeros have value zero. -/
theorem bigEndianValue_replicate (count : ℕ) : bigEndianValue (List.replicate count 0) = 0 := by
  induction count with
  | zero => rfl
  | succ count ih =>
    have hzero : (0 : Byte).toNat = 0 := rfl
    rw [List.replicate_succ, bigEndianValue_cons, ih, hzero, Nat.zero_mul]

/-- The zeroed array has value zero. -/
theorem value_zero (size : ℕ) : FixedBytes.value (List.Vector.replicate size 0) = 0 :=
  bigEndianValue_replicate size

/-- An ASCII character is its one byte. -/
theorem utf8_ascii {c : Char} (h : c.toNat < 128) :
    (String.utf8EncodeChar c).map UInt8.toBitVec = [BitVec.ofNat 8 c.toNat] := by
  have hle : c.val.toNat ≤ 0x7f := by
    have hval : c.val.toNat = c.toNat := rfl
    omega
  unfold String.utf8EncodeChar
  rw [if_pos hle]
  rfl

/-- Every other character starts with a byte outside ASCII. -/
theorem utf8_first {c : Char} (h : 128 ≤ c.toNat) :
    ∃ b ∈ (String.utf8EncodeChar c).map UInt8.toBitVec, 128 ≤ b.toNat := by
  have hval : c.val.toNat = c.toNat := rfl
  have hbyte : ∀ n rest, 128 ≤ n % 256 →
      ∃ b ∈ (UInt8.ofNat n :: rest).map UInt8.toBitVec, 128 ≤ b.toNat := by
    intro n rest hn
    refine ⟨(UInt8.ofNat n).toBitVec, List.mem_cons_self, ?_⟩
    rw [UInt8.toNat_toBitVec, UInt8.toNat_ofNat']
    exact hn
  unfold String.utf8EncodeChar
  by_cases h1 : c.val.toNat ≤ 0x7f
  · omega
  · rw [if_neg h1]
    by_cases h2 : c.val.toNat ≤ 0x7ff
    · rw [if_pos h2]
      exact hbyte _ _ (by omega)
    · rw [if_neg h2]
      by_cases h3 : c.val.toNat ≤ 0xffff
      · rw [if_pos h3]
        exact hbyte _ _ (by omega)
      · rw [if_neg h3]
        exact hbyte _ _ (by omega)

/-- The bytes of an ASCII text are its characters. -/
theorem textBytes_ascii {text : List Char} (h : ∀ c ∈ text, c.toNat < 128) :
    textBytes text = text.map fun c => BitVec.ofNat 8 c.toNat := by
  induction text with
  | nil => rfl
  | cons c text ih =>
    have htext := ih fun other hother => h other (List.mem_cons_of_mem _ hother)
    rw [textBytes] at htext ⊢
    rw [List.flatMap_cons, utf8_ascii (h c List.mem_cons_self), htext, List.map_cons,
      List.singleton_append]

/-- All bytes of a text are ASCII bytes of a kind exactly when all characters are. -/
theorem textBytes_all {kind : Byte → Bool} (hkind : ∀ b, kind b = true → b.toNat < 128)
    (text : List Char) : (textBytes text).all kind = true ↔
      ∀ c ∈ text, c.toNat < 128 ∧ kind (BitVec.ofNat 8 c.toNat) = true := by
  rw [textBytes, List.all_flatMap, List.all_eq_true]
  have hchar : ∀ c : Char, ((String.utf8EncodeChar c).map UInt8.toBitVec).all kind = true ↔
      c.toNat < 128 ∧ kind (BitVec.ofNat 8 c.toNat) = true := by
    intro c
    by_cases hascii : c.toNat < 128
    · rw [utf8_ascii hascii, List.all_cons, List.all_nil, Bool.and_true]
      exact (and_iff_right hascii).symm
    · obtain ⟨b, hb, hlarge⟩ := utf8_first (Nat.le_of_not_lt hascii)
      constructor
      · intro hall
        have hsmall := hkind b (List.all_eq_true.mp hall b hb)
        omega
      · intro hsmall
        exact absurd hsmall.1 hascii
  constructor
  · intro h c hc
    exact (hchar c).mp (h c hc)
  · intro h c hc
    exact (hchar c).mpr (h c hc)

/-- One byte times ten with a carry, which stays a digit. -/
theorem multiplyByte_spec (byte : Byte) {carry : BitVec 16} (hcarry : carry.toNat ≤ 9) :
    (multiplyByte byte carry).1.toNat ≤ 9 ∧
      (multiplyByte byte carry).1.toNat * 256 + (multiplyByte byte carry).2.toNat =
        byte.toNat * 10 + carry.toNat := by
  have hbyte := byte.isLt
  have hnext : (byte.setWidth 16 * 10 + carry).toNat = byte.toNat * 10 + carry.toNat := by
    have hten : (10 : BitVec 16).toNat = 10 := rfl
    rw [BitVec.toNat_add, BitVec.toNat_mul, BitVec.toNat_setWidth, hten]
    omega
  simp only [multiplyByte, BitVec.toNat_ushiftRight, BitVec.toNat_setWidth, hnext,
    Nat.shiftRight_eq_div_pow]
  omega

/-- The carry loop multiplies by ten and adds the digit, up to the last carry. -/
theorem mapAccumr_multiplyByte (bytes : Bytes) {carry : BitVec 16} (hcarry : carry.toNat ≤ 9) :
    (bytes.mapAccumr multiplyByte carry).1.toNat ≤ 9 ∧
      (bytes.mapAccumr multiplyByte carry).1.toNat * 256 ^ bytes.length +
        bigEndianValue (bytes.mapAccumr multiplyByte carry).2 =
          bigEndianValue bytes * 10 + carry.toNat := by
  induction bytes with
  | nil =>
    refine ⟨hcarry, ?_⟩
    simp only [List.mapAccumr, List.length_nil, pow_zero, bigEndianValue, List.foldl_nil]
    omega
  | cons byte bytes ih =>
    have hstep := multiplyByte_spec byte ih.1
    have hlength := List.length_mapAccumr multiplyByte bytes carry
    simp only [List.mapAccumr]
    refine ⟨hstep.1, ?_⟩
    rw [bigEndianValue_cons, bigEndianValue_cons, hlength, List.length_cons, pow_succ]
    have hrest := ih.2
    generalize (multiplyByte byte (bytes.mapAccumr multiplyByte carry).1).1.toNat = high at hstep
    generalize (multiplyByte byte (bytes.mapAccumr multiplyByte carry).1).2.toNat = low at hstep
    calc high * (256 ^ bytes.length * 256) +
          (low * 256 ^ bytes.length + bigEndianValue (bytes.mapAccumr multiplyByte carry).2)
        = (high * 256 + low) * 256 ^ bytes.length +
            bigEndianValue (bytes.mapAccumr multiplyByte carry).2 := by ring
      _ = byte.toNat * 10 * 256 ^ bytes.length +
            ((bytes.mapAccumr multiplyByte carry).1.toNat * 256 ^ bytes.length +
              bigEndianValue (bytes.mapAccumr multiplyByte carry).2) := by
          rw [hstep.2]
          ring
      _ = (byte.toNat * 256 ^ bytes.length + bigEndianValue bytes) * 10 + carry.toNat := by
          rw [hrest]
          ring

/-- The value of a decimal digit byte. -/
def digitOf (digit : Byte) : ℕ := digit.toNat - 48

/-- The carry loop over an array, for one digit. -/
theorem multiplyDigit_spec (out : FixedBytes 32) {digit : Byte} (hdigit : isAsciiDigit digit = true) :
    (multiplyDigit out digit).1.toNat * 256 ^ 32 + (multiplyDigit out digit).2.value =
      out.value * 10 + digitOf digit := by
  rw [isAsciiDigit, Bool.and_eq_true, decide_eq_true_eq, decide_eq_true_eq] at hdigit
  have hcarry : ((digit - 0x30).setWidth 16).toNat = digitOf digit := by
    have hzero : (0x30 : Byte).toNat = 48 := rfl
    rw [BitVec.toNat_setWidth, BitVec.toNat_sub, hzero, digitOf]
    omega
  have hsmall : ((digit - 0x30).setWidth 16).toNat ≤ 9 := by
    rw [hcarry, digitOf]
    omega
  have hlist := (mapAccumr_multiplyByte out.toList hsmall).2
  rw [hcarry, List.Vector.toList_length] at hlist
  exact hlist

/-- Without a last carry the array holds the value with the digit behind it. -/
theorem multiplyDigit_value {out : FixedBytes 32} {digit : Byte}
    (hdigit : isAsciiDigit digit = true) (hcarry : (multiplyDigit out digit).1 = 0) :
    (multiplyDigit out digit).2.value = out.value * 10 + digitOf digit := by
  have hstep := multiplyDigit_spec out hdigit
  have hzero : (0 : BitVec 16).toNat = 0 := rfl
  rw [hcarry, hzero, Nat.zero_mul, Nat.zero_add] at hstep
  exact hstep

/-- The decimal loop returns an array exactly when all bytes are digits and the
array has the value of what was read and the digits behind it. -/
theorem decimalLoop_eq_ok (digits : Bytes) {out result : FixedBytes 32} :
    decimalLoop digits out = .ok result ↔ digits.all isAsciiDigit = true ∧
      result.value = out.value * 10 ^ digits.length +
        Nat.ofDigits 10 (digits.map digitOf).reverse := by
  induction digits generalizing out with
  | nil =>
    simp only [decimalLoop, pure_eq_ok, List.all_nil, true_and, List.length_nil, pow_zero, mul_one,
      List.map_nil, List.reverse_nil, Nat.ofDigits_nil, add_zero]
    constructor
    · intro h
      rw [h]
    · intro h
      exact (value_injective h).symm
  | cons digit digits ih =>
    simp only [decimalLoop, bind_eq_ok, require_eq_ok, exists_const, ih, List.all_cons,
      Bool.and_eq_true, List.map_cons, List.length_cons, ofDigits_reverse_cons, List.length_map]
    constructor
    · intro h
      obtain ⟨hdigit, hcarry, hall, hvalue⟩ := h
      have hnext := multiplyDigit_value hdigit hcarry
      refine ⟨⟨hdigit, hall⟩, ?_⟩
      rw [hvalue, hnext, pow_succ]
      ring
    · intro h
      obtain ⟨⟨hdigit, hall⟩, hvalue⟩ := h
      have hstep := multiplyDigit_spec out hdigit
      have hfits := value_lt result
      have hcarry : (multiplyDigit out digit).1 = 0 := by
        apply BitVec.eq_of_toNat_eq
        by_contra hne
        have hone : 1 ≤ (multiplyDigit out digit).1.toNat := Nat.one_le_iff_ne_zero.mpr hne
        have hlarge : 256 ^ 32 ≤ out.value * 10 + digitOf digit := by omega
        have hpos : 1 ≤ 10 ^ digits.length := Nat.one_le_pow _ _ (by decide)
        have hweighted := Nat.mul_le_mul hlarge hpos
        have hsplit : out.value * 10 ^ (digits.length + 1) + digitOf digit * 10 ^ digits.length =
            (out.value * 10 + digitOf digit) * 10 ^ digits.length := by ring
        omega
      have hnext := multiplyDigit_value hdigit hcarry
      refine ⟨hdigit, hcarry, hall, ?_⟩
      rw [hvalue, hnext, pow_succ]
      ring

/-- A character is a decimal digit exactly when it is the byte of one. -/
theorem isDigit_iff (c : Char) :
    c.isDigit = true ↔ c.toNat < 128 ∧ isAsciiDigit (BitVec.ofNat 8 c.toNat) = true := by
  have hchar : c.isDigit = true ↔ 48 ≤ c.toNat ∧ c.toNat ≤ 57 := by
    rw [Char.isDigit, Bool.and_eq_true, decide_eq_true_eq, decide_eq_true_eq]
    rfl
  rw [hchar, isAsciiDigit, Bool.and_eq_true, decide_eq_true_eq, decide_eq_true_eq,
    BitVec.toNat_ofNat]
  omega

/-- The array of a value that fits. -/
def arrayOf (size value : ℕ) : FixedBytes size := ⟨bigEndian size value, bigEndian_length size value⟩

/-- The array of a value that fits has this value. -/
theorem value_arrayOf {size value : ℕ} (h : value < 256 ^ size) : (arrayOf size value).value = value := by
  have hread := bigEndianValue_bigEndian size value
  rw [Nat.mod_eq_of_lt h] at hread
  exact hread

/-- The decimal reader returns exactly the value of a text of digits. -/
theorem parseDecimalU256_eq_ok {text : List Char} {bytes : FixedBytes 32} :
    parseDecimalU256 text = .ok bytes ↔
      text ≠ [] ∧ (∀ c ∈ text, c.isDigit = true) ∧ bytes.value = decimalValue text := by
  have hdigits : (textBytes text).all isAsciiDigit = true ↔ ∀ c ∈ text, c.isDigit = true := by
    rw [textBytes_all (by
      intro b hb
      rw [isAsciiDigit, Bool.and_eq_true, decide_eq_true_eq, decide_eq_true_eq] at hb
      omega)]
    simp only [isDigit_iff]
  have hvalue : (∀ c ∈ text, c.isDigit = true) →
      Nat.ofDigits 10 ((textBytes text).map digitOf).reverse = decimalValue text := by
    intro hall
    have hascii : ∀ c ∈ text, c.toNat < 128 := fun c hc => ((isDigit_iff c).mp (hall c hc)).1
    rw [textBytes_ascii hascii, List.map_map, decimalValue]
    congr 2
    apply List.map_congr_left
    intro c hc
    have hsmall := hascii c hc
    rw [Function.comp_apply, digitOf, BitVec.toNat_ofNat, Nat.mod_eq_of_lt (by omega)]
    rfl
  simp only [parseDecimalU256, bind_eq_ok, require_eq_ok, exists_const, decimalLoop_eq_ok, hdigits,
    value_zero, Nat.zero_mul, Nat.zero_add]
  constructor
  · intro h
    exact ⟨h.1, h.2.1, h.2.2.trans (hvalue h.2.1)⟩
  · intro h
    exact ⟨h.1, h.2.1, h.2.2.trans (hvalue h.2.1).symm⟩

/-- The decimal reader refuses exactly the empty text, other characters and values
from two to the 256 on. -/
theorem parseDecimalU256_error_iff (text : List Char) :
    (∃ error, parseDecimalU256 text = .error error) ↔
      text = [] ∨ (∃ c ∈ text, c.isDigit = false) ∨ 2 ^ 256 ≤ decimalValue text := by
  have hpow : 256 ^ 32 = 2 ^ 256 := by decide
  constructor
  · intro h
    obtain ⟨error, herror⟩ := h
    by_contra hnone
    rw [not_or, not_or] at hnone
    obtain ⟨hempty, hdigits, hfits⟩ := hnone
    have hall : ∀ c ∈ text, c.isDigit = true := by
      intro c hc
      by_contra hother
      exact hdigits ⟨c, hc, Bool.not_eq_true _ ▸ hother⟩
    have hvalue : (arrayOf 32 (decimalValue text)).value = decimalValue text :=
      value_arrayOf (hpow ▸ Nat.lt_of_not_le hfits)
    have hok := parseDecimalU256_eq_ok.mpr ⟨hempty, hall, hvalue⟩
    rw [herror] at hok
    cases hok
  · intro h
    cases hparse : parseDecimalU256 text with
    | error error => exact ⟨error, rfl⟩
    | ok bytes =>
      obtain ⟨hempty, hall, hvalue⟩ := parseDecimalU256_eq_ok.mp hparse
      rcases h with hnil | hother | hlarge
      · exact absurd hnil hempty
      · obtain ⟨c, hc, hother⟩ := hother
        rw [hall c hc] at hother
        cases hother
      · have hfits := value_lt bytes
        omega

/-- A multiple of a weight has nothing below the weight. -/
theorem split_of_lt {high low total weight : ℕ} (h : high * weight + low = total * weight)
    (hlow : low < weight) : high = total ∧ low = 0 := by
  have hmod : (high * weight + low) % weight = low := by
    rw [Nat.add_comm, Nat.add_mul_mod_self_right, Nat.mod_eq_of_lt hlow]
  have hzero : low = 0 := by
    rw [← hmod, h, Nat.mul_mod_left]
  refine ⟨?_, hzero⟩
  rw [hzero, Nat.add_zero] at h
  exact Nat.eq_of_mul_eq_mul_right (by omega) h

/-- The value of an array around one byte. -/
theorem bigEndianValue_middle (before : Bytes) (byte : Byte) (after : Bytes) :
    bigEndianValue (before ++ byte :: after) =
      (bigEndianValue before * 256 + byte.toNat) * 256 ^ after.length + bigEndianValue after := by
  rw [bigEndianValue_append, bigEndianValue_cons, List.length_cons, pow_succ]
  ring

/-- Half-bytes in the upper place. -/
theorem nibble_shift {nibble : Byte} (h : nibble.toNat < 16) :
    (nibble <<< 4).toNat = nibble.toNat * 16 := by
  rw [BitVec.toNat_shiftLeft, Nat.shiftLeft_eq]
  omega

/-- Half-bytes put into an empty lower place. -/
theorem nibble_or {byte nibble : Byte} (hbyte : byte.toNat % 16 = 0) (h : nibble.toNat < 16) :
    (byte ||| nibble).toNat = byte.toNat + nibble.toNat := by
  have hsplit : byte.toNat = 2 ^ 4 * (byte.toNat / 16) := by omega
  rw [BitVec.toNat_or, hsplit, ← Nat.two_pow_add_eq_or_of_lt (by omega)]

/-- One step puts a digit behind the value read so far. -/
theorem updateByte_nibble {size nibbleIndex rest read : ℕ} {out : FixedBytes size} {nibble : Byte}
    (hindex : nibbleIndex + (rest + 1) = size * 2) (hnibble : nibble.toNat < 16)
    (hout : out.value = read * 16 ^ (rest + 1)) :
    ∃ next, updateByte out (nibbleIndex / 2) (fun byte =>
        if nibbleIndex % 2 = 0 then nibble <<< 4 else byte ||| nibble) = .ok next ∧
      next.value = (read * 16 + nibble.toNat) * 16 ^ rest := by
  have hinside : nibbleIndex / 2 < out.toList.length := by
    rw [List.Vector.toList_length]
    omega
  have hlist : out.toList = out.toList.take (nibbleIndex / 2) ++
      out.toList[nibbleIndex / 2] :: out.toList.drop (nibbleIndex / 2 + 1) := by
    rw [← List.drop_eq_getElem_cons hinside, List.take_append_drop]
  have hafter : (out.toList.drop (nibbleIndex / 2 + 1)).length = size - (nibbleIndex / 2 + 1) := by
    rw [List.length_drop, List.Vector.toList_length]
  have hmodified : ∀ update : Byte → Byte, out.toList.modify (nibbleIndex / 2) update =
      out.toList.take (nibbleIndex / 2) ++
        update out.toList[nibbleIndex / 2] :: out.toList.drop (nibbleIndex / 2 + 1) :=
    fun update => List.modify_eq_take_cons_drop hinside
  have hsize : nibbleIndex / 2 < size := by omega
  refine ⟨modifyByte out (nibbleIndex / 2) fun byte =>
    if nibbleIndex % 2 = 0 then nibble <<< 4 else byte ||| nibble, ?_, ?_⟩
  · rw [updateByte, require_bind_eq_ok]
    exact ⟨hsize, rfl⟩
  rw [FixedBytes.value, modifyByte, List.Vector.toList_mk, hmodified]
  rw [FixedBytes.value, hlist] at hout
  have hlow := bigEndianValue_lt (out.toList.drop (nibbleIndex / 2 + 1))
  generalize out.toList.take (nibbleIndex / 2) = before at hout ⊢
  generalize out.toList[nibbleIndex / 2] = byte at hout ⊢
  generalize out.toList.drop (nibbleIndex / 2 + 1) = after at hout hafter hlow ⊢
  rw [bigEndianValue_middle] at hout ⊢
  have hbyte := byte.isLt
  have hsquare : (256 : ℕ) = 16 ^ 2 := by decide
  by_cases heven : nibbleIndex % 2 = 0
  · rw [if_pos heven, nibble_shift hnibble]
    have hrest : rest = 2 * after.length + 1 := by omega
    have hweight : 16 ^ rest = 16 * 256 ^ after.length := by
      rw [hrest, hsquare, ← pow_mul]
      ring
    have htotal : read * 16 ^ (rest + 1) = read * 256 * 256 ^ after.length := by
      rw [pow_succ, hweight]
      ring
    have hvalues := split_of_lt (hout.trans htotal) hlow
    have hbytes := split_of_lt hvalues.1 hbyte
    rw [hvalues.2, hbytes.1, hweight]
    ring
  · rw [if_neg heven]
    have hrest : rest = 2 * after.length := by omega
    have hweight : 16 ^ rest = 256 ^ after.length := by
      rw [hrest, hsquare, ← pow_mul]
    have htotal : read * 16 ^ (rest + 1) = read * 16 * 256 ^ after.length := by
      rw [pow_succ, hweight]
      ring
    have hvalues := split_of_lt (hout.trans htotal) hlow
    have hempty : byte.toNat % 16 = 0 := by omega
    rw [nibble_or hempty hnibble, hvalues.2, hweight, ← hvalues.1]
    ring

/-- The value of a hexadecimal digit byte. -/
def nibbleValue (b : Byte) : ℕ := (nibbleOf b).toOption.elim 0 BitVec.toNat

/-- The value of digit bytes. -/
def digitsValue (hex : Bytes) : ℕ := Nat.ofDigits 16 (hex.map nibbleValue).reverse

/-- Every hexadecimal digit has a half-byte. -/
theorem nibbleOf_hexdigit {b : Byte} (h : isAsciiHexdigit b = true) :
    ∃ nibble, nibbleOf b = .ok nibble ∧ nibble.toNat = nibbleValue b ∧ nibble.toNat < 16 := by
  have hall : ∀ n < 256, isAsciiHexdigit (BitVec.ofNat 8 n) = true →
      (nibbleOf (BitVec.ofNat 8 n)).toOption.any fun nibble => nibble.toNat < 16 := by
    decide +kernel
  have hb := hall b.toNat b.isLt
  rw [BitVec.ofNat_toNat, BitVec.setWidth_eq] at hb
  have hany := hb h
  cases hnibble : nibbleOf b with
  | error error =>
    rw [hnibble] at hany
    cases hany
  | ok nibble =>
    rw [hnibble] at hany
    refine ⟨nibble, rfl, ?_, of_decide_eq_true hany⟩
    rw [nibbleValue, hnibble]
    rfl

/-- The hexadecimal loop appends the digits to the value read so far. -/
theorem hexLoop_value {size : ℕ} (digits : Bytes) {nibbleIndex read : ℕ} {out : FixedBytes size}
    (hindex : nibbleIndex + digits.length = size * 2) (hdigits : digits.all isAsciiHexdigit = true)
    (hout : out.value = read * 16 ^ digits.length) :
    ∃ result, hexLoop digits nibbleIndex out = .ok result ∧
      result.value = read * 16 ^ digits.length + digitsValue digits := by
  induction digits generalizing nibbleIndex read out with
  | nil =>
    refine ⟨out, rfl, ?_⟩
    rw [hout, digitsValue, List.map_nil, List.reverse_nil, Nat.ofDigits_nil, Nat.add_zero]
  | cons digit digits ih =>
    rw [List.all_cons, Bool.and_eq_true] at hdigits
    obtain ⟨nibble, hnibble, hvalue, hsmall⟩ := nibbleOf_hexdigit hdigits.1
    rw [List.length_cons] at hindex hout
    obtain ⟨next, hnext, hread⟩ := updateByte_nibble hindex hsmall hout
    have hrest : nibbleIndex + 1 + digits.length = size * 2 := by omega
    obtain ⟨result, hresult, hfinal⟩ := ih hrest hdigits.2 hread
    refine ⟨result, ?_, ?_⟩
    · simp only [hexLoop, bind_eq_ok, hnibble, hnext, hresult, Except.ok.injEq, exists_eq_left']
    · rw [hfinal, digitsValue, digitsValue, List.map_cons, ofDigits_reverse_cons, List.length_map,
        List.length_cons, pow_succ, hvalue]
      ring

/-- A character is a hexadecimal digit exactly when it is the byte of one. -/
theorem mem_hexDigits_iff (c : Char) :
    c ∈ hexDigits ↔ c.toNat < 128 ∧ isAsciiHexdigit (BitVec.ofNat 8 c.toNat) = true := by
  have hmem : ∀ c ∈ hexDigits, c.toNat < 128 ∧ isAsciiHexdigit (BitVec.ofNat 8 c.toNat) = true :=
    List.forall_iff_forall_mem.mp (by decide)
  have hbyte : ∀ n < 128, isAsciiHexdigit (BitVec.ofNat 8 n) = true → Char.ofNat n ∈ hexDigits := by
    decide
  constructor
  · exact hmem c
  · intro h
    have hchar := hbyte c.toNat h.1 h.2
    rw [Char.ofNat_toNat] at hchar
    exact hchar

/-- The byte of a hexadecimal digit has the digit's value. -/
theorem nibbleValue_hexDigit {c : Char} (h : c ∈ hexDigits) :
    nibbleValue (BitVec.ofNat 8 c.toNat) = hexDigit c := by
  have hall : ∀ c ∈ hexDigits, nibbleValue (BitVec.ofNat 8 c.toNat) = hexDigit c :=
    List.forall_iff_forall_mem.mp (by decide)
  exact hall c h

/-- A text of digits has one byte for each. -/
theorem textBytes_digits {hex : List Char} (h : ∀ c ∈ hex, c ∈ hexDigits) :
    textBytes hex = hex.map fun c => BitVec.ofNat 8 c.toNat :=
  textBytes_ascii fun c hc => ((mem_hexDigits_iff c).mp (h c hc)).1

/-- The bytes of a text are digits exactly when its characters are. -/
theorem all_isAsciiHexdigit (hex : List Char) :
    (textBytes hex).all isAsciiHexdigit = true ↔ ∀ c ∈ hex, c ∈ hexDigits := by
  have hkind : ∀ b, isAsciiHexdigit b = true → b.toNat < 128 := by
    intro b hb
    simp only [isAsciiHexdigit, Bool.or_eq_true, Bool.and_eq_true, decide_eq_true_eq] at hb
    omega
  simp only [textBytes_all hkind, mem_hexDigits_iff]

/-- The bytes of a text of digits have the value of the text. -/
theorem digitsValue_textBytes {hex : List Char} (h : ∀ c ∈ hex, c ∈ hexDigits) :
    digitsValue (textBytes hex) = hexValue hex := by
  rw [digitsValue, textBytes_digits h, List.map_map, hexValue]
  congr 2
  apply List.map_congr_left
  intro c hc
  exact nibbleValue_hexDigit (h c hc)

/-- The hexadecimal reader returns the value of every text of digits that is not too
long. -/
theorem parseHexFixed_value {size : ℕ} {hex : List Char} (hdigits : ∀ c ∈ hex, c ∈ hexDigits)
    (hlength : hex.length ≤ size * 2) :
    ∃ bytes, parseHexFixed size hex = .ok bytes ∧ bytes.value = hexValue hex := by
  have hwidth : (textBytes hex).length = hex.length := by
    rw [textBytes_digits hdigits, List.length_map]
  have hall := (all_isAsciiHexdigit hex).mpr hdigits
  have hindex : size * 2 - (textBytes hex).length + (textBytes hex).length = size * 2 := by
    omega
  have hzero : FixedBytes.value (List.Vector.replicate size 0) =
      0 * 16 ^ (textBytes hex).length := by
    rw [value_zero, Nat.zero_mul]
  obtain ⟨bytes, hloop, hvalue⟩ := hexLoop_value _ hindex hall hzero
  refine ⟨bytes, ?_, ?_⟩
  · rw [parseHexFixed, require_bind_eq_ok, require_bind_eq_ok]
    exact ⟨hwidth ▸ hlength, hall, hloop⟩
  · rw [hvalue, Nat.zero_mul, Nat.zero_add, digitsValue_textBytes hdigits]

/-- A text without whitespace is not trimmed. -/
theorem trim_eq_self {text : List Char} (h : ∀ c ∈ text, isWhitespace c = false) :
    trim text = text := by
  have hfront : text.dropWhile isWhitespace = text := by
    rw [List.dropWhile_eq_self_iff]
    intro hlength hspace
    rw [h _ (List.getElem_mem hlength)] at hspace
    cases hspace
  rw [trim, hfront, List.rdropWhile_eq_self_iff]
  intro hne hspace
  rw [h _ (List.getLast_mem hne)] at hspace
  cases hspace

/-- A marked hexadecimal text is read digit by digit behind its marker. -/
theorem parseFixedBytes_hex (size : ℕ) {marker : Char} (hmarker : marker = 'x' ∨ marker = 'X')
    {hex : List Char} (hdigits : ∀ c ∈ hex, c ∈ hexDigits) :
    parseFixedBytes size ('0' :: marker :: hex) = parseHexFixed size hex := by
  have hspaces : ∀ c ∈ hexDigits, isWhitespace c = false :=
    List.forall_iff_forall_mem.mp (by decide)
  have htrim : trim ('0' :: marker :: hex) = '0' :: marker :: hex := by
    apply trim_eq_self
    intro c hc
    rcases List.mem_cons.mp hc with hzero | hc
    · rw [hzero]
      rfl
    · rcases List.mem_cons.mp hc with hmark | hc
      · rw [hmark]
        rcases hmarker with hlower | hupper
        · rw [hlower]
          rfl
        · rw [hupper]
          rfl
      · exact hspaces c (hdigits c hc)
  rw [parseFixedBytes, htrim]
  rcases hmarker with hlower | hupper
  · rw [hlower]
    rfl
  · rw [hupper]
    rfl

/-- Two lower-case digits for each byte. -/
def lowerHex (bytes : Bytes) : List Char :=
  bytes.flatMap fun byte => [Nat.digitChar (byte.toNat / 16), Nat.digitChar (byte.toNat % 16)]

/-- The digits of written bytes have the bytes' value. -/
theorem hexValue_lowerHex (bytes : Bytes) : hexValue (lowerHex bytes) = bigEndianValue bytes ∧
    (lowerHex bytes).length = bytes.length * 2 ∧ ∀ c ∈ lowerHex bytes, c ∈ hexDigits := by
  have hdigit : ∀ n < 16, hexDigit (Nat.digitChar n) = n ∧ Nat.digitChar n ∈ hexDigits := by
    decide
  induction bytes with
  | nil =>
    refine ⟨rfl, rfl, ?_⟩
    intro c hc
    cases hc
  | cons byte bytes ih =>
    have hbyte := byte.isLt
    have hhigh := hdigit (byte.toNat / 16) (by omega)
    have hlow := hdigit (byte.toNat % 16) (by omega)
    obtain ⟨hvalue, hlength, hmem⟩ := ih
    rw [hexValue] at hvalue
    rw [lowerHex, List.flatMap_cons, ← lowerHex, List.cons_append, List.cons_append,
      List.nil_append]
    refine ⟨?_, ?_, ?_⟩
    · rw [hexValue, List.map_cons, List.map_cons, ofDigits_reverse_cons, ofDigits_reverse_cons,
        hvalue, hhigh.1, hlow.1, List.length_cons, List.length_map, hlength, bigEndianValue_cons,
        pow_succ, Nat.mul_comm bytes.length 2, pow_mul]
      have hsquare : (16 : ℕ) ^ 2 = 256 := by decide
      rw [hsquare, ← Nat.add_assoc, ← Nat.mul_assoc, Nat.mul_right_comm, ← Nat.add_mul]
      congr 2
      omega
    · rw [List.length_cons, List.length_cons, hlength, List.length_cons]
      omega
    · intro c hc
      rcases List.mem_cons.mp hc with hfirst | hc
      · exact hfirst ▸ hhigh.2
      · rcases List.mem_cons.mp hc with hsecond | hc
        · exact hsecond ▸ hlow.2
        · exact hmem c hc

/-- The text codec of fixed-width byte arrays: what is written is read back, every
marked hexadecimal text that is not too long is read as its value, and the decimal
reader returns the exact value of a text or refuses it, which it does exactly for
the empty text, for other characters and for values from two to the 256 on. -/
theorem fixedBytes_codec :
    (∀ size, ∀ bytes : FixedBytes size, parseFixedBytes size (fixedBytesToHex bytes) = .ok bytes) ∧
    (∀ size marker hex, marker = 'x' ∨ marker = 'X' → (∀ c ∈ hex, c ∈ hexDigits) →
      hex.length ≤ size * 2 → ∃ bytes, parseFixedBytes size ('0' :: marker :: hex) = .ok bytes ∧
        bytes.value = hexValue hex) ∧
    (∀ text bytes, parseDecimalU256 text = .ok bytes → bytes.value = decimalValue text) ∧
    ∀ text, (∃ error, parseDecimalU256 text = .error error) ↔
      text = [] ∨ (∃ c ∈ text, c.isDigit = false) ∨ 2 ^ 256 ≤ decimalValue text := by
  refine ⟨?_, ?_, ?_, parseDecimalU256_error_iff⟩
  · intro size bytes
    obtain ⟨hvalue, hlength, hdigits⟩ := hexValue_lowerHex bytes.toList
    rw [List.Vector.toList_length] at hlength
    obtain ⟨read, hread, hsame⟩ := parseHexFixed_value hdigits hlength.le
    rw [fixedBytesToHex, ← lowerHex, parseFixedBytes_hex size (Or.inl rfl) hdigits, hread]
    congr 1
    exact value_injective (hsame.trans hvalue)
  · intro size marker hex hmarker hdigits hlength
    rw [parseFixedBytes_hex size hmarker hdigits]
    exact parseHexFixed_value hdigits hlength
  · intro text bytes h
    exact (parseDecimalU256_eq_ok.mp h).2.2

/-- A short text with the other marker and mixed cases is read into twenty bytes. -/
theorem fixedBytes_codec_short : ∃ bytes, parseFixedBytes 20 "0XfF1".toList = .ok bytes ∧
    bytes.value = hexValue ['f', 'F', '1'] :=
  fixedBytes_codec.2.1 20 'X' ['f', 'F', '1'] (Or.inr rfl)
    (List.forall_iff_forall_mem.mp (by decide)) (by decide)

end EthereumSettlement.FixedBytesText
