import Mathlib.Data.Nat.Notation
import Mathlib.Data.List.Basic
import Mathlib.Tactic.Ring
import Mathlib.Tactic.Linarith
import Mathlib.Algebra.Order.Ring.Nat

/-!
# Big-endian byte strings and thirty-two-byte words

Byte strings are lists of eight-bit words. Every fixed-width value has one
big-endian encoding, and reading that encoding back at its own offset returns
the value. Sequences of 256-bit words are encoded without a length prefix, and
that encoding is injective across sequences of different lengths. Nothing in
this module mentions a particular program.
-/

namespace EthereumSettlement.ByteWords

/-- One byte. -/
abbrev Byte := BitVec 8

/-- A byte string, first byte first. -/
abbrev Bytes := List Byte

/-- Byte strings are compared lawfully. -/
instance bytesLawful : LawfulBEq Bytes := inferInstance

/-- The `n` low big-endian bytes of a natural value. -/
def bigEndian : ℕ → ℕ → Bytes
  | 0, _ => []
  | n + 1, value => BitVec.ofNat 8 (value / 256 ^ n) :: bigEndian n value

/-- The value of a big-endian byte string. -/
def bigEndianValue (bytes : Bytes) : ℕ := bytes.foldl (fun value byte => 256 * value + byte.toNat) 0

/-- An encoding has exactly its declared width. -/
@[simp] theorem bigEndian_length (n value : ℕ) : (bigEndian n value).length = n := by
  induction n with
  | zero => rfl
  | succ n ih => simp only [bigEndian, List.length_cons, ih]

/-- Reading from a nonzero accumulator shifts that accumulator past the string. -/
theorem foldl_bigEndianValue (bytes : Bytes) (start : ℕ) :
    bytes.foldl (fun value byte => 256 * value + byte.toNat) start =
      start * 256 ^ bytes.length + bigEndianValue bytes := by
  induction bytes generalizing start with
  | nil => simp [bigEndianValue]
  | cons byte bytes ih =>
    have hz := ih byte.toNat
    simp only [bigEndianValue, List.foldl_cons, List.length_cons, Nat.mul_zero, Nat.zero_add] at *
    rw [ih, hz, pow_succ]
    ring

/-- The first byte of a nonempty string has the highest weight. -/
theorem bigEndianValue_cons (byte : Byte) (bytes : Bytes) :
    bigEndianValue (byte :: bytes) = byte.toNat * 256 ^ bytes.length + bigEndianValue bytes := by
  have h := foldl_bigEndianValue bytes byte.toNat
  simpa only [bigEndianValue, List.foldl_cons, Nat.mul_zero, Nat.zero_add] using h

/-- Encoding and reading back reduces the value to the encoded width. -/
theorem bigEndianValue_bigEndian (n value : ℕ) : bigEndianValue (bigEndian n value) = value % 256 ^ n := by
  induction n with
  | zero => simp [bigEndian, bigEndianValue, Nat.mod_one]
  | succ n ih =>
    have hsplit := Nat.mod_mul (x := value) (a := 256 ^ n) (b := 256)
    rw [bigEndian, bigEndianValue_cons, bigEndian_length, ih, BitVec.toNat_ofNat,
      pow_succ 256 n, hsplit]
    ring

/-- A byte string denotes a value below its own width. -/
theorem bigEndianValue_lt (bytes : Bytes) : bigEndianValue bytes < 256 ^ bytes.length := by
  induction bytes with
  | nil => simp [bigEndianValue]
  | cons byte bytes ih =>
    rw [bigEndianValue_cons, List.length_cons, pow_succ]
    have hb : byte.toNat < 256 := byte.isLt
    nlinarith

/-- Every byte string is the encoding of its own value. -/
theorem bigEndian_bigEndianValue (bytes : Bytes) : bigEndian bytes.length (bigEndianValue bytes) = bytes := by
  induction bytes with
  | nil => rfl
  | cons byte bytes ih =>
    have hlt := bigEndianValue_lt bytes
    have hpos : 0 < 256 ^ bytes.length := Nat.pow_pos (by decide)
    have hdiv : bigEndianValue (byte :: bytes) / 256 ^ bytes.length = byte.toNat := by
      rw [bigEndianValue_cons, Nat.mul_comm, Nat.mul_add_div hpos, Nat.div_eq_of_lt hlt, Nat.add_zero]
    have hlow : ∀ n value extra : ℕ, bigEndian n (extra * 256 ^ n + value) = bigEndian n value := by
      intro n
      induction n with
      | zero => intro value extra; rfl
      | succ n ihn =>
        intro value extra
        have hsplit : extra * 256 ^ (n + 1) + value = (extra * 256) * 256 ^ n + value := by ring
        have hq : ((extra * 256) * 256 ^ n + value) / 256 ^ n = extra * 256 + value / 256 ^ n := by
          rw [Nat.mul_comm (extra * 256), Nat.mul_add_div (Nat.pow_pos (by decide))]
        rw [hsplit, bigEndian, bigEndian, ihn, hq]
        congr 1
        apply BitVec.eq_of_toNat_eq
        simp only [BitVec.toNat_ofNat]
        omega
    rw [List.length_cons, bigEndian, hdiv, bigEndianValue_cons, hlow, ih]
    congr 1
    apply BitVec.eq_of_toNat_eq
    simp only [BitVec.toNat_ofNat]
    exact Nat.mod_eq_of_lt byte.isLt

/-- Byte strings of one length and one value are equal. -/
theorem bytes_of_value {first second : Bytes} (hlength : first.length = second.length)
    (hvalue : bigEndianValue first = bigEndianValue second) : first = second := by
  rw [← bigEndian_bigEndianValue first, hlength, hvalue, bigEndian_bigEndianValue]

/-- The big-endian bytes of a machine word whose width is a multiple of eight. -/
def bytesOf {w : ℕ} (value : BitVec w) : Bytes := bigEndian (w / 8) value.toNat

/-- A machine word occupies exactly its width. -/
@[simp] theorem bytesOf_length {w : ℕ} (value : BitVec w) : (bytesOf value).length = w / 8 :=
  bigEndian_length _ _

/-- The machine word denoted by a byte string, reduced to its width. -/
def wordOf (w : ℕ) (bytes : Bytes) : BitVec w := BitVec.ofNat w (bigEndianValue bytes)

/-- A machine word is read back from its own bytes. -/
theorem wordOf_bytesOf {w : ℕ} (hw : 8 ∣ w) (value : BitVec w) : wordOf w (bytesOf value) = value := by
  obtain ⟨k, rfl⟩ := hw
  apply BitVec.eq_of_toNat_eq
  have hpow : 256 ^ (8 * k / 8) = 2 ^ (8 * k) := by
    rw [Nat.mul_div_cancel_left _ (by decide), pow_mul]
    rfl
  rw [wordOf, bytesOf, BitVec.toNat_ofNat, bigEndianValue_bigEndian, hpow, Nat.mod_mod,
    Nat.mod_eq_of_lt value.isLt]

/-- A byte string of the right width is the encoding of the word it denotes. -/
theorem bytesOf_wordOf {w : ℕ} (hw : 8 ∣ w) {bytes : Bytes} (h : bytes.length = w / 8) :
    bytesOf (wordOf w bytes) = bytes := by
  obtain ⟨k, rfl⟩ := hw
  have hk : 8 * k / 8 = k := Nat.mul_div_cancel_left _ (by decide)
  have hlt := bigEndianValue_lt bytes
  rw [h, hk, show (256 : ℕ) = 2 ^ 8 by rfl, ← pow_mul] at hlt
  rw [bytesOf, wordOf, BitVec.toNat_ofNat, Nat.mod_eq_of_lt hlt, ← h, bigEndian_bigEndianValue]

/-- Distinct machine words of one width have distinct bytes. -/
theorem bytesOf_injective {w : ℕ} (hw : 8 ∣ w) {a b : BitVec w} (h : bytesOf a = bytesOf b) :
    a = b := by
  rw [← wordOf_bytesOf hw a, h, wordOf_bytesOf hw]

/-- The bytes of a text constant, one byte for each of its ASCII characters. -/
def asciiBytes (text : String) : Bytes := text.toList.map fun c => BitVec.ofNat 8 c.toNat

/-- Concatenated 32-byte words: the static ABI encoding of a word sequence. -/
def abiEncode (words : List (BitVec 256)) : Bytes := words.flatMap bytesOf

/-- The encoding of a nonempty word sequence starts with its first word. -/
theorem abiEncode_cons (word : BitVec 256) (words : List (BitVec 256)) :
    abiEncode (word :: words) = bytesOf word ++ abiEncode words := List.flatMap_cons

/-- A word sequence occupies thirty-two bytes for each word. -/
theorem abiEncode_length (words : List (BitVec 256)) :
    (abiEncode words).length = 32 * words.length := by
  induction words with
  | nil => rfl
  | cons word words ih =>
    rw [abiEncode_cons, List.length_append, bytesOf_length, ih, List.length_cons]
    omega

/-- Distinct word sequences, of equal or different lengths, have distinct
encodings. -/
theorem abiEncode_injective {xs ys : List (BitVec 256)} (h : abiEncode xs = abiEncode ys) :
    xs = ys := by
  induction xs generalizing ys with
  | nil =>
    have hl := congrArg List.length h
    rw [abiEncode_length, abiEncode_length] at hl
    cases ys with
    | nil => rfl
    | cons y ys => simp only [List.length_nil, List.length_cons] at hl; omega
  | cons x xs ih =>
    cases ys with
    | nil =>
      have hl := congrArg List.length h
      rw [abiEncode_length, abiEncode_length] at hl
      simp only [List.length_nil, List.length_cons] at hl
      omega
    | cons y ys =>
      rw [abiEncode_cons, abiEncode_cons] at h
      obtain ⟨hxy, hrest⟩ := List.append_inj h (by simp)
      rw [bytesOf_injective (by decide) hxy, ih hrest]

/-- A machine word placed in a 256-bit word, as integers and addresses are. -/
def toWord {w : ℕ} (value : BitVec w) : BitVec 256 := BitVec.ofNat 256 value.toNat

/-- Values of at most 256 bits are determined by their word. -/
theorem toWord_injective {w : ℕ} (hw : w ≤ 256) {a b : BitVec w} (h : toWord a = toWord b) :
    a = b := by
  have hp : 2 ^ w ≤ 2 ^ 256 := Nat.pow_le_pow_right (by decide) hw
  have hn := congrArg BitVec.toNat h
  simp only [toWord, BitVec.toNat_ofNat] at hn
  rw [Nat.mod_eq_of_lt (lt_of_lt_of_le a.isLt hp),
    Nat.mod_eq_of_lt (lt_of_lt_of_le b.isLt hp)] at hn
  exact BitVec.eq_of_toNat_eq hn

/-- The bytes of a string between an offset and an offset plus a length. -/
def slice (bytes : Bytes) (offset length : ℕ) : Bytes := (bytes.drop offset).take length

/-- A slice at the start of a concatenation is its first part. -/
theorem slice_here {first rest : Bytes} {n : ℕ} (h : first.length = n) :
    slice (first ++ rest) 0 n = first := by
  rw [slice, List.drop_zero, ← h, List.take_left]

/-- A slice past the first part of a concatenation is a slice of the rest. -/
theorem slice_skip {first rest : Bytes} {offset n k : ℕ} (h : first.length = k) (hk : k ≤ offset) :
    slice (first ++ rest) offset n = slice rest (offset - k) n := by
  rw [slice, slice, List.drop_append, h, List.drop_eq_nil_of_le (by omega), List.nil_append]

/-- A slice within its string has its declared length. -/
theorem slice_length {bytes : Bytes} {offset n : ℕ} (h : offset + n ≤ bytes.length) :
    (slice bytes offset n).length = n := by
  rw [slice, List.length_take, List.length_drop]
  omega

/-- Adjacent slices concatenate. -/
theorem slice_append (bytes : Bytes) (offset m n : ℕ) :
    slice bytes offset m ++ slice bytes (offset + m) n = slice bytes offset (m + n) := by
  rw [slice, slice, slice, ← List.drop_drop, List.take_add]

/-- The machine word stored at an offset. -/
def readWord (w : ℕ) (bytes : Bytes) (offset : ℕ) : BitVec w :=
  wordOf w (slice bytes offset (w / 8))

/-- A word is read back where it was written. -/
theorem readWord_here {w : ℕ} (hw : 8 ∣ w) (value : BitVec w) (rest : Bytes) :
    readWord w (bytesOf value ++ rest) 0 = value := by
  rw [readWord, slice_here (bytesOf_length value), wordOf_bytesOf hw]

/-- Reading past the first part of a concatenation reads the rest. -/
theorem readWord_skip {w : ℕ} {first rest : Bytes} {offset k : ℕ} (h : first.length = k)
    (hk : k ≤ offset) : readWord w (first ++ rest) offset = readWord w rest (offset - k) := by
  rw [readWord, readWord, slice_skip h hk]

/-- A word that ends its string is read back. -/
theorem readWord_bytesOf {w : ℕ} (hw : 8 ∣ w) (value : BitVec w) :
    readWord w (bytesOf value) 0 = value := by
  have h := readWord_here hw value []
  rwa [List.append_nil] at h

/-- Reading past a leading machine word reads the rest. -/
theorem readWord_skip_word {w v : ℕ} (value : BitVec v) (rest : Bytes) {offset : ℕ}
    (h : v / 8 ≤ offset) :
    readWord w (bytesOf value ++ rest) offset = readWord w rest (offset - v / 8) :=
  readWord_skip (bytesOf_length value) h

/-- The words of a leading word sequence are read back at their positions. -/
theorem readWord_abiEncode (words : List (BitVec 256)) (rest : Bytes) (i : ℕ)
    (hi : i < words.length) : readWord 256 (abiEncode words ++ rest) (32 * i) = words[i] := by
  induction words generalizing i with
  | nil => simp at hi
  | cons word words ih =>
    rw [abiEncode_cons, List.append_assoc]
    cases i with
    | zero => exact readWord_here (by decide) word _
    | succ i =>
      rw [readWord_skip_word word _ (by omega), show 32 * (i + 1) - 256 / 8 = 32 * i by omega]
      exact ih i (by simpa using hi)

/-- Re-encoding the word at an offset gives the bytes stored there. -/
theorem bytesOf_readWord {w : ℕ} (hw : 8 ∣ w) {bytes : Bytes} {offset : ℕ}
    (h : offset + w / 8 ≤ bytes.length) :
    bytesOf (readWord w bytes offset) = slice bytes offset (w / 8) :=
  bytesOf_wordOf hw (slice_length h)

end EthereumSettlement.ByteWords
