import Mathlib.Data.Nat.Size
import Mathlib.Data.ZMod.Basic
import EthereumSettlement.HexTexts
import EthereumSettlement.PastaPoseidon

/-!
# Scalars of the proof skeleton

The JSON of a Pickles proof spells a field element as big-endian hexadecimal digits
or as little-endian limbs of 64 signed bits, and the domain size as a text of one
character. All field elements go through one helper, which resizes the little-endian
bytes to the width of the field before the checked reader sees them. Resizing pads a
short value and drops the high bytes of a long one, so a text or a list of limbs is
read exactly unless it denotes a value above that width whose low bytes are below
the modulus. JSON values are read through their accessors, whatever they are.
-/

namespace EthereumSettlement.SkeletonScalars

open ByteWords CheckedCalls FixedBytesText HexTexts PastaPoseidon

/-- `size_in_bytes`: the bytes of a field of this modulus. -/
def sizeInBytes (p : ℕ) : ℕ := Nat.size p / 8 + if Nat.size p % 8 = 0 then 0 else 1

/-- The value of a little-endian byte string. -/
def littleEndianValue (bytes : Bytes) : ℕ := bigEndianValue bytes.reverse

/-- `Vec::resize` with zeros. -/
def resize (bytes : Bytes) (size : ℕ) : Bytes :=
  bytes.take size ++ List.replicate (size - bytes.length) 0

/-- `FieldHelpers::from_bytes`: the checked little-endian reader. -/
def fromBytes (p : ℕ) (bytes : Bytes) : Except String (ZMod p) := do
  require (littleEndianValue bytes < p) "field deserialize: DeserializeBytes"
  pure (littleEndianValue bytes : ZMod p)

/-- `field_from_le`. -/
def fieldFromLe (p : ℕ) (le : Bytes) : Except String (ZMod p) :=
  fromBytes p (resize le (sizeInBytes p))

/-- The digits of a text behind the optional marker. -/
def unmarked (text : List Char) : List Char := (stripPrefix ['0', 'x'] text).getD text

/-- `parse_field_be_hex`. -/
def parseFieldBeHex [HexCrate] (p : ℕ) (text : List Char) : Except String (ZMod p) := do
  let bytes ← HexCrate.decode (textBytes (unmarked text))
  fieldFromLe p bytes.reverse

/-- `serde_json::Value`, which is read through its accessors only. -/
class SerdeValue (V : Type) where
  /-- `as_i64`, with the bits of the integer. -/
  asI64 : V → Option (BitVec 64)
  /-- `as_str`. -/
  asStr : V → Option (List Char)
  /-- `as_array`. -/
  asArray : V → Option (List V)
  /-- `get` with a key. -/
  get : V → String → Option V

open SerdeValue

variable {V : Type} [SerdeValue V]

/-- `ok_or_else`. -/
def okOrElse {α : Type} (value : Option α) (error : String) : Except String α :=
  match value with
  | some value => pure value
  | none => throw error

/-- A value is there. -/
@[simp] theorem okOrElse_eq_ok {α : Type} {value : Option α} {error : String} {result : α} :
    okOrElse value error = .ok result ↔ value = some result := by
  cases value <;> simp [okOrElse]

/-- `field`. -/
def field (v : V) (key : String) : Except String V :=
  okOrElse (get v key) s!"missing key `{key}`"

/-- The little-endian bytes of one limb. -/
def limbBytes (limb : V) : Except String Bytes := do
  let bits ← okOrElse (asI64 limb) "limb: not an int64"
  pure (bytesOf bits).reverse

/-- `combine_limbs_le`. -/
def combineLimbsLe (p : ℕ) (limbs : List V) : Except String (ZMod p) := do
  let le ← limbs.mapM limbBytes
  fieldFromLe p le.flatten

/-- The limbs of a challenge, raw or behind `inner`. -/
def challengeLimbs (v : V) : Except String (List V) :=
  match asArray v with
  | some limbs => pure limbs
  | none => do
    let inner ← field v "inner"
    okOrElse (asArray inner) "scalar challenge: `inner` not an array"

/-- `challenge`. -/
def challenge (p : ℕ) (v : V) : Except String (ZMod p) := do
  let limbs ← challengeLimbs v
  combineLimbsLe p limbs

/-- `ocaml_byte`. -/
def ocamlByte (v : V) : Except String Byte := do
  let text ← okOrElse (asStr v) "domain_log2: expected string"
  let c ← okOrElse text.head? "domain_log2: empty string"
  pure (BitVec.ofNat 8 c.toNat)

/-- The text spells whole bytes in hexadecimal digits, of this value. -/
structure HexNumber (text : List Char) (value : ℕ) : Prop where
  /-- Every character is a digit. -/
  digits : ∀ c ∈ unmarked text, c ∈ hexDigits
  /-- There are two digits for each byte. -/
  whole : (unmarked text).length % 2 = 0
  /-- The digits spell the value. -/
  value_eq : value = hexValue (unmarked text)

/-- The value of little-endian limbs. -/
def limbsValue (limbs : List (BitVec 64)) : ℕ := Nat.ofDigits (2 ^ 64) (limbs.map BitVec.toNat)

/-- The values are limbs of 64 signed bits. -/
def Int64s (values : List V) (limbs : List (BitVec 64)) : Prop :=
  List.Forall₂ (fun value limb => asI64 value = some limb) values limbs

/-- The parser returns a value below the modulus as it is and refuses every other one. -/
def Exact (p value : ℕ) (result : Except String (ZMod p)) : Prop :=
  (value < p ∧ result = .ok (value : ZMod p)) ∨ (p ≤ value ∧ ¬ Succeeds result)

/-- Resizing keeps the value, or what it keeps is refused as well. -/
def Kept (p value : ℕ) : Prop := value < 256 ^ sizeInBytes p ∨ p ≤ value % 256 ^ sizeInBytes p

/-- A challenge carries limbs of 64 signed bits. -/
def ChallengeLimbs (v : V) (limbs : List (BitVec 64)) : Prop :=
  ∃ values, challengeLimbs v = .ok values ∧ Int64s values limbs

/-- A hexadecimal text is read exactly, and any other text is refused. -/
def HexExact [HexCrate] (p : ℕ) (text : List Char) : Prop :=
  (∀ value, HexNumber text value → Exact p value (parseFieldBeHex p text)) ∧
    ((∀ value, ¬ HexNumber text value) → ¬ Succeeds (parseFieldBeHex p text))

/-- Limbs are read exactly, and any other list is refused. -/
def LimbsExact (p : ℕ) (values : List V) : Prop :=
  (∀ limbs, Int64s values limbs → Exact p (limbsValue limbs) (combineLimbsLe p values)) ∧
    ((∀ limbs, ¬ Int64s values limbs) → ¬ Succeeds (combineLimbsLe p values))

/-- An accepted challenge has a value below `2^128`. -/
def ChallengeExact (p : ℕ) (v : V) : Prop :=
  ∀ x, challenge p v = .ok x → ∃ limbs, ChallengeLimbs v limbs ∧ limbsValue limbs < 2 ^ 128

/-- A byte is read from one character that is its code, and from nothing else. -/
def ByteExact (v : V) : Prop :=
  ∀ byte : Byte, ocamlByte v = .ok byte ↔ ∃ c, asStr v = some [c] ∧ c.toNat = byte.toNat

/-- The first byte of a little-endian string has the lowest weight. -/
theorem littleEndianValue_append (first second : Bytes) :
    littleEndianValue (first ++ second) =
      littleEndianValue first + 256 ^ first.length * littleEndianValue second := by
  rw [littleEndianValue, List.reverse_append, bigEndianValue_append, List.length_reverse]
  rw [littleEndianValue, littleEndianValue]
  ring

/-- A little-endian string denotes a value below its own width. -/
theorem littleEndianValue_lt (bytes : Bytes) : littleEndianValue bytes < 256 ^ bytes.length := by
  have hlt := bigEndianValue_lt bytes.reverse
  rw [List.length_reverse] at hlt
  exact hlt

/-- High zeros add nothing. -/
theorem littleEndianValue_replicate (count : ℕ) :
    littleEndianValue (List.replicate count 0) = 0 := by
  rw [littleEndianValue, List.reverse_replicate, bigEndianValue_replicate]

/-- Resizing keeps the low bytes of the value. -/
theorem littleEndianValue_resize (bytes : Bytes) (size : ℕ) :
    littleEndianValue (resize bytes size) = littleEndianValue bytes % 256 ^ size := by
  rw [resize, littleEndianValue_append, littleEndianValue_replicate, Nat.mul_zero, Nat.add_zero]
  have hsplit := littleEndianValue_append (bytes.take size) (bytes.drop size)
  rw [List.take_append_drop] at hsplit
  have hlt := littleEndianValue_lt (bytes.take size)
  by_cases hlong : size ≤ bytes.length
  · have hlength : (bytes.take size).length = size := List.length_take_of_le hlong
    rw [hlength] at hsplit hlt
    rw [hsplit, Nat.add_mul_mod_self_left, Nat.mod_eq_of_lt hlt]
  · have hshort : bytes.length ≤ size := by omega
    have htake : bytes.take size = bytes := List.take_of_length_le hshort
    rw [htake] at hlt ⊢
    have hpow : 256 ^ bytes.length ≤ 256 ^ size := Nat.pow_le_pow_right (by decide) hshort
    exact (Nat.mod_eq_of_lt (by omega)).symm

/-- The helper returns the low bytes of the value when they are below the modulus. -/
theorem fieldFromLe_eq_ok {p : ℕ} {bytes : Bytes} {x : ZMod p} :
    fieldFromLe p bytes = .ok x ↔ littleEndianValue bytes % 256 ^ sizeInBytes p < p ∧
      ((littleEndianValue bytes % 256 ^ sizeInBytes p : ℕ) : ZMod p) = x := by
  rw [fieldFromLe, fromBytes, require_bind_eq_ok, pure_eq_ok, littleEndianValue_resize]

/-- The helper succeeds exactly when the low bytes are below the modulus. -/
theorem fieldFromLe_succeeds {p : ℕ} {bytes : Bytes} :
    Succeeds (fieldFromLe p bytes) ↔ littleEndianValue bytes % 256 ^ sizeInBytes p < p := by
  constructor
  · intro h
    obtain ⟨x, hx⟩ := h
    exact (fieldFromLe_eq_ok.mp hx).1
  · intro h
    exact ⟨_, fieldFromLe_eq_ok.mpr ⟨h, rfl⟩⟩

/-- The helper is exact exactly on the values that resizing keeps. -/
theorem fieldFromLe_exact_iff (p : ℕ) (bytes : Bytes) :
    Exact p (littleEndianValue bytes) (fieldFromLe p bytes) ↔ Kept p (littleEndianValue bytes) := by
  rw [Exact, Kept, fieldFromLe_succeeds, fieldFromLe_eq_ok]
  generalize littleEndianValue bytes = value
  have hle : value % 256 ^ sizeInBytes p ≤ value := Nat.mod_le _ _
  have hwidth : value % 256 ^ sizeInBytes p < 256 ^ sizeInBytes p :=
    Nat.mod_lt _ (Nat.pow_pos (by decide))
  constructor
  · intro h
    rcases h with ⟨hbelow, hkept, hsame⟩ | ⟨-, hrefused⟩
    · have hmod := (ZMod.natCast_eq_natCast_iff' _ _ _).mp hsame
      rw [Nat.mod_eq_of_lt hkept, Nat.mod_eq_of_lt hbelow] at hmod
      exact Or.inl (by omega)
    · exact Or.inr (by omega)
  · intro h
    rcases h with hfits | hrefused
    · rw [Nat.mod_eq_of_lt hfits]
      by_cases hbelow : value < p
      · exact Or.inl ⟨hbelow, hbelow, rfl⟩
      · exact Or.inr ⟨by omega, hbelow⟩
    · exact Or.inr ⟨by omega, by omega⟩

/-- A text of whole bytes is decoded to the bytes of its value. -/
theorem decode_of_number [HexCrate] {text : List Char} {value : ℕ} (h : HexNumber text value) :
    ∃ bytes, HexCrate.decode (textBytes (unmarked text)) = .ok bytes ∧
      bigEndianValue bytes = value := by
  obtain ⟨bytes, hread, hvalue, -⟩ :=
    HexCrate.decode_of_digits ((hexDigits_textBytes _).mpr ⟨h.digits, h.whole⟩)
  refine ⟨bytes, hread, ?_⟩
  rw [hvalue, digitsValue_textBytes h.digits, h.value_eq]

/-- Every other text is refused. -/
theorem number_of_decode [HexCrate] {text : List Char} {bytes : Bytes}
    (h : HexCrate.decode (textBytes (unmarked text)) = .ok bytes) :
    HexNumber text (hexValue (unmarked text)) := by
  obtain ⟨hdigits, hwhole⟩ := (hexDigits_textBytes _).mp (HexCrate.digits_of_decode h)
  exact ⟨hdigits, hwhole, rfl⟩

/-- The bytes of a limb in little-endian order have its value. -/
theorem littleEndianValue_limb (limb : BitVec 64) :
    littleEndianValue (bytesOf limb).reverse = limb.toNat := by
  rw [littleEndianValue, List.reverse_reverse, bytesOf, bigEndianValue_bigEndian]
  exact Nat.mod_eq_of_lt limb.isLt

/-- The joined bytes of limbs have the value of the limbs. -/
theorem littleEndianValue_limbs (limbs : List (BitVec 64)) :
    littleEndianValue (limbs.map fun limb => (bytesOf limb).reverse).flatten = limbsValue limbs := by
  induction limbs with
  | nil => rfl
  | cons limb limbs ih =>
    rw [List.map_cons, List.flatten_cons, littleEndianValue_append, littleEndianValue_limb, ih,
      limbsValue, limbsValue, List.map_cons, Nat.ofDigits_cons, List.length_reverse, bytesOf_length]
    rfl

/-- The bytes of values are read exactly when the values are limbs. -/
theorem limbBytes_eq_ok {values : List V} {bytes : List Bytes} :
    values.mapM limbBytes = .ok bytes ↔ ∃ limbs, Int64s values limbs ∧
      bytes = limbs.map fun limb => (bytesOf limb).reverse := by
  rw [mapM_eq_ok]
  induction values generalizing bytes with
  | nil =>
    constructor
    · intro h
      cases h
      exact ⟨[], List.Forall₂.nil, rfl⟩
    · intro h
      obtain ⟨limbs, hlimbs, rfl⟩ := h
      cases hlimbs
      exact List.Forall₂.nil
  | cons value values ih =>
    constructor
    · intro h
      cases h with
      | cons hfirst hrest =>
        obtain ⟨limbs, hlimbs, rfl⟩ := ih.mp hrest
        rw [limbBytes, bind_eq_ok] at hfirst
        obtain ⟨limb, hlimb, hbytes⟩ := hfirst
        refine ⟨limb :: limbs, List.Forall₂.cons (okOrElse_eq_ok.mp hlimb) hlimbs, ?_⟩
        rw [← pure_eq_ok.mp hbytes, List.map_cons]
    · intro h
      obtain ⟨limbs, hlimbs, rfl⟩ := h
      cases hlimbs with
      | cons hfirst hrest =>
        refine List.Forall₂.cons ?_ (ih.mpr ⟨_, hrest, rfl⟩)
        rw [limbBytes, bind_eq_ok]
        exact ⟨_, okOrElse_eq_ok.mpr hfirst, rfl⟩

/-- Limbs are handed to the shared helper as one byte string of their value. -/
theorem combineLimbsLe_of_limbs {values : List V} {limbs : List (BitVec 64)}
    (h : Int64s values limbs) (p : ℕ) : ∃ bytes,
      combineLimbsLe p values = fieldFromLe p bytes ∧ littleEndianValue bytes = limbsValue limbs := by
  have hread := limbBytes_eq_ok.mpr ⟨limbs, h, rfl⟩
  refine ⟨_, ?_, littleEndianValue_limbs limbs⟩
  rw [combineLimbsLe, hread]
  rfl

/-- Accepted values are limbs. -/
theorem limbs_of_combineLimbsLe {p : ℕ} {values : List V} {x : ZMod p}
    (h : combineLimbsLe p values = .ok x) : ∃ limbs, Int64s values limbs := by
  rw [combineLimbsLe, bind_eq_ok] at h
  obtain ⟨bytes, hbytes, -⟩ := h
  obtain ⟨limbs, hlimbs, -⟩ := limbBytes_eq_ok.mp hbytes
  exact ⟨limbs, hlimbs⟩

/-- The limbs of values are determined. -/
theorem Int64s.unique {values : List V} {first second : List (BitVec 64)}
    (h1 : Int64s values first) (h2 : Int64s values second) : first = second := by
  induction h1 generalizing second with
  | nil =>
    cases h2
    rfl
  | cons hfirst hrest ih =>
    cases h2 with
    | cons hsecond hothers =>
      rw [ih hothers, Option.some.inj (hfirst.symm.trans hsecond)]

/-- A challenge with limbs succeeds exactly when their low bytes are below the modulus. -/
theorem challenge_succeeds {p : ℕ} {v : V} {limbs : List (BitVec 64)}
    (h : ChallengeLimbs v limbs) :
    Succeeds (challenge p v) ↔ limbsValue limbs % 256 ^ sizeInBytes p < p := by
  obtain ⟨values, hvalues, hlimbs⟩ := h
  obtain ⟨bytes, hcombine, hvalue⟩ := combineLimbsLe_of_limbs hlimbs p
  have hcall : challenge p v = combineLimbsLe p values := by
    rw [challenge, hvalues]
    rfl
  rw [hcall, hcombine, fieldFromLe_succeeds, hvalue]

/-- A raw challenge is the list of its limbs. -/
theorem challenge_of_array {v : V} {limbs : List V} (h : asArray v = some limbs) (p : ℕ) :
    challenge p v = combineLimbsLe p limbs := by
  rw [challenge, challengeLimbs, h]
  rfl

/-- An accepted challenge has limbs. -/
theorem limbs_of_challenge {p : ℕ} {v : V} {x : ZMod p} (h : challenge p v = .ok x) :
    ∃ limbs, ChallengeLimbs v limbs := by
  rw [challenge, bind_eq_ok] at h
  obtain ⟨values, hvalues, hcombine⟩ := h
  obtain ⟨limbs, hlimbs⟩ := limbs_of_combineLimbsLe hcombine
  exact ⟨limbs, values, hvalues, hlimbs⟩

/-- The limbs of a challenge are determined. -/
theorem ChallengeLimbs.unique {v : V} {first second : List (BitVec 64)}
    (h1 : ChallengeLimbs v first) (h2 : ChallengeLimbs v second) : first = second := by
  obtain ⟨values, hvalues, hfirst⟩ := h1
  obtain ⟨others, hothers, hsecond⟩ := h2
  have hsame : others = values := Except.ok.inj (hothers.symm.trans hvalues)
  exact hfirst.unique (hsame ▸ hsecond)

/-- A text of whole bytes is handed to the shared helper as bytes of its value. -/
theorem parseFieldBeHex_of_number [HexCrate] {text : List Char} {value : ℕ}
    (h : HexNumber text value) (p : ℕ) : ∃ bytes,
      parseFieldBeHex p text = fieldFromLe p bytes ∧ littleEndianValue bytes = value := by
  obtain ⟨bytes, hdecode, hvalue⟩ := decode_of_number h
  refine ⟨bytes.reverse, ?_, ?_⟩
  · rw [parseFieldBeHex, hdecode]
    rfl
  · rw [littleEndianValue, List.reverse_reverse, hvalue]

/-- A hexadecimal text is read exactly when resizing keeps its value. -/
theorem hexExact_iff [HexCrate] (p : ℕ) (text : List Char) :
    HexExact p text ↔ ∀ value, HexNumber text value → Kept p value := by
  constructor
  · intro h value hnumber
    obtain ⟨bytes, hparse, hvalue⟩ := parseFieldBeHex_of_number hnumber p
    have hexact := h.1 value hnumber
    rw [hparse, ← hvalue] at hexact
    have hkept := (fieldFromLe_exact_iff p bytes).mp hexact
    rwa [hvalue] at hkept
  · intro h
    constructor
    · intro value hnumber
      obtain ⟨bytes, hparse, hvalue⟩ := parseFieldBeHex_of_number hnumber p
      have hkept := h value hnumber
      rw [hparse, ← hvalue]
      rw [← hvalue] at hkept
      exact (fieldFromLe_exact_iff p bytes).mpr hkept
    · intro hnone haccepted
      obtain ⟨x, hx⟩ := haccepted
      rw [parseFieldBeHex, bind_eq_ok] at hx
      obtain ⟨bytes, hdecode, -⟩ := hx
      exact hnone _ (number_of_decode hdecode)

/-- Limbs are read exactly when resizing keeps their value. -/
theorem limbsExact_iff (p : ℕ) (values : List V) :
    LimbsExact p values ↔ ∀ limbs, Int64s values limbs → Kept p (limbsValue limbs) := by
  constructor
  · intro h limbs hlimbs
    obtain ⟨bytes, hcombine, hvalue⟩ := combineLimbsLe_of_limbs hlimbs p
    have hexact := h.1 limbs hlimbs
    rw [hcombine, ← hvalue] at hexact
    have hkept := (fieldFromLe_exact_iff p bytes).mp hexact
    rwa [hvalue] at hkept
  · intro h
    constructor
    · intro limbs hlimbs
      obtain ⟨bytes, hcombine, hvalue⟩ := combineLimbsLe_of_limbs hlimbs p
      have hkept := h limbs hlimbs
      rw [hcombine, ← hvalue]
      rw [← hvalue] at hkept
      exact (fieldFromLe_exact_iff p bytes).mpr hkept
    · intro hnone haccepted
      obtain ⟨x, hx⟩ := haccepted
      obtain ⟨limbs, hlimbs⟩ := limbs_of_combineLimbsLe hx
      exact hnone limbs hlimbs

/-- Only small challenges are accepted exactly when the limbs are small or refused. -/
theorem challengeExact_iff (p : ℕ) (v : V) :
    ChallengeExact p v ↔ ∀ limbs, ChallengeLimbs v limbs →
      limbsValue limbs < 2 ^ 128 ∨ p ≤ limbsValue limbs % 256 ^ sizeInBytes p := by
  constructor
  · intro h limbs hlimbs
    by_cases hkept : limbsValue limbs % 256 ^ sizeInBytes p < p
    · obtain ⟨x, hx⟩ := (challenge_succeeds hlimbs).mpr hkept
      obtain ⟨others, hothers, hsmall⟩ := h x hx
      rw [hothers.unique hlimbs] at hsmall
      exact Or.inl hsmall
    · exact Or.inr (by omega)
  · intro h x hx
    obtain ⟨limbs, hlimbs⟩ := limbs_of_challenge hx
    have hkept := (challenge_succeeds hlimbs).mp ⟨x, hx⟩
    have hsmall := h limbs hlimbs
    exact ⟨limbs, hlimbs, by omega⟩

/-- A byte is what is read of the first character. -/
theorem ocamlByte_eq_ok {v : V} {byte : Byte} : ocamlByte v = .ok byte ↔
    ∃ c rest, asStr v = some (c :: rest) ∧ BitVec.ofNat 8 c.toNat = byte := by
  simp only [ocamlByte, bind_eq_ok, okOrElse_eq_ok, pure_eq_ok]
  constructor
  · intro h
    obtain ⟨text, hv, c, hc, hbyte⟩ := h
    obtain ⟨rest, rfl⟩ := List.head?_eq_some_iff.mp hc
    exact ⟨c, rest, hv, hbyte⟩
  · intro h
    obtain ⟨c, rest, hv, hbyte⟩ := h
    exact ⟨c :: rest, hv, c, rfl, hbyte⟩

/-- Bytes are read exactly from the empty text and from one character below 256. -/
theorem byteExact_iff (v : V) : ByteExact v ↔
    ∀ text, asStr v = some text → text = [] ∨ ∃ c, text = [c] ∧ c.toNat < 256 := by
  constructor
  · intro h text htext
    cases text with
    | nil => exact Or.inl rfl
    | cons c rest =>
      obtain ⟨d, hd, hcode⟩ := (h (BitVec.ofNat 8 c.toNat)).mp (ocamlByte_eq_ok.mpr ⟨c, rest, htext, rfl⟩)
      have hsame : c :: rest = [d] := Option.some.inj (htext.symm.trans hd)
      rw [List.cons.injEq] at hsame
      obtain ⟨rfl, rfl⟩ := hsame
      have hlt := (BitVec.ofNat 8 c.toNat).isLt
      exact Or.inr ⟨c, rfl, by omega⟩
  · intro h byte
    constructor
    · intro hbyte
      obtain ⟨c, rest, hv, hcode⟩ := ocamlByte_eq_ok.mp hbyte
      rcases h _ hv with hempty | ⟨d, hd, hsmall⟩
      · exact absurd hempty (List.cons_ne_nil c rest)
      · rw [List.cons.injEq] at hd
        obtain ⟨rfl, rfl⟩ := hd
        refine ⟨c, hv, ?_⟩
        rw [← hcode, BitVec.toNat_ofNat]
        omega
    · intro hbyte
      obtain ⟨c, hv, hcode⟩ := hbyte
      refine ocamlByte_eq_ok.mpr ⟨c, [], hv, ?_⟩
      rw [hcode, BitVec.ofNat_toNat, BitVec.setWidth_eq]

/-- Which inputs the scalar parsers read exactly: texts and limbs whose value resizing
keeps or whose low bytes are refused as well, challenges below `2^128` or refused, and
texts of at most one character, below 256. -/
theorem scalars_exact_iff [HexCrate] (p : ℕ) :
    (∀ text, HexExact p text ↔ ∀ value, HexNumber text value → Kept p value) ∧
    (∀ values : List V, LimbsExact p values ↔
      ∀ limbs, Int64s values limbs → Kept p (limbsValue limbs)) ∧
    (∀ v : V, ChallengeExact p v ↔ ∀ limbs, ChallengeLimbs v limbs →
      limbsValue limbs < 2 ^ 128 ∨ p ≤ limbsValue limbs % 256 ^ sizeInBytes p) ∧
    ∀ v : V, ByteExact v ↔
      ∀ text, asStr v = some text → text = [] ∨ ∃ c, text = [c] ∧ c.toNat < 256 :=
  ⟨hexExact_iff p, limbsExact_iff p, challengeExact_iff p, byteExact_iff⟩

/-- The field has 32 bytes. -/
theorem sizeInBytes_fieldOrder : sizeInBytes fieldOrder = 32 := by
  have hbits : Nat.size fieldOrder = 255 := by
    apply Nat.le_antisymm
    · exact Nat.size_le.mpr (by decide)
    · exact Nat.lt_size.mpr (by decide)
  rw [sizeInBytes, hbits]
  rfl

/-- A JSON number: an integer of either sign, or a float. -/
inductive Number
  | posInt (value : BitVec 64)
  | negInt (value : BitVec 64)
  | float (bits : BitVec 64)
  deriving DecidableEq

/-- A JSON value. -/
inductive Value
  | null
  | bool (value : Bool)
  | number (value : Number)
  | string (value : List Char)
  | array (values : List Value)
  | object (entries : List (String × Value))

/-- The accessors as they are documented. -/
instance : SerdeValue Value where
  asI64
    | .number (.posInt value) => if value.toNat < 2 ^ 63 then some value else none
    | .number (.negInt value) => some value
    | _ => none
  asStr
    | .string value => some value
    | _ => none
  asArray
    | .array values => some values
    | _ => none
  get
    | .object entries, key => (entries.find? fun entry => entry.1 = key).map Prod.snd
    | _, _ => none

attribute [local instance] asciiHex

/-- A limb of the value one. -/
def oneLimb : Value := .number (.posInt 1)

/-- A limb of the value zero. -/
def zeroLimb : Value := .number (.posInt 0)

/-- One byte and 32 zero bytes, five limbs with only the highest set, three such limbs
as a challenge, and two characters are all accepted: the first two as zero, the
challenge as `2^128`, and the text as its first character. -/
theorem scalars_truncated :
    (parseFieldBeHex fieldOrder ("0x01".toList ++ List.replicate 64 '0') = .ok 0 ∧
      ¬ HexExact fieldOrder ("0x01".toList ++ List.replicate 64 '0')) ∧
    (combineLimbsLe fieldOrder [zeroLimb, zeroLimb, zeroLimb, zeroLimb, oneLimb] = .ok 0 ∧
      ¬ LimbsExact fieldOrder [zeroLimb, zeroLimb, zeroLimb, zeroLimb, oneLimb]) ∧
    (challenge fieldOrder (Value.array [zeroLimb, zeroLimb, oneLimb]) = .ok (2 ^ 128) ∧
      ¬ ChallengeExact fieldOrder (Value.array [zeroLimb, zeroLimb, oneLimb])) ∧
    ocamlByte (Value.string ['A', 'B']) = .ok 0x41 ∧ ¬ ByteExact (Value.string ['A', 'B']) := by
  have hlong : HexNumber ("0x01".toList ++ List.replicate 64 '0') (2 ^ 256) :=
    ⟨List.forall_iff_forall_mem.mp (by decide +kernel), by decide +kernel, by decide +kernel⟩
  have hfive : Int64s [zeroLimb, zeroLimb, zeroLimb, zeroLimb, oneLimb] [0, 0, 0, 0, 1] :=
    .cons rfl (.cons rfl (.cons rfl (.cons rfl (.cons rfl .nil))))
  have hthree : Int64s [zeroLimb, zeroLimb, oneLimb] [0, 0, 1] :=
    .cons rfl (.cons rfl (.cons rfl .nil))
  obtain ⟨bytes, hparse, hvalue⟩ := parseFieldBeHex_of_number hlong fieldOrder
  obtain ⟨fiveBytes, hfiveParse, hfiveValue⟩ := combineLimbsLe_of_limbs hfive fieldOrder
  obtain ⟨threeBytes, hthreeParse, hthreeValue⟩ := combineLimbsLe_of_limbs hthree fieldOrder
  refine ⟨⟨?_, ?_⟩, ⟨?_, ?_⟩, ⟨?_, ?_⟩, ?_, ?_⟩
  · rw [hparse, fieldFromLe_eq_ok, hvalue, sizeInBytes_fieldOrder]
    decide
  · rw [hexExact_iff]
    intro h
    have hkept := h _ hlong
    rw [Kept, sizeInBytes_fieldOrder] at hkept
    exact absurd hkept (by decide)
  · rw [hfiveParse, fieldFromLe_eq_ok, hfiveValue, sizeInBytes_fieldOrder]
    decide
  · rw [limbsExact_iff]
    intro h
    have hkept := h _ hfive
    rw [Kept, sizeInBytes_fieldOrder] at hkept
    exact absurd hkept (by decide)
  · have hmod : limbsValue [0, 0, 1] % 256 ^ 32 = 2 ^ 128 := by decide
    rw [challenge_of_array rfl, hthreeParse, fieldFromLe_eq_ok, hthreeValue,
      sizeInBytes_fieldOrder, hmod]
    refine ⟨by decide, ?_⟩
    rw [Nat.cast_pow, Nat.cast_ofNat]
  · rw [challengeExact_iff]
    intro h
    have hsmall := h _ ⟨_, rfl, hthree⟩
    rw [sizeInBytes_fieldOrder] at hsmall
    exact absurd hsmall (by decide)
  · rfl
  · rw [byteExact_iff]
    intro h
    rcases h _ rfl with hempty | ⟨c, hc, -⟩
    · cases hempty
    · simp at hc

end EthereumSettlement.SkeletonScalars
