import EthereumSettlement.RadixConversion
import Mathlib.Tactic.Ring

/-!
# JavaScript strings and decimal texts

A JavaScript string is a sequence of 16-bit code units, in pairs for the characters
above the basic plane. Decimal texts are read by their value, and every digit text
without its superfluous zeros is the decimal text of its value.
-/

namespace EthereumSettlement.JsStrings

/-- A UTF-16 code unit. -/
abbrev CodeUnit := BitVec 16

/-- A JavaScript string. -/
abbrev JsString := List CodeUnit

/-- The code unit of a character of the basic plane. -/
def unitOf (c : Char) : CodeUnit := BitVec.ofNat 16 c.toNat

/-- The code units of a character. -/
def unitsOf (c : Char) : JsString :=
  if c.toNat < 0x10000 then [unitOf c]
  else [BitVec.ofNat 16 (0xd800 + (c.toNat - 0x10000) / 1024),
    BitVec.ofNat 16 (0xdc00 + (c.toNat - 0x10000) % 1024)]

/-- The JavaScript string of a text. -/
def jsText (text : String) : JsString := text.toList.flatMap unitsOf

/-- The class `\d`. -/
def isDigit (c : CodeUnit) : Bool := 48 ≤ c.toNat && c.toNat ≤ 57

/-- The value of digits. -/
def decimalValue (text : JsString) : ℕ := text.foldl (fun value c => 10 * value + (c.toNat - 48)) 0

/-- The decimal text of a number. -/
def decimalText (n : ℕ) : JsString := (Nat.toDigits 10 n).map unitOf

/-- A text of one digit or more. -/
def IsDigits (text : JsString) : Prop := text ≠ [] ∧ ∀ c ∈ text, isDigit c = true

/-- The zeros that `replace(/^0+(?=\d)/u, "")` leaves, and the rest. -/
def stripZeroes (text : JsString) : JsString :=
  let rest := text.dropWhile fun c => c = unitOf '0'
  if rest.head?.any isDigit then rest else (text.takeWhile fun c => c = unitOf '0').take 1 ++ rest

/-- The value of one digit more. -/
theorem decimalValue_concat (text : JsString) (c : CodeUnit) :
    decimalValue (text ++ [c]) = 10 * decimalValue text + (c.toNat - 48) := by
  rw [decimalValue, List.foldl_concat, ← decimalValue]

/-- Two digit texts, one after the other. -/
theorem decimalValue_append (first second : JsString) :
    decimalValue (first ++ second) = decimalValue first * 10 ^ second.length + decimalValue second := by
  induction second using List.reverseRecOn with
  | nil =>
    rw [List.append_nil, List.length_nil, pow_zero, Nat.mul_one]
    rfl
  | append_singleton second c ih =>
    rw [← List.append_assoc, decimalValue_concat, ih, decimalValue_concat, List.length_append,
      List.length_singleton, pow_succ]
    ring

/-- Zeros have no value. -/
theorem decimalValue_zeroes (count : ℕ) : decimalValue (List.replicate count (unitOf '0')) = 0 := by
  induction count with
  | zero => rfl
  | succ count ih =>
    rw [List.replicate_succ', decimalValue_concat, ih]
    rfl

/-- A digit is a code unit of ten. -/
theorem isDigit_iff (c : CodeUnit) : isDigit c = true ↔ 48 ≤ c.toNat ∧ c.toNat ≤ 57 := by
  rw [isDigit, Bool.and_eq_true, decide_eq_true_eq, decide_eq_true_eq]

/-- A digit is the unit of its digit character. -/
theorem unitOf_digitChar {c : CodeUnit} (h : isDigit c = true) :
    unitOf (Nat.digitChar (c.toNat - 48)) = c := by
  have hrange := (isDigit_iff c).mp h
  rw [unitOf, Nat.toNat_digitChar_of_lt_ten (by omega)]
  apply BitVec.eq_of_toNat_eq
  rw [BitVec.toNat_ofNat]
  omega

/-- The unit of a digit character is that digit. -/
theorem toNat_unitOf_digitChar {digit : ℕ} (h : digit < 10) :
    (unitOf (Nat.digitChar digit)).toNat = 48 + digit := by
  rw [unitOf, Nat.toNat_digitChar_of_lt_ten h, BitVec.toNat_ofNat]
  omega

/-- The decimal text of one digit. -/
theorem decimalText_digit {digit : ℕ} (h : digit < 10) :
    decimalText digit = [unitOf (Nat.digitChar digit)] := by
  rw [decimalText, Nat.toDigits_of_lt_base h, List.map_singleton]

/-- The decimal text of a number with one digit more. -/
theorem decimalText_concat {n digit : ℕ} (hn : 0 < n) (hdigit : digit < 10) :
    decimalText (10 * n + digit) = decimalText n ++ [unitOf (Nat.digitChar digit)] := by
  rw [decimalText, ← Nat.toDigits_append_toDigits (by decide) hn hdigit, List.map_append,
    ← decimalText, ← decimalText, decimalText_digit hdigit]

/-- A decimal text is a text of digits. -/
theorem isDigits_decimalText (n : ℕ) : IsDigits (decimalText n) := by
  induction n using Nat.strong_induction_on with
  | _ n ih =>
    have hlast : isDigit (unitOf (Nat.digitChar (n % 10))) = true := by
      have hunit := toNat_unitOf_digitChar (Nat.mod_lt n (by decide : 0 < 10))
      rw [isDigit_iff]
      omega
    by_cases hsmall : n < 10
    · rw [decimalText_digit hsmall]
      rw [Nat.mod_eq_of_lt hsmall] at hlast
      exact ⟨List.cons_ne_nil _ _, List.forall_mem_singleton.mpr hlast⟩
    · have hsplit := decimalText_concat (n := n / 10) (by omega) (Nat.mod_lt n (by decide : 0 < 10))
      rw [Nat.div_add_mod] at hsplit
      rw [hsplit]
      refine ⟨List.append_ne_nil_of_right_ne_nil _ (List.cons_ne_nil _ _), ?_⟩
      rw [List.forall_mem_append]
      exact ⟨(ih (n / 10) (by omega)).2, List.forall_mem_singleton.mpr hlast⟩

/-- A decimal text has its number's value. -/
theorem decimalValue_decimalText (n : ℕ) : decimalValue (decimalText n) = n := by
  induction n using Nat.strong_induction_on with
  | _ n ih =>
    have hunit := toNat_unitOf_digitChar (Nat.mod_lt n (by decide : 0 < 10))
    by_cases hsmall : n < 10
    · rw [Nat.mod_eq_of_lt hsmall] at hunit
      have hone := decimalValue_concat [] (unitOf (Nat.digitChar n))
      rw [decimalText_digit hsmall, ← List.nil_append [unitOf (Nat.digitChar n)], hone, hunit]
      change 10 * 0 + (48 + n - 48) = n
      omega
    · have hsplit := decimalText_concat (n := n / 10) (by omega) (Nat.mod_lt n (by decide : 0 < 10))
      rw [Nat.div_add_mod] at hsplit
      rw [hsplit, decimalValue_concat, ih (n / 10) (by omega), hunit]
      omega

/-- A digit text that does not start with a superfluous zero is the decimal text of its
value. -/
theorem decimalText_decimalValue {text : JsString} (hdigits : IsDigits text)
    (hfirst : text.head? = some (unitOf '0') → text.length = 1) :
    decimalText (decimalValue text) = text := by
  induction text using List.reverseRecOn with
  | nil => exact absurd rfl hdigits.1
  | append_singleton text c ih =>
    have hc : isDigit c = true := hdigits.2 c (List.mem_append_right _ (List.mem_singleton_self c))
    have hrange := (isDigit_iff c).mp hc
    by_cases hnil : text = []
    · rw [hnil, decimalValue_concat]
      change decimalText (10 * 0 + (c.toNat - 48)) = [c]
      rw [Nat.mul_zero, Nat.zero_add, decimalText_digit (by omega), unitOf_digitChar hc]
    · have hhead : text.head? ≠ some (unitOf '0') := by
        intro hzero
        have hone := hfirst (by rw [List.head?_append_of_ne_nil _ hnil, hzero])
        rw [List.length_append, List.length_singleton] at hone
        exact hnil (List.length_eq_zero_iff.mp (by omega))
      have htext := ih ⟨hnil, fun d hd => hdigits.2 d (List.mem_append_left _ hd)⟩
        (fun hzero => absurd hzero hhead)
      have hpos : 0 < decimalValue text := by
        apply Nat.pos_of_ne_zero
        intro hzero
        rw [hzero] at htext
        exact hhead (htext ▸ rfl)
      rw [decimalValue_concat, decimalText_concat hpos (by omega), htext, unitOf_digitChar hc]

/-- A digit text without its superfluous zeros is the decimal text of its value. -/
theorem stripZeroes_eq {text : JsString} (h : IsDigits text) :
    stripZeroes text = decimalText (decimalValue text) := by
  have hsplit : (text.takeWhile fun c => c = unitOf '0') ++ (text.dropWhile fun c => c = unitOf '0') =
      text := List.takeWhile_append_dropWhile
  have hzeroes : (text.takeWhile fun c => c = unitOf '0') =
      List.replicate (text.takeWhile fun c => c = unitOf '0').length (unitOf '0') :=
    List.eq_replicate_of_mem fun c hc => by simpa using List.mem_takeWhile_imp hc
  rw [stripZeroes]
  cases hrest : text.dropWhile fun c => c = unitOf '0' with
  | nil =>
    rw [hrest, List.append_nil] at hsplit
    have hvalue : decimalValue text = 0 := by
      rw [← hsplit, hzeroes, decimalValue_zeroes]
    have hlength : 0 < text.length := List.length_pos_of_ne_nil h.1
    have hone : min 1 text.length = 1 := by omega
    rw [hvalue, hsplit]
    rw [hsplit] at hzeroes
    rw [hzeroes, List.take_replicate, hone]
    rfl
  | cons first rest =>
    have hdigits : IsDigits (first :: rest) := by
      refine ⟨List.cons_ne_nil first rest, fun c hc => h.2 c ?_⟩
      rw [← hrest] at hc
      exact (List.dropWhile_sublist _).subset hc
    have hfirst : isDigit first = true := hdigits.2 first List.mem_cons_self
    have hnonzero : first ≠ unitOf '0' := by
      have hhead := List.head_dropWhile_not (fun c => decide (c = unitOf '0')) (l := text)
        (by rw [hrest]; exact List.cons_ne_nil first rest)
      simp only [hrest, List.head_cons] at hhead
      exact of_decide_eq_false hhead
    have hvalue : decimalValue text = decimalValue (first :: rest) := by
      rw [← hsplit, hrest, hzeroes, decimalValue_append, decimalValue_zeroes, Nat.zero_mul, Nat.zero_add]
    have hcondition : ((first :: rest).head?.any isDigit) = true := hfirst
    rw [if_pos hcondition, hvalue]
    refine (decimalText_decimalValue hdigits ?_).symm
    intro hzero
    exact absurd (Option.some.inj hzero) hnonzero

/-- A digit text has a value below the power of its length. -/
theorem decimalText_length_le_iff (n : ℕ) {k : ℕ} (hk : 0 < k) :
    (decimalText n).length ≤ k ↔ n < 10 ^ k := by
  rw [decimalText, List.length_map, Nat.length_toDigits_le_iff (by decide) hk]

end EthereumSettlement.JsStrings
