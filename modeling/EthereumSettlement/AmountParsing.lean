import Mathlib.Algebra.Order.Field.Basic
import Mathlib.Algebra.Field.Rat
import Mathlib.Data.List.DropRight
import Mathlib.Tactic.FieldSimp
import EthereumSettlement.CheckedCalls
import EthereumSettlement.JsStrings

/-!
# Amounts of the wallet

The wallet takes amounts as decimal notation with an optional fraction and an optional
signed exponent and converts them to nanomina without leaving text: it drops the zeros
in front, then cuts digits off or appends zeros, as the exponent says. The result is the
decimal text of the exact product, and an amount is refused exactly when that product
is not an integer or exceeds 64 bits. Space around a text is removed first.
-/

namespace EthereumSettlement.AmountParsing

open CheckedCalls JsStrings

/-- The values that an amount field can hold; the decimal of a number is its
`toString`. -/
inductive AmountInput
  | string (text : JsString)
  | number (finite negative : Bool) (decimal : JsString)
  | other

/-- `MAX_UINT64`. -/
def maxUint64 : ℕ := 18446744073709551615

/-- The white space and the line terminators that `trim` removes. -/
def isSpace (c : CodeUnit) : Bool :=
  (9 ≤ c.toNat && c.toNat ≤ 13) || (0x2000 ≤ c.toNat && c.toNat ≤ 0x200a) ||
    [0x20, 0xa0, 0x1680, 0x2028, 0x2029, 0x202f, 0x205f, 0x3000, 0xfeff].contains c.toNat

/-- `trim`. -/
def trim (text : JsString) : JsString := (text.dropWhile isSpace).rdropWhile isSpace

/-- The groups of a match. -/
structure AmountMatch where
  /-- The digits in front. -/
  whole : JsString
  /-- The digits behind the point. -/
  fraction : Option JsString
  /-- The exponent with its sign. -/
  exponent : Option JsString
  deriving DecidableEq

/-- The group of the fraction and the text behind it. -/
def matchFraction (text : JsString) : Option JsString × JsString :=
  if text.head? = some (unitOf '.') ∧ text.tail.takeWhile isDigit ≠ [] then
    (some (text.tail.takeWhile isDigit), text.tail.dropWhile isDigit)
  else (none, text)

/-- The class `[+-]`. -/
def isSign (c : CodeUnit) : Bool := c = unitOf '+' || c = unitOf '-'

/-- The optional sign at the start of a text. -/
def signOf (text : JsString) : JsString := if text.head?.any isSign then text.take 1 else []

/-- The letter of the exponent in either case. -/
def isMarker (c : CodeUnit) : Bool := c = unitOf 'e' || c = unitOf 'E'

/-- The group of the exponent and the text behind it. -/
def matchExponent (text : JsString) : Option JsString × JsString :=
  let sign := signOf text.tail
  let unsigned := text.tail.drop sign.length
  if text.head?.any isMarker ∧ unsigned.takeWhile isDigit ≠ [] then
    (some (sign ++ unsigned.takeWhile isDigit), unsigned.dropWhile isDigit)
  else (none, text)

/-- `input.match`. -/
def matchAmount (input : JsString) : Option AmountMatch :=
  let fraction := matchFraction (input.dropWhile isDigit)
  let exponent := matchExponent fraction.2
  if input.takeWhile isDigit ≠ [] ∧ exponent.2 = [] then
    some ⟨input.takeWhile isDigit, fraction.1, exponent.1⟩
  else none

/-- `BigInt` of a signed decimal text. -/
def bigInt (text : JsString) : ℤ :=
  if text.head? = some (unitOf '-') then -(decimalValue text.tail : ℤ)
  else if text.head? = some (unitOf '+') then (decimalValue text.tail : ℤ)
  else (decimalValue text : ℤ)

/-- The branch that cuts digits off. -/
def scaleDown (label : String) (digits : JsString) (nanoPlaces : ℤ) : Except String JsString := do
  require (nanoPlaces < digits.length) s!"{label} supports at most 9 decimal places"
  let places := nanoPlaces.toNat
  let discarded := digits.drop (digits.length - places)
  require (discarded.all fun c => c.toNat < 49 || 57 < c.toNat)
    s!"{label} supports at most 9 decimal places"
  let kept := digits.take (digits.length - places)
  pure (stripZeroes (if kept = [] then [unitOf '0'] else kept))

/-- The branch that appends zeros. -/
def scaleUp (label : String) (digits : JsString) (zeroes : ℤ) : Except String JsString := do
  require (digits.length + zeroes ≤ (decimalText maxUint64).length) s!"{label} exceeds the UInt64 limit"
  pure (stripZeroes (digits ++ List.replicate zeroes.toNat (unitOf '0')))

/-- Both branches. -/
def scale (label : String) (digits : JsString) (nanoPlaces : ℤ) : Except String JsString :=
  if 0 < nanoPlaces then scaleDown label digits nanoPlaces else scaleUp label digits (-nanoPlaces)

/-- The conversion of a match. -/
def convertMatch (label : String) (found : AmountMatch) : Except String JsString :=
  let fraction := found.fraction.getD []
  let exponent := bigInt (found.exponent.getD [unitOf '0'])
  let digits := stripZeroes (found.whole ++ fraction)
  if digits = [unitOf '0'] then pure [unitOf '0'] else do
    let decimalPlaces := fraction.length - exponent
    let nanomina ← scale label digits (decimalPlaces - 9)
    require (decimalValue nanomina ≤ maxUint64) s!"{label} exceeds the UInt64 limit"
    pure nanomina

/-- The text of an amount. -/
def amountText (value : AmountInput) (label : String) : Except String JsString :=
  match value with
  | .string text => pure (trim text)
  | .number finite negative decimal => do
    require (finite && !negative) s!"{label} must be a non-negative decimal number"
    pure decimal
  | .other => throw s!"{label} must be a non-negative decimal number"

/-- `minaToNanomina`. -/
def minaToNanomina (value : AmountInput) (label : String) : Except String JsString := do
  let input ← amountText value label
  require (input.length ≤ 128) s!"{label} exceeds the UInt64 limit"
  match matchAmount input with
  | none => throw s!"{label} is invalid"
  | some found => convertMatch label found

/-- A text is the notation of a match: digits, a point and digits, a letter, a sign and
digits. -/
def Spells (found : AmountMatch) (text : JsString) : Prop :=
  IsDigits found.whole ∧ (∀ fraction ∈ found.fraction, IsDigits fraction) ∧
    (∀ exponent ∈ found.exponent, ∃ sign digits : JsString, exponent = sign ++ digits ∧
      sign.length ≤ 1 ∧ (∀ c ∈ sign, isSign c = true) ∧ IsDigits digits) ∧
    ∃ marker, isMarker marker = true ∧
      text = found.whole ++ (found.fraction.elim [] (unitOf '.' :: ·)) ++
        found.exponent.elim [] (marker :: ·)

/-- The value of a match in MINA. -/
def AmountMatch.value (found : AmountMatch) : ℚ :=
  (decimalValue found.whole +
      decimalValue (found.fraction.getD []) / 10 ^ (found.fraction.getD []).length) *
    10 ^ bigInt (found.exponent.getD [unitOf '0'])

/-- Digits in front of another character are all taken. -/
theorem takeWhile_digits {digits rest : JsString} (hdigits : ∀ c ∈ digits, isDigit c = true)
    (hrest : rest.head?.any isDigit = false) :
    (digits ++ rest).takeWhile isDigit = digits ∧ (digits ++ rest).dropWhile isDigit = rest := by
  have hstop : rest.takeWhile isDigit = [] ∧ rest.dropWhile isDigit = rest := by
    cases rest with
    | nil => exact ⟨rfl, rfl⟩
    | cons c rest =>
      have hc : ¬ isDigit c = true := by
        rw [Bool.not_eq_true]
        exact hrest
      exact ⟨List.takeWhile_cons_of_neg hc, List.dropWhile_cons_of_neg hc⟩
  rw [List.takeWhile_append_of_pos hdigits, List.dropWhile_append_of_pos hdigits, hstop.1, hstop.2,
    List.append_nil]
  exact ⟨rfl, rfl⟩

/-- The digits taken from a text. -/
theorem isDigits_takeWhile {text : JsString} (h : text.takeWhile isDigit ≠ []) :
    IsDigits (text.takeWhile isDigit) :=
  ⟨h, fun _ hc => List.mem_takeWhile_imp hc⟩

/-- A text with a head is that head and its tail. -/
theorem cons_of_head {text : JsString} {c : CodeUnit} (h : text.head? = some c) :
    text = c :: text.tail := by
  cases text with
  | nil => cases h
  | cons first rest => rw [← Option.some.inj h, List.tail_cons]

/-- The group of the fraction is at the start of the text. -/
theorem matchFraction_sound (text : JsString) :
    text = (matchFraction text).1.elim [] (unitOf '.' :: ·) ++ (matchFraction text).2 ∧
      ∀ fraction ∈ (matchFraction text).1, IsDigits fraction := by
  rw [matchFraction]
  by_cases hpoint : text.head? = some (unitOf '.') ∧ text.tail.takeWhile isDigit ≠ []
  · rw [if_pos hpoint]
    refine ⟨?_, ?_⟩
    · have htail : text.tail.takeWhile isDigit ++ text.tail.dropWhile isDigit = text.tail :=
        List.takeWhile_append_dropWhile
      change text = unitOf '.' :: (text.tail.takeWhile isDigit ++ text.tail.dropWhile isDigit)
      rw [htail]
      exact cons_of_head hpoint.1
    · intro fraction hfraction
      rw [← Option.some.inj hfraction]
      exact isDigits_takeWhile hpoint.2
  · rw [if_neg hpoint]
    exact ⟨rfl, fun fraction hfraction => absurd hfraction (Option.not_mem_none fraction)⟩

/-- A fraction in front of another character is the group. -/
theorem matchFraction_complete {fraction : Option JsString} {rest : JsString}
    (hfraction : ∀ digits ∈ fraction, IsDigits digits) (hrest : rest.head?.any isDigit = false)
    (hpoint : rest.head? ≠ some (unitOf '.')) :
    matchFraction (fraction.elim [] (unitOf '.' :: ·) ++ rest) = (fraction, rest) := by
  cases fraction with
  | none => exact if_neg fun h => hpoint h.1
  | some digits =>
    have hdigits := hfraction digits rfl
    have htaken := takeWhile_digits hdigits.2 hrest
    change matchFraction (unitOf '.' :: (digits ++ rest)) = (some digits, rest)
    rw [matchFraction, List.tail_cons, htaken.1, htaken.2, if_pos ⟨List.head?_cons, hdigits.1⟩]

/-- The optional sign is at the start of the text. -/
theorem signOf_sound (text : JsString) :
    signOf text ++ text.drop (signOf text).length = text ∧ (signOf text).length ≤ 1 ∧
      ∀ c ∈ signOf text, isSign c = true := by
  cases text with
  | nil => exact ⟨rfl, Nat.zero_le 1, fun c hc => absurd hc List.not_mem_nil⟩
  | cons first rest =>
    rw [signOf, List.head?_cons, Option.any_some]
    by_cases hsign : isSign first = true
    · rw [if_pos hsign]
      exact ⟨rfl, Nat.le_refl 1, List.forall_mem_singleton.mpr hsign⟩
    · rw [if_neg hsign]
      exact ⟨rfl, Nat.zero_le 1, fun c hc => absurd hc List.not_mem_nil⟩

/-- A sign is not a digit. -/
theorem isDigit_of_isSign {c : CodeUnit} (h : isSign c = true) : isDigit c = false := by
  rw [isSign, Bool.or_eq_true, decide_eq_true_eq, decide_eq_true_eq] at h
  rcases h with hplus | hminus
  · rw [hplus]
    rfl
  · rw [hminus]
    rfl

/-- A sign in front of digits is the optional sign. -/
theorem signOf_complete {sign digits : JsString} (hlength : sign.length ≤ 1)
    (hsign : ∀ c ∈ sign, isSign c = true) (hdigits : IsDigits digits) :
    signOf (sign ++ digits) = sign := by
  cases sign with
  | nil =>
    cases digits with
    | nil => exact absurd rfl hdigits.1
    | cons first rest =>
      have hfirst : ¬ isSign first = true := by
        intro h
        have hdigit := hdigits.2 first List.mem_cons_self
        rw [isDigit_of_isSign h] at hdigit
        exact absurd hdigit Bool.false_ne_true
      exact if_neg hfirst
  | cons first rest =>
    have hrest : rest = [] := by
      rw [List.length_cons] at hlength
      exact List.length_eq_zero_iff.mp (by omega)
    rw [hrest]
    exact if_pos (hsign first List.mem_cons_self)

/-- The group of the exponent is at the start of the text. -/
theorem matchExponent_sound (text : JsString) :
    (∃ marker, isMarker marker = true ∧
      text = (matchExponent text).1.elim [] (marker :: ·) ++ (matchExponent text).2) ∧
      ∀ exponent ∈ (matchExponent text).1, ∃ sign digits : JsString, exponent = sign ++ digits ∧
        sign.length ≤ 1 ∧ (∀ c ∈ sign, isSign c = true) ∧ IsDigits digits := by
  obtain ⟨hsplit, hlength, hsign⟩ := signOf_sound text.tail
  rw [matchExponent]
  by_cases hmarker : text.head?.any isMarker ∧
      (text.tail.drop (signOf text.tail).length).takeWhile isDigit ≠ []
  · rw [if_pos hmarker]
    obtain ⟨marker, hhead, hkind⟩ := (Option.any_eq_true isMarker _).mp hmarker.1
    refine ⟨⟨marker, hkind, ?_⟩, ?_⟩
    · have htail := hsplit
      rw [← List.takeWhile_append_dropWhile (p := isDigit)
        (l := text.tail.drop (signOf text.tail).length), ← List.append_assoc] at htail
      change text = marker :: (_ ++ _)
      rw [htail]
      exact cons_of_head hhead
    · intro exponent hexponent
      exact ⟨_, _, (Option.some.inj hexponent).symm, hlength, hsign, isDigits_takeWhile hmarker.2⟩
  · rw [if_neg hmarker]
    refine ⟨⟨unitOf 'e', rfl, rfl⟩, ?_⟩
    intro exponent hexponent
    exact absurd hexponent (Option.not_mem_none exponent)

/-- An exponent at the end is the group. -/
theorem matchExponent_complete {exponent : Option JsString} {marker : CodeUnit}
    (hmarker : isMarker marker = true)
    (hexponent : ∀ text ∈ exponent, ∃ sign digits : JsString, text = sign ++ digits ∧
      sign.length ≤ 1 ∧ (∀ c ∈ sign, isSign c = true) ∧ IsDigits digits) :
    matchExponent (exponent.elim [] (marker :: ·)) = (exponent, []) := by
  cases exponent with
  | none => rfl
  | some text =>
    obtain ⟨sign, digits, htext, hlength, hsign, hdigits⟩ := hexponent text rfl
    have hend : ([] : JsString).head?.any isDigit = false := rfl
    have htaken := takeWhile_digits hdigits.2 hend
    rw [List.append_nil] at htaken
    have hfound := signOf_complete hlength hsign hdigits
    have hcondition : (marker :: text).head?.any isMarker = true ∧ digits ≠ [] := ⟨hmarker, hdigits.1⟩
    change matchExponent (marker :: text) = (some text, [])
    rw [matchExponent, List.tail_cons, htext, hfound, List.drop_left, htaken.1, htaken.2]
    rw [htext] at hcondition
    exact if_pos hcondition

/-- A text is matched exactly when it is the notation of the match. -/
theorem matchAmount_eq_some {text : JsString} {found : AmountMatch} :
    matchAmount text = some found ↔ Spells found text := by
  have hmarkers : ∀ marker, isMarker marker = true →
      isDigit marker = false ∧ marker ≠ unitOf '.' := by
    intro marker h
    rw [isMarker, Bool.or_eq_true, decide_eq_true_eq, decide_eq_true_eq] at h
    rcases h with hlower | hupper
    · rw [hlower]
      exact ⟨rfl, by decide⟩
    · rw [hupper]
      exact ⟨rfl, by decide⟩
  constructor
  · intro h
    rw [matchAmount] at h
    by_cases hcondition : text.takeWhile isDigit ≠ [] ∧
        (matchExponent (matchFraction (text.dropWhile isDigit)).2).2 = []
    · rw [if_pos hcondition] at h
      obtain ⟨hfraction, hdigits⟩ := matchFraction_sound (text.dropWhile isDigit)
      obtain ⟨⟨marker, hmarker, hexponent⟩, hsigned⟩ :=
        matchExponent_sound (matchFraction (text.dropWhile isDigit)).2
      rw [hcondition.2, List.append_nil] at hexponent
      rw [← Option.some.inj h]
      refine ⟨isDigits_takeWhile hcondition.1, hdigits, hsigned, marker, hmarker, ?_⟩
      have hsplit : text.takeWhile isDigit ++ text.dropWhile isDigit = text :=
        List.takeWhile_append_dropWhile
      change text = _ ++ _ ++ _
      rw [← hexponent, List.append_assoc, ← hfraction, hsplit]
    · rw [if_neg hcondition] at h
      exact absurd h (by simp)
  · intro h
    obtain ⟨hwhole, hfraction, hexponent, marker, hmarker, htext⟩ := h
    obtain ⟨hnodigit, hnopoint⟩ := hmarkers marker hmarker
    have hsecond : (found.exponent.elim [] (marker :: ·)).head?.any isDigit = false := by
      cases found.exponent with
      | none => rfl
      | some digits => exact hnodigit
    have hpoint : (found.exponent.elim [] (marker :: ·)).head? ≠ some (unitOf '.') := by
      cases found.exponent with
      | none => exact fun h => absurd h (by simp)
      | some digits => exact fun h => hnopoint (Option.some.inj h)
    have hfirst : (found.fraction.elim [] (unitOf '.' :: ·) ++
        found.exponent.elim [] (marker :: ·)).head?.any isDigit = false := by
      cases found.fraction with
      | none => exact hsecond
      | some digits => rfl
    rw [List.append_assoc] at htext
    have htaken := takeWhile_digits hwhole.2 hfirst
    rw [← htext] at htaken
    rw [matchAmount, htaken.1, htaken.2, matchFraction_complete hfraction hsecond hpoint,
      matchExponent_complete hmarker hexponent]
    exact if_pos ⟨hwhole.1, rfl⟩

/-- A digit that is none of one to nine is a zero. -/
theorem zero_of_isDigit {c : CodeUnit} (hdigit : isDigit c = true)
    (h : (decide (c.toNat < 49) || decide (57 < c.toNat)) = true) : c = unitOf '0' := by
  have hrange := (isDigit_iff c).mp hdigit
  rw [Bool.or_eq_true, decide_eq_true_eq, decide_eq_true_eq] at h
  apply BitVec.eq_of_toNat_eq
  change c.toNat = 48
  omega

/-- Zeros behind a number multiply it by a power of ten. -/
theorem decimalText_mul {n : ℕ} (hn : 0 < n) (count : ℕ) :
    decimalText (n * 10 ^ count) = decimalText n ++ List.replicate count (unitOf '0') := by
  induction count with
  | zero => rw [pow_zero, Nat.mul_one, List.replicate_zero, List.append_nil]
  | succ count ih =>
    have hpos : 0 < n * 10 ^ count := Nat.mul_pos hn (Nat.pow_pos (by decide))
    have hnext : n * 10 ^ (count + 1) = 10 * (n * 10 ^ count) + 0 := by
      rw [pow_succ]
      ring
    rw [hnext, decimalText_concat hpos (by decide), ih, List.replicate_succ', List.append_assoc]
    rfl

/-- Cutting digits off divides by a power of ten, where that leaves no rest. -/
theorem scaleDown_eq_ok (label : String) {value : ℕ} (hvalue : 0 < value) {nanoPlaces : ℤ}
    (hplaces : 0 < nanoPlaces) {result : JsString} :
    scaleDown label (decimalText value) nanoPlaces = .ok result ↔
      ∃ n, value = n * 10 ^ nanoPlaces.toNat ∧ result = decimalText n := by
  rw [scaleDown, require_bind_eq_ok, require_bind_eq_ok, pure_eq_ok]
  constructor
  · intro h
    obtain ⟨hfit, hdiscarded, hresult⟩ := h
    have hdigits := isDigits_decimalText value
    have hcount : nanoPlaces.toNat < (decimalText value).length := by omega
    have hlength : ((decimalText value).drop ((decimalText value).length - nanoPlaces.toNat)).length =
        nanoPlaces.toNat := by
      rw [List.length_drop]
      omega
    have hzeroes : (decimalText value).drop ((decimalText value).length - nanoPlaces.toNat) =
        List.replicate nanoPlaces.toNat (unitOf '0') := by
      refine List.eq_replicate_iff.mpr ⟨hlength, ?_⟩
      intro c hc
      exact zero_of_isDigit (hdigits.2 c (List.mem_of_mem_drop hc)) (List.all_eq_true.mp hdiscarded c hc)
    have hkept : (decimalText value).take ((decimalText value).length - nanoPlaces.toNat) ≠ [] := by
      intro hnil
      have hsize := congrArg List.length hnil
      rw [List.length_take, List.length_nil] at hsize
      omega
    have hkeptDigits : IsDigits
        ((decimalText value).take ((decimalText value).length - nanoPlaces.toNat)) :=
      ⟨hkept, fun c hc => hdigits.2 c (List.mem_of_mem_take hc)⟩
    have hsum := decimalValue_append
      ((decimalText value).take ((decimalText value).length - nanoPlaces.toNat))
      ((decimalText value).drop ((decimalText value).length - nanoPlaces.toNat))
    rw [List.take_append_drop, decimalValue_decimalText, hlength, hzeroes, decimalValue_zeroes,
      Nat.add_zero] at hsum
    refine ⟨_, hsum, ?_⟩
    rw [← hresult, if_neg hkept, stripZeroes_eq hkeptDigits]
  · intro h
    obtain ⟨n, hproduct, hresult⟩ := h
    have hn : 0 < n := by
      apply Nat.pos_of_ne_zero
      intro hzero
      rw [hzero, Nat.zero_mul] at hproduct
      omega
    have htext : decimalText value = decimalText n ++ List.replicate nanoPlaces.toNat (unitOf '0') := by
      rw [hproduct, decimalText_mul hn]
    have hdigits := isDigits_decimalText n
    have hpos : 0 < (decimalText n).length := List.length_pos_of_ne_nil hdigits.1
    have hlength : (decimalText value).length - nanoPlaces.toNat = (decimalText n).length := by
      rw [htext, List.length_append, List.length_replicate]
      omega
    rw [hlength, htext, List.drop_left, List.take_left]
    refine ⟨?_, ?_, ?_⟩
    · rw [List.length_append, List.length_replicate]
      omega
    · rw [List.all_eq_true]
      intro c hc
      rw [List.eq_of_mem_replicate hc]
      rfl
    · rw [if_neg hdigits.1, stripZeroes_eq hdigits, decimalValue_decimalText, hresult]

/-- Appending zeros multiplies by a power of ten, where the result has at most twenty
digits. -/
theorem scaleUp_eq_ok (label : String) {value : ℕ} (hvalue : 0 < value) (zeroes : ℤ)
    {result : JsString} :
    scaleUp label (decimalText value) zeroes = .ok result ↔
      (decimalText value).length + zeroes ≤ 20 ∧ result = decimalText (value * 10 ^ zeroes.toNat) := by
  have htwenty : (decimalText maxUint64).length = 20 := by decide
  have hdigits := isDigits_decimalText (value * 10 ^ zeroes.toNat)
  rw [scaleUp, require_bind_eq_ok, pure_eq_ok, htwenty, ← decimalText_mul hvalue, stripZeroes_eq hdigits,
    decimalValue_decimalText]
  exact and_congr_right fun _ => eq_comm

/-- A product with a negative power of ten is an integer when the power divides. -/
theorem mul_zpow_neg_eq (value n : ℕ) {places : ℤ} (h : 0 < places) :
    (value : ℚ) * 10 ^ (-places) = n ↔ value = n * 10 ^ places.toNat := by
  have hnat : (places.toNat : ℤ) = places := by omega
  have hten : (10 : ℚ) ^ places.toNat ≠ 0 := pow_ne_zero _ (by norm_num)
  rw [← hnat, zpow_neg, zpow_natCast, Int.toNat_natCast, mul_inv_eq_iff_eq_mul₀ hten]
  constructor
  · intro h
    exact_mod_cast h
  · intro h
    exact_mod_cast h

/-- A product with another power of ten is an integer. -/
theorem mul_zpow_eq (value n : ℕ) {zeroes : ℤ} (h : 0 ≤ zeroes) :
    (value : ℚ) * 10 ^ zeroes = n ↔ value * 10 ^ zeroes.toNat = n := by
  have hnat : (zeroes.toNat : ℤ) = zeroes := by omega
  rw [← hnat, zpow_natCast, Int.toNat_natCast]
  constructor
  · intro h
    exact_mod_cast h
  · intro h
    exact_mod_cast h

/-- The scaled digits within 64 bits are the exact product, where that is an integer
within 64 bits. -/
theorem scale_bounded_eq_ok (label error : String) {value : ℕ} (hvalue : 0 < value) (nanoPlaces : ℤ)
    {result : JsString} :
    (do
      let nanomina ← scale label (decimalText value) nanoPlaces
      require (decimalValue nanomina ≤ maxUint64) error
      pure nanomina) = .ok result ↔
    ∃ n : ℕ, (value : ℚ) * 10 ^ (-nanoPlaces) = n ∧ n ≤ maxUint64 ∧ result = decimalText n := by
  have hbound : ∀ n, scale label (decimalText value) nanoPlaces = .ok (decimalText n) →
      n ≤ maxUint64 → (do
        let nanomina ← scale label (decimalText value) nanoPlaces
        require (decimalValue nanomina ≤ maxUint64) error
        pure nanomina) = .ok (decimalText n) := by
    intro n hscale hn
    rw [hscale]
    refine require_bind_eq_ok.mpr ⟨?_, rfl⟩
    rw [decimalValue_decimalText]
    exact hn
  by_cases hplaces : 0 < nanoPlaces
  · have hscale : ∀ r, scale label (decimalText value) nanoPlaces = .ok r ↔
        ∃ n, value = n * 10 ^ nanoPlaces.toNat ∧ r = decimalText n := by
      intro r
      rw [scale, if_pos hplaces, scaleDown_eq_ok label hvalue hplaces]
    constructor
    · intro h
      obtain ⟨nanomina, hnanomina, h⟩ := bind_eq_ok.mp h
      rw [require_bind_eq_ok, pure_eq_ok] at h
      obtain ⟨n, hn, htext⟩ := (hscale nanomina).mp hnanomina
      rw [htext, decimalValue_decimalText] at h
      exact ⟨n, (mul_zpow_neg_eq value n hplaces).mpr hn, h.1, h.2.symm⟩
    · intro h
      obtain ⟨n, hn, hmax, hresult⟩ := h
      rw [hresult]
      exact hbound n ((hscale _).mpr ⟨n, (mul_zpow_neg_eq value n hplaces).mp hn, rfl⟩) hmax
  · have hzeroes : 0 ≤ -nanoPlaces := by omega
    have hscale : ∀ r, scale label (decimalText value) nanoPlaces = .ok r ↔
        (decimalText value).length + -nanoPlaces ≤ 20 ∧
          r = decimalText (value * 10 ^ (-nanoPlaces).toNat) := by
      intro r
      rw [scale, if_neg hplaces, scaleUp_eq_ok label hvalue]
    constructor
    · intro h
      obtain ⟨nanomina, hnanomina, h⟩ := bind_eq_ok.mp h
      rw [require_bind_eq_ok, pure_eq_ok] at h
      obtain ⟨-, htext⟩ := (hscale nanomina).mp hnanomina
      rw [htext, decimalValue_decimalText] at h
      exact ⟨_, (mul_zpow_eq value _ hzeroes).mpr rfl, h.1, h.2.symm⟩
    · intro h
      obtain ⟨n, hn, hmax, hresult⟩ := h
      have hproduct := (mul_zpow_eq value n hzeroes).mp hn
      have hlength : (decimalText (value * 10 ^ (-nanoPlaces).toNat)).length ≤ 20 := by
        rw [decimalText_length_le_iff _ (by decide), hproduct]
        rw [maxUint64] at hmax
        omega
      rw [decimalText_mul hvalue, List.length_append, List.length_replicate] at hlength
      rw [hresult]
      refine hbound n ((hscale _).mpr ⟨?_, ?_⟩) hmax
      · omega
      · rw [hproduct]

/-- The value of a match is its digits, moved by the exponent and the fraction. -/
theorem value_mul_nano (found : AmountMatch) :
    found.value * 10 ^ 9 =
      (decimalValue (found.whole ++ found.fraction.getD []) : ℚ) *
        10 ^ (-(((found.fraction.getD []).length : ℤ) -
          bigInt (found.exponent.getD [unitOf '0']) - 9)) := by
  have hten : (10 : ℚ) ≠ 0 := by norm_num
  have hpower : (10 : ℚ) ^ (found.fraction.getD []).length ≠ 0 := pow_ne_zero _ hten
  have hsplit : (10 : ℚ) ^ (-(((found.fraction.getD []).length : ℤ) -
        bigInt (found.exponent.getD [unitOf '0']) - 9)) =
      10 ^ bigInt (found.exponent.getD [unitOf '0']) * 10 ^ 9 / 10 ^ (found.fraction.getD []).length := by
    have hsum : -(((found.fraction.getD []).length : ℤ) -
          bigInt (found.exponent.getD [unitOf '0']) - 9) =
        bigInt (found.exponent.getD [unitOf '0']) + ((9 : ℕ) : ℤ) -
          ((found.fraction.getD []).length : ℤ) := by
      push_cast
      ring
    rw [hsum, zpow_sub₀ hten, zpow_add₀ hten, zpow_natCast, zpow_natCast]
  rw [hsplit, AmountMatch.value, decimalValue_append]
  push_cast
  field_simp

/-- A match is converted exactly when its value in nanomina is an integer within 64
bits, and then to the decimal text of that integer. -/
theorem convertMatch_eq_ok (label : String) {found : AmountMatch} {text : JsString}
    (h : Spells found text) {result : JsString} :
    convertMatch label found = .ok result ↔
      ∃ n : ℕ, found.value * 10 ^ 9 = n ∧ n ≤ maxUint64 ∧ result = decimalText n := by
  obtain ⟨hwhole, hfraction, -, -⟩ := h
  have hdigits : IsDigits (found.whole ++ found.fraction.getD []) := by
    refine ⟨List.append_ne_nil_of_left_ne_nil hwhole.1 _, ?_⟩
    intro c hc
    rcases List.mem_append.mp hc with hleft | hright
    · exact hwhole.2 c hleft
    · cases hfound : found.fraction with
      | none =>
        rw [hfound] at hright
        exact absurd hright List.not_mem_nil
      | some digits =>
        rw [hfound] at hright
        exact (hfraction digits hfound).2 c hright
  have hzero : decimalText 0 = [unitOf '0'] := by decide
  rw [convertMatch, stripZeroes_eq hdigits, value_mul_nano]
  by_cases hvalue : decimalValue (found.whole ++ found.fraction.getD []) = 0
  · rw [hvalue, if_pos hzero, pure_eq_ok, Nat.cast_zero, zero_mul]
    constructor
    · intro h
      exact ⟨0, Nat.cast_zero.symm, Nat.zero_le _, by rw [hzero, h]⟩
    · intro h
      obtain ⟨n, hn, -, hresult⟩ := h
      have hn : n = 0 := by exact_mod_cast hn.symm
      rw [hresult, hn, hzero]
  · have hne : decimalText (decimalValue (found.whole ++ found.fraction.getD [])) ≠ [unitOf '0'] := by
      intro h
      rw [← hzero] at h
      have hsame := congrArg decimalValue h
      rw [decimalValue_decimalText, decimalValue_decimalText] at hsame
      exact hvalue hsame
    rw [if_neg hne]
    exact scale_bounded_eq_ok label _ (Nat.pos_of_ne_zero hvalue) _

/-- A digit is no space. -/
theorem isSpace_of_isDigit {c : CodeUnit} (h : isDigit c = true) : isSpace c = false := by
  have hall : ∀ n < 58, 48 ≤ n → isSpace (BitVec.ofNat 16 n) = false := by decide
  have hrange := (isDigit_iff c).mp h
  have hc := hall c.toNat (by omega) hrange.1
  rwa [BitVec.ofNat_toNat, BitVec.setWidth_eq] at hc

/-- A sign and a letter of the exponent are no space. -/
theorem isSpace_of_mark {c : CodeUnit} (h : isSign c = true ∨ isMarker c = true) : isSpace c = false := by
  rw [isSign, isMarker, Bool.or_eq_true, Bool.or_eq_true, decide_eq_true_eq, decide_eq_true_eq,
    decide_eq_true_eq, decide_eq_true_eq] at h
  rcases h with (hplus | hminus) | hlower | hupper
  · rw [hplus]
    decide
  · rw [hminus]
    decide
  · rw [hlower]
    decide
  · rw [hupper]
    decide

/-- Decimal notation has no space. -/
theorem isSpace_of_spells {found : AmountMatch} {text : JsString} (h : Spells found text) :
    ∀ c ∈ text, isSpace c = false := by
  obtain ⟨hwhole, hfraction, hexponent, marker, hmarker, htext⟩ := h
  intro c hc
  rw [htext, List.append_assoc] at hc
  rcases List.mem_append.mp hc with hfirst | hc
  · exact isSpace_of_isDigit (hwhole.2 c hfirst)
  · rcases List.mem_append.mp hc with hsecond | hthird
    · cases hfound : found.fraction with
      | none =>
        rw [hfound] at hsecond
        exact absurd hsecond List.not_mem_nil
      | some digits =>
        rw [hfound] at hsecond
        rcases List.mem_cons.mp hsecond with hpoint | hdigit
        · rw [hpoint]
          decide
        · exact isSpace_of_isDigit ((hfraction digits hfound).2 c hdigit)
    · cases hfound : found.exponent with
      | none =>
        rw [hfound] at hthird
        exact absurd hthird List.not_mem_nil
      | some exponent =>
        obtain ⟨sign, digits, hparts, -, hsign, hdigits⟩ := hexponent exponent hfound
        rw [hfound] at hthird
        rcases List.mem_cons.mp hthird with hletter | hrest
        · rw [hletter]
          exact isSpace_of_mark (Or.inr hmarker)
        · rw [hparts] at hrest
          rcases List.mem_append.mp hrest with hleft | hright
          · exact isSpace_of_mark (Or.inl (hsign c hleft))
          · exact isSpace_of_isDigit (hdigits.2 c hright)

/-- A text without space is trimmed to itself. -/
theorem trim_eq_self {text : JsString} (h : ∀ c ∈ text, isSpace c = false) : trim text = text := by
  have hfront : text.dropWhile isSpace = text := by
    rw [List.dropWhile_eq_self_iff]
    intro hlength hspace
    rw [h _ (List.getElem_mem hlength)] at hspace
    exact absurd hspace Bool.false_ne_true
  rw [trim, hfront, List.rdropWhile_eq_self_iff]
  intro hne hspace
  rw [h _ (List.getLast_mem hne)] at hspace
  exact absurd hspace Bool.false_ne_true

/-- The parser on a text. -/
theorem minaToNanomina_string (label : String) (text : JsString) :
    minaToNanomina (.string text) label = (do
      require ((trim text).length ≤ 128) s!"{label} exceeds the UInt64 limit"
      match matchAmount (trim text) with
      | none => throw s!"{label} is invalid"
      | some found => convertMatch label found) := rfl

/-- The wallet's amounts are exact. Decimal notation is not changed by removing space.
A text whose trimmed text is decimal notation of at most 128 units is accepted exactly
when its value in nanomina is an integer within 64 bits, and then the result is the
decimal text of that integer. Every other text is refused. -/
theorem minaToNanomina_exact (label : String) :
    (∀ found text, Spells found text → trim text = text) ∧
    (∀ text found, (trim text).length ≤ 128 → Spells found (trim text) → ∀ result,
      minaToNanomina (.string text) label = .ok result ↔
        ∃ n : ℕ, found.value * 10 ^ 9 = n ∧ n ≤ 18446744073709551615 ∧ result = decimalText n) ∧
    ∀ text, 128 < (trim text).length ∨ (¬ ∃ found, Spells found (trim text)) →
      ∃ error, minaToNanomina (.string text) label = .error error := by
  refine ⟨?_, ?_, ?_⟩
  · intro found text h
    exact trim_eq_self (isSpace_of_spells h)
  · intro text found hlength hspells result
    rw [minaToNanomina_string, matchAmount_eq_some.mpr hspells, require_bind_eq_ok,
      and_iff_right hlength]
    exact convertMatch_eq_ok label hspells
  · intro text h
    rw [minaToNanomina_string]
    by_cases hlength : (trim text).length ≤ 128
    · have hnone : matchAmount (trim text) = none := by
        cases hfound : matchAmount (trim text) with
        | none => rfl
        | some found =>
          rcases h with hlong | hother
          · omega
          · exact absurd ⟨found, matchAmount_eq_some.mp hfound⟩ hother
      rw [hnone, require, if_pos hlength]
      exact ⟨_, rfl⟩
    · rw [require, if_neg hlength]
      exact ⟨_, rfl⟩

/-- A text that starts with a space is not decimal notation, and it is accepted. -/
theorem minaToNanomina_space : (¬ ∃ found, Spells found (jsText " 1")) ∧
    minaToNanomina (.string (jsText " 1")) "Amount" = .ok (jsText "1000000000") := by
  refine ⟨?_, by decide⟩
  intro h
  obtain ⟨found, hfound⟩ := h
  have hnone : matchAmount (jsText " 1") = none := by decide
  rw [matchAmount_eq_some.mpr hfound] at hnone
  cases hnone

end EthereumSettlement.AmountParsing
