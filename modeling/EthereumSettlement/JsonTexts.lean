import EthereumSettlement.JsStrings

/-!
# JSON texts of strings and numbers

`JSON.stringify` writes a string between quotes, with escapes for control characters,
quotes, backslashes and unpaired surrogates, and a finite number as `Number::toString`
does. The digits that the engine chooses for a number are a parameter. A quoted string
is read from the front of any text, and a number from the front of a text that goes on
with something else.
-/

namespace EthereumSettlement.JsonTexts

open JsStrings

/-- The first half of a surrogate pair. -/
def isHigh (c : CodeUnit) : Bool := 0xd800 ≤ c.toNat && c.toNat ≤ 0xdbff

/-- The second half of a surrogate pair. -/
def isLow (c : CodeUnit) : Bool := 0xdc00 ≤ c.toNat && c.toNat ≤ 0xdfff

/-- A hexadecimal digit of an escape. -/
def hexUnit (digit : ℕ) : CodeUnit := unitOf (Nat.digitChar digit)

/-- `UnicodeEscape`. -/
def unicodeEscape (c : CodeUnit) : JsString :=
  [unitOf '\x5c', unitOf 'u', hexUnit (c.toNat / 4096), hexUnit (c.toNat / 256 % 16),
    hexUnit (c.toNat / 16 % 16), hexUnit (c.toNat % 16)]

/-- One code unit that is not half of a pair. -/
def quoteUnit (c : CodeUnit) : JsString :=
  if c.toNat = 0x08 then [unitOf '\x5c', unitOf 'b']
  else if c.toNat = 0x09 then [unitOf '\x5c', unitOf 't']
  else if c.toNat = 0x0a then [unitOf '\x5c', unitOf 'n']
  else if c.toNat = 0x0c then [unitOf '\x5c', unitOf 'f']
  else if c.toNat = 0x0d then [unitOf '\x5c', unitOf 'r']
  else if c.toNat = 0x22 then [unitOf '\x5c', unitOf '\x22']
  else if c.toNat = 0x5c then [unitOf '\x5c', unitOf '\x5c']
  else if c.toNat < 0x20 ∨ isHigh c ∨ isLow c then unicodeEscape c
  else [c]

/-- The code units of a string between the quotes. -/
def quoteUnits : JsString → JsString
  | [] => []
  | [c] => quoteUnit c
  | high :: low :: rest =>
    if isHigh high && isLow low then high :: low :: quoteUnits rest
    else quoteUnit high ++ quoteUnits (low :: rest)

/-- `JSON.stringify` of a string. -/
def quoteJson (text : JsString) : JsString := unitOf '\x22' :: (quoteUnits text ++ [unitOf '\x22'])

/-- The bits of a number. -/
abbrev JsNumber := BitVec 64

/-- `Number.isFinite`. -/
def isFinite (n : JsNumber) : Bool := n.toNat / 4503599627370496 % 2048 ≠ 2047

/-- A zero of either sign. -/
def isZero (n : JsNumber) : Bool := n.toNat % 9223372036854775808 = 0

/-- A number with its sign bit set. -/
def isNegative (n : JsNumber) : Bool := 9223372036854775808 ≤ n.toNat

/-- `Number::toString` of a positive number, from the digits and the place of the point
that the engine chooses for it. -/
def numberText (significand : ℕ) (n : ℤ) : JsString :=
  let digits := decimalText significand
  if -5 ≤ n ∧ n ≤ 21 then
    if digits.length ≤ n then digits ++ List.replicate (n - digits.length).toNat (unitOf '0')
    else if 0 < n then digits.take n.toNat ++ unitOf '.' :: digits.drop n.toNat
    else unitOf '0' :: unitOf '.' :: (List.replicate (-n).toNat (unitOf '0') ++ digits)
  else
    let exponentSign := if n - 1 < 0 then unitOf '-' else unitOf '+'
    let exponent := unitOf 'e' :: exponentSign :: decimalText (n - 1).natAbs
    if digits.length = 1 then digits ++ exponent
    else digits.take 1 ++ unitOf '.' :: (digits.drop 1 ++ exponent)

/-- `JSON.stringify` of a finite number. -/
def numberToString (shortest : JsNumber → ℕ × ℤ) (n : JsNumber) : JsString :=
  if isZero n then [unitOf '0']
  else if isNegative n then
    unitOf '-' :: numberText (shortest (n - 9223372036854775808)).1
      (shortest (n - 9223372036854775808)).2
  else numberText (shortest n).1 (shortest n).2

/-- The value of a hexadecimal digit. -/
def hexOf (c : CodeUnit) : ℕ := if isDigit c then c.toNat - 48 else c.toNat - 87

/-- The code unit behind a short escape. -/
def shortEscape (c : CodeUnit) : CodeUnit :=
  if c = unitOf 'b' then 0x08
  else if c = unitOf 't' then 0x09
  else if c = unitOf 'n' then 0x0a
  else if c = unitOf 'f' then 0x0c
  else if c = unitOf 'r' then 0x0d
  else c

/-- The string up to the closing quote and the text behind it. -/
def unquote : JsString → Option (JsString × JsString)
  | [] => none
  | c :: rest =>
    if c = unitOf '\x22' then some ([], rest)
    else if c ≠ unitOf '\x5c' then (unquote rest).map (Prod.map (c :: ·) id)
    else match rest with
      | [] => none
      | e :: rest =>
        if e = unitOf 'u' then
          match rest with
          | first :: second :: third :: fourth :: rest =>
            (unquote rest).map (Prod.map (BitVec.ofNat 16 (hexOf first * 4096 + hexOf second * 256 +
              hexOf third * 16 + hexOf fourth) :: ·) id)
          | _ => none
        else (unquote rest).map (Prod.map (shortEscape e :: ·) id)

/-- A code unit that needs no escape is read back. -/
theorem unquote_plain {c : CodeUnit} (hquote : c.toNat ≠ 0x22) (hescape : c.toNat ≠ 0x5c)
    (rest : JsString) : unquote (c :: rest) = (unquote rest).map (Prod.map (c :: ·) id) := by
  have hnotQuote : c ≠ unitOf '\x22' := fun h => hquote (congrArg BitVec.toNat h)
  have hnotEscape : c ≠ unitOf '\x5c' := fun h => hescape (congrArg BitVec.toNat h)
  rw [unquote.eq_def]
  exact (if_neg hnotQuote).trans (if_pos hnotEscape)

/-- The closing quote ends the string. -/
theorem unquote_end (rest : JsString) : unquote (unitOf '\x22' :: rest) = some ([], rest) := by
  rw [unquote.eq_def]
  exact if_pos rfl

/-- A short escape is read back. -/
theorem unquote_short {c : CodeUnit} (h : c ≠ unitOf 'u') (rest : JsString) :
    unquote (unitOf '\x5c' :: c :: rest) = (unquote rest).map (Prod.map (shortEscape c :: ·) id) := by
  have hnotQuote : unitOf '\x5c' ≠ unitOf '\x22' := by decide
  rw [unquote.eq_def]
  exact (if_neg hnotQuote).trans ((if_neg (not_not_intro rfl)).trans (if_neg h))

/-- A Unicode escape is read back. -/
theorem unquote_unicodeEscape (c : CodeUnit) (rest : JsString) :
    unquote (unicodeEscape c ++ rest) = (unquote rest).map (Prod.map (c :: ·) id) := by
  have hdigit : ∀ n < 16, hexOf (hexUnit n) = n := by decide
  have hc := c.isLt
  have hnotQuote : unitOf '\x5c' ≠ unitOf '\x22' := by decide
  have hvalue : BitVec.ofNat 16 (hexOf (hexUnit (c.toNat / 4096)) * 4096 +
      hexOf (hexUnit (c.toNat / 256 % 16)) * 256 + hexOf (hexUnit (c.toNat / 16 % 16)) * 16 +
      hexOf (hexUnit (c.toNat % 16))) = c := by
    rw [hdigit _ (by omega), hdigit _ (by omega), hdigit _ (by omega), hdigit _ (by omega)]
    apply BitVec.eq_of_toNat_eq
    rw [BitVec.toNat_ofNat]
    omega
  have hread : unquote (unicodeEscape c ++ rest) = (unquote rest).map (Prod.map
      (BitVec.ofNat 16 (hexOf (hexUnit (c.toNat / 4096)) * 4096 +
        hexOf (hexUnit (c.toNat / 256 % 16)) * 256 + hexOf (hexUnit (c.toNat / 16 % 16)) * 16 +
        hexOf (hexUnit (c.toNat % 16))) :: ·) id) := by
    change unquote (unitOf '\x5c' :: unitOf 'u' :: _ :: _ :: _ :: _ :: rest) = _
    rw [unquote.eq_def]
    exact (if_neg hnotQuote).trans ((if_neg (not_not_intro rfl)).trans (if_pos rfl))
  rw [hread, hvalue]

/-- A quoted code unit is read back. -/
theorem unquote_quoteUnit (c : CodeUnit) (rest : JsString) :
    unquote (quoteUnit c ++ rest) = (unquote rest).map (Prod.map (c :: ·) id) := by
  have hshort : ∀ (n : ℕ) (e : CodeUnit), c.toNat = n → e ≠ unitOf 'u' →
      (shortEscape e).toNat = n →
      unquote ([unitOf '\x5c', e] ++ rest) = (unquote rest).map (Prod.map (c :: ·) id) := by
    intro n e hc he hvalue
    have hsame : shortEscape e = c := BitVec.eq_of_toNat_eq (hvalue.trans hc.symm)
    rw [← hsame]
    exact unquote_short he rest
  rw [quoteUnit]
  by_cases hb : c.toNat = 0x08
  · rw [if_pos hb]
    exact hshort 0x08 _ hb (by decide) (by decide)
  rw [if_neg hb]
  by_cases ht : c.toNat = 0x09
  · rw [if_pos ht]
    exact hshort 0x09 _ ht (by decide) (by decide)
  rw [if_neg ht]
  by_cases hn : c.toNat = 0x0a
  · rw [if_pos hn]
    exact hshort 0x0a _ hn (by decide) (by decide)
  rw [if_neg hn]
  by_cases hf : c.toNat = 0x0c
  · rw [if_pos hf]
    exact hshort 0x0c _ hf (by decide) (by decide)
  rw [if_neg hf]
  by_cases hr : c.toNat = 0x0d
  · rw [if_pos hr]
    exact hshort 0x0d _ hr (by decide) (by decide)
  rw [if_neg hr]
  by_cases hquote : c.toNat = 0x22
  · rw [if_pos hquote]
    exact hshort 0x22 _ hquote (by decide) (by decide)
  rw [if_neg hquote]
  by_cases hescape : c.toNat = 0x5c
  · rw [if_pos hescape]
    exact hshort 0x5c _ hescape (by decide) (by decide)
  rw [if_neg hescape]
  by_cases hspecial : c.toNat < 0x20 ∨ isHigh c ∨ isLow c
  · rw [if_pos hspecial]
    exact unquote_unicodeEscape c rest
  · rw [if_neg hspecial]
    exact unquote_plain hquote hescape rest

/-- Quoted code units are read back up to the closing quote. -/
theorem unquote_quoteUnits (text rest : JsString) :
    unquote (quoteUnits text ++ unitOf '\x22' :: rest) = some (text, rest) := by
  induction text using quoteUnits.induct with
  | case1 => exact unquote_end rest
  | case2 c =>
    rw [quoteUnits, unquote_quoteUnit, unquote_end]
    rfl
  | case3 high low tail hpair ih =>
    rw [Bool.and_eq_true] at hpair
    have hhigh := hpair.1
    have hlow := hpair.2
    rw [isHigh, Bool.and_eq_true, decide_eq_true_eq, decide_eq_true_eq] at hhigh
    rw [isLow, Bool.and_eq_true, decide_eq_true_eq, decide_eq_true_eq] at hlow
    rw [quoteUnits, if_pos (Bool.and_eq_true _ _ ▸ hpair), List.cons_append, List.cons_append,
      unquote_plain (by omega) (by omega), unquote_plain (by omega) (by omega), ih]
    rfl
  | case4 high low tail hpair ih =>
    rw [quoteUnits, if_neg hpair, List.append_assoc, unquote_quoteUnit, ih]
    rfl

/-- A quoted string is read from the front of a text. -/
theorem quoteJson_readBack {first second rest other : JsString}
    (h : quoteJson first ++ rest = quoteJson second ++ other) : first = second ∧ rest = other := by
  rw [quoteJson, quoteJson, List.cons_append, List.cons_append, List.append_assoc,
    List.append_assoc] at h
  have hread := unquote_quoteUnits first rest
  have hother := unquote_quoteUnits second other
  have hsame := (List.cons.inj h).2
  change quoteUnits first ++ unitOf '\x22' :: rest = quoteUnits second ++ unitOf '\x22' :: other at hsame
  rw [hsame, hother] at hread
  have hpair := Option.some.inj hread
  exact ⟨(Prod.mk.inj hpair).1.symm, (Prod.mk.inj hpair).2.symm⟩

/-- The code units of numbers. -/
def isNumberUnit (c : CodeUnit) : Bool :=
  isDigit c || c = unitOf '.' || c = unitOf 'e' || c = unitOf '+' || c = unitOf '-'

/-- A digit is a unit of numbers. -/
theorem isNumberUnit_of_isDigit {c : CodeUnit} (h : isDigit c = true) : isNumberUnit c = true := by
  rw [isNumberUnit, h]
  rfl

/-- A decimal text has units of numbers only. -/
theorem decimalText_units (n : ℕ) : ∀ c ∈ decimalText n, isNumberUnit c = true :=
  fun c hc => isNumberUnit_of_isDigit ((isDigits_decimalText n).2 c hc)

/-- Zeros are units of numbers. -/
theorem zeroes_units (count : ℕ) :
    ∀ c ∈ List.replicate count (unitOf '0'), isNumberUnit c = true := by
  intro c hc
  rw [List.eq_of_mem_replicate hc]
  decide

/-- A number's text has units of numbers only. -/
theorem numberText_units (significand : ℕ) (n : ℤ) :
    ∀ c ∈ numberText significand n, isNumberUnit c = true := by
  have hdigits := decimalText_units significand
  have hpoint : isNumberUnit (unitOf '.') = true := by decide
  have hmark : isNumberUnit (unitOf 'e') = true := by decide
  have htake : ∀ count, ∀ c ∈ (decimalText significand).take count, isNumberUnit c = true :=
    fun count c hc => hdigits c (List.mem_of_mem_take hc)
  have hdrop : ∀ count, ∀ c ∈ (decimalText significand).drop count, isNumberUnit c = true :=
    fun count c hc => hdigits c (List.mem_of_mem_drop hc)
  have hsign : isNumberUnit (if n - 1 < 0 then unitOf '-' else unitOf '+') = true := by
    by_cases hneg : n - 1 < 0
    · rw [if_pos hneg]
      decide
    · rw [if_neg hneg]
      decide
  have hexponent : ∀ c ∈ unitOf 'e' :: (if n - 1 < 0 then unitOf '-' else unitOf '+') ::
      decimalText (n - 1).natAbs, isNumberUnit c = true :=
    List.forall_mem_cons.mpr ⟨hmark, List.forall_mem_cons.mpr ⟨hsign, decimalText_units _⟩⟩
  rw [numberText]
  by_cases hplain : -5 ≤ n ∧ n ≤ 21
  · rw [if_pos hplain]
    by_cases hlong : (decimalText significand).length ≤ n
    · rw [if_pos hlong, List.forall_mem_append]
      exact ⟨hdigits, zeroes_units _⟩
    · rw [if_neg hlong]
      by_cases hpos : 0 < n
      · rw [if_pos hpos, List.forall_mem_append, List.forall_mem_cons]
        exact ⟨htake _, hpoint, hdrop _⟩
      · rw [if_neg hpos, List.forall_mem_cons, List.forall_mem_cons, List.forall_mem_append]
        exact ⟨by decide, hpoint, zeroes_units _, hdigits⟩
  · rw [if_neg hplain]
    by_cases hone : (decimalText significand).length = 1
    · rw [if_pos hone, List.forall_mem_append]
      exact ⟨hdigits, hexponent⟩
    · rw [if_neg hone, List.forall_mem_append, List.forall_mem_cons, List.forall_mem_append]
      exact ⟨htake _, hpoint, hdrop _, hexponent⟩

/-- A number's text starts with a digit. -/
theorem numberText_start (significand : ℕ) (n : ℤ) :
    ∃ c tail, numberText significand n = c :: tail ∧ isDigit c = true := by
  have hdigits := isDigits_decimalText significand
  obtain ⟨first, rest, hfirst⟩ := List.exists_cons_of_ne_nil hdigits.1
  have hdigit : isDigit first = true := hdigits.2 first (hfirst ▸ List.mem_cons_self)
  have htake : ∀ count, 0 < count → (decimalText significand).take count =
      first :: rest.take (count - 1) := by
    intro count hcount
    rw [hfirst, List.take_cons hcount]
  rw [numberText]
  by_cases hplain : -5 ≤ n ∧ n ≤ 21
  · rw [if_pos hplain]
    by_cases hlong : (decimalText significand).length ≤ n
    · rw [if_pos hlong, hfirst]
      exact ⟨first, _, rfl, hdigit⟩
    · rw [if_neg hlong]
      by_cases hpos : 0 < n
      · rw [if_pos hpos, htake _ (by omega)]
        exact ⟨first, _, rfl, hdigit⟩
      · rw [if_neg hpos]
        exact ⟨unitOf '0', _, rfl, by decide⟩
  · rw [if_neg hplain]
    by_cases hone : (decimalText significand).length = 1
    · rw [if_pos hone, hfirst]
      exact ⟨first, _, rfl, hdigit⟩
    · rw [if_neg hone, htake _ Nat.one_pos]
      exact ⟨first, _, rfl, hdigit⟩

/-- The text of a number has units of numbers only, and starts with a digit or a minus
sign. -/
theorem numberToString_units (shortest : JsNumber → ℕ × ℤ) (n : JsNumber) :
    (∀ c ∈ numberToString shortest n, isNumberUnit c = true) ∧
      ∃ c tail, numberToString shortest n = c :: tail ∧ (isDigit c = true ∨ c = unitOf '-') := by
  rw [numberToString]
  by_cases hzero : isZero n = true
  · rw [if_pos hzero]
    exact ⟨List.forall_mem_singleton.mpr (by decide), unitOf '0', [], rfl,
      Or.inl (by decide)⟩
  · rw [if_neg hzero]
    by_cases hnegative : isNegative n = true
    · rw [if_pos hnegative]
      refine ⟨List.forall_mem_cons.mpr ⟨by decide, numberText_units _ _⟩, ?_⟩
      exact ⟨unitOf '-', _, rfl, Or.inr rfl⟩
    · rw [if_neg hnegative]
      obtain ⟨c, tail, htext, hdigit⟩ := numberText_start (shortest n).1 (shortest n).2
      exact ⟨numberText_units _ _, c, tail, htext, Or.inl hdigit⟩

/-- A text that does not go on with a number. -/
def Ends (rest : JsString) : Prop := ∀ c tail, rest = c :: tail → isNumberUnit c = false

/-- Units of numbers are read from the front of a text that ends them. -/
theorem units_readBack {first second rest other : JsString}
    (hfirst : ∀ c ∈ first, isNumberUnit c = true) (hsecond : ∀ c ∈ second, isNumberUnit c = true)
    (hrest : Ends rest) (hother : Ends other) (h : first ++ rest = second ++ other) :
    first = second ∧ rest = other := by
  have hstop : ∀ tail, Ends tail → tail.takeWhile isNumberUnit = [] := by
    intro tail htail
    cases tail with
    | nil => rfl
    | cons c tail =>
      have hc := htail c tail rfl
      exact List.takeWhile_cons_of_neg (by rw [hc]; exact Bool.false_ne_true)
  have hsame := congrArg (List.takeWhile isNumberUnit) h
  rw [List.takeWhile_append_of_pos hfirst, List.takeWhile_append_of_pos hsecond, hstop rest hrest,
    hstop other hother, List.append_nil, List.append_nil] at hsame
  rw [hsame] at h
  exact ⟨hsame, List.append_cancel_left h⟩

end EthereumSettlement.JsonTexts
