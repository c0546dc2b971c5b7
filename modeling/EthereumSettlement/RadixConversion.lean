import Mathlib.Data.List.Induction
import Mathlib.Data.List.TakeWhile
import Mathlib.Data.Nat.Digits.Lemmas

/-!
# Change of base with leading zeros

A digit string, first digit highest, is converted to another base by multiplying and
adding with carries: each digit of the input multiplies the collected digits by its
base and adds itself. The collected digits never have a zero on top, so the leading
zeros of the input are counted apart and written in front. The conversion back is the
same function with the bases exchanged, and it returns the input. Nothing in this
module mentions a particular program.
-/

namespace EthereumSettlement.RadixConversion

/-- The loop that appends what is left of a carry, lowest digit first. -/
def pushCarry (base : ℕ) : ℕ → ℕ → List ℕ
  | 0, _ => []
  | fuel + 1, carry => if carry = 0 then [] else carry % base :: pushCarry base fuel (carry / base)

/-- Multiply digits, lowest first, by a factor and add a carry: the loop over the
digits, then the loop over what is left. -/
def accumulate (base factor : ℕ) : List ℕ → ℕ → List ℕ
  | [], carry => pushCarry base carry carry
  | digit :: digits, carry =>
    (digit * factor + carry) % base :: accumulate base factor digits ((digit * factor + carry) / base)

/-- The number of zeros in front. -/
def leadingZeroes (digits : List ℕ) : ℕ := (digits.takeWhile fun digit => digit = 0).length

/-- A digit string of one base in another base. -/
def convert (base target : ℕ) (digits : List ℕ) : List ℕ :=
  List.replicate (leadingZeroes digits) 0 ++ (digits.foldl (accumulate target base) []).reverse

/-- The value of a digit string, first digit highest. -/
def valueOf (base : ℕ) (digits : List ℕ) : ℕ := Nat.ofDigits base digits.reverse

section

variable {base target : ℕ} {digits : List ℕ}

/-- What is left of a carry is written as its digits. -/
theorem pushCarry_eq_digits (hbase : 1 < base) {fuel carry : ℕ} (h : carry ≤ fuel) :
    pushCarry base fuel carry = Nat.digits base carry := by
  induction fuel generalizing carry with
  | zero =>
    have hzero : carry = 0 := by omega
    rw [hzero, pushCarry, Nat.digits_zero]
  | succ fuel ih =>
    rw [pushCarry]
    by_cases hzero : carry = 0
    · rw [if_pos hzero, hzero, Nat.digits_zero]
    · have hless : carry / base < carry := Nat.div_lt_self (by omega) hbase
      have hdigits := Nat.digits_def' hbase (Nat.pos_of_ne_zero hzero)
      rw [if_neg hzero, ih (by omega), hdigits]

/-- Multiplying and adding on digits computes the digits of the result. -/
theorem accumulate_digits (hbase : 1 < base) {factor : ℕ} (hfactor : 0 < factor) (value carry : ℕ) :
    accumulate base factor (Nat.digits base value) carry = Nat.digits base (value * factor + carry) := by
  induction value using Nat.strong_induction_on generalizing carry with
  | _ value ih =>
    by_cases hzero : value = 0
    · rw [hzero, Nat.digits_zero, accumulate, pushCarry_eq_digits hbase (Nat.le_refl carry),
        Nat.zero_mul, Nat.zero_add]
    · have hless : value / base < value := Nat.div_lt_self (by omega) hbase
      have hsplit : value * factor + carry =
          (value % base * factor + carry) + base * (value / base * factor) := by
        have hvalue := Nat.mod_add_div value base
        calc value * factor + carry
            = (value % base + base * (value / base)) * factor + carry := by rw [hvalue]
          _ = (value % base * factor + carry) + base * (value / base * factor) := by
            rw [Nat.add_mul, Nat.mul_assoc, Nat.add_right_comm]
      have hpos : 0 < value * factor := Nat.mul_pos (by omega) hfactor
      have hlow : (value * factor + carry) % base = (value % base * factor + carry) % base := by
        rw [hsplit, Nat.add_mul_mod_self_left]
      have hhigh : (value * factor + carry) / base =
          value / base * factor + (value % base * factor + carry) / base := by
        rw [hsplit, Nat.add_mul_div_left _ _ (by omega), Nat.add_comm]
      have hdigits := Nat.digits_def' hbase (Nat.pos_of_ne_zero hzero)
      have hresult := Nat.digits_def' hbase (Nat.add_pos_left hpos carry)
      rw [hdigits, accumulate, ih _ hless, hresult, hlow, hhigh]

/-- A digit string with one more digit at its end. -/
theorem valueOf_concat (base : ℕ) (digits : List ℕ) (digit : ℕ) :
    valueOf base (digits ++ [digit]) = valueOf base digits * base + digit := by
  rw [valueOf, List.reverse_append, List.reverse_singleton, List.singleton_append, Nat.ofDigits_cons,
    valueOf, Nat.mul_comm, Nat.add_comm]

/-- The collected digits are the digits of the value. -/
theorem foldl_accumulate (hbase : 0 < base) (htarget : 1 < target) (digits : List ℕ) :
    digits.foldl (accumulate target base) [] = Nat.digits target (valueOf base digits) := by
  induction digits using List.reverseRecOn with
  | nil => exact (Nat.digits_zero target).symm
  | append_singleton digits digit ih =>
    rw [List.foldl_concat, ih, accumulate_digits htarget hbase, valueOf_concat]

/-- Zeros in front do not count. -/
theorem valueOf_replicate_append (base zeroes : ℕ) (digits : List ℕ) :
    valueOf base (List.replicate zeroes 0 ++ digits) = valueOf base digits := by
  rw [valueOf, List.reverse_append, List.reverse_replicate, Nat.ofDigits_append_replicate_zero, valueOf]

/-- The digits of a number have that value. -/
theorem valueOf_reverse_digits (base value : ℕ) :
    valueOf base (Nat.digits base value).reverse = value := by
  rw [valueOf, List.reverse_reverse, Nat.ofDigits_digits]

/-- The zeros in front of the digits of a number are counted exactly. -/
theorem leadingZeroes_replicate_append (base zeroes value : ℕ) :
    leadingZeroes (List.replicate zeroes 0 ++ (Nat.digits base value).reverse) = zeroes := by
  have hnone : ((Nat.digits base value).reverse.takeWhile fun digit => digit = 0) = [] := by
    cases hdigits : (Nat.digits base value).reverse with
    | nil => rfl
    | cons top rest =>
      have hvalue : value ≠ 0 := by
        intro hzero
        rw [hzero, Nat.digits_zero, List.reverse_nil] at hdigits
        exact absurd hdigits.symm (List.cons_ne_nil top rest)
      have hlist : Nat.digits base value = rest.reverse ++ [top] := by
        rw [← List.reverse_reverse (Nat.digits base value), hdigits, List.reverse_cons]
      have htop : top ≠ 0 := by
        have hlast := Nat.getLast_digit_ne_zero base hvalue
        simpa only [hlist, List.getLast_concat] using hlast
      rw [List.takeWhile_cons_of_neg (by simpa using htop)]
  have hzeroes : (List.replicate zeroes 0).takeWhile (fun digit : ℕ => digit = 0) =
      List.replicate zeroes 0 :=
    List.takeWhile_eq_self_iff.mpr fun digit hdigit => by
      simpa using List.eq_of_mem_replicate hdigit
  rw [leadingZeroes, List.takeWhile_append, hzeroes, if_pos rfl, hnone, List.append_nil,
    List.length_replicate]

/-- A digit string is its leading zeros and the digits of its value. -/
theorem eq_replicate_append (hbase : 1 < base) (hdigits : ∀ digit ∈ digits, digit < base) :
    digits = List.replicate (leadingZeroes digits) 0 ++
      (Nat.digits base (valueOf base digits)).reverse := by
  have hsplit : digits.takeWhile (fun digit => digit = 0) ++
      digits.dropWhile (fun digit => digit = 0) = digits := List.takeWhile_append_dropWhile
  have hzeroes : digits.takeWhile (fun digit => digit = 0) =
      List.replicate (leadingZeroes digits) 0 :=
    List.eq_replicate_of_mem fun digit hdigit => by
      simpa using List.mem_takeWhile_imp hdigit
  have hlast : ∀ h : (digits.dropWhile fun digit => digit = 0).reverse ≠ [],
      (digits.dropWhile fun digit => digit = 0).reverse.getLast h ≠ 0 := by
    intro h
    have hhead := List.head_dropWhile_not (fun digit : ℕ => decide (digit = 0))
      (l := digits) (by simpa using h)
    rw [List.getLast_reverse]
    exact of_decide_eq_false hhead
  have hvalue : Nat.digits base (valueOf base digits) =
      (digits.dropWhile fun digit => digit = 0).reverse := by
    rw [← hsplit, hzeroes, valueOf_replicate_append, ← hzeroes, hsplit]
    refine Nat.digits_ofDigits base hbase _ ?_ hlast
    intro digit hdigit
    exact hdigits digit ((List.dropWhile_sublist _).subset (List.mem_reverse.mp hdigit))
  rw [hvalue, List.reverse_reverse, ← hzeroes, hsplit]

/-- A converted string is the leading zeros and the digits of the value in the other
base. -/
theorem convert_eq (hbase : 0 < base) (htarget : 1 < target) (digits : List ℕ) :
    convert base target digits = List.replicate (leadingZeroes digits) 0 ++
      (Nat.digits target (valueOf base digits)).reverse := by
  rw [convert, foldl_accumulate hbase htarget]

/-- A converted string has digits of the other base. -/
theorem convert_lt (hbase : 0 < base) (htarget : 1 < target) {digit : ℕ}
    (h : digit ∈ convert base target digits) : digit < target := by
  rw [convert_eq hbase htarget, List.mem_append, List.mem_reverse] at h
  rcases h with hzero | hdigit
  · have hvalue := List.eq_of_mem_replicate hzero
    omega
  · exact Nat.digits_lt_base htarget hdigit

/-- Converting back returns the string. -/
theorem convert_convert (hbase : 1 < base) (htarget : 1 < target)
    (hdigits : ∀ digit ∈ digits, digit < base) :
    convert target base (convert base target digits) = digits := by
  have hzeroes := leadingZeroes_replicate_append target (leadingZeroes digits) (valueOf base digits)
  rw [convert_eq (by omega) hbase, convert_eq (by omega) htarget, hzeroes, valueOf_replicate_append,
    valueOf_reverse_digits]
  exact (eq_replicate_append hbase hdigits).symm

end

end EthereumSettlement.RadixConversion
