import Mathlib.Data.List.Basic

/-!
# Texts that are read from the front

An encoding can be read from the front of a longer text when equal texts start with the
encodings of equal values, as long as what follows starts with something that ends a
value. Values with a separator between them and a closing mark behind them can then be
read as a list. Nothing in this module mentions a particular program.
-/

namespace EthereumSettlement.PrefixCodes

variable {α σ : Type}

/-- A value is read from the front of a text, if every rest ends it. -/
def ReadBack (encode : α → List σ) (ends : List σ → Prop) (first second : α) : Prop :=
  ∀ rest other, ends rest → ends other → encode first ++ rest = encode second ++ other →
    first = second ∧ rest = other

/-- The encodings of values, each behind a separator. -/
def separated (encode : α → List σ) (separator : σ) : List α → List σ
  | [] => []
  | value :: values => separator :: (encode value ++ separated encode separator values)

/-- Encodings with a separator between them. -/
def sequence (encode : α → List σ) (separator : σ) : List α → List σ
  | [] => []
  | value :: values => encode value ++ separated encode separator values

/-- A joined list is a sequence. -/
theorem intercalate_eq_sequence (encode : α → List σ) (separator : σ) (values : List α) :
    [separator].intercalate (values.map encode) = sequence encode separator values := by
  induction values with
  | nil => rfl
  | cons value values ih =>
    cases values with
    | nil =>
      rw [sequence, separated, List.append_nil]
      exact List.intercalate_singleton
    | cons second values =>
      rw [List.map_cons, List.map_cons, List.intercalate_cons_cons, ← List.map_cons, ih, sequence,
        sequence, separated, List.append_assoc]
      rfl

variable {encode : α → List σ} {ends : List σ → Prop} {separator closing : σ}

/-- Values behind separators are read as a list. -/
theorem separated_readBack (hseparator : ∀ rest, ends (separator :: rest))
    (hclosing : ∀ rest, ends (closing :: rest)) (hne : separator ≠ closing) {first second : List α}
    (h : ∀ x ∈ first, ∀ y ∈ second, ReadBack encode ends x y) {rest other : List σ}
    (heq : separated encode separator first ++ closing :: rest =
      separated encode separator second ++ closing :: other) :
    first = second ∧ rest = other := by
  induction first generalizing second with
  | nil =>
    cases second with
    | nil => exact ⟨rfl, (List.cons.inj heq).2⟩
    | cons y second => exact absurd (List.cons.inj heq).1.symm hne
  | cons x first ih =>
    cases second with
    | nil => exact absurd (List.cons.inj heq).1 hne
    | cons y second =>
      have hends : ∀ values : List α, ∀ tail,
          ends (separated encode separator values ++ closing :: tail) := by
        intro values tail
        cases values with
        | nil => exact hclosing tail
        | cons value values => exact hseparator _
      rw [separated, separated, List.cons_append, List.cons_append, List.append_assoc,
        List.append_assoc] at heq
      have htail := (List.cons.inj heq).2
      obtain ⟨hhead, hrest⟩ := h x List.mem_cons_self y List.mem_cons_self _ _ (hends first rest)
        (hends second other) htail
      have hvalues := ih (fun x' hx' y' hy' =>
        h x' (List.mem_cons_of_mem x hx') y' (List.mem_cons_of_mem y hy')) hrest
      exact ⟨by rw [hhead, hvalues.1], hvalues.2⟩

/-- A closed sequence is read as a list, if no value starts with the closing mark. -/
theorem sequence_readBack (hseparator : ∀ rest, ends (separator :: rest))
    (hclosing : ∀ rest, ends (closing :: rest)) (hne : separator ≠ closing) {first second : List α}
    (hstart : ∀ value ∈ first ++ second, ∃ unit tail, encode value = unit :: tail ∧ unit ≠ closing)
    (h : ∀ x ∈ first, ∀ y ∈ second, ReadBack encode ends x y) {rest other : List σ}
    (heq : sequence encode separator first ++ closing :: rest =
      sequence encode separator second ++ closing :: other) :
    first = second ∧ rest = other := by
  have hopen : ∀ value ∈ first ++ second, ∀ tail more,
      encode value ++ tail ≠ closing :: more := by
    intro value hvalue tail more hsame
    obtain ⟨unit, units, hencode, hunit⟩ := hstart value hvalue
    rw [hencode] at hsame
    exact hunit (List.cons.inj hsame).1
  cases first with
  | nil =>
    cases second with
    | nil => exact ⟨rfl, (List.cons.inj heq).2⟩
    | cons y second =>
      rw [sequence, sequence, List.append_assoc] at heq
      exact absurd heq.symm (hopen y List.mem_cons_self _ _)
  | cons x first =>
    cases second with
    | nil =>
      rw [sequence, sequence, List.append_assoc] at heq
      exact absurd heq (hopen x List.mem_cons_self _ _)
    | cons y second =>
      have hends : ∀ values : List α, ∀ tail,
          ends (separated encode separator values ++ closing :: tail) := by
        intro values tail
        cases values with
        | nil => exact hclosing tail
        | cons value values => exact hseparator _
      rw [sequence, sequence, List.append_assoc, List.append_assoc] at heq
      obtain ⟨hhead, hrest⟩ := h x List.mem_cons_self y List.mem_cons_self _ _ (hends first rest)
        (hends second other) heq
      have hvalues := separated_readBack hseparator hclosing hne (fun x' hx' y' hy' =>
        h x' (List.mem_cons_of_mem x hx') y' (List.mem_cons_of_mem y hy')) hrest
      exact ⟨by rw [hhead, hvalues.1], hvalues.2⟩

end EthereumSettlement.PrefixCodes
