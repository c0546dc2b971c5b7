import Mathlib.Logic.Basic
import Mathlib.Data.Nat.Notation
import Mathlib.Algebra.Group.Nat.Defs
import Mathlib.Data.List.Forall2

/-!
# Aborting calls and checked fixed-width arithmetic

Every entry point of the modelled programs either returns or aborts with one
error and no effect. A guard, a sequenced call and a checked machine-word
operation each have one exact success condition, so that a whole body is
inverted by rewriting and never by unfolding its monadic structure. Nothing in
this module mentions a particular program.
-/

namespace EthereumSettlement.CheckedCalls

variable {ε ε' α β : Type}

/-- Abort with the supplied error unless the condition holds. -/
def require (condition : Prop) [Decidable condition] (error : ε) : Except ε Unit :=
  if condition then .ok () else .error error

/-- A guard passes exactly when its condition holds. -/
@[simp] theorem require_eq_ok {condition : Prop} [Decidable condition] {error : ε} {u : Unit} :
    require condition error = .ok u ↔ condition := by
  unfold require
  split <;> simp_all

/-- A sequenced call returns exactly when both of its parts return. -/
theorem bind_eq_ok {call : Except ε α} {next : α → Except ε β} {result : β} :
    (call >>= next) = .ok result ↔ ∃ value, call = .ok value ∧ next value = .ok result := by
  cases call with
  | error e =>
    constructor
    · intro h
      cases h
    · rintro ⟨value, h, _⟩
      cases h
  | ok value =>
    constructor
    · intro h
      exact ⟨value, rfl, h⟩
    · rintro ⟨other, h, hn⟩
      cases h
      exact hn

/-- A continuation behind a check returns exactly when the check passes and the
continuation returns. -/
theorem check_bind_eq_ok {check : Except ε Unit} {condition : Prop}
    (h : check = .ok () ↔ condition) {next : Unit → Except ε β} {result : β} :
    (check >>= next) = .ok result ↔ condition ∧ next () = .ok result := by
  rw [bind_eq_ok, ← h]
  constructor
  · rintro ⟨⟨⟩, hc, hn⟩
    exact ⟨hc, hn⟩
  · rintro ⟨hc, hn⟩
    exact ⟨(), hc, hn⟩

/-- A guarded continuation returns exactly when the guard holds and the
continuation returns. -/
@[simp] theorem require_bind_eq_ok {condition : Prop} [Decidable condition] {error : ε}
    {next : Unit → Except ε β} {result : β} :
    (require condition error >>= next) = .ok result ↔ condition ∧ next () = .ok result :=
  check_bind_eq_ok require_eq_ok

/-- The final return of a body is its value. -/
@[simp] theorem pure_eq_ok {value result : α} :
    (pure value : Except ε α) = .ok result ↔ value = result := by
  change (Except.ok value : Except ε α) = .ok result ↔ value = result
  simp

/-- An abort never returns. -/
@[simp] theorem throw_eq_ok {error : ε} {result : α} :
    ((throw error : Except ε α) = .ok result) ↔ False := by
  change ((Except.error error : Except ε α) = .ok result) ↔ False
  simp

/-- A call whose error is wrapped returns exactly when the call returns. -/
@[simp] theorem mapError_eq_ok {call : Except ε α} {wrap : ε → ε'} {result : α} :
    call.mapError wrap = .ok result ↔ call = .ok result := by
  cases call with
  | error e => simp [Except.mapError]
  | ok value => simp [Except.mapError]

/-- A call whose result is wrapped returns exactly when the call returns. -/
theorem map_eq_ok {call : Except ε α} {wrap : α → β} {result : β} :
    wrap <$> call = .ok result ↔ ∃ value, call = .ok value ∧ wrap value = result := by
  cases call with
  | error _ => simp
  | ok value => simp

/-- A call mapped over a list returns exactly when every call returns, in order. -/
theorem mapM_eq_ok {call : α → Except ε β} {inputs : List α} {results : List β} :
    inputs.mapM call = .ok results ↔
      List.Forall₂ (fun input result => call input = .ok result) inputs results := by
  induction inputs generalizing results with
  | nil =>
    rw [List.mapM_nil, pure_eq_ok, List.forall₂_nil_left_iff]
    exact eq_comm
  | cons input inputs ih =>
    rw [List.mapM_cons, bind_eq_ok]
    constructor
    · rintro ⟨result, hcall, hrest⟩
      obtain ⟨rest, hmap, hpure⟩ := bind_eq_ok.mp hrest
      rw [pure_eq_ok] at hpure
      rw [← hpure]
      exact List.Forall₂.cons hcall (ih.mp hmap)
    · intro h
      cases h with
      | cons hcall hrest =>
        exact ⟨_, hcall, bind_eq_ok.mpr ⟨_, ih.mpr hrest, rfl⟩⟩

/-- `context` on an optional value. -/
def context (value : Option α) (message : String) : Except String α :=
  match value with
  | some value => pure value
  | none => throw message

/-- A value with context is there. -/
@[simp] theorem context_eq_ok {value : Option α} {message : String} {result : α} :
    context value message = .ok result ↔ value = some result := by
  cases value with
  | none => simp [context]
  | some found => simp [context]

/-- `expect`, whose panic is an abort with its text. -/
def expect (value : Option α) (message : String) : Except String α := context value message

/-- `expect` returns what is there. -/
@[simp] theorem expect_eq_ok {value : Option α} {message : String} {result : α} :
    expect value message = .ok result ↔ value = some result :=
  context_eq_ok

/-- Machine-word addition that aborts on overflow. -/
def checkedAdd {w : ℕ} (error : ε) (a b : BitVec w) : Except ε (BitVec w) :=
  if a.toNat + b.toNat < 2 ^ w then .ok (a + b) else .error error

/-- Checked addition returns exactly the unbounded sum when it fits. -/
theorem checkedAdd_eq_ok {w : ℕ} {error : ε} {a b c : BitVec w} :
    checkedAdd error a b = .ok c ↔ c.toNat = a.toNat + b.toNat := by
  unfold checkedAdd
  have hc := c.isLt
  split
  · rename_i h
    rw [Except.ok.injEq]
    constructor
    · intro hab
      rw [← hab, BitVec.toNat_add, Nat.mod_eq_of_lt h]
    · intro hab
      apply BitVec.eq_of_toNat_eq
      rw [BitVec.toNat_add, Nat.mod_eq_of_lt h, hab]
  · constructor
    · intro hab
      cases hab
    · intro hab
      omega

/-- Checked addition returns whenever the unbounded sum fits. -/
theorem checkedAdd_of_lt {w : ℕ} {error : ε} {a b : BitVec w} (h : a.toNat + b.toNat < 2 ^ w) :
    checkedAdd error a b = .ok (a + b) := by
  unfold checkedAdd
  rw [if_pos h]

/-- The result of a checked addition is the machine sum. -/
theorem eq_add_of_checkedAdd {w : ℕ} {error : ε} {a b c : BitVec w}
    (h : checkedAdd error a b = .ok c) : c = a + b := by
  unfold checkedAdd at h
  split at h
  · exact (Except.ok.inj h).symm
  · cases h

/-- Machine-word subtraction that aborts on underflow. -/
def checkedSub {w : ℕ} (error : ε) (a b : BitVec w) : Except ε (BitVec w) :=
  if b.toNat ≤ a.toNat then .ok (a - b) else .error error

/-- Checked subtraction returns exactly the unbounded difference. -/
theorem checkedSub_eq_ok {w : ℕ} {error : ε} {a b c : BitVec w} :
    checkedSub error a b = .ok c ↔ c.toNat + b.toNat = a.toNat := by
  unfold checkedSub
  have ha := a.isLt
  split
  · rename_i h
    rw [Except.ok.injEq]
    have hsub : (a - b).toNat = a.toNat - b.toNat := BitVec.toNat_sub_of_le h
    constructor
    · intro hab
      rw [← hab, hsub]
      omega
    · intro hab
      apply BitVec.eq_of_toNat_eq
      rw [hsub]
      omega
  · constructor
    · intro hab
      cases hab
    · intro hab
      omega

/-- Checked subtraction returns whenever no borrow is needed. -/
theorem checkedSub_of_le {w : ℕ} {error : ε} {a b : BitVec w} (h : b.toNat ≤ a.toNat) :
    checkedSub error a b = .ok (a - b) := by
  unfold checkedSub
  rw [if_pos h]

/-- The value of a call as an option is its result. -/
theorem mem_toOption {call : Except ε α} {result : α} :
    result ∈ call.toOption ↔ call = .ok result := by
  cases call with
  | error e => simp [Except.toOption]
  | ok value => simp [Except.toOption]

section Folds

variable {σ : Type} {R : σ → σ → Prop}

/-- A preorder that every step of a fold follows holds between its ends. -/
theorem foldl_related (hrefl : ∀ start, R start start)
    (htrans : ∀ {first second third}, R first second → R second third → R first third)
    {f : σ → α → σ} (hf : ∀ start value, R start (f start value)) (values : List α) (start : σ) :
    R start (values.foldl f start) := by
  induction values generalizing start with
  | nil => exact hrefl start
  | cons value values ih => exact htrans (hf start value) (ih (f start value))

/-- A preorder that every call of an aborting fold follows holds between its ends. -/
theorem foldlM_related (hrefl : ∀ start, R start start)
    (htrans : ∀ {first second third}, R first second → R second third → R first third)
    {f : σ → α → Except ε σ} (hf : ∀ start value after, f start value = .ok after → R start after)
    (values : List α) {start after : σ} (h : values.foldlM f start = .ok after) :
    R start after := by
  induction values generalizing start with
  | nil =>
    rw [List.foldlM_nil, pure_eq_ok] at h
    rw [← h]
    exact hrefl start
  | cons value values ih =>
    rw [List.foldlM_cons, bind_eq_ok] at h
    obtain ⟨middle, hfirst, hrest⟩ := h
    exact htrans (hf start value middle hfirst) (ih hrest)

end Folds

/-- The call returns. -/
def Succeeds (call : Except ε α) : Prop := ∃ result, call = .ok result

instance (call : Except ε α) : Decidable (Succeeds call) :=
  match call with
  | .ok value => isTrue ⟨value, rfl⟩
  | .error _ => isFalse fun h => nomatch h.choose_spec

/-- A finished body returns. -/
@[simp] theorem succeeds_pure {value : α} : Succeeds (pure value : Except ε α) := ⟨value, rfl⟩

/-- A sequenced call returns exactly when its first part returns and the rest returns on the
result. -/
theorem succeeds_bind {call : Except ε α} {next : α → Except ε β} :
    Succeeds (call >>= next) ↔ ∃ value, call = .ok value ∧ Succeeds (next value) := by
  constructor
  · rintro ⟨result, h⟩
    obtain ⟨value, hcall, hnext⟩ := bind_eq_ok.mp h
    exact ⟨value, hcall, result, hnext⟩
  · rintro ⟨value, hcall, result, hnext⟩
    exact ⟨result, bind_eq_ok.mpr ⟨value, hcall, hnext⟩⟩

/-- A call mapped over a list returns exactly when it returns on every element. -/
theorem succeeds_mapM {call : α → Except ε β} {inputs : List α} :
    Succeeds (inputs.mapM call) ↔ ∀ input ∈ inputs, Succeeds (call input) := by
  induction inputs with
  | nil =>
    constructor
    · intro _ input hinput
      cases hinput
    · intro _
      exact ⟨[], rfl⟩
  | cons input inputs ih =>
    rw [List.forall_mem_cons, ← ih]
    constructor
    · intro h
      obtain ⟨results, hresults⟩ := h
      cases mapM_eq_ok.mp hresults with
      | cons hresult hrest => exact ⟨⟨_, hresult⟩, _, mapM_eq_ok.mpr hrest⟩
    · intro h
      obtain ⟨⟨result, hresult⟩, results, hresults⟩ := h
      exact ⟨result :: results, mapM_eq_ok.mpr (.cons hresult (mapM_eq_ok.mp hresults))⟩

end EthereumSettlement.CheckedCalls
