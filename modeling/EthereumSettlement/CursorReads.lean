import EthereumSettlement.ByteWords
import EthereumSettlement.CheckedCalls
import Mathlib.Data.Fin.Tuple.Basic

/-!
# Reading byte strings through a cursor

A reader takes fixed-width words from a byte string one after another and moves
a cursor past each of them. A read beyond the end fails. The rules turn a whole
sequence of reads into the words at their offsets, and join the encodings of
adjacent words back into the string they were read from. Nothing in this module
mentions a particular program.
-/

namespace EthereumSettlement.CursorReads

open ByteWords CheckedCalls

/-- Reads with a cursor that may fail with a message. -/
abbrev CursorRead := StateT ℕ (Except String)

/-- The word at the cursor, which moves past it; reading beyond the end fails. -/
def readAt (error : String) (w : ℕ) (input : Bytes) : CursorRead (BitVec w) := fun cursor => do
  require (cursor + w / 8 ≤ input.length) error
  pure (readWord w input cursor, cursor + w / 8)

/-- A condition checked between reads. -/
def check (condition : Prop) [Decidable condition] (error : String) : CursorRead Unit :=
  fun cursor => do
    require condition error
    pure ((), cursor)

/-- Consecutive words, in order. -/
def readAll (error : String) (w : ℕ) (input : Bytes) : (n : ℕ) → CursorRead (Fin n → BitVec w)
  | 0 => pure Fin.elim0
  | n + 1 => do
    let first ← readAt error w input
    let rest ← readAll error w input n
    pure (Fin.cons first rest)

/-- A counted sequence of items. -/
def readCounted {α : Type} (read : CursorRead α) : ℕ → CursorRead (List α)
  | 0 => pure []
  | count + 1 => do
    let first ← read
    let rest ← readCounted read count
    pure (first :: rest)

variable {α β : Type} {error : String} {w : ℕ} {input : Bytes} {cursor : ℕ}

/-- A sequence of reads succeeds when its first read does and the rest follows. -/
theorem read_bind_eq_ok {read : CursorRead α} {next : α → CursorRead β} {result : β × ℕ} :
    (read >>= next) cursor = .ok result ↔
      ∃ value after, read cursor = .ok (value, after) ∧ next value after = .ok result := by
  change (read cursor >>= fun step => next step.1 step.2) = .ok result ↔ _
  rw [bind_eq_ok]
  constructor
  · rintro ⟨⟨value, after⟩, hread, hnext⟩
    exact ⟨value, after, hread, hnext⟩
  · rintro ⟨value, after, hread, hnext⟩
    exact ⟨(value, after), hread, hnext⟩

/-- A finished read returns its value where the cursor stands. -/
theorem read_pure_eq_ok {value : α} {result : α × ℕ} :
    (pure value : CursorRead α) cursor = .ok result ↔ (value, cursor) = result := by
  change (Except.ok (value, cursor) : Except String (α × ℕ)) = .ok result ↔ _
  rw [Except.ok.injEq]

/-- Reading a word within the string. -/
theorem readAt_eq_ok {value : BitVec w} {after : ℕ} :
    readAt error w input cursor = .ok (value, after) ↔
      cursor + w / 8 ≤ input.length ∧ readWord w input cursor = value ∧ cursor + w / 8 = after := by
  rw [readAt, require_bind_eq_ok, pure_eq_ok, Prod.mk.injEq]

/-- A condition between reads leaves the cursor. -/
theorem check_eq_ok {condition : Prop} [Decidable condition] {u : Unit} {after : ℕ} :
    check condition error cursor = .ok (u, after) ↔ condition ∧ cursor = after := by
  rw [check, require_bind_eq_ok, pure_eq_ok, Prod.mk.injEq, eq_self_iff_true, true_and]

/-- Consecutive words stand at consecutive offsets. -/
theorem readAll_eq_ok {n : ℕ} {values : Fin n → BitVec w} {after : ℕ}
    (hstart : n = 0 → cursor ≤ input.length) :
    readAll error w input n cursor = .ok (values, after) ↔
      cursor + n * (w / 8) ≤ input.length ∧
      (fun i : Fin n => readWord w input (cursor + w / 8 * i)) = values ∧
      cursor + n * (w / 8) = after := by
  induction n generalizing cursor after with
  | zero =>
    rw [readAll, read_pure_eq_ok, Prod.mk.injEq, Nat.zero_mul, Nat.add_zero]
    exact ⟨fun h => ⟨hstart rfl, funext fun i => i.elim0, h.2⟩, fun h => ⟨funext fun i => i.elim0, h.2.2⟩⟩
  | succ n ih =>
    have hoffset : cursor + w / 8 + n * (w / 8) = cursor + (n + 1) * (w / 8) := by
      rw [Nat.succ_mul]
      omega
    have hvalues : Fin.cons (readWord w input cursor)
        (fun i : Fin n => readWord w input (cursor + w / 8 + w / 8 * i)) =
        fun i : Fin (n + 1) => readWord w input (cursor + w / 8 * i) := by
      funext i
      cases i using Fin.cases with
      | zero => simp
      | succ i =>
        have hnext : cursor + w / 8 + w / 8 * i = cursor + w / 8 * (i + 1) := by
          rw [Nat.mul_succ]
          omega
        simp [hnext]
    rw [readAll, read_bind_eq_ok]
    constructor
    · rintro ⟨first, middle, hfirst, hrest⟩
      obtain ⟨hbound, rfl, rfl⟩ := readAt_eq_ok.mp hfirst
      obtain ⟨rest, last, hrest, hdone⟩ := read_bind_eq_ok.mp hrest
      obtain ⟨hbound', rfl, rfl⟩ := (ih fun _ => hbound).mp hrest
      rw [read_pure_eq_ok, Prod.mk.injEq, hvalues, hoffset] at hdone
      rw [hoffset] at hbound'
      exact ⟨hbound', hdone⟩
    · rintro ⟨hbound, rfl, rfl⟩
      rw [← hoffset] at hbound
      refine ⟨_, _, readAt_eq_ok.mpr ⟨by omega, rfl, rfl⟩, ?_⟩
      refine read_bind_eq_ok.mpr ⟨_, _, (ih fun _ => by omega).mpr ⟨hbound, rfl, rfl⟩, ?_⟩
      rw [read_pure_eq_ok, hvalues, hoffset]

/-- Items of one size at consecutive offsets. -/
def countedItems (item : ℕ → α) (size : ℕ) : ℕ → ℕ → List α
  | 0, _ => []
  | count + 1, cursor => item cursor :: countedItems item size count (cursor + size)

/-- As many items as were counted. -/
@[simp] theorem countedItems_length (item : ℕ → α) (size count cursor : ℕ) :
    (countedItems item size count cursor).length = count := by
  induction count generalizing cursor with
  | zero => rfl
  | succ count ih => rw [countedItems, List.length_cons, ih]

/-- A counted sequence of items of one size stands at consecutive offsets. -/
theorem readCounted_eq_ok {read : CursorRead α} {item : ℕ → α} {size count : ℕ} {values : List α}
    {after : ℕ}
    (hread : ∀ {cursor : ℕ} {value : α} {after : ℕ}, read cursor = .ok (value, after) ↔
      cursor + size ≤ input.length ∧ item cursor = value ∧ cursor + size = after)
    (hstart : cursor ≤ input.length) :
    readCounted read count cursor = .ok (values, after) ↔
      cursor + count * size ≤ input.length ∧ countedItems item size count cursor = values ∧
      cursor + count * size = after := by
  induction count generalizing cursor values after with
  | zero =>
    rw [readCounted, read_pure_eq_ok, Prod.mk.injEq, Nat.zero_mul, Nat.add_zero]
    exact ⟨fun h => ⟨hstart, h⟩, fun h => h.2⟩
  | succ count ih =>
    have hoffset : cursor + size + count * size = cursor + (count + 1) * size := by
      rw [Nat.succ_mul]
      omega
    rw [readCounted, read_bind_eq_ok]
    constructor
    · rintro ⟨first, middle, hfirst, hrest⟩
      obtain ⟨hbound, rfl, rfl⟩ := hread.mp hfirst
      obtain ⟨rest, last, hrest, hdone⟩ := read_bind_eq_ok.mp hrest
      obtain ⟨hbound', rfl, rfl⟩ := (ih hbound).mp hrest
      rw [read_pure_eq_ok, Prod.mk.injEq, hoffset] at hdone
      rw [hoffset] at hbound'
      exact ⟨hbound', hdone⟩
    · rintro ⟨hbound, rfl, rfl⟩
      rw [← hoffset] at hbound
      refine ⟨_, _, hread.mpr ⟨by omega, rfl, rfl⟩, ?_⟩
      refine read_bind_eq_ok.mpr ⟨_, _, (ih (by omega)).mpr ⟨hbound, rfl, rfl⟩, ?_⟩
      rw [read_pure_eq_ok, hoffset, countedItems]

/-- A slice of a leading part. -/
theorem slice_take {offset n k : ℕ} (h : offset + n ≤ k) :
    slice (input.take k) offset n = slice input offset n := by
  have hmin : min n (k - offset) = n := by omega
  rw [slice, slice, List.drop_take, List.take_take, hmin]

/-- A word of a leading part. -/
theorem readWord_take {offset k : ℕ} (h : offset + w / 8 ≤ k) :
    readWord w (input.take k) offset = readWord w input offset := by
  rw [readWord, readWord, slice_take h]

/-- A word of a trailing part. -/
theorem readWord_drop (k offset : ℕ) :
    readWord w (input.drop k) offset = readWord w input (k + offset) := by
  rw [readWord, readWord, slice, slice, List.drop_drop]

/-- Adjacent slices join. -/
theorem slice_join {offset m middle n : ℕ} (h : offset + m = middle) :
    slice input offset m ++ slice input middle n = slice input offset (m + n) := by
  rw [← h, slice_append]

/-- Re-encoding consecutive words gives the bytes they were read from. -/
theorem abiEncode_readWords {n : ℕ} (h : cursor + n * 32 ≤ input.length) :
    abiEncode (List.ofFn fun i : Fin n => readWord 256 input (cursor + 32 * i)) =
      slice input cursor (n * 32) := by
  induction n generalizing cursor with
  | zero =>
    rw [List.ofFn_zero, Nat.zero_mul, slice, List.take_zero]
    rfl
  | succ n ih =>
    have htail : (fun i : Fin n => readWord 256 input (cursor + 32 * (i.succ : ℕ))) =
        fun i : Fin n => readWord 256 input (cursor + 32 + 32 * i) := by
      funext i
      rw [Fin.val_succ, Nat.mul_succ]
      congr 1
      omega
    have hhead : bytesOf (readWord 256 input cursor) = slice input cursor 32 :=
      bytesOf_readWord (by decide) (by omega)
    rw [List.ofFn_succ, abiEncode_cons, htail, ih (by omega), Fin.val_zero, Nat.mul_zero,
      Nat.add_zero, hhead, slice_join rfl]
    congr 1
    omega

/-- Re-encoding counted items gives the bytes they were read from. -/
theorem flatMap_countedItems {item : ℕ → α} {size count : ℕ} {encode : α → Bytes}
    (hencode : ∀ cursor, cursor + size ≤ input.length →
      encode (item cursor) = slice input cursor size)
    (h : cursor + count * size ≤ input.length) :
    (countedItems item size count cursor).flatMap encode = slice input cursor (count * size) := by
  induction count generalizing cursor with
  | zero => rw [countedItems, List.flatMap_nil, Nat.zero_mul, slice, List.take_zero]
  | succ count ih =>
    rw [Nat.succ_mul] at h
    have hsum : size + count * size = (count + 1) * size := by
      rw [Nat.succ_mul]
      omega
    rw [countedItems, List.flatMap_cons, hencode _ (by omega), ih (by omega), slice_join rfl, hsum]

/-- Counted items are read back from their encodings. -/
theorem countedItems_encoded {item : Bytes → ℕ → α} {size : ℕ} {encode : α → Bytes}
    (hsize : ∀ value, (encode value).length = size)
    (hitem : ∀ (before rest : Bytes) (value : α),
      item (before ++ (encode value ++ rest)) before.length = value)
    (before : Bytes) (values : List α) :
    countedItems (item (before ++ values.flatMap encode)) size values.length before.length =
      values := by
  induction values generalizing before with
  | nil => rfl
  | cons value values ih =>
    have hnext := ih (before ++ encode value)
    rw [List.length_append, hsize, List.append_assoc] at hnext
    rw [List.length_cons, List.flatMap_cons, countedItems, hitem, hnext]

/-- A string of known length is a slice of itself. -/
theorem slice_self {n : ℕ} (h : input.length = n) : slice input 0 n = input := by
  rw [slice, List.drop_zero, ← h, List.take_length]

end EthereumSettlement.CursorReads
