import EthereumSettlement.GreedyPacking
import EthereumSettlement.ReceiptBinding

/-!
# The packed part of an account-update body

A body is hashed from whole field elements and from chunks with a declared width, which
are packed greedily into further elements. The accumulator of the packing loop holds the
bits of the chunks since the last element was closed. They are fewer than the bits of the
field order, so no step of the loop is reduced by it. The closed elements are therefore
the numbers written by the chunks in order, and in given widths they determine the
chunks.
-/

namespace EthereumSettlement.PackedInputs

open CheckedCalls PastaPoseidon GreedyPacking SettlementReceipt ReceiptBinding
open ReferenceHashes

/-- The declared width of a chunk. -/
def chunkWidth (chunk : PackedFieldV1) : ℕ := chunk.bits.toNat

/-- The integer of a chunk. -/
def chunkValue (chunk : PackedFieldV1) : ℕ := chunk.value.toNat

/-- The number written by the bits of chunks one behind another. -/
def chunkNumber (group : List PackedFieldV1) : ℕ := concatenation chunkWidth chunkValue group

/-- The chunks of each packed element. -/
def chunkGroups (chunks : List PackedFieldV1) : List (List PackedFieldV1) :=
  pack chunkWidth modulusBitSize [] chunks

/-- The chunks in the accumulator after a part of the list. -/
def openChunks (front : List PackedFieldV1) : List PackedFieldV1 :=
  openGroup chunkWidth modulusBitSize [] front

/-- The checks on one chunk. -/
structure Accepted (chunk : PackedFieldV1) : Prop where
  /-- The width is not zero. -/
  positive : 0 < chunkWidth chunk
  /-- The width leaves the value below the field order. -/
  narrow : chunkWidth chunk < modulusBitSize
  /-- The value can be written in the width. -/
  fits : chunkValue chunk < 2 ^ chunkWidth chunk

/-- The accumulator and its width, after the loop body of an accepted chunk. -/
def accumulate (state : StepField × ℕ) (chunk : PackedFieldV1) : StepField × ℕ :=
  if state.2 + chunkWidth chunk < modulusBitSize then
    (state.1 * pow2 (chunkWidth chunk) + (chunkValue chunk : StepField),
      state.2 + chunkWidth chunk)
  else ((chunkValue chunk : StepField), chunkWidth chunk)

/-- The accumulator and its width after a part of the list. -/
def accumulatorAfter (front : List PackedFieldV1) : StepField × ℕ := front.foldl accumulate (0, 0)

/-- What holds of the accumulator when it contains a group of chunks. -/
structure Holds (state : StepField × ℕ) (group : List PackedFieldV1) : Prop where
  /-- The chunks of the group are accepted. -/
  accepted : ∀ chunk ∈ group, Accepted chunk
  /-- The counted bits are those of the group. -/
  width : state.2 = totalWidth chunkWidth group
  /-- The group leaves the accumulator below the field order. -/
  room : totalWidth chunkWidth group < modulusBitSize
  /-- The accumulator is the number written by the group. -/
  number : state.1.val = chunkNumber group

/-- How chunks lie in the packed elements. -/
structure Placement (chunks : List PackedFieldV1) (packed : List StepField) : Prop where
  /-- Every chunk passed the checks. -/
  accepted : ∀ chunk ∈ chunks, Accepted chunk
  /-- Every chunk lies in one group, in order. -/
  inOrder : (chunkGroups chunks).flatten = chunks
  /-- No group is empty. -/
  occupied : ∀ group ∈ chunkGroups chunks, group ≠ []
  /-- Each element is the number written by its group. -/
  elements : packed.map ZMod.val = (chunkGroups chunks).map chunkNumber
  /-- Every element stays below the bound. -/
  bounded : ∀ element ∈ packed, element.val < 2 ^ 254
  /-- After any part of the list the loop goes on with the number written by the open
  group, which stays below the bound. -/
  accumulated : ∀ front back, chunks = front ++ back → ∃ closed rest, packed = closed ++ rest ∧
    packChunks (accumulatorAfter front).1 (accumulatorAfter front).2 back = .ok rest ∧
    (accumulatorAfter front).1.val = chunkNumber (openChunks front) ∧
    (accumulatorAfter front).1.val < 2 ^ 254

section Arithmetic

/-- The packed numbers stay below the order of the field. -/
theorem bound_lt_fieldOrder : 2 ^ 254 < fieldOrder := by decide

/-- Doubling gives the powers of two. -/
theorem pow2_eq (bits : ℕ) : pow2 bits = ((2 ^ bits : ℕ) : StepField) := by
  induction bits with
  | zero => rw [pow2, Function.iterate_zero, id_eq, pow_zero, Nat.cast_one]
  | succ bits ih =>
    have hdouble : pow2 (bits + 1) = pow2 bits + pow2 bits := by
      rw [pow2, Function.iterate_succ_apply', pow2]
    rw [hdouble, ih, ← Nat.cast_add, pow_succ, mul_two]

/-- A number of fewer bits than the field order is a field element of that value. -/
theorem val_of_bits {number bits : ℕ} (hbits : bits < modulusBitSize) (h : number < 2 ^ bits) :
    (number : StepField).val = number := by
  have hpow : 2 ^ bits ≤ 2 ^ 254 := by
    apply Nat.pow_le_pow_right (by omega)
    rw [modulusBitSize] at hbits
    omega
  have hbound := bound_lt_fieldOrder
  exact ZMod.val_natCast_of_lt (by omega)

/-- A group with room is written below the bound. -/
theorem chunkNumber_lt {group : List PackedFieldV1} (haccepted : ∀ chunk ∈ group, Accepted chunk)
    (hroom : totalWidth chunkWidth group < modulusBitSize) : chunkNumber group < 2 ^ 254 := by
  have hlt : chunkNumber group < 2 ^ totalWidth chunkWidth group :=
    concatenation_lt fun chunk hchunk => (haccepted chunk hchunk).fits
  have hpow : 2 ^ totalWidth chunkWidth group ≤ 2 ^ 254 := by
    apply Nat.pow_le_pow_right (by omega)
    rw [modulusBitSize] at hroom
    omega
  omega

end Arithmetic

section Loop

/-- The empty accumulator contains no chunk. -/
theorem holds_start : Holds (0, 0) [] where
  accepted chunk h := absurd h List.not_mem_nil
  width := rfl
  room := by
    rw [totalWidth_nil, modulusBitSize]
    omega
  number := ZMod.val_zero

/-- One chunk keeps the accumulator at the number written by the open group. -/
theorem holds_accumulate {state : StepField × ℕ} {group : List PackedFieldV1}
    (h : Holds state group) {chunk : PackedFieldV1} (hchunk : Accepted chunk) :
    Holds (accumulate state chunk) (extend chunkWidth modulusBitSize group chunk) := by
  have hwidth := h.width
  rw [accumulate, extend, ← hwidth]
  by_cases hroom : state.2 + chunkWidth chunk < modulusBitSize
  · rw [if_pos hroom, if_pos hroom]
    have haccepted : ∀ other ∈ group ++ [chunk], Accepted other := by
      intro other hother
      cases List.mem_append.mp hother with
      | inl hgroup => exact h.accepted other hgroup
      | inr hlast => exact List.mem_singleton.mp hlast ▸ hchunk
    have hnumber : chunkNumber (group ++ [chunk]) =
        chunkNumber group * 2 ^ chunkWidth chunk + chunkValue chunk :=
      concatenation_concat group hchunk.fits
    have htotal : totalWidth chunkWidth (group ++ [chunk]) < modulusBitSize := by
      rwa [totalWidth_concat, ← hwidth]
    have hlt : chunkNumber (group ++ [chunk]) < 2 ^ totalWidth chunkWidth (group ++ [chunk]) :=
      concatenation_lt fun other hother => (haccepted other hother).fits
    have hcast : state.1 * pow2 (chunkWidth chunk) + (chunkValue chunk : StepField) =
        ((chunkNumber (group ++ [chunk]) : ℕ) : StepField) := by
      rw [hnumber, Nat.cast_add, Nat.cast_mul, ← pow2_eq, ← h.number, ZMod.natCast_zmod_val]
    refine ⟨haccepted, ?_, htotal, ?_⟩
    · rw [totalWidth_concat, ← hwidth]
    · rw [hcast]
      exact val_of_bits htotal hlt
  · rw [if_neg hroom, if_neg hroom]
    refine ⟨?_, ?_, ?_, ?_⟩
    · intro other hother
      exact List.mem_singleton.mp hother ▸ hchunk
    · rw [totalWidth_singleton]
    · rw [totalWidth_singleton]
      exact hchunk.narrow
    · have hnumber : chunkNumber [chunk] = chunkValue chunk := concatenation_singleton hchunk.fits
      rw [hnumber]
      exact val_of_bits hchunk.narrow hchunk.fits

/-- Further chunks keep it there. -/
theorem holds_foldl {state : StepField × ℕ} {group chunks : List PackedFieldV1}
    (h : Holds state group) (hchunks : ∀ chunk ∈ chunks, Accepted chunk) :
    Holds (chunks.foldl accumulate state) (openGroup chunkWidth modulusBitSize group chunks) := by
  induction chunks generalizing state group with
  | nil => exact h
  | cons chunk chunks ih =>
    have hstep := holds_accumulate h (hchunks chunk List.mem_cons_self)
    exact ih hstep fun other hother => hchunks other (List.mem_cons_of_mem chunk hother)

/-- The loop body, by its checks and its effect on the accumulator. -/
theorem packChunks_cons {state : StepField × ℕ} {chunk : PackedFieldV1}
    {chunks : List PackedFieldV1} {packed : List StepField}
    (h : packChunks state.1 state.2 (chunk :: chunks) = .ok packed) :
    Accepted chunk ∧ ∃ rest,
      packChunks (accumulate state chunk).1 (accumulate state chunk).2 chunks = .ok rest ∧
      packed = if state.2 + chunkWidth chunk < modulusBitSize then rest else state.1 :: rest := by
  have hbits : chunk.bits.toNat = chunkWidth chunk := rfl
  rw [packChunks, hbits, require_bind_eq_ok, require_bind_eq_ok, bind_eq_ok] at h
  obtain ⟨hpositive, hnarrow, value, hvalue, h⟩ := h
  rw [require_bind_eq_ok] at h
  have hfits := h.1
  replace h := h.2
  have hinteger : value.val = chunkValue chunk := by
    rw [← fieldToBytes_toNat, fieldFromBytes_eq_ok.mp hvalue, chunkValue]
  have hcast : (chunkValue chunk : StepField) = value := by
    rw [← hinteger, ZMod.natCast_zmod_val]
  refine ⟨⟨hpositive, hnarrow, hinteger ▸ hfits⟩, ?_⟩
  rw [accumulate, hcast]
  by_cases hroom : state.2 + chunkWidth chunk < modulusBitSize
  · rw [if_pos hroom] at h ⊢
    exact ⟨packed, h, (if_pos hroom).symm⟩
  · rw [if_neg hroom] at h ⊢
    rw [bind_eq_ok] at h
    obtain ⟨rest, hrest, h⟩ := h
    exact ⟨rest, hrest, by rw [if_neg hroom, ← pure_eq_ok.mp h]⟩

/-- Accepted chunks passed their checks. -/
theorem packChunks_accepted {state : StepField × ℕ} {chunks : List PackedFieldV1}
    {packed : List StepField} (h : packChunks state.1 state.2 chunks = .ok packed) :
    ∀ chunk ∈ chunks, Accepted chunk := by
  induction chunks generalizing state packed with
  | nil => exact fun chunk hchunk => absurd hchunk List.not_mem_nil
  | cons chunk chunks ih =>
    obtain ⟨hchunk, rest, hrest, -⟩ := packChunks_cons h
    exact List.forall_mem_cons.mpr ⟨hchunk, ih hrest⟩

/-- The elements the loop closes are the numbers written by the groups. -/
theorem packChunks_elements {state : StepField × ℕ} {group chunks : List PackedFieldV1}
    {packed : List StepField} (hstate : Holds state group)
    (h : packChunks state.1 state.2 chunks = .ok packed) :
    packed.map ZMod.val = (pack chunkWidth modulusBitSize group chunks).map chunkNumber := by
  induction chunks generalizing state group packed with
  | nil =>
    rw [packChunks, pure_eq_ok] at h
    rw [← h, pack, hstate.width]
    by_cases hwidth : 0 < totalWidth chunkWidth group
    · rw [if_pos hwidth, if_pos hwidth, List.map_singleton, List.map_singleton, hstate.number]
    · rw [if_neg hwidth, if_neg hwidth, List.map_nil, List.map_nil]
  | cons chunk chunks ih =>
    obtain ⟨hchunk, rest, hrest, hpacked⟩ := packChunks_cons h
    have helements := ih (holds_accumulate hstate hchunk) hrest
    rw [hpacked, pack, hstate.width]
    rw [extend] at helements
    by_cases hroom : totalWidth chunkWidth group + chunkWidth chunk < modulusBitSize
    · rw [if_pos hroom] at helements ⊢
      rw [if_pos hroom]
      exact helements
    · rw [if_neg hroom] at helements ⊢
      rw [if_neg hroom, List.map_cons, List.map_cons, helements, hstate.number]

/-- After a part of the list the loop goes on with the accumulator reached there. -/
theorem packChunks_append {state : StepField × ℕ} {front back : List PackedFieldV1}
    {packed : List StepField} (h : packChunks state.1 state.2 (front ++ back) = .ok packed) :
    ∃ closed rest, packed = closed ++ rest ∧ packChunks (front.foldl accumulate state).1
      (front.foldl accumulate state).2 back = .ok rest := by
  induction front generalizing state packed with
  | nil => exact ⟨[], packed, rfl, h⟩
  | cons chunk front ih =>
    obtain ⟨-, more, hmore, hpacked⟩ := packChunks_cons h
    obtain ⟨closed, rest, hsplit, hrest⟩ := ih hmore
    rw [List.foldl_cons]
    by_cases hroom : state.2 + chunkWidth chunk < modulusBitSize
    · rw [if_pos hroom] at hpacked
      exact ⟨closed, rest, hpacked.trans hsplit, hrest⟩
    · rw [if_neg hroom] at hpacked
      exact ⟨state.1 :: closed, rest, by rw [hpacked, hsplit, List.cons_append], hrest⟩

end Loop

section Lossless

/-- A chunk is its width and its value. -/
theorem chunk_ext {first second : PackedFieldV1} (hwidth : chunkWidth first = chunkWidth second)
    (hvalue : chunkValue first = chunkValue second) : first = second := by
  cases first with
  | mk value bits =>
    cases second with
    | mk otherValue otherBits =>
      have hvalues : value = otherValue := BitVec.eq_of_toNat_eq hvalue
      have hbits : bits = otherBits := BitVec.eq_of_toNat_eq hwidth
      rw [hvalues, hbits]

/-- Chunks are determined by their widths and their values. -/
theorem chunks_ext {first second : List PackedFieldV1}
    (hwidth : first.map chunkWidth = second.map chunkWidth)
    (hvalue : first.map chunkValue = second.map chunkValue) : first = second := by
  induction first generalizing second with
  | nil => exact (List.map_eq_nil_iff.mp hwidth.symm).symm
  | cons x first ih =>
    cases second with
    | nil => exact absurd hwidth (List.cons_ne_nil _ _)
    | cons y second =>
      have hwidths := List.cons.inj hwidth
      have hvalues := List.cons.inj hvalue
      rw [chunk_ext hwidths.1 hvalues.1, ih hwidths.2 hvalues.2]

/-- A packed list places its chunks without loss. -/
theorem placement_of_packChunks {chunks : List PackedFieldV1} {packed : List StepField}
    (h : packChunks 0 0 chunks = .ok packed) : Placement chunks packed := by
  have hrun : packChunks ((0, 0) : StepField × ℕ).1 ((0, 0) : StepField × ℕ).2 chunks =
      .ok packed := h
  have haccepted := packChunks_accepted hrun
  have helements := packChunks_elements holds_start h
  have hpositive : ∀ chunk ∈ chunks, 0 < chunkWidth chunk := fun chunk hchunk =>
    (haccepted chunk hchunk).positive
  have hfits : Fits chunkWidth chunkValue chunks := fun chunk hchunk =>
    (haccepted chunk hchunk).fits
  have hgroups : ∀ group ∈ chunkGroups chunks,
      0 < totalWidth chunkWidth group ∧ totalWidth chunkWidth group < modulusBitSize :=
    fun group hgroup => totalWidth_of_mem_pack holds_start.room
      (fun chunk hchunk => (haccepted chunk hchunk).narrow) hgroup
  refine ⟨haccepted, pack_flatten hpositive, ?_, helements, ?_, ?_⟩
  · intro group hgroup hempty
    have hwidth := (hgroups group hgroup).1
    rw [hempty, totalWidth_nil] at hwidth
    omega
  · intro element helement
    have hmem := List.mem_map_of_mem (f := ZMod.val) helement
    rw [helements] at hmem
    obtain ⟨group, hgroup, hnumber⟩ := List.mem_map.mp hmem
    have hmembers : ∀ chunk ∈ group, Accepted chunk := by
      intro chunk hchunk
      have hflatten := List.mem_flatten.mpr ⟨group, hgroup, hchunk⟩
      rw [pack_flatten hpositive] at hflatten
      exact haccepted chunk hflatten
    rw [← hnumber]
    exact chunkNumber_lt hmembers (hgroups group hgroup).2
  · intro front back hsplit
    rw [hsplit] at hrun haccepted
    obtain ⟨closed, rest, hpacked, hrest⟩ := packChunks_append hrun
    have hopen := holds_foldl holds_start fun chunk hchunk =>
      haccepted chunk (List.mem_append_left back hchunk)
    refine ⟨closed, rest, hpacked, hrest, hopen.number, ?_⟩
    rw [accumulatorAfter, hopen.number]
    exact chunkNumber_lt hopen.accepted hopen.room

/-- In given widths the packed elements determine the chunks. -/
theorem packChunks_injective {first second : List PackedFieldV1} {packed : List StepField}
    (hwidth : first.map chunkWidth = second.map chunkWidth)
    (hfirst : packChunks 0 0 first = .ok packed) (hsecond : packChunks 0 0 second = .ok packed) :
    first = second := by
  have hplaced := placement_of_packChunks hfirst
  have hother := placement_of_packChunks hsecond
  apply chunks_ext hwidth
  have hnumbers : (chunkGroups first).map chunkNumber = (chunkGroups second).map chunkNumber :=
    hplaced.elements.symm.trans hother.elements
  exact pack_injective hwidth (fun chunk hchunk => (hplaced.accepted chunk hchunk).fits)
    (fun chunk hchunk => (hother.accepted chunk hchunk).fits)
    (fun chunk hchunk => (hplaced.accepted chunk hchunk).positive)
    (fun chunk hchunk => (hother.accepted chunk hchunk).positive) hnumbers

/-- An accepted body is hashed from its whole elements and from the numbers written by its
chunks. The packed elements stay below `2 ^ 254`, and in the widths of the body no other
chunks are packed into them. -/
theorem packedInputs_lossless {H : Hashes} {signatureKind : MinaSignatureKindV1}
    {input : ChunkedRandomOracleInputV1} {hash : StepField}
    (h : hashAccountUpdateBody H signatureKind input = .ok hash) :
    ∃ fields packed, input.fieldElements.mapM fieldFromBytes = .ok fields ∧
      packChunks 0 0 input.packed = .ok packed ∧
      hash = hashWithPrefix H (bodyDomain signatureKind) (fields ++ packed) ∧
      Placement input.packed packed ∧ 2 ^ 254 < fieldOrder ∧
      ∀ other : List PackedFieldV1, other.map chunkWidth = input.packed.map chunkWidth →
        packChunks 0 0 other = .ok packed → other = input.packed := by
  simp only [hashAccountUpdateBody, bind_eq_ok, pure_eq_ok] at h
  obtain ⟨fields, hfields, packed, hpacked, hhash⟩ := h
  refine ⟨fields, packed, hfields, hpacked, ?_, placement_of_packChunks hpacked,
    bound_lt_fieldOrder, ?_⟩
  · rw [← hhash]
    cases signatureKind with
    | mainnet => rfl
    | testnet => rfl
  · intro other hwidth hother
    exact packChunks_injective hwidth hother hpacked

/-- A body whose second chunk fills the first element and whose third opens another. -/
def crossingBody : ChunkedRandomOracleInputV1 where
  fieldElements := [5]
  packed := [⟨1, 1⟩, ⟨7, 253⟩, ⟨2, 8⟩]

/-- Its hash on the test network. -/
def crossingHash : StepField :=
  (0x17e38c2701aab540320314156a2708c7af80f2b38b92c70c2dd326ba9cb1ee44 : ℕ)

/-- The crossing body is hashed from two packed elements without loss. -/
theorem packedInputs_lossless_crossing : ∃ fields packed,
    crossingBody.fieldElements.mapM fieldFromBytes = .ok fields ∧
      packChunks 0 0 crossingBody.packed = .ok packed ∧
      crossingHash = hashWithPrefix referenceHashes (bodyDomain .testnet) (fields ++ packed) ∧
      Placement crossingBody.packed packed ∧ 2 ^ 254 < fieldOrder ∧
      ∀ other : List PackedFieldV1, other.map chunkWidth = crossingBody.packed.map chunkWidth →
        packChunks 0 0 other = .ok packed → other = crossingBody.packed := by
  have hhash : hashAccountUpdateBody referenceHashes .testnet crossingBody =
      .ok crossingHash := by decide +kernel
  exact packedInputs_lossless hhash

end Lossless

end EthereumSettlement.PackedInputs
