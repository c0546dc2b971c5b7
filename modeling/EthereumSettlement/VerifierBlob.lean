import EthereumSettlement.PicklesProof

/-!
# The verifier blob of the guest

The host ships the two reference strings, the Lagrange basis of the wrap domain, the
chunk count and the wrap key to the guest as one byte string. Point sections are
records of 72 bytes that the guest casts in place, so every section of points has to
start at a multiple of eight. Writers and readers work section by section: each reader
returns what its writer was given and stands behind it, at an address that is a
multiple of eight again. The casts are `bytemuck`'s, and the key has a codec of its
own; both are parameters.
-/

namespace EthereumSettlement.VerifierBlob

open ByteWords CheckedCalls PastaPoseidon PicklesProof

/-- The two Pasta curves. -/
inductive Curve
  | vesta
  | pallas

/-- A point in memory: the limbs of both coordinates and the mark of infinity. -/
structure Affine (curve : Curve) where
  /-- Limbs of the first coordinate. -/
  x : Vector (BitVec 64) 4
  /-- Limbs of the second coordinate. -/
  y : Vector (BitVec 64) 4
  /-- Whether it is the point at infinity. -/
  infinity : Bool
  deriving DecidableEq

/-- `Vesta`. -/
abbrev Vesta := Affine .vesta

/-- `Pallas`. -/
abbrev Pallas := Affine .pallas

/-- The default point is infinity. -/
instance {curve : Curve} : Inhabited (Affine curve) :=
  ⟨⟨Vector.replicate 4 0, Vector.replicate 4 0, true⟩⟩

/-- `PodVesta` and `PodPallas`. -/
@[ext] structure Pod where
  /-- Limbs of the first coordinate. -/
  x : Vector (BitVec 64) 4
  /-- Limbs of the second coordinate. -/
  y : Vector (BitVec 64) 4
  /-- One for the point at infinity, else zero. -/
  infinity : Byte
  /-- Zero bytes up to the next multiple of eight. -/
  pad : Vector Byte 7

/-- The record of a point. -/
def toPod {curve : Curve} (point : Affine curve) : Pod where
  x := point.x
  y := point.y
  infinity := if point.infinity then 1 else 0
  pad := Vector.replicate 7 0

/-- `vesta_to_pod`. -/
def vestaToPod : Vesta → Pod := toPod

/-- `pallas_to_pod`. -/
def pallasToPod : Pallas → Pod := toPod

/-- `to_le_bytes` of a word. -/
def leBytes (word : BitVec 64) : Bytes := (bytesOf word).reverse

/-- `from_le_bytes` of a word. -/
def leWord (bytes : Bytes) : BitVec 64 := wordOf 64 bytes.reverse

/-- The bytes of a record in memory. -/
def podBytes (pod : Pod) : Bytes :=
  (pod.x.toList ++ pod.y.toList).flatMap leBytes ++ pod.infinity :: pod.pad.toList

/-- `size_of` of a record. -/
def podSize : ℕ := 72

/-- The word at an index of a record. -/
def limbAt (bytes : Bytes) (i : ℕ) : BitVec 64 := leWord ((bytes.drop (8 * i)).take 8)

/-- The record that bytes in memory are. -/
def podOf (bytes : Bytes) : Pod where
  x := Vector.ofFn fun i => limbAt bytes i
  y := Vector.ofFn fun i => limbAt bytes (4 + i)
  infinity := bytes.getD 64 0
  pad := Vector.ofFn fun i => bytes.getD (65 + i) 0

/-- The point that a record is. A mark that is neither zero nor one is no Boolean. -/
def affineOf (curve : Curve) (pod : Pod) : Except String (Affine curve) := do
  require (pod.infinity = 0 ∨ pod.infinity = 1) "undefined behaviour: invalid bool"
  pure ⟨pod.x, pod.y, pod.infinity == 1⟩

/-- Borrowed bytes and where they start in memory. -/
structure Slice where
  /-- Where they start. -/
  address : ℕ
  /-- The bytes. -/
  bytes : Bytes

/-- `split_at`. -/
def Slice.splitAt (slice : Slice) (mid : ℕ) : Slice × Slice :=
  (⟨slice.address, slice.bytes.take mid⟩, ⟨slice.address + mid, slice.bytes.drop mid⟩)

/-- The error of a cast to a type of higher alignment. -/
def misaligned : String := "TargetAlignmentGreaterAndInputNotAligned"

/-- Consecutive records. -/
def records : ℕ → Bytes → List Bytes
  | 0, _ => []
  | count + 1, bytes => bytes.take podSize :: records count (bytes.drop podSize)

/-- `bytemuck`: its casts between bytes and records, which are aligned to eight bytes, and
what they promise. -/
class Bytemuck where
  /-- `cast_slice` from records to bytes. -/
  castToBytes : List Pod → Bytes
  /-- `bytes_of` a record. -/
  bytesOf : Pod → Bytes
  /-- `cast_slice` from bytes to records. -/
  castSlice : Slice → Except String (List Pod)
  /-- `from_bytes` to a record. -/
  fromBytes : Slice → Except String Pod
  /-- Records are cast to their bytes in memory. -/
  castToBytes_eq : ∀ pods, castToBytes pods = pods.flatMap podBytes
  /-- So is one record. -/
  bytesOf_eq : ∀ pod, bytesOf pod = podBytes pod
  /-- Aligned bytes of whole records are cast to these records. -/
  castSlice_eq : ∀ {slice}, slice.address % 8 = 0 → slice.bytes.length % podSize = 0 →
    castSlice slice = .ok ((records (slice.bytes.length / podSize) slice.bytes).map podOf)
  /-- The alignment of aligned bytes is not refused. -/
  castSlice_aligned : ∀ {slice}, slice.address % 8 = 0 → castSlice slice ≠ .error misaligned
  /-- Aligned bytes of one record are cast to it. -/
  fromBytes_eq : ∀ {slice}, slice.address % 8 = 0 → slice.bytes.length = podSize →
    fromBytes slice = .ok (podOf slice.bytes)
  /-- Their alignment is not refused either. -/
  fromBytes_aligned : ∀ {slice}, slice.address % 8 = 0 → fromBytes slice ≠ .error misaligned

/-- `write_u64_le`. -/
def writeU64Le (out : Bytes) (x : BitVec 64) : Bytes := out ++ leBytes x

/-- A section of points: their number and their records. -/
def writeSection [Bytemuck] {curve : Curve} (toPod : Affine curve → Pod) (out : Bytes)
    (points : List (Affine curve)) : Bytes :=
  let pods := points.map toPod
  writeU64Le out (BitVec.ofNat 64 pods.length) ++ Bytemuck.castToBytes pods

/-- `write_vesta_section`. -/
def writeVestaSection [Bytemuck] (out : Bytes) (points : List Vesta) : Bytes :=
  writeSection vestaToPod out points

/-- `write_pallas_section`. -/
def writePallasSection [Bytemuck] (out : Bytes) (points : List Pallas) : Bytes :=
  writeSection pallasToPod out points

/-- `write_one_pallas`. -/
def writeOnePallas [Bytemuck] (out : Bytes) (p : Pallas) : Bytes :=
  out ++ Bytemuck.bytesOf (pallasToPod p)

/-- `write_bytes_section`. -/
def writeBytesSection (out bytes : Bytes) : Bytes :=
  writeU64Le out (BitVec.ofNat 64 bytes.length) ++ bytes

/-- `read_u64_le`. -/
def readU64Le (slice : Slice) : Except String (BitVec 64 × Slice) := do
  require (8 ≤ slice.bytes.length) "blob truncated reading u64"
  pure (leWord (slice.splitAt 8).1.bytes, (slice.splitAt 8).2)

/-- A section of points, cast in place. -/
def readSection [Bytemuck] (curve : Curve) (truncated : String) (slice : Slice) :
    Except String (List (Affine curve) × Slice) := do
  let head ← readU64Le slice
  let byteLen := head.1.toNat * podSize
  require (byteLen < 2 ^ 64) "section overflow"
  require (byteLen ≤ head.2.bytes.length) truncated
  let pods ← Bytemuck.castSlice (head.2.splitAt byteLen).1
  let points ← pods.mapM (affineOf curve)
  pure (points, (head.2.splitAt byteLen).2)

/-- `read_vesta_section`. -/
def readVestaSection [Bytemuck] : Slice → Except String (List Vesta × Slice) :=
  readSection .vesta "blob truncated mid vesta section"

/-- `read_pallas_section`. -/
def readPallasSection [Bytemuck] : Slice → Except String (List Pallas × Slice) :=
  readSection .pallas "blob truncated mid pallas section"

/-- `read_one_pallas`. -/
def readOnePallas [Bytemuck] (slice : Slice) : Except String (Pallas × Slice) := do
  require (podSize ≤ slice.bytes.length) "blob truncated reading one Pallas"
  let pod ← Bytemuck.fromBytes (slice.splitAt podSize).1
  let p ← affineOf .pallas pod
  pure (p, (slice.splitAt podSize).2)

/-- `read_bytes_section`. -/
def readBytesSection (slice : Slice) : Except String (Bytes × Slice) := do
  let head ← readU64Le slice
  require (head.1.toNat ≤ head.2.bytes.length) "blob truncated mid bytes section"
  pure ((head.2.splitAt head.1.toNat).1.bytes, (head.2.splitAt head.1.toNat).2)

/-- `PolyComm`. -/
structure PolyComm (P : Type) where
  /-- One point for each chunk. -/
  chunks : List P

/-- `SRS` with the cache of its Lagrange bases. -/
structure Srs (P : Type) where
  /-- Generators. -/
  g : List P
  /-- Blinding generator. -/
  h : P
  /-- Basis of each domain size in the cache. -/
  lagrangeBases : BitVec 64 → Option (List (PolyComm P))

/-- The default reference string is empty. -/
instance {P : Type} [Inhabited P] : Inhabited (Srs P) := ⟨⟨[], default, fun _ => none⟩⟩

/-- `get_or_generate`: the cached value, or the generated one, which is cached. -/
def getOrGenerate {P : Type} (srs : Srs P) (domainSize : BitVec 64)
    (generator : Except String (List (PolyComm P))) :
    Except String (List (PolyComm P) × Srs P) :=
  match srs.lagrangeBases domainSize with
  | some basis => pure (basis, srs)
  | none => do
    let basis ← generator
    pure (basis, { srs with
      lagrangeBases := fun size => if size = domainSize then some basis else srs.lagrangeBases size })

/-- `WrapVerifierIndex`: the domain size, all other fields that are serialized, and the
fields that are not. -/
structure WrapVerifierIndex (D : Type) (L A : Type → Type) where
  /-- Size of the domain. -/
  domainSize : BitVec 64
  /-- All other serialized fields. -/
  data : D
  /-- The reference string. -/
  srs : Srs Pallas
  /-- Vanishing polynomial of the permutation, once computed. -/
  permutationVanishingPolynomialM : Option (List WrapField)
  /-- Its root of unity, once computed. -/
  w : Option WrapField
  /-- Endomorphism coefficient. -/
  endo : WrapField
  /-- Linearization of the constraints. -/
  linearization : L WrapField
  /-- Powers of the first challenge for each constraint. -/
  powersOfAlpha : A WrapField

/-- What is outside the module: the Lagrange basis of a reference string, the codec of
the key, the linearization of a field and the coefficients of the endomorphisms. -/
structure Backend (D : Type) (L A : Type → Type) where
  /-- Lagrange basis of a reference string. -/
  lagrangeBasis : List Pallas → Pallas → BitVec 64 → Except String (List (PolyComm Pallas))
  /-- Bytes of an index. -/
  toAllocvec : WrapVerifierIndex D L A → Option Bytes
  /-- Index of bytes. -/
  fromBytes : Bytes → Option (WrapVerifierIndex D L A)
  /-- Linearization over a field. -/
  exprLinearization : (F : Type) → L F × A F
  /-- Endomorphism coefficient of the wrap curve. -/
  wrapEndo : WrapField
  /-- Endomorphism coefficient of the step curve. -/
  stepEndo : StepField

/-- `Verifier`. -/
structure Verifier (D : Type) (L A : Type → Type) where
  /-- Index of the wrap circuit. -/
  wrapVk : WrapVerifierIndex D L A
  /-- Reference string of the step curve. -/
  vestaSrs : Srs Vesta
  /-- Rows that hide the witness of the step circuit. -/
  stepZkRows : BitVec 64
  /-- Logarithm of the length of the step reference string. -/
  stepSrsLengthLog2 : ℕ
  /-- Endomorphism coefficient of the step curve. -/
  stepEndo : StepField
  /-- Linearization of the constraints. -/
  linearization : L StepField
  /-- Powers of the first challenge for each constraint. -/
  powersOfAlpha : A StepField

variable {D : Type} {L A : Type → Type}

/-- `Verifier::new`. -/
def Verifier.new (backend : Backend D L A) (wrapVk : WrapVerifierIndex D L A)
    (wrapSrs : Srs Pallas) (vestaSrs : Srs Vesta) (stepNumChunks : BitVec 64) : Verifier D L A where
  wrapVk := { wrapVk with
    srs := wrapSrs
    linearization := (backend.exprLinearization WrapField).1
    powersOfAlpha := (backend.exprLinearization WrapField).2
    endo := backend.wrapEndo }
  vestaSrs := vestaSrs
  stepZkRows := (16 * stepNumChunks + 5) / 7
  stepSrsLengthLog2 := stepIpaRounds
  stepEndo := backend.stepEndo
  linearization := (backend.exprLinearization StepField).1
  powersOfAlpha := (backend.exprLinearization StepField).2

/-- `get_lagrange_basis_from_domain_size`. -/
def getLagrangeBasisFromDomainSize (backend : Backend D L A) (srs : Srs Pallas)
    (domainSize : BitVec 64) : Except String (List (PolyComm Pallas)) := do
  let generated ← getOrGenerate srs domainSize (backend.lagrangeBasis srs.g srs.h domainSize)
  pure generated.1

/-- The point of a commitment, which has to be of one chunk. -/
def singleChunk (poly : PolyComm Pallas) : Except String Pallas := do
  require (poly.chunks.length = 1) "wrap lagrange basis poly: expected single-chunk PolyComm"
  pure poly.chunks.head!

/-- `encode_verifier_blob`. A vector holds at most `isize::MAX` bytes. -/
def encodeVerifierBlob [Bytemuck] (backend : Backend D L A) (vestaSrs : Srs Vesta) (wrapSrs : Srs Pallas)
    (stepNumChunks : BitVec 64) (wrapVk : WrapVerifierIndex D L A) : Except String Bytes := do
  let out := writeVestaSection [] vestaSrs.g
  let out := writePallasSection out wrapSrs.g
  let out := writeOnePallas out wrapSrs.h
  let basis ← getLagrangeBasisFromDomainSize backend wrapSrs wrapVk.domainSize
  let basisPoints ← basis.mapM singleChunk
  let out := writePallasSection out basisPoints
  let out := writeU64Le out stepNumChunks
  let vkBytes ← expect (backend.toAllocvec wrapVk) "postcard(wrap_vk)"
  let out := writeBytesSection out vkBytes
  require (out.length < 2 ^ 63) "capacity overflow"
  pure out

/-- `seed_wrap_lagrange_basis`. -/
def seedWrapLagrangeBasis (srs : Srs Pallas) (domainSize : BitVec 64)
    (basis : List (PolyComm Pallas)) : Except String (Srs Pallas) := do
  let seeded ← getOrGenerate srs domainSize (pure basis)
  pure seeded.2

/-- `decode_verifier_blob`. -/
def decodeVerifierBlob [Bytemuck] (backend : Backend D L A) (bytes : Slice) :
    Except String (Verifier D L A) := do
  let vestaG ← readVestaSection bytes
  let wrapG ← readPallasSection vestaG.2
  let wrapH ← readOnePallas wrapG.2
  let wrapBasisPts ← readPallasSection wrapH.2
  let stepNumChunks ← readU64Le wrapBasisPts.2
  let vkBytes ← readBytesSection stepNumChunks.2
  let vestaSrs : Srs Vesta := { (default : Srs Vesta) with g := vestaG.1 }
  let wrapSrs : Srs Pallas := { (default : Srs Pallas) with
    g := wrapG.1
    h := wrapH.1 }
  let wrapVk ← expect (backend.fromBytes vkBytes.1) "postcard wrap_vk decode"
  let basis := wrapBasisPts.1.map fun p => PolyComm.mk [p]
  let wrapSrs ← seedWrapLagrangeBasis wrapSrs wrapVk.domainSize basis
  pure (Verifier.new backend wrapVk wrapSrs vestaSrs stepNumChunks.1)

/-- A word has eight bytes. -/
@[simp] theorem leBytes_length (word : BitVec 64) : (leBytes word).length = 8 := by
  rw [leBytes, List.length_reverse, bytesOf_length]

/-- A word is read back from its bytes. -/
@[simp] theorem leWord_leBytes (word : BitVec 64) : leWord (leBytes word) = word := by
  rw [leWord, leBytes, List.reverse_reverse, wordOf_bytesOf (by decide)]

/-- Words take eight bytes each. -/
theorem flatMap_leBytes_length (words : List (BitVec 64)) :
    (words.flatMap leBytes).length = 8 * words.length := by
  induction words with
  | nil => rfl
  | cons word words ih =>
    rw [List.flatMap_cons, List.length_append, leBytes_length, ih, List.length_cons]
    omega

/-- Every word is read back at its own index. -/
theorem limbAt_written (words : List (BitVec 64)) (rest : Bytes) {i : ℕ} (h : i < words.length) :
    limbAt (words.flatMap leBytes ++ rest) i = words[i] := by
  induction words generalizing i with
  | nil => exact absurd h (Nat.not_lt_zero i)
  | cons word words ih =>
    rw [List.flatMap_cons, List.append_assoc]
    cases i with
    | zero =>
      have hhead : (leBytes word ++ (words.flatMap leBytes ++ rest)).take 8 = leBytes word :=
        List.take_left' (leBytes_length word)
      rw [limbAt, Nat.mul_zero, List.drop_zero, hhead, leWord_leBytes]
      rfl
    | succ i =>
      have hi : i < words.length := by
        rw [List.length_cons] at h
        omega
      have hdrop : (leBytes word ++ (words.flatMap leBytes ++ rest)).drop (8 * (i + 1)) =
          (words.flatMap leBytes ++ rest).drop (8 * i) := by
        have hsum : 8 * (i + 1) = (leBytes word).length + 8 * i := by
          rw [leBytes_length]
          omega
        rw [hsum, List.drop_append]
        simp
      rw [limbAt, hdrop]
      exact ih hi

/-- A record has 72 bytes. -/
@[simp] theorem podBytes_length (pod : Pod) : (podBytes pod).length = podSize := by
  have hwords := flatMap_leBytes_length (pod.x.toList ++ pod.y.toList)
  rw [List.length_append, Vector.length_toList, Vector.length_toList] at hwords
  rw [podBytes, List.length_append, hwords, List.length_cons, Vector.length_toList]
  rfl

/-- A record is read back from its bytes. -/
@[simp] theorem podOf_podBytes (pod : Pod) : podOf (podBytes pod) = pod := by
  have hwords : (pod.x.toList ++ pod.y.toList).length = 8 := by
    rw [List.length_append, Vector.length_toList, Vector.length_toList]
  have hbytes := flatMap_leBytes_length (pod.x.toList ++ pod.y.toList)
  rw [hwords] at hbytes
  apply Pod.ext
  · apply Vector.ext
    intro i hi
    have hlimb := limbAt_written (pod.x.toList ++ pod.y.toList) (pod.infinity :: pod.pad.toList)
      (i := i) (by omega)
    rw [podOf, Vector.getElem_ofFn, podBytes, hlimb, List.getElem_append_left]
    · exact Vector.getElem_toList _
    · rw [Vector.length_toList]
      exact hi
  · apply Vector.ext
    intro i hi
    have hlimb := limbAt_written (pod.x.toList ++ pod.y.toList) (pod.infinity :: pod.pad.toList)
      (i := 4 + i) (by omega)
    have hleft : pod.x.toList.length ≤ 4 + i := by
      rw [Vector.length_toList]
      omega
    rw [podOf, Vector.getElem_ofFn, podBytes, hlimb, List.getElem_append_right hleft]
    simp
  · rw [podOf, podBytes, List.getD_append_right _ _ _ _ (by omega), hbytes]
    rfl
  · apply Vector.ext
    intro i hi
    rw [podOf, Vector.getElem_ofFn, podBytes, List.getD_append_right _ _ _ _ (by omega), hbytes]
    have hindex : 65 + i - 8 * 8 = i + 1 := by omega
    rw [hindex, List.getD_cons_succ, List.getD_eq_getElem _ _ (by rw [Vector.length_toList]; omega)]
    exact Vector.getElem_toList _

/-- A point is read back from its record. -/
@[simp] theorem affineOf_toPod {curve : Curve} (point : Affine curve) :
    affineOf curve (toPod point) = .ok point := by
  obtain ⟨x, y, infinity⟩ := point
  cases infinity <;> rfl

/-- Consecutive records are read back one by one. -/
theorem records_written (pods : List Pod) (rest : Bytes) :
    records pods.length (pods.flatMap podBytes ++ rest) = pods.map podBytes := by
  induction pods with
  | nil => rfl
  | cons pod pods ih =>
    have htake : (podBytes pod ++ (pods.flatMap podBytes ++ rest)).take podSize = podBytes pod :=
      List.take_left' (podBytes_length pod)
    have hdrop : (podBytes pod ++ (pods.flatMap podBytes ++ rest)).drop podSize =
        pods.flatMap podBytes ++ rest := List.drop_left' (podBytes_length pod)
    rw [List.length_cons, records, List.flatMap_cons, List.append_assoc, htake, hdrop, ih,
      List.map_cons]

/-- Records take 72 bytes each. -/
theorem flatMap_podBytes_length (pods : List Pod) :
    (pods.flatMap podBytes).length = podSize * pods.length := by
  induction pods with
  | nil => rfl
  | cons pod pods ih =>
    rw [List.flatMap_cons, List.length_append, podBytes_length, ih, List.length_cons, Nat.mul_succ]
    omega

/-- At an address that is a multiple of eight the reader returns the value that was
written and stands behind its bytes. -/
def Reads {α : Type} (reader : Slice → Except String (α × Slice)) (written : Bytes) (value : α) :
    Prop :=
  ∀ address rest, address % 8 = 0 →
    reader ⟨address, written ++ rest⟩ = .ok (value, ⟨address + written.length, rest⟩)

/-- The first part of a slice is what was written first, and the second what follows. -/
theorem splitAt_written (address : ℕ) (written rest : Bytes) {mid : ℕ} (h : written.length = mid) :
    Slice.splitAt ⟨address, written ++ rest⟩ mid = (⟨address, written⟩, ⟨address + mid, rest⟩) := by
  rw [Slice.splitAt, List.take_left' h, List.drop_left' h]

/-- A word is read back at any address. -/
theorem readU64Le_written (address : ℕ) (word : BitVec 64) (rest : Bytes) :
    readU64Le ⟨address, leBytes word ++ rest⟩ = .ok (word, ⟨address + 8, rest⟩) := by
  have hlength : 8 ≤ (leBytes word ++ rest).length := by
    rw [List.length_append, leBytes_length]
    omega
  rw [readU64Le, require_bind_eq_ok, splitAt_written address (leBytes word) rest (leBytes_length word)]
  refine ⟨hlength, ?_⟩
  rw [leWord_leBytes]
  rfl

/-- The bytes of a section of points. -/
def sectionBytes {curve : Curve} (points : List (Affine curve)) : Bytes :=
  leBytes (BitVec.ofNat 64 points.length) ++ (points.map toPod).flatMap podBytes

/-- A section is appended. -/
theorem writeSection_eq [Bytemuck] {curve : Curve} (out : Bytes) (points : List (Affine curve)) :
    writeSection toPod out points = out ++ sectionBytes points := by
  rw [writeSection, writeU64Le, sectionBytes, Bytemuck.castToBytes_eq, List.length_map,
    List.append_assoc]

/-- The size of a section. -/
theorem sectionBytes_length {curve : Curve} (points : List (Affine curve)) :
    (sectionBytes points).length = 8 + podSize * points.length := by
  rw [sectionBytes, List.length_append, leBytes_length, flatMap_podBytes_length, List.length_map]

/-- Records at a multiple of eight are cast in place. -/
theorem castSlice_written [Bytemuck] {address : ℕ} (haligned : address % 8 = 0) (pods : List Pod) :
    Bytemuck.castSlice ⟨address, pods.flatMap podBytes⟩ = .ok pods := by
  have hlength := flatMap_podBytes_length pods
  have hwhole : (pods.flatMap podBytes).length % podSize = 0 := by
    rw [hlength, Nat.mul_mod_right]
  have hcount : (pods.flatMap podBytes).length / podSize = pods.length := by
    rw [hlength, Nat.mul_div_cancel_left _ (by decide)]
  have hrecords := records_written pods []
  rw [List.append_nil] at hrecords
  have hpods : (pods.map podBytes).map podOf = pods := by
    rw [List.map_map]
    have hid : podOf ∘ podBytes = id := funext podOf_podBytes
    rw [hid, List.map_id]
  rw [Bytemuck.castSlice_eq haligned hwhole, hcount, hrecords, hpods]

/-- Every record of a point is that point. -/
theorem mapM_affineOf {curve : Curve} (points : List (Affine curve)) :
    (points.map toPod).mapM (affineOf curve) = .ok points := by
  rw [mapM_eq_ok, List.forall₂_map_left_iff]
  induction points with
  | nil => exact .nil
  | cons point points ih => exact .cons (affineOf_toPod point) ih

/-- A section of points that fits is read back. -/
theorem readSection_written [Bytemuck] {curve : Curve} (truncated : String) {points : List (Affine curve)}
    (hfits : podSize * points.length < 2 ^ 64) :
    Reads (readSection curve truncated) (sectionBytes points) points := by
  intro address rest haligned
  have hcount : (BitVec.ofNat 64 points.length).toNat = points.length := by
    have hsmall : points.length < 2 ^ 64 := by
      rw [podSize] at hfits
      omega
    rw [BitVec.toNat_ofNat, Nat.mod_eq_of_lt hsmall]
  have hlength := flatMap_podBytes_length (points.map toPod)
  rw [List.length_map] at hlength
  have hnext : (address + 8) % 8 = 0 := by omega
  have hsize : ((points.map toPod).flatMap podBytes).length = points.length * podSize := by
    rw [hlength, Nat.mul_comm]
  have hsplit := splitAt_written (address + 8) ((points.map toPod).flatMap podBytes) rest hsize
  have hend : address + 8 + points.length * podSize = address + (sectionBytes points).length := by
    rw [sectionBytes_length, Nat.mul_comm]
    omega
  have hread := readU64Le_written address (BitVec.ofNat 64 points.length)
    ((points.map toPod).flatMap podBytes ++ rest)
  rw [sectionBytes, List.append_assoc, ← sectionBytes, readSection, hread]
  refine bind_eq_ok.mpr ⟨_, rfl, ?_⟩
  simp only [hcount, hsplit, require_bind_eq_ok]
  refine ⟨by rw [Nat.mul_comm]; exact hfits, ?_, ?_⟩
  · rw [List.length_append, hlength, Nat.mul_comm]
    omega
  · rw [castSlice_written hnext]
    refine bind_eq_ok.mpr ⟨_, rfl, bind_eq_ok.mpr ⟨_, mapM_affineOf points, ?_⟩⟩
    rw [hend]
    rfl

/-- A single point is read back. -/
theorem readOnePallas_written [Bytemuck] (p : Pallas) :
    Reads readOnePallas (podBytes (pallasToPod p)) p := by
  intro address rest haligned
  have hlength : podSize ≤ (podBytes (pallasToPod p) ++ rest).length := by
    rw [List.length_append, podBytes_length]
    omega
  have hcast : Bytemuck.fromBytes ⟨address, podBytes (pallasToPod p)⟩ = .ok (pallasToPod p) := by
    rw [Bytemuck.fromBytes_eq haligned (podBytes_length _), podOf_podBytes]
  rw [readOnePallas, require_bind_eq_ok,
    splitAt_written address (podBytes (pallasToPod p)) rest (podBytes_length _)]
  refine ⟨hlength, bind_eq_ok.mpr ⟨_, hcast, bind_eq_ok.mpr ⟨_, affineOf_toPod p, ?_⟩⟩⟩
  rw [podBytes_length]
  rfl

/-- A section of bytes that fits is read back at any address. -/
theorem readBytesSection_written (address : ℕ) {bytes : Bytes} (rest : Bytes)
    (hfits : bytes.length < 2 ^ 64) :
    readBytesSection ⟨address, leBytes (BitVec.ofNat 64 bytes.length) ++ bytes ++ rest⟩ =
      .ok (bytes, ⟨address + 8 + bytes.length, rest⟩) := by
  have hcount : (BitVec.ofNat 64 bytes.length).toNat = bytes.length := by
    rw [BitVec.toNat_ofNat, Nat.mod_eq_of_lt hfits]
  rw [List.append_assoc, readBytesSection, readU64Le_written]
  refine bind_eq_ok.mpr ⟨_, rfl, ?_⟩
  simp only [hcount, require_bind_eq_ok, splitAt_written (address + 8) bytes rest rfl]
  refine ⟨?_, rfl⟩
  rw [List.length_append]
  omega

/-- The key as its serialized form carries it: skipped fields are at their defaults. -/
def WrapVerifierIndex.unskipped [Inhabited (L WrapField)] [Inhabited (A WrapField)]
    (wrapVk : WrapVerifierIndex D L A) : WrapVerifierIndex D L A where
  domainSize := wrapVk.domainSize
  data := wrapVk.data
  srs := default
  permutationVanishingPolynomialM := none
  w := none
  endo := 0
  linearization := default
  powersOfAlpha := default

/-- A wrap reference string with one cached Lagrange basis. -/
def seeded (wrapSrs : Srs Pallas) (domainSize : BitVec 64) (basis : List (PolyComm Pallas)) :
    Srs Pallas where
  g := wrapSrs.g
  h := wrapSrs.h
  lagrangeBases := fun size => if size = domainSize then some basis else none

/-- The size of a blob of these numbers of points and bytes. -/
def blobLength (vestaG wrapG basis vkBytes : ℕ) : ℕ :=
  (8 + podSize * vestaG) + (8 + podSize * wrapG) + podSize + (8 + podSize * basis) + 8 +
    (8 + vkBytes)

/-- Records of points start at an offset that is a multiple of eight. -/
structure PointsAt {curve : Curve} (blob : Bytes) (start : ℕ) (points : List (Affine curve)) :
    Prop where
  /-- The offset is a multiple of eight. -/
  aligned : start % 8 = 0
  /-- The records of the points stand there. -/
  stored : (points.map toPod).flatMap podBytes <+: blob.drop start

/-- The offsets at which the records of the four groups of points start. -/
structure Laid (blob : Bytes) (vestaG : List Vesta) (wrapG : List Pallas) (wrapH : Pallas)
    (basisPoints : List Pallas) : Prop where
  /-- Generators of the step curve. -/
  vesta : PointsAt blob 8 vestaG
  /-- Generators of the wrap curve. -/
  wrap : PointsAt blob (8 + podSize * vestaG.length + 8) wrapG
  /-- Blinding generator of the wrap curve. -/
  blinder : PointsAt blob (8 + podSize * vestaG.length + 8 + podSize * wrapG.length) [wrapH]
  /-- Points of the Lagrange basis. -/
  lagrange : PointsAt blob
    (8 + podSize * vestaG.length + 8 + podSize * wrapG.length + podSize + 8) basisPoints

/-- Records behind a prefix whose size is a multiple of eight. -/
theorem pointsAt_append {curve : Curve} (before rest : Bytes) (points : List (Affine curve))
    (h : before.length % 8 = 0) :
    PointsAt (before ++ ((points.map toPod).flatMap podBytes ++ rest)) before.length points where
  aligned := h
  stored := by
    rw [List.drop_left' rfl]
    exact List.prefix_append _ _

/-- Commitments of one chunk are the points that they hold. -/
theorem exists_of_singleChunk {basis : List (PolyComm Pallas)}
    (h : ∀ poly ∈ basis, poly.chunks.length = 1) :
    ∃ points : List Pallas, basis = points.map (fun p => PolyComm.mk [p]) ∧
      basis.mapM singleChunk = .ok points := by
  induction basis with
  | nil => exact ⟨[], rfl, rfl⟩
  | cons poly basis ih =>
    obtain ⟨points, hpoints, hmap⟩ := ih fun other hother => h other (List.mem_cons_of_mem poly hother)
    have hchunks := h poly List.mem_cons_self
    obtain ⟨p, hp⟩ := List.length_eq_one_iff.mp hchunks
    have hpoly : poly = PolyComm.mk [p] := by
      rw [← hp]
    have hcall : singleChunk poly = .ok p := by
      rw [hpoly]
      rfl
    refine ⟨p :: points, ?_, ?_⟩
    · rw [List.map_cons, ← hpoints, ← hpoly]
    · rw [mapM_eq_ok]
      exact .cons hcall (mapM_eq_ok.mp hmap)

/-- The bytes of a blob. -/
def blobBytes (vestaG : List Vesta) (wrapG : List Pallas) (wrapH : Pallas)
    (basisPoints : List Pallas) (stepNumChunks : BitVec 64) (vkBytes : Bytes) : Bytes :=
  sectionBytes vestaG ++ (sectionBytes wrapG ++ (podBytes (pallasToPod wrapH) ++
    (sectionBytes basisPoints ++ (leBytes stepNumChunks ++
      (leBytes (BitVec.ofNat 64 vkBytes.length) ++ vkBytes ++ [])))))

/-- The size of the bytes of a blob. -/
theorem blobBytes_length (vestaG : List Vesta) (wrapG : List Pallas) (wrapH : Pallas)
    (basisPoints : List Pallas) (stepNumChunks : BitVec 64) (vkBytes : Bytes) :
    (blobBytes vestaG wrapG wrapH basisPoints stepNumChunks vkBytes).length =
      blobLength vestaG.length wrapG.length basisPoints.length vkBytes.length := by
  simp only [blobBytes, List.length_append, sectionBytes_length, podBytes_length, leBytes_length,
    List.length_nil, blobLength]
  omega

/-- The records of a blob start at multiples of eight, whatever the lengths. -/
theorem laid_blobBytes (vestaG : List Vesta) (wrapG : List Pallas) (wrapH : Pallas)
    (basisPoints : List Pallas) (stepNumChunks : BitVec 64) (vkBytes : Bytes) :
    Laid (blobBytes vestaG wrapG wrapH basisPoints stepNumChunks vkBytes) vestaG wrapG wrapH
      basisPoints where
  vesta := by
    have h := pointsAt_append (leBytes (BitVec.ofNat 64 vestaG.length))
      (sectionBytes wrapG ++ (podBytes (pallasToPod wrapH) ++ (sectionBytes basisPoints ++
        (leBytes stepNumChunks ++ (leBytes (BitVec.ofNat 64 vkBytes.length) ++ vkBytes ++ [])))))
      vestaG (by rw [leBytes_length])
    rw [leBytes_length] at h
    rw [blobBytes, sectionBytes, List.append_assoc]
    exact h
  wrap := by
    have hlength : (sectionBytes vestaG ++ leBytes (BitVec.ofNat 64 wrapG.length)).length =
        8 + podSize * vestaG.length + 8 := by
      rw [List.length_append, sectionBytes_length, leBytes_length]
    have h := pointsAt_append (sectionBytes vestaG ++ leBytes (BitVec.ofNat 64 wrapG.length))
      (podBytes (pallasToPod wrapH) ++ (sectionBytes basisPoints ++
        (leBytes stepNumChunks ++ (leBytes (BitVec.ofNat 64 vkBytes.length) ++ vkBytes ++ []))))
      wrapG (by rw [hlength, podSize]; omega)
    rw [hlength] at h
    rw [blobBytes, sectionBytes.eq_def wrapG]
    simpa only [List.append_assoc] using h
  blinder := by
    have hlength : (sectionBytes vestaG ++ sectionBytes wrapG).length =
        8 + podSize * vestaG.length + 8 + podSize * wrapG.length := by
      rw [List.length_append, sectionBytes_length, sectionBytes_length]
      omega
    have h := pointsAt_append (sectionBytes vestaG ++ sectionBytes wrapG)
      (sectionBytes basisPoints ++
        (leBytes stepNumChunks ++ (leBytes (BitVec.ofNat 64 vkBytes.length) ++ vkBytes ++ [])))
      [wrapH] (by rw [hlength, podSize]; omega)
    rw [hlength] at h
    rw [blobBytes]
    simpa only [List.append_assoc, List.map_cons, List.map_nil, List.flatMap_cons, List.flatMap_nil,
      List.nil_append, pallasToPod] using h
  lagrange := by
    have hlength : (sectionBytes vestaG ++ sectionBytes wrapG ++ podBytes (pallasToPod wrapH) ++
        leBytes (BitVec.ofNat 64 basisPoints.length)).length =
        8 + podSize * vestaG.length + 8 + podSize * wrapG.length + podSize + 8 := by
      simp only [List.length_append, sectionBytes_length, podBytes_length, leBytes_length]
      omega
    have h := pointsAt_append (sectionBytes vestaG ++ sectionBytes wrapG ++
        podBytes (pallasToPod wrapH) ++ leBytes (BitVec.ofNat 64 basisPoints.length))
      (leBytes stepNumChunks ++ (leBytes (BitVec.ofNat 64 vkBytes.length) ++ vkBytes ++ []))
      basisPoints (by rw [hlength, podSize]; omega)
    rw [hlength] at h
    rw [blobBytes, sectionBytes.eq_def basisPoints]
    simpa only [List.append_assoc] using h

/-- What the encoder writes. -/
theorem encodeVerifierBlob_eq [Bytemuck] (backend : Backend D L A) (vestaSrs : Srs Vesta)
    (wrapSrs : Srs Pallas) (stepNumChunks : BitVec 64) (wrapVk : WrapVerifierIndex D L A)
    {basis : List (PolyComm Pallas)} {basisPoints : List Pallas} {vkBytes : Bytes}
    (hbasis : getLagrangeBasisFromDomainSize backend wrapSrs wrapVk.domainSize = .ok basis)
    (hpoints : basis.mapM singleChunk = .ok basisPoints)
    (hto : backend.toAllocvec wrapVk = some vkBytes)
    (hfits : blobLength vestaSrs.g.length wrapSrs.g.length basisPoints.length vkBytes.length <
      2 ^ 63) :
    encodeVerifierBlob backend vestaSrs wrapSrs stepNumChunks wrapVk =
      .ok (blobBytes vestaSrs.g wrapSrs.g wrapSrs.h basisPoints stepNumChunks vkBytes) := by
  have hvk : expect (backend.toAllocvec wrapVk) "postcard(wrap_vk)" = .ok vkBytes := by
    rw [hto]
    rfl
  have hout : writeBytesSection (writeU64Le (writePallasSection (writeOnePallas
      (writePallasSection (writeVestaSection [] vestaSrs.g) wrapSrs.g) wrapSrs.h) basisPoints)
        stepNumChunks) vkBytes =
      blobBytes vestaSrs.g wrapSrs.g wrapSrs.h basisPoints stepNumChunks vkBytes := by
    simp only [writeBytesSection, writeU64Le, writePallasSection, writeVestaSection, vestaToPod,
      pallasToPod, writeSection_eq, writeOnePallas, Bytemuck.bytesOf_eq, blobBytes, List.nil_append,
      List.append_nil, List.append_assoc]
  rw [encodeVerifierBlob, bind_eq_ok]
  refine ⟨basis, hbasis, bind_eq_ok.mpr ⟨basisPoints, hpoints, bind_eq_ok.mpr ⟨vkBytes, hvk, ?_⟩⟩⟩
  simp only [hout, require_bind_eq_ok, blobBytes_length]
  exact ⟨hfits, rfl⟩

/-- What the decoder makes of those bytes. -/
theorem decodeVerifierBlob_eq [Bytemuck] (backend : Backend D L A) {address : ℕ} (haligned : address % 8 = 0)
    (vestaG : List Vesta) (wrapSrs : Srs Pallas) (basisPoints : List Pallas)
    (stepNumChunks : BitVec 64) {vkBytes : Bytes} {wrapVk : WrapVerifierIndex D L A}
    (hfrom : backend.fromBytes vkBytes = some wrapVk)
    (hfits : blobLength vestaG.length wrapSrs.g.length basisPoints.length vkBytes.length < 2 ^ 63) :
    decodeVerifierBlob backend
        ⟨address, blobBytes vestaG wrapSrs.g wrapSrs.h basisPoints stepNumChunks vkBytes⟩ =
      .ok (Verifier.new backend wrapVk
        (seeded wrapSrs wrapVk.domainSize (basisPoints.map fun p => PolyComm.mk [p]))
        { (default : Srs Vesta) with g := vestaG } stepNumChunks) := by
  have hvestaFits : podSize * vestaG.length < 2 ^ 64 := by
    rw [blobLength] at hfits
    omega
  have hwrapFits : podSize * wrapSrs.g.length < 2 ^ 64 := by
    rw [blobLength] at hfits
    omega
  have hbasisFits : podSize * basisPoints.length < 2 ^ 64 := by
    rw [blobLength] at hfits
    omega
  have hvkFits : vkBytes.length < 2 ^ 64 := by
    rw [blobLength] at hfits
    omega
  have hvk : expect (backend.fromBytes vkBytes) "postcard wrap_vk decode" = .ok wrapVk := by
    rw [hfrom]
    rfl
  rw [decodeVerifierBlob, bind_eq_ok, blobBytes]
  refine ⟨_, readSection_written _ hvestaFits address _ haligned, ?_⟩
  have hwrapAligned : (address + (sectionBytes vestaG).length) % 8 = 0 := by
    rw [sectionBytes_length, podSize]
    omega
  refine bind_eq_ok.mpr ⟨_, readSection_written _ hwrapFits _ _ hwrapAligned, ?_⟩
  have hhAligned : (address + (sectionBytes vestaG).length + (sectionBytes wrapSrs.g).length) % 8 =
      0 := by
    rw [sectionBytes_length, sectionBytes_length, podSize]
    omega
  refine bind_eq_ok.mpr ⟨_, readOnePallas_written wrapSrs.h _ _ hhAligned, ?_⟩
  have hbasisAligned : (address + (sectionBytes vestaG).length + (sectionBytes wrapSrs.g).length +
      (podBytes (pallasToPod wrapSrs.h)).length) % 8 = 0 := by
    rw [sectionBytes_length, sectionBytes_length, podBytes_length, podSize]
    omega
  refine bind_eq_ok.mpr ⟨_, readSection_written _ hbasisFits _ _ hbasisAligned, ?_⟩
  refine bind_eq_ok.mpr ⟨_, readU64Le_written _ stepNumChunks _, ?_⟩
  refine bind_eq_ok.mpr ⟨_, readBytesSection_written _ [] hvkFits, ?_⟩
  exact bind_eq_ok.mpr ⟨wrapVk, hvk, rfl⟩

/-- A sequence of calls does not end in an error that neither of them ends in. -/
theorem bind_ne_error {α β : Type} {call : Except String α} {next : α → Except String β}
    {error : String} (hcall : call ≠ .error error)
    (hnext : ∀ value, call = .ok value → next value ≠ .error error) :
    (call >>= next) ≠ .error error := by
  cases call with
  | error other =>
    intro h
    have hother : other = error := Except.error.inj h
    exact hcall (by rw [hother])
  | ok value => exact hnext value rfl

/-- A check with another message does not end in this error. -/
theorem require_ne_error {condition : Prop} [Decidable condition] {message error : String}
    (h : message ≠ error) : require condition message ≠ .error error := by
  rw [require]
  split
  · exact fun hok => by cases hok
  · exact fun herror => h (Except.error.inj herror)

/-- A check that passes does not end in any error. -/
theorem require_ne_error_of {condition : Prop} [Decidable condition] {message error : String}
    (h : condition) : require condition message ≠ .error error := by
  rw [require, if_pos h]
  exact fun hok => by cases hok

/-- Reading a word never casts. -/
theorem readU64Le_aligned (slice : Slice) : readU64Le slice ≠ .error misaligned := by
  refine bind_ne_error (require_ne_error (by decide)) fun _ _ => ?_
  exact fun h => by cases h

/-- A word read at a multiple of eight is followed by a multiple of eight. -/
theorem address_of_readU64Le {slice : Slice} {head : BitVec 64 × Slice}
    (haligned : slice.address % 8 = 0) (h : readU64Le slice = .ok head) :
    head.2.address % 8 = 0 := by
  rw [readU64Le, require_bind_eq_ok, pure_eq_ok] at h
  rw [← h.2]
  change (slice.address + 8) % 8 = 0
  omega

/-- The points of records are found without a cast. -/
theorem mapM_affineOf_aligned (curve : Curve) (pods : List Pod) :
    pods.mapM (affineOf curve) ≠ .error misaligned := by
  induction pods with
  | nil =>
    intro h
    cases h
  | cons pod pods ih =>
    rw [List.mapM_cons]
    refine bind_ne_error ?_ fun _ _ => bind_ne_error ih fun _ _ => ?_
    · refine bind_ne_error (require_ne_error (by decide)) fun _ _ => ?_
      exact fun h => by cases h
    · exact fun h => by cases h

/-- The cast of a section at a multiple of eight does not fail. -/
theorem readSection_aligned [Bytemuck] {curve : Curve} {truncated : String} {slice : Slice}
    (htruncated : truncated ≠ misaligned) (haligned : slice.address % 8 = 0) :
    readSection curve truncated slice ≠ .error misaligned := by
  refine bind_ne_error (readU64Le_aligned slice) fun head hhead => ?_
  have hnext := address_of_readU64Le haligned hhead
  refine bind_ne_error (require_ne_error (by decide)) fun _ _ => ?_
  refine bind_ne_error (require_ne_error htruncated) fun _ _ => ?_
  have hcast : Bytemuck.castSlice (head.2.splitAt (head.1.toNat * podSize)).1 ≠ .error misaligned :=
    Bytemuck.castSlice_aligned hnext
  refine bind_ne_error hcast fun pods _ => ?_
  exact bind_ne_error (mapM_affineOf_aligned curve pods) fun _ _ => fun h => by cases h

/-- A section read at a multiple of eight is followed by a multiple of eight. -/
theorem address_of_readSection [Bytemuck] {curve : Curve} {truncated : String} {slice : Slice}
    {points : List (Affine curve) × Slice} (haligned : slice.address % 8 = 0)
    (h : readSection curve truncated slice = .ok points) : points.2.address % 8 = 0 := by
  rw [readSection, bind_eq_ok] at h
  obtain ⟨head, hhead, h⟩ := h
  have hnext := address_of_readU64Le haligned hhead
  simp only [bind_eq_ok, pure_eq_ok] at h
  obtain ⟨-, -, -, -, pods, -, found, -, hpoints⟩ := h
  rw [← hpoints]
  change (head.2.address + head.1.toNat * podSize) % 8 = 0
  rw [podSize]
  omega

/-- The cast of a point at a multiple of eight does not fail. -/
theorem readOnePallas_aligned [Bytemuck] {slice : Slice} (haligned : slice.address % 8 = 0) :
    readOnePallas slice ≠ .error misaligned := by
  refine bind_ne_error (require_ne_error (by decide)) fun _ _ => ?_
  have hcast : Bytemuck.fromBytes (slice.splitAt podSize).1 ≠ .error misaligned :=
    Bytemuck.fromBytes_aligned haligned
  refine bind_ne_error hcast fun pod _ => bind_ne_error ?_ fun _ _ => ?_
  · refine bind_ne_error (require_ne_error (by decide)) fun _ _ => ?_
    exact fun h => by cases h
  · exact fun h => by cases h

/-- A point read at a multiple of eight is followed by a multiple of eight. -/
theorem address_of_readOnePallas [Bytemuck] {slice : Slice} {p : Pallas × Slice}
    (haligned : slice.address % 8 = 0) (h : readOnePallas slice = .ok p) :
    p.2.address % 8 = 0 := by
  rw [readOnePallas, require_bind_eq_ok] at h
  simp only [bind_eq_ok, pure_eq_ok] at h
  obtain ⟨-, pod, -, found, -, hp⟩ := h
  rw [← hp]
  change (slice.address + podSize) % 8 = 0
  rw [podSize]
  omega

/-- No cast of the decoder fails on bytes that start at a multiple of eight, whatever
they are. -/
theorem decodeVerifierBlob_aligned [Bytemuck] (backend : Backend D L A) {slice : Slice}
    (haligned : slice.address % 8 = 0) : decodeVerifierBlob backend slice ≠ .error misaligned := by
  have hvestaError : "blob truncated mid vesta section" ≠ misaligned := by decide
  have hpallasError : "blob truncated mid pallas section" ≠ misaligned := by decide
  refine bind_ne_error (readSection_aligned hvestaError haligned) fun vestaG hvestaG => ?_
  have hwrap := address_of_readSection haligned hvestaG
  refine bind_ne_error (readSection_aligned hpallasError hwrap) fun wrapG hwrapG => ?_
  have hblinder := address_of_readSection hwrap hwrapG
  refine bind_ne_error (readOnePallas_aligned hblinder) fun wrapH hwrapH => ?_
  have hbasis := address_of_readOnePallas hblinder hwrapH
  refine bind_ne_error (readSection_aligned hpallasError hbasis) fun wrapBasisPts _ => ?_
  refine bind_ne_error (readU64Le_aligned wrapBasisPts.2) fun stepNumChunks _ => ?_
  refine bind_ne_error ?_ fun vkBytes _ => bind_ne_error ?_ fun wrapVk _ => ?_
  · refine bind_ne_error (readU64Le_aligned _) fun _ _ => ?_
    refine bind_ne_error (require_ne_error (by decide)) fun _ _ => ?_
    exact fun h => by cases h
  · rw [expect, context.eq_def]
    split
    · exact fun h => by cases h
    · exact fun h => absurd (Except.error.inj h) (by decide)
  · exact fun h => by cases h

/-- A blob that fits in memory is written and read back at any multiple of eight: the
decoder builds the verifier of the same points, basis, chunk count and key. Its records
start at multiples of eight, and no bytes at such an address make a cast fail. -/
theorem verifierBlob_round_trip [Bytemuck] [Inhabited (L WrapField)] [Inhabited (A WrapField)]
    (backend : Backend D L A) (vestaSrs : Srs Vesta) (wrapSrs : Srs Pallas)
    (stepNumChunks : BitVec 64) (wrapVk : WrapVerifierIndex D L A) {address : ℕ}
    {basis : List (PolyComm Pallas)} {vkBytes : Bytes} (haligned : address % 8 = 0)
    (hbasis : getLagrangeBasisFromDomainSize backend wrapSrs wrapVk.domainSize = .ok basis)
    (hsingle : ∀ poly ∈ basis, poly.chunks.length = 1)
    (hto : backend.toAllocvec wrapVk = some vkBytes)
    (hfrom : backend.fromBytes vkBytes = some wrapVk.unskipped)
    (hfits : blobLength vestaSrs.g.length wrapSrs.g.length basis.length vkBytes.length < 2 ^ 63) :
    (∃ blob, encodeVerifierBlob backend vestaSrs wrapSrs stepNumChunks wrapVk = .ok blob ∧
      decodeVerifierBlob backend ⟨address, blob⟩ =
        .ok (Verifier.new backend wrapVk.unskipped (seeded wrapSrs wrapVk.domainSize basis)
          { (default : Srs Vesta) with g := vestaSrs.g } stepNumChunks) ∧
      ∃ basisPoints, basis = basisPoints.map (fun p => PolyComm.mk [p]) ∧
        Laid blob vestaSrs.g wrapSrs.g wrapSrs.h basisPoints) ∧
    ∀ bytes, decodeVerifierBlob backend ⟨address, bytes⟩ ≠ .error misaligned := by
  obtain ⟨basisPoints, hpoints, hmap⟩ := exists_of_singleChunk hsingle
  have hcount : basis.length = basisPoints.length := by
    rw [hpoints, List.length_map]
  rw [hcount] at hfits
  have hencode := encodeVerifierBlob_eq backend vestaSrs wrapSrs stepNumChunks wrapVk hbasis hmap
    hto hfits
  have hdecode := decodeVerifierBlob_eq backend haligned vestaSrs.g wrapSrs basisPoints
    stepNumChunks hfrom hfits
  rw [← hpoints] at hdecode
  refine ⟨⟨_, hencode, hdecode, basisPoints, hpoints, ?_⟩, fun bytes => ?_⟩
  · exact laid_blobBytes vestaSrs.g wrapSrs.g wrapSrs.h basisPoints stepNumChunks vkBytes
  · exact decodeVerifierBlob_aligned backend haligned

/-- Casts that check the size and the alignment. -/
instance : Bytemuck where
  castToBytes pods := pods.flatMap podBytes
  bytesOf := podBytes
  castSlice slice := do
    require (slice.address % 8 = 0) misaligned
    require (slice.bytes.length % podSize = 0) "OutputSliceWouldHaveSlop"
    pure ((records (slice.bytes.length / podSize) slice.bytes).map podOf)
  fromBytes slice := do
    require (slice.bytes.length = podSize) "SizeMismatch"
    require (slice.address % 8 = 0) misaligned
    pure (podOf slice.bytes)
  castToBytes_eq := fun _ => rfl
  bytesOf_eq := fun _ => rfl
  castSlice_eq := by
    intro slice haligned hwhole
    rw [require_bind_eq_ok, require_bind_eq_ok]
    exact ⟨haligned, hwhole, rfl⟩
  castSlice_aligned := by
    intro slice haligned
    refine bind_ne_error (require_ne_error_of haligned) fun _ _ => ?_
    refine bind_ne_error (require_ne_error (by decide)) fun _ _ => ?_
    exact fun h => by cases h
  fromBytes_eq := by
    intro slice haligned hlength
    rw [require_bind_eq_ok, require_bind_eq_ok]
    exact ⟨hlength, haligned, rfl⟩
  fromBytes_aligned := by
    intro slice haligned
    refine bind_ne_error (require_ne_error (by decide)) fun _ _ => ?_
    refine bind_ne_error (require_ne_error_of haligned) fun _ _ => ?_
    exact fun h => by cases h

/-- A backend whose key codec stores the domain size before the data, and that knows the
Lagrange basis of the domain of one element: the first generator. -/
def smallBackend : Backend Bytes (fun _ => Unit) (fun _ => Unit) where
  lagrangeBasis g _ domainSize :=
    if domainSize = 1 then pure ((g.take 1).map fun p => PolyComm.mk [p])
    else throw "unknown domain"
  toAllocvec wrapVk := some (leBytes wrapVk.domainSize ++ wrapVk.data)
  fromBytes bytes :=
    if bytes.length < 8 then none
    else some ⟨leWord (bytes.take 8), bytes.drop 8, default, none, none, 0, (), ()⟩
  exprLinearization _ := ((), ())
  wrapEndo := 0
  stepEndo := 0

/-- A finite point. -/
def finitePoint (curve : Curve) : Affine curve :=
  ⟨Vector.ofFn fun i => BitVec.ofNat 64 (i + 1), Vector.ofFn fun i => BitVec.ofNat 64 (i + 5), false⟩

/-- Reference strings of two points and a key of the domain of one element are read back. -/
theorem verifierBlob_round_trip_small :
    (∃ blob, encodeVerifierBlob smallBackend ⟨[finitePoint .vesta, default], default, fun _ => none⟩
        ⟨[finitePoint .pallas, default], finitePoint .pallas, fun _ => none⟩ 3
        ⟨1, [0x2a], default, none, none, 0, (), ()⟩ = .ok blob ∧
      decodeVerifierBlob smallBackend ⟨64, blob⟩ =
        .ok (Verifier.new smallBackend ⟨1, [0x2a], default, none, none, 0, (), ()⟩
          (seeded ⟨[finitePoint .pallas, default], finitePoint .pallas, fun _ => none⟩ 1
            [⟨[finitePoint .pallas]⟩])
          { (default : Srs Vesta) with g := [finitePoint .vesta, default] } 3) ∧
      ∃ basisPoints, [PolyComm.mk [finitePoint .pallas]] =
          basisPoints.map (fun p => PolyComm.mk [p]) ∧
        Laid blob [finitePoint .vesta, default] [finitePoint .pallas, default] (finitePoint .pallas)
          basisPoints) ∧
    ∀ bytes, decodeVerifierBlob smallBackend ⟨64, bytes⟩ ≠ .error misaligned := by
  have hsingle : ∀ poly ∈ [PolyComm.mk [finitePoint .pallas]], poly.chunks.length = 1 := by
    intro poly hpoly
    rw [List.mem_singleton] at hpoly
    rw [hpoly]
    rfl
  exact verifierBlob_round_trip smallBackend ⟨[finitePoint .vesta, default], default, fun _ => none⟩
    ⟨[finitePoint .pallas, default], finitePoint .pallas, fun _ => none⟩ 3
    ⟨1, [0x2a], default, none, none, 0, (), ()⟩ (by decide) rfl hsingle rfl (by rfl) (by decide)

end EthereumSettlement.VerifierBlob
