import EthereumSettlement.HashCommitments
import Mathlib.Data.List.GetD

/-!
# Appending to a fixed-depth tree by authentication paths

A leaf is appended by opening the next empty slot under the old root and putting
the leaf in its place. When the old root is that of the leaves so far, the new
root is that of the leaves with the new one behind them, unless a pair on the
path collides with a pair of the tree. Nothing in this module mentions a
particular program.
-/

namespace EthereumSettlement.MerkleAppends

open HashCommitments

variable {δ : Type}

/-- Siblings do not depend on the leaf beside which they stand. -/
theorem treeSiblings_congr (node : δ → δ → δ) (depth : ℕ) {f g : ℕ → δ} {i : ℕ}
    (h : ∀ j, j ≠ i → f j = g j) :
    treeSiblings node depth f i = treeSiblings node depth g i := by
  induction depth generalizing f g i with
  | zero => rfl
  | succ depth ih =>
    have hsibling : (if i % 2 = 0 then i + 1 else i - 1) ≠ i := by
      by_cases hparity : i % 2 = 0
      · rw [if_pos hparity]
        omega
      · rw [if_neg hparity]
        omega
    have hlevel : ∀ j, j ≠ i / 2 →
        node (f (2 * j)) (f (2 * j + 1)) = node (g (2 * j)) (g (2 * j + 1)) := by
      intro j hj
      rw [h (2 * j) (by omega), h (2 * j + 1) (by omega)]
    rw [treeSiblings, treeSiblings, h _ hsibling, ih hlevel]

/-- Putting another leaf on a tree's own path gives the root of the tree with that
leaf. -/
theorem pathRoot_replaced (node : δ → δ → δ) (depth : ℕ) {f g : ℕ → δ} {i : ℕ}
    (hi : i < 2 ^ depth) (h : ∀ j, j ≠ i → f j = g j) :
    pathRoot node (g i) i (treeSiblings node depth f i) = treeRoot node depth g := by
  rw [treeSiblings_congr node depth h]
  exact pathRoot_treeSiblings node depth g i hi

/-- The leaves with the given values written from a slot on. -/
def written (leaf : ℕ → δ) (start : ℕ) (values : List δ) (i : ℕ) : δ :=
  if start ≤ i then values.getD (i - start) (leaf i) else leaf i

/-- Nothing is written. -/
@[simp] theorem written_nil (leaf : ℕ → δ) (start : ℕ) : written leaf start [] = leaf := by
  funext i
  rw [written, List.getD_nil, ite_self]

/-- Before the first written slot and behind the last one, the leaves stay. -/
theorem written_other {leaf : ℕ → δ} {start : ℕ} {values : List δ} {i : ℕ}
    (h : i < start ∨ start + values.length ≤ i) : written leaf start values i = leaf i := by
  rw [written]
  by_cases hstart : start ≤ i
  · rw [if_pos hstart, List.getD_eq_default _ _ (by omega)]
  · rw [if_neg hstart]

/-- Each written slot holds its value. -/
theorem written_slot {leaf : ℕ → δ} {start : ℕ} {values : List δ} {i : ℕ}
    (h : i < values.length) : written leaf start values (start + i) = values[i] := by
  rw [written, if_pos (Nat.le_add_right start i), Nat.add_sub_cancel_left,
    List.getD_eq_getElem _ _ h]

/-- The first written slot holds the first value. -/
theorem written_first (leaf : ℕ → δ) (start : ℕ) (value : δ) (values : List δ) :
    written leaf start (value :: values) start = value := by
  rw [written, if_pos (le_refl start), Nat.sub_self, List.getD_cons_zero]

/-- Putting a leaf on the path of its slot gives the root of the tree with that
leaf. -/
theorem pathRoot_written (node : δ → δ → δ) (depth : ℕ) (leaf : ℕ → δ) (value : δ) {i : ℕ}
    (hi : i < 2 ^ depth) :
    pathRoot node value i (treeSiblings node depth leaf i) =
      treeRoot node depth (written leaf i [value]) := by
  have hothers : ∀ j, j ≠ i → leaf j = written leaf i [value] j := fun j hj =>
    (written_other (by rw [List.length_singleton]; omega)).symm
  have hreplaced := pathRoot_replaced node depth hi hothers
  rw [written_first] at hreplaced
  exact hreplaced

/-- The first value is written on its own, the others behind it. -/
theorem written_cons (leaf : ℕ → δ) (start : ℕ) (value : δ) (values : List δ) :
    written leaf start (value :: values) =
      written (written leaf start [value]) (start + 1) values := by
  funext i
  by_cases hbefore : i < start
  · rw [written_other (Or.inl hbefore), written_other (Or.inl (by omega)),
      written_other (Or.inl hbefore)]
  · by_cases hfirst : i = start
    · subst hfirst
      have hlater : i < i + 1 ∨ i + 1 + values.length ≤ i := Or.inl (Nat.lt_succ_self i)
      rw [written_other hlater, written_first, written_first]
    · obtain ⟨j, rfl⟩ : ∃ j, i = start + 1 + j := ⟨i - (start + 1), by omega⟩
      by_cases hlater : j < values.length
      · have hsame : start + 1 + j = start + (j + 1) := by omega
        rw [written_slot hlater, hsame, written_slot (by rw [List.length_cons]; omega)]
        rfl
      · rw [written_other (Or.inr (by rw [List.length_cons]; omega)),
          written_other (Or.inr (by omega)),
          written_other (Or.inr (by rw [List.length_singleton]; omega))]

/-- Behind the leaves so far, further leaves take the first padding slots. -/
theorem padded_append (zero : δ) (leaves values : List δ) :
    padded zero (leaves ++ values) = written (padded zero leaves) leaves.length values := by
  funext i
  by_cases hbefore : i < leaves.length
  · rw [written_other (Or.inl hbefore), padded, padded, List.getD_append _ _ _ _ hbefore]
  · have hdefault : padded zero leaves i = zero := List.getD_eq_default _ _ (by omega)
    rw [written, if_pos (by omega), padded, List.getD_append_right _ _ _ _ (by omega), hdefault]

/-- The pairs above an index of a padded tree, from the present nodes of each
level and its padding. -/
def sparsePairs (node : δ → δ → δ) : ℕ → δ → List δ → ℕ → List (δ × δ)
  | 0, _, _, _ => []
  | depth + 1, zero, nodes, i =>
    (padded zero nodes (2 * (i / 2)), padded zero nodes (2 * (i / 2) + 1)) ::
      sparsePairs node depth (node zero zero) (levelUp node zero nodes) (i / 2)

/-- They are the pairs of the complete tree. -/
theorem treePairs_eq_sparsePairs (node : δ → δ → δ) (depth : ℕ) (zero : δ) (nodes : List δ) (i : ℕ) :
    treePairs node depth (padded zero nodes) i = sparsePairs node depth zero nodes i := by
  induction depth generalizing zero nodes i with
  | zero => rfl
  | succ depth ih =>
    have hlevel : (fun j => node (padded zero nodes (2 * j)) (padded zero nodes (2 * j + 1))) =
        padded (node zero zero) (levelUp node zero nodes) := by
      funext j
      exact (padded_levelUp node zero nodes j).symm
    rw [treePairs, sparsePairs, hlevel, ih]

/-- Consecutive appends from a root, each a leaf with the siblings of its slot. -/
def AppendsFrom (node : δ → δ → δ) (zero : δ) : ℕ → δ → List (δ × List δ) → δ → Prop
  | _, root, [], final => root = final
  | index, root, append :: appends, final =>
    pathRoot node zero index append.2 = root ∧
      AppendsFrom node zero (index + 1) (pathRoot node append.1 index append.2) appends final

/-- The pairs on the opened paths, and those of the tree above each opened slot. -/
def appendPairs (node : δ → δ → δ) (zero : δ) (depth : ℕ) :
    List δ → List (δ × List δ) → List (δ × δ)
  | _, [] => []
  | leaves, append :: appends =>
    pathPairs node zero leaves.length append.2 ++
      treePairs node depth (padded zero leaves) leaves.length ++
      appendPairs node zero depth (leaves ++ [append.1]) appends

/-- The pairs of appends in two parts. -/
theorem appendPairs_append (node : δ → δ → δ) (zero : δ) (depth : ℕ) (leaves : List δ)
    (first second : List (δ × List δ)) :
    appendPairs node zero depth leaves (first ++ second) =
      appendPairs node zero depth leaves first ++
        appendPairs node zero depth (leaves ++ first.map (·.1)) second := by
  induction first generalizing leaves with
  | nil => simp only [List.nil_append, appendPairs, List.map_nil, List.append_nil]
  | cons append first ih =>
    simp only [List.cons_append, appendPairs, ih, List.map_cons, List.append_assoc,
      List.nil_append]

/-- The pairs on the opened paths, and those of the tree above each opened slot. -/
def writePairs (node : δ → δ → δ) (zero : δ) (depth : ℕ) :
    (ℕ → δ) → ℕ → List (δ × List δ) → List (δ × δ)
  | _, _, [] => []
  | leaf, index, append :: appends =>
    pathPairs node zero index append.2 ++ treePairs node depth leaf index ++
      writePairs node zero depth (written leaf index [append.1]) (index + 1) appends

/-- Appends behind the leaves so far hash the same pairs. -/
theorem writePairs_padded (node : δ → δ → δ) (zero : δ) (depth : ℕ) (leaves : List δ)
    (appends : List (δ × List δ)) :
    writePairs node zero depth (padded zero leaves) leaves.length appends =
      appendPairs node zero depth leaves appends := by
  induction appends generalizing leaves with
  | nil => rfl
  | cons append appends ih =>
    have hcount : (leaves ++ [append.1]).length = leaves.length + 1 := List.length_append
    rw [writePairs, appendPairs, ← ih, hcount, padded_append]

/-- Every append opens an empty slot of the tree of the leaves so far, along the
tree's own path. -/
def OpensEmpty (node : δ → δ → δ) (zero : δ) (depth : ℕ) (leaf : ℕ → δ) (index : ℕ)
    (appends : List (δ × List δ)) : Prop :=
  ∀ i (h : i < appends.length), leaf (index + i) = zero ∧
    appends[i].2 =
      treeSiblings node depth (written leaf index ((appends.map (·.1)).take i)) (index + i)

/-- The first of several appends opens an empty slot, and so do the others once
its leaf is written. -/
theorem opensEmpty_cons {node : δ → δ → δ} {zero : δ} {depth : ℕ} {leaf : ℕ → δ} {index : ℕ}
    {append : δ × List δ} {appends : List (δ × List δ)} :
    OpensEmpty node zero depth leaf index (append :: appends) ↔
      (leaf index = zero ∧ append.2 = treeSiblings node depth leaf index) ∧
        OpensEmpty node zero depth (written leaf index [append.1]) (index + 1) appends := by
  have hlater : ∀ i, index + (i + 1) = index + 1 + i := fun i => by omega
  have hunwritten : ∀ i, written leaf index [append.1] (index + 1 + i) = leaf (index + (i + 1)) :=
    fun i => (written_other (Or.inr (by rw [List.length_singleton]; omega))).trans
      (congrArg leaf (hlater i).symm)
  constructor
  · intro h
    refine ⟨?_, ?_⟩
    · have hfirst := h 0 (Nat.succ_pos _)
      rw [List.take_zero, written_nil] at hfirst
      exact hfirst
    · intro i hi
      have hnext := h (i + 1) (Nat.succ_lt_succ hi)
      rw [List.map_cons, List.take_succ_cons, written_cons, hlater] at hnext
      rw [hunwritten, hlater]
      exact hnext
  · intro h i hi
    cases i with
    | zero =>
      rw [List.take_zero, written_nil]
      exact h.1
    | succ i =>
      have hnext := h.2 i (Nat.lt_of_succ_lt_succ hi)
      rw [hunwritten, hlater] at hnext
      rw [List.map_cons, List.take_succ_cons, written_cons, hlater]
      exact hnext

/-- Appends that start at the root of a tree open its empty slots one after the
other, along the tree's own paths, and end at the root of the tree with their
leaves written there, unless a pair on a path collides with a pair of the tree. -/
theorem appends_written {node : δ → δ → δ} {zero final : δ} {depth : ℕ} {leaf : ℕ → δ} {index : ℕ}
    {appends : List (δ × List δ)}
    (hcf : CollisionFree (fun p : δ × δ => node p.1 p.2)
      (writePairs node zero depth leaf index appends))
    (hdepth : ∀ append ∈ appends, append.2.length = depth)
    (hroom : index + appends.length ≤ 2 ^ depth)
    (h : AppendsFrom node zero index (treeRoot node depth leaf) appends final) :
    OpensEmpty node zero depth leaf index appends ∧
      final = treeRoot node depth (written leaf index (appends.map (·.1))) := by
  induction appends generalizing leaf index with
  | nil =>
    rw [AppendsFrom] at h
    rw [← h, List.map_nil, written_nil]
    exact ⟨fun i hi => absurd hi (Nat.not_lt_zero i), rfl⟩
  | cons append appends ih =>
    rw [AppendsFrom] at h
    rw [writePairs] at hcf
    rw [List.length_cons] at hroom
    have hlength := hdepth append List.mem_cons_self
    have hopened : zero = leaf index ∧ append.2 = treeSiblings node depth leaf index := by
      subst hlength
      exact path_binding (hcf.mono (List.subset_append_left _ _)) (by omega) h.1
    have hrest := h.2
    rw [hopened.2, pathRoot_written node depth leaf append.1 (by omega)] at hrest
    obtain ⟨hopens, hfinal⟩ := ih (hcf.mono (List.subset_append_right _ _))
      (fun other hother => hdepth other (List.mem_cons_of_mem _ hother)) (by omega) hrest
    refine ⟨opensEmpty_cons.mpr ⟨⟨hopened.1.symm, hopened.2⟩, hopens⟩, ?_⟩
    rw [hfinal, List.map_cons, ← written_cons]

/-- Appends along the tree's own paths to its empty slots run from the tree's root
to that of the tree with their leaves. -/
theorem appends_of_opensEmpty {node : δ → δ → δ} {zero : δ} {depth : ℕ} {leaf : ℕ → δ}
    {index : ℕ} {appends : List (δ × List δ)}
    (hroom : index + appends.length ≤ 2 ^ depth)
    (h : OpensEmpty node zero depth leaf index appends) :
    AppendsFrom node zero index (treeRoot node depth leaf) appends
      (treeRoot node depth (written leaf index (appends.map (·.1)))) := by
  induction appends generalizing leaf index with
  | nil => rw [List.map_nil, written_nil, AppendsFrom]
  | cons append appends ih =>
    obtain ⟨⟨hempty, hpath⟩, hopens⟩ := opensEmpty_cons.mp h
    rw [List.length_cons] at hroom
    have hrest := ih (by omega) hopens
    rw [List.map_cons, written_cons, AppendsFrom, hpath]
    refine ⟨?_, ?_⟩
    · rw [← hempty]
      exact pathRoot_treeSiblings node depth leaf index (by omega)
    · rw [pathRoot_written node depth leaf append.1 (by omega)]
      exact hrest

/-- Appends that start at the root of the leaves so far end at the root of all of
them, unless a pair on a path collides with a pair of the tree. -/
theorem appends_root {node : δ → δ → δ} {zero final : δ} {depth : ℕ} {leaves : List δ}
    {appends : List (δ × List δ)}
    (hcf : CollisionFree (fun p : δ × δ => node p.1 p.2)
      (appendPairs node zero depth leaves appends))
    (hdepth : ∀ append ∈ appends, append.2.length = depth)
    (hroom : leaves.length + appends.length ≤ 2 ^ depth)
    (h : AppendsFrom node zero leaves.length (treeRoot node depth (padded zero leaves)) appends
      final) :
    final = treeRoot node depth (padded zero (leaves ++ appends.map (·.1))) := by
  rw [← writePairs_padded] at hcf
  rw [padded_append]
  exact (appends_written hcf hdepth hroom h).2

end EthereumSettlement.MerkleAppends
