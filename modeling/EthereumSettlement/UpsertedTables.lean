import Mathlib.Data.List.Sort
import Mathlib.Data.List.Nodup
import EthereumSettlement.KeyedTables

/-!
# Tables filled by upserts

An upsert overwrites the row of its key where there is one and appends its row where
there is none. After a batch of upserts with different keys the table holds the batch
and every row whose key the batch leaves alone, in whatever state the table was. A
selection in the order of its key is determined by the rows that it selects. Nothing in
this module mentions a particular program.
-/

namespace EthereumSettlement.UpsertedTables

open KeyedTables

variable {ρ κ : Type} {key : ρ → κ}

section Upserts

variable [DecidableEq κ]

/-- `INSERT … ON CONFLICT (key) DO UPDATE`. -/
def upsert (key : ρ → κ) (rows : List ρ) (row : ρ) : List ρ :=
  if ∃ old ∈ rows, key old = key row then
    updateWhere (fun old => key old = key row) (fun _ => row) rows
  else rows ++ [row]

/-- The keys of a table after an upsert. -/
theorem keys_upsert (rows : List ρ) (row : ρ) :
    (upsert key rows row).map key =
      if key row ∈ rows.map key then rows.map key else rows.map key ++ [key row] := by
  have hfound : (∃ old ∈ rows, key old = key row) ↔ key row ∈ rows.map key := List.mem_map.symm
  by_cases hkey : key row ∈ rows.map key
  · rw [upsert, if_pos (hfound.mpr hkey), if_pos hkey, map_updateWhere]
    intro old hold
    exact hold.symm
  · rw [upsert, if_neg (mt hfound.mp hkey), if_neg hkey, List.map_append]
    rfl

/-- An upsert is one of any view of the table that keeps equal keys equal. -/
theorem map_upsert {σ μ : Type} [DecidableEq μ] (viewKey : σ → μ) (view : ρ → σ)
    (hkey : ∀ first second, viewKey (view first) = viewKey (view second) ↔
      key first = key second) (rows : List ρ) (row : ρ) :
    (upsert key rows row).map view = upsert viewKey (rows.map view) (view row) := by
  by_cases hfound : ∃ old ∈ rows, key old = key row
  · have hshown : ∃ old ∈ rows.map view, viewKey old = viewKey (view row) := by
      obtain ⟨old, hold, hsame⟩ := hfound
      exact ⟨view old, List.mem_map_of_mem hold, (hkey old row).mpr hsame⟩
    rw [upsert, if_pos hfound, upsert, if_pos hshown]
    exact updateWhere_map view (fun old => hkey old row) fun _ _ => rfl
  · have hshown : ¬ ∃ old ∈ rows.map view, viewKey old = viewKey (view row) := by
      intro hsome
      obtain ⟨shown, hmember, hsame⟩ := hsome
      obtain ⟨old, hold, hview⟩ := List.mem_map.mp hmember
      rw [← hview] at hsame
      exact hfound ⟨old, hold, (hkey old row).mp hsame⟩
    rw [upsert, if_neg hfound, upsert, if_neg hshown, List.map_append, List.map_singleton]

/-- An upsert keeps the keys of a table different. -/
theorem nodup_upsert {rows : List ρ} (hn : (rows.map key).Nodup) (row : ρ) :
    ((upsert key rows row).map key).Nodup := by
  rw [keys_upsert]
  by_cases hkey : key row ∈ rows.map key
  · rw [if_pos hkey]
    exact hn
  · rw [if_neg hkey]
    exact List.nodup_append.mpr ⟨hn, List.nodup_singleton _,
      fun other hother last hlast => by
        rw [List.mem_singleton.mp hlast]
        exact fun hsame => hkey (hsame ▸ hother)⟩

/-- After an upsert a table holds its row and the rows with other keys. -/
theorem mem_upsert {rows : List ρ} {row other : ρ} :
    other ∈ upsert key rows row ↔ other = row ∨ (other ∈ rows ∧ key other ≠ key row) := by
  by_cases hfound : ∃ old ∈ rows, key old = key row
  · rw [upsert, if_pos hfound, mem_updateWhere]
    constructor
    · intro h
      obtain ⟨old, hold, hother⟩ := h
      by_cases hkey : key old = key row
      · rw [if_pos hkey] at hother
        exact Or.inl hother.symm
      · rw [if_neg hkey] at hother
        rw [← hother]
        exact Or.inr ⟨hold, hkey⟩
    · intro h
      rcases h with hrow | hkept
      · obtain ⟨old, hold, hkey⟩ := hfound
        exact ⟨old, hold, by rw [if_pos hkey, hrow]⟩
      · exact ⟨other, hkept.1, if_neg hkept.2⟩
  · rw [upsert, if_neg hfound, List.mem_append, List.mem_singleton]
    constructor
    · intro h
      rcases h with hold | hrow
      · exact Or.inr ⟨hold, fun hkey => hfound ⟨other, hold, hkey⟩⟩
      · exact Or.inl hrow
    · intro h
      rcases h with hrow | hkept
      · exact Or.inr hrow
      · exact Or.inl hkept.1

/-- A batch of upserts keeps the keys of a table different. -/
theorem nodup_upserts {rows : List ρ} (hn : (rows.map key).Nodup) (batch : List ρ) :
    ((batch.foldl (upsert key) rows).map key).Nodup := by
  induction batch generalizing rows with
  | nil => exact hn
  | cons row batch ih => exact ih (nodup_upsert hn row)

/-- After a batch of upserts with different keys a table holds the batch and the rows
with other keys. -/
theorem mem_upserts {rows batch : List ρ} {other : ρ} (hn : (batch.map key).Nodup) :
    other ∈ batch.foldl (upsert key) rows ↔
      other ∈ batch ∨ (other ∈ rows ∧ key other ∉ batch.map key) := by
  induction batch generalizing rows with
  | nil => simp
  | cons row batch ih =>
    rw [List.map_cons, List.nodup_cons] at hn
    rw [List.foldl_cons, ih hn.2, mem_upsert, List.map_cons, List.mem_cons, List.mem_cons, not_or]
    constructor
    · intro h
      rcases h with hbatch | ⟨hrow | hkept, hapart⟩
      · exact Or.inl (Or.inr hbatch)
      · exact Or.inl (Or.inl hrow)
      · exact Or.inr ⟨hkept.1, hkept.2, hapart⟩
    · intro h
      rcases h with (hrow | hbatch) | hkept
      · rw [hrow]
        exact Or.inr ⟨Or.inl rfl, hn.1⟩
      · exact Or.inl hbatch
      · exact Or.inr ⟨Or.inr ⟨hkept.1, hkept.2.1⟩, hkept.2.2⟩

/-- Upserts over rows that do not count leave the rows that count and add theirs. -/
theorem live_upserts {live : ρ → Prop} {rows batch : List ρ} {other : ρ}
    (hn : (batch.map key).Nodup) (hbatch : ∀ row ∈ batch, live row)
    (hapart : ∀ row ∈ rows, live row → key row ∉ batch.map key) :
    (other ∈ batch.foldl (upsert key) rows ∧ live other) ↔
      other ∈ batch ∨ (other ∈ rows ∧ live other) := by
  rw [mem_upserts hn]
  constructor
  · intro h
    rcases h.1 with hfresh | hkept
    · exact Or.inl hfresh
    · exact Or.inr ⟨hkept.1, h.2⟩
  · intro h
    rcases h with hfresh | hkept
    · exact ⟨Or.inl hfresh, hbatch other hfresh⟩
    · exact ⟨Or.inr ⟨hkept.1, hapart other hkept.1 hkept.2⟩, hkept.2⟩

end Upserts

section Selections

variable [LinearOrder κ] {p : ρ → Prop} [DecidablePred p]

/-- The first row is not behind the second. -/
abbrev ByKey (key : ρ → κ) (first second : ρ) : Prop := key first ≤ key second

/-- `SELECT … WHERE p ORDER BY key`. -/
def selectBy (key : ρ → κ) (p : ρ → Prop) [DecidablePred p] (rows : List ρ) : List ρ :=
  (rows.filter fun row => decide (p row)).insertionSort (ByKey key)

/-- The selected rows. -/
theorem mem_selectBy {rows : List ρ} {row : ρ} :
    row ∈ selectBy key p rows ↔ row ∈ rows ∧ p row := by
  rw [selectBy, (List.perm_insertionSort _ _).mem_iff, List.mem_filter, decide_eq_true_eq]

/-- The keys of a selection are any ascending list of the keys of the selected rows. -/
theorem keys_selectBy {rows : List ρ} (hn : (rows.map key).Nodup) {keys : List κ}
    (hascending : keys.Pairwise (· < ·))
    (hmem : ∀ k, k ∈ keys ↔ ∃ row ∈ rows, p row ∧ key row = k) :
    (selectBy key p rows).map key = keys := by
  have hperm := List.perm_insertionSort (ByKey key) (rows.filter fun row => decide (p row))
  have hselected : ((selectBy key p rows).map key).Nodup := by
    refine (hperm.map key).nodup_iff.mpr ?_
    exact (List.filter_sublist.map key).nodup hn
  have hkeys : keys.Nodup := hascending.imp fun hlt => ne_of_lt hlt
  have hsame : ((selectBy key p rows).map key).Perm keys := by
    refine (List.perm_ext_iff_of_nodup hselected hkeys).mpr fun k => ?_
    rw [hmem, List.mem_map]
    constructor
    · intro h
      obtain ⟨row, hrow, hkey⟩ := h
      exact ⟨row, (mem_selectBy.mp hrow).1, (mem_selectBy.mp hrow).2, hkey⟩
    · intro h
      obtain ⟨row, hrow, hp, hkey⟩ := h
      exact ⟨row, mem_selectBy.mpr ⟨hrow, hp⟩, hkey⟩
  have hsorted : ((selectBy key p rows).map key).Pairwise (· ≤ ·) :=
    List.pairwise_map.mpr (List.pairwise_insertionSort (ByKey key) _)
  exact List.Perm.eq_of_pairwise (fun _ _ _ _ => le_antisymm) hsorted
    (hascending.imp fun hlt => le_of_lt hlt) hsame

end Selections

end EthereumSettlement.UpsertedTables
