import Mathlib.Data.List.Nodup
import Mathlib.Data.List.Count
import Mathlib.Data.List.Forall2

/-!
# Tables of keyed rows

A table is a list of rows. A conditional update rewrites the rows that meet its
condition and leaves every other row in place. What one transaction does to a
table is said once: where each row afterwards comes from, and what became of
each row before. Nothing in this module mentions a particular program.
-/

namespace EthereumSettlement.KeyedTables

variable {ρ κ : Type}

/-- `UPDATE … SET f WHERE p`. -/
def updateWhere (p : ρ → Prop) [DecidablePred p] (f : ρ → ρ) (rows : List ρ) : List ρ :=
  rows.map fun row => if p row then f row else row

/-- The number of rows a conditional update rewrites. -/
def affected (p : ρ → Prop) [DecidablePred p] (rows : List ρ) : ℕ :=
  rows.countP fun row => decide (p row)

section Updates

variable {p : ρ → Prop} [DecidablePred p] {f : ρ → ρ} {rows : List ρ}

/-- A row after a conditional update is an old row, rewritten where it met the condition. -/
theorem mem_updateWhere {row : ρ} :
    row ∈ updateWhere p f rows ↔ ∃ old ∈ rows, (if p old then f old else old) = row :=
  List.mem_map

/-- An update that rewrites no key leaves the column of keys as it was. -/
theorem map_updateWhere {key : ρ → κ} (hkey : ∀ row, p row → key (f row) = key row) :
    (updateWhere p f rows).map key = rows.map key := by
  rw [updateWhere, List.map_map]
  apply List.map_congr_left
  intro row _
  by_cases hp : p row
  · simp only [Function.comp, if_pos hp]
    exact hkey row hp
  · simp only [Function.comp, if_neg hp]

/-- A conditional update of a table is one of any view of it that shows the condition and
what is rewritten. -/
theorem updateWhere_map (view : ρ → κ) {q : κ → Prop} [DecidablePred q] {g : κ → κ}
    (hp : ∀ row, q (view row) ↔ p row) (hf : ∀ row, p row → view (f row) = g (view row)) :
    (updateWhere p f rows).map view = updateWhere q g (rows.map view) := by
  rw [updateWhere, updateWhere, List.map_map, List.map_map]
  apply List.map_congr_left
  intro row _
  by_cases hrow : p row
  · simp only [Function.comp, if_pos hrow, if_pos ((hp row).mpr hrow)]
    exact hf row hrow
  · simp only [Function.comp, if_neg hrow, if_neg (mt (hp row).mp hrow)]

/-- An update whose condition no row meets changes nothing. -/
theorem updateWhere_of_forall_not (h : ∀ row ∈ rows, ¬ p row) : updateWhere p f rows = rows := by
  rw [updateWhere]
  have hid : rows.map (fun row => if p row then f row else row) = rows.map id := by
    apply List.map_congr_left
    intro row hrow
    exact if_neg (h row hrow)
  rw [hid, List.map_id]

/-- A conditional update relates every row to what it becomes. -/
theorem forall₂_updateWhere {relation : ρ → ρ → Prop}
    (h : ∀ row ∈ rows, relation row (if p row then f row else row)) :
    List.Forall₂ relation rows (updateWhere p f rows) := by
  rw [updateWhere, List.forall₂_map_right_iff]
  exact List.forall₂_same.mpr h

/-- An update that rewrites exactly one row has a row that meets its condition. -/
theorem exists_of_affected (h : affected p rows = 1) : ∃ row ∈ rows, p row := by
  have hpos : 0 < rows.countP fun row => decide (p row) := by
    unfold affected at h
    omega
  obtain ⟨row, hrow, hp⟩ := List.countP_pos_iff.mp hpos
  exact ⟨row, hrow, of_decide_eq_true hp⟩

/-- At most one row of a table with pairwise different keys meets a condition that fixes the key, so
an update under it rewrites one row exactly when some row meets it. -/
theorem affected_eq_one_iff [DecidableEq κ] {key : ρ → κ} {value : κ} (hn : (rows.map key).Nodup)
    (hkey : ∀ row, p row → key row = value) :
    affected p rows = 1 ↔ ∃ row ∈ rows, p row := by
  constructor
  · exact exists_of_affected
  · rintro ⟨row, hrow, hp⟩
    have hpos : 0 < affected p rows := List.countP_pos_iff.mpr ⟨row, hrow, decide_eq_true hp⟩
    have hkeys : affected p rows ≤ (rows.map key).count value := by
      rw [List.count, List.countP_map]
      refine List.countP_mono_left fun other _ hother => ?_
      exact beq_iff_eq.mpr (hkey other (of_decide_eq_true hother))
    have hone := List.nodup_iff_count_le_one.mp hn value
    omega

end Updates

/-- Rows of a table with pairwise different keys agree when their keys do. -/
theorem row_eq_of_key {key : ρ → κ} {rows : List ρ} (hn : (rows.map key).Nodup) {first second : ρ}
    (h1 : first ∈ rows) (h2 : second ∈ rows) (hk : key first = key second) : first = second :=
  List.inj_on_of_nodup_map hn h1 h2 hk

/-- Rows of a table agree when they hold the same optional key and no two rows share one. -/
theorem row_eq_of_optional {key : ρ → Option κ} {rows : List ρ} {value : κ}
    (hn : (rows.filterMap key).Nodup) {first second : ρ} (h1 : first ∈ rows) (h2 : second ∈ rows)
    (hfirst : key first = some value) (hsecond : key second = some value) : first = second := by
  induction rows with
  | nil => exact absurd h1 (by simp)
  | cons row rows ih =>
    have hrest : (rows.filterMap key).Nodup := hn.sublist ((List.sublist_cons_self row rows).filterMap key)
    have hhead : key row = some value → value ∉ rows.filterMap key := by
      intro hrow hmem
      rw [List.filterMap_cons_some hrow] at hn
      exact (List.nodup_cons.mp hn).1 hmem
    rcases List.mem_cons.mp h1 with heq | h1'
    · rcases List.mem_cons.mp h2 with heq' | h2'
      · exact heq.trans heq'.symm
      · exact absurd (List.mem_filterMap.mpr ⟨second, h2', hsecond⟩) (hhead (heq ▸ hfirst))
    · rcases List.mem_cons.mp h2 with heq' | h2'
      · exact absurd (List.mem_filterMap.mpr ⟨first, h1', hfirst⟩) (hhead (heq' ▸ hsecond))
      · exact ih hrest h1' h2'

/-- A query by an optional key finds the row that holds it. -/
theorem find?_of_optional [DecidableEq κ] {key : ρ → Option κ} {rows : List ρ} {value : κ}
    (hn : (rows.filterMap key).Nodup) {row : ρ} (hrow : row ∈ rows) (hkey : key row = some value) :
    (rows.find? fun other => key other = some value) = some row := by
  have hsome : (rows.find? fun other => key other = some value).isSome := by
    rw [List.find?_isSome]
    exact ⟨row, hrow, decide_eq_true hkey⟩
  obtain ⟨found, hfound⟩ := Option.isSome_iff_exists.mp hsome
  have hmem := List.mem_of_find?_eq_some hfound
  have hheld := List.find?_some hfound
  rw [hfound, row_eq_of_optional hn hmem hrow (of_decide_eq_true hheld) hkey]

/-- What a transaction did to a table: every row afterwards is an old row after a
permitted change or a permitted new row, and every old row has such a successor or was
permitted to go. -/
structure Evolves (change : ρ → ρ → Prop) (inserted removed : ρ → Prop)
    (before after : List ρ) : Prop where
  /-- Where each row afterwards comes from. -/
  origin : ∀ row ∈ after, (∃ old ∈ before, change old row) ∨ inserted row
  /-- What became of each row before. -/
  fate : ∀ old ∈ before, (∃ row ∈ after, change old row) ∨ removed old

namespace Evolves

variable {change wider : ρ → ρ → Prop} {inserted removed : ρ → Prop} {before after : List ρ}

/-- A table that stays as it was evolves by unchanged rows. -/
theorem refl (hrefl : ∀ row, change row row) : Evolves change inserted removed before before where
  origin := fun row hrow => Or.inl ⟨row, hrow, hrefl row⟩
  fate := fun row hrow => Or.inl ⟨row, hrow, hrefl row⟩

/-- A conditional update evolves a table by its own rewriting. -/
theorem update {p : ρ → Prop} [DecidablePred p] {f : ρ → ρ} (hrefl : ∀ row, change row row)
    (hchange : ∀ row ∈ before, p row → change row (f row)) :
    Evolves change inserted removed before (updateWhere p f before) := by
  have hrow : ∀ old ∈ before, change old (if p old then f old else old) := by
    intro old hold
    by_cases hp : p old
    · rw [if_pos hp]
      exact hchange old hold hp
    · rw [if_neg hp]
      exact hrefl old
  constructor
  · intro row h
    obtain ⟨old, hold, heq⟩ := mem_updateWhere.mp h
    exact Or.inl ⟨old, hold, heq ▸ hrow old hold⟩
  · intro old hold
    exact Or.inl ⟨_, mem_updateWhere.mpr ⟨old, hold, rfl⟩, hrow old hold⟩

/-- An appended row is new. -/
theorem append (hrefl : ∀ row, change row row) {fresh : ρ} (hfresh : inserted fresh) :
    Evolves change inserted removed before (before ++ [fresh]) := by
  constructor
  · intro row hrow
    rcases List.mem_append.mp hrow with hold | hnew
    · exact Or.inl ⟨row, hold, hrefl row⟩
    · rw [List.mem_singleton.mp hnew]
      exact Or.inr hfresh
  · intro old hold
    exact Or.inl ⟨old, List.mem_append_left _ hold, hrefl old⟩

/-- A conditional update, with the exact row that each row becomes. -/
theorem updateWhere (p : ρ → Prop) [DecidablePred p] (f : ρ → ρ) (rows : List ρ) :
    Evolves (fun old row => (if p old then f old else old) = row) inserted removed rows
      (KeyedTables.updateWhere p f rows) where
  origin := fun _ hrow => Or.inl (mem_updateWhere.mp hrow)
  fate := fun old hold => Or.inl ⟨_, mem_updateWhere.mpr ⟨old, hold, rfl⟩, rfl⟩

/-- Two statements in a row, of which only the first deletes. -/
theorem trans {next : ρ → ρ → Prop} {rest : List ρ}
    (first : Evolves change (fun _ => False) removed before after)
    (second : Evolves next (fun _ => False) (fun _ => False) after rest) :
    Evolves (fun old row => ∃ middle, change old middle ∧ next middle row) inserted removed
      before rest := by
  constructor
  · intro row hrow
    obtain ⟨middle, hmiddle, hnext⟩ := (second.origin row hrow).resolve_right id
    obtain ⟨old, hold, hchange⟩ := (first.origin middle hmiddle).resolve_right id
    exact Or.inl ⟨old, hold, middle, hchange, hnext⟩
  · intro old hold
    rcases first.fate old hold with ⟨middle, hmiddle, hchange⟩ | hremoved
    · obtain ⟨row, hrow, hnext⟩ := (second.fate middle hmiddle).resolve_right id
      exact Or.inl ⟨row, hrow, middle, hchange, hnext⟩
    · exact Or.inr hremoved

/-- A deletion after a rewriting deletes the rows whose rewriting it names. -/
theorem trans_filter {p : ρ → Prop} [DecidablePred p]
    (first : Evolves change (fun _ => False) (fun _ => False) before after) :
    Evolves (fun old row => change old row ∧ p row) inserted
      (fun old => ∃ row, change old row ∧ ¬ p row) before (after.filter fun row => p row) := by
  constructor
  · intro row hrow
    obtain ⟨hmem, hp⟩ := List.mem_filter.mp hrow
    obtain ⟨old, hold, hchange⟩ := (first.origin row hmem).resolve_right id
    exact Or.inl ⟨old, hold, hchange, of_decide_eq_true hp⟩
  · intro old hold
    obtain ⟨row, hrow, hchange⟩ := (first.fate old hold).resolve_right id
    by_cases hp : p row
    · exact Or.inl ⟨row, List.mem_filter.mpr ⟨hrow, decide_eq_true hp⟩, hchange, hp⟩
    · exact Or.inr ⟨row, hchange, hp⟩

/-- Permitting more keeps an evolution. -/
theorem mono {further gone : ρ → Prop} (h : Evolves change inserted removed before after)
    (hwider : ∀ old row, change old row → wider old row)
    (hinserted : ∀ row, inserted row → further row) (hremoved : ∀ old, removed old → gone old) :
    Evolves wider further gone before after := by
  constructor
  · intro row hrow
    rcases h.origin row hrow with ⟨old, hold, hchange⟩ | hnew
    · exact Or.inl ⟨old, hold, hwider old row hchange⟩
    · exact Or.inr (hinserted row hnew)
  · intro old hold
    rcases h.fate old hold with ⟨row, hrow, hchange⟩ | hgone
    · exact Or.inl ⟨row, hrow, hwider old row hchange⟩
    · exact Or.inr (hremoved old hgone)

end Evolves

end EthereumSettlement.KeyedTables
