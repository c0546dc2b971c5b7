import Mathlib.Data.List.Sort
import Mathlib.Tactic.Ring

/-!
# Pages behind a key

A listing in descending order is read page by page, and each page continues with the
rows whose key is below that of the last row shown. When the key does not determine the
row, a page may end among rows of one key, and the rest of them is never shown. The
pages show all rows exactly if no page ends so. Nothing in this module mentions a
particular program.
-/

namespace EthereumSettlement.KeysetPages

variable {ρ κ : Type}

/-- A way to put rows in an order. Rows that the order does not distinguish may come in
any order. -/
structure Sorting (before : ρ → ρ → Prop) where
  /-- The rows in order. -/
  sort : List ρ → List ρ
  /-- No row is lost or repeated. -/
  perm : ∀ rows, (sort rows).Perm rows
  /-- Earlier rows come before later ones. -/
  sorted : ∀ rows, (sort rows).Pairwise before

/-- Sorting by insertion is a way. -/
def insertion (before : ρ → ρ → Prop) [DecidableRel before] [Std.Total before]
    [IsTrans ρ before] : Sorting before where
  sort := List.insertionSort before
  perm := List.perm_insertionSort before
  sorted := List.pairwise_insertionSort before

variable [LinearOrder κ] (key : ρ → κ)

/-- The keys of rows in descending order. -/
def keysOf (rows : List ρ) : List κ := (rows.map key).insertionSort (· ≥ ·)

/-- No page of this size ends between two rows of one key. -/
def NoSplit (limit : ℕ) (keys : List κ) : Prop :=
  ∀ i, (i + 1) * limit < keys.length → keys[(i + 1) * limit - 1]? ≠ keys[(i + 1) * limit]?

/-- Read page after page: one row more than the page shows whether there is another. -/
def collect {before : ρ → ρ → Prop} (sorting : Sorting before) (limit : ℕ) :
    ℕ → List ρ → Option (List ρ)
  | 0, _ => none
  | fuel + 1, rows =>
    let found := (sorting.sort rows).take (limit + 1)
    if limit < found.length then
      match (found.take limit).getLast? with
      | some last =>
        (collect sorting limit fuel (rows.filter fun row => key row < key last)).map
          (found.take limit ++ ·)
      | none => some (found.take limit)
    else some found

/-- Lists of keys in descending order with the same members are equal. -/
theorem eq_of_perm_descending {first second : List κ} (h : first.Perm second)
    (hfirst : first.Pairwise (· ≥ ·)) (hsecond : second.Pairwise (· ≥ ·)) : first = second :=
  h.eq_of_pairwise' hfirst hsecond

/-- The keys of permuted rows are the same. -/
theorem keysOf_perm {rows others : List ρ} (h : rows.Perm others) :
    keysOf key rows = keysOf key others := by
  have hperm : (keysOf key rows).Perm (keysOf key others) :=
    (List.perm_insertionSort _ _).trans ((h.map key).trans (List.perm_insertionSort _ _).symm)
  exact eq_of_perm_descending hperm (List.pairwise_insertionSort _ _)
    (List.pairwise_insertionSort _ _)

/-- The keys of rows in descending order are the column of their keys. -/
theorem keysOf_of_sorted {rows : List ρ} (h : rows.Pairwise fun a b => key b ≤ key a) :
    keysOf key rows = rows.map key := by
  have hsorted : (rows.map key).Pairwise (· ≥ ·) := by
    rw [List.pairwise_map]
    exact h
  exact eq_of_perm_descending (List.perm_insertionSort _ _) (List.pairwise_insertionSort _ _) hsorted

/-- There are as many keys as rows. -/
theorem keysOf_length (rows : List ρ) : (keysOf key rows).length = rows.length := by
  rw [keysOf, List.length_insertionSort, List.length_map]

omit [LinearOrder κ] in
/-- A page that does not end inside a key leaves the other pages as they are. -/
theorem noSplit_drop {limit : ℕ} {keys : List κ} (hpos : 0 < limit) (hlong : limit < keys.length) :
    NoSplit limit keys ↔ keys[limit - 1]? ≠ keys[limit]? ∧ NoSplit limit (keys.drop limit) := by
  have hmul : ∀ i, (i + 1 + 1) * limit = limit + (i + 1) * limit := by
    intro i
    ring
  have hpred : ∀ i, limit + ((i + 1) * limit - 1) = (i + 1 + 1) * limit - 1 := by
    intro i
    have hstep : 0 < (i + 1) * limit := Nat.mul_pos (Nat.succ_pos i) hpos
    have hsum := hmul i
    omega
  constructor
  · intro h
    refine ⟨by simpa using h 0 (by simpa using hlong), ?_⟩
    intro i hi
    rw [List.length_drop] at hi
    have hsum := hmul i
    rw [List.getElem?_drop, List.getElem?_drop, hpred i, ← hsum]
    exact h (i + 1) (by omega)
  · intro h i hi
    cases i with
    | zero =>
      rw [Nat.zero_add, Nat.one_mul]
      exact h.1
    | succ i =>
      have hsum := hmul i
      have hnext := h.2 i (by rw [List.length_drop]; omega)
      rw [List.getElem?_drop, List.getElem?_drop, hpred i, ← hsum] at hnext
      exact hnext

/-- In descending order, the rows below a row behind which the key changes are those that
follow it. -/
theorem filter_eq_drop {rows : List ρ} {limit : ℕ} {last next : ρ}
    (h : rows.Pairwise fun a b => key b ≤ key a) (hlast : rows[limit]? = some last)
    (hnext : rows[limit + 1]? = some next) (hne : key last ≠ key next) :
    rows.filter (fun row => key row < key last) = rows.drop (limit + 1) := by
  obtain ⟨hi, hlast⟩ := List.getElem?_eq_some_iff.mp hlast
  obtain ⟨hj, hnext⟩ := List.getElem?_eq_some_iff.mp hnext
  have horder := List.pairwise_iff_getElem.mp h
  have hsplit : rows = rows.take (limit + 1) ++ rows.drop (limit + 1) :=
    (List.take_append_drop _ _).symm
  have hshown : ∀ row ∈ rows.take (limit + 1), ¬ key row < key last := by
    intro row hrow
    obtain ⟨i, hlt, heq⟩ := List.mem_take_iff_getElem.mp hrow
    rw [← heq, ← hlast]
    by_cases hsame : i = limit
    · simp [hsame]
    · exact not_lt.mpr (horder i limit (by omega) hi (by omega))
  have hrest : ∀ row ∈ rows.drop (limit + 1), key row < key last := by
    intro row hrow
    obtain ⟨i, hlt, heq⟩ := List.mem_drop_iff_getElem.mp hrow
    have hbelow : key next < key last := by
      have hle := horder limit (limit + 1) hi hj (by omega)
      rw [hlast, hnext] at hle
      exact lt_of_le_of_ne hle (Ne.symm hne)
    by_cases hsame : i = 0
    · have hfirst : row = next := by
        rw [← heq, ← hnext]
        simp [hsame]
      rw [hfirst]
      exact hbelow
    · have hle := horder (limit + 1) (limit + 1 + i) hj (by omega) (by omega)
      rw [heq, hnext] at hle
      exact lt_of_le_of_lt hle hbelow
  nth_rewrite 1 [hsplit]
  rw [List.filter_append, List.filter_eq_nil_iff.mpr (by simpa using hshown),
    List.filter_eq_self.mpr (by simpa using hrest), List.nil_append]

/-- The rows below a shown row are fewer than those that follow it when the key does not
change behind it. -/
theorem filter_length_lt {rows : List ρ} {limit : ℕ} {last next : ρ}
    (h : rows.Pairwise fun a b => key b ≤ key a) (hlast : rows[limit]? = some last)
    (hnext : rows[limit + 1]? = some next) (heq : key last = key next) :
    limit + 1 + (rows.filter fun row => key row < key last).length < rows.length := by
  obtain ⟨hi, hlast⟩ := List.getElem?_eq_some_iff.mp hlast
  obtain ⟨hj, hnext⟩ := List.getElem?_eq_some_iff.mp hnext
  have horder := List.pairwise_iff_getElem.mp h
  have hsplit : rows = rows.take (limit + 2) ++ rows.drop (limit + 2) :=
    (List.take_append_drop _ _).symm
  have hshown : ∀ row ∈ rows.take (limit + 2), ¬ key row < key last := by
    intro row hrow
    obtain ⟨i, hlt, hrow⟩ := List.mem_take_iff_getElem.mp hrow
    rw [← hrow, heq, ← hnext]
    by_cases hsame : i = limit + 1
    · simp [hsame]
    · exact not_lt.mpr (horder i (limit + 1) (by omega) hj (by omega))
  have hfilter : rows.filter (fun row => key row < key last) =
      (rows.drop (limit + 2)).filter fun row => key row < key last := by
    nth_rewrite 1 [hsplit]
    rw [List.filter_append, List.filter_eq_nil_iff.mpr (by simpa using hshown), List.nil_append]
  have hle := List.length_filter_le (fun row => decide (key row < key last)) (rows.drop (limit + 2))
  rw [hfilter]
  rw [List.length_drop] at hle
  omega

section Collecting

variable {before : ρ → ρ → Prop} (sorting : Sorting before)

/-- A short listing is one page. -/
theorem collect_of_short {limit fuel : ℕ} {rows : List ρ} (h : rows.length ≤ limit) :
    collect key sorting limit (fuel + 1) rows = some (sorting.sort rows) := by
  have hlength := (sorting.perm rows).length_eq
  have htake : (sorting.sort rows).take (limit + 1) = sorting.sort rows :=
    List.take_of_length_le (by omega)
  rw [collect, htake, if_neg (by omega)]

/-- A long listing is one page and those behind its last row. -/
theorem collect_of_long {limit : ℕ} (fuel : ℕ) {rows : List ρ} (h : limit + 1 < rows.length) :
    ∃ last, (sorting.sort rows)[limit]? = some last ∧
      collect key sorting (limit + 1) (fuel + 1) rows =
        (collect key sorting (limit + 1) fuel (rows.filter fun row => key row < key last)).map
          ((sorting.sort rows).take (limit + 1) ++ ·) := by
  have hlength := (sorting.perm rows).length_eq
  have hlast : (sorting.sort rows)[limit]? = some (sorting.sort rows)[limit] :=
    List.getElem?_eq_getElem (by omega)
  refine ⟨(sorting.sort rows)[limit], hlast, ?_⟩
  have htake : ((sorting.sort rows).take (limit + 1 + 1)).take (limit + 1) =
      (sorting.sort rows).take (limit + 1) := by
    rw [List.take_take]
    congr 1
    omega
  have hget : ((sorting.sort rows).take (limit + 1)).getLast? = (sorting.sort rows)[limit]? := by
    rw [List.getLast?_eq_getElem?, List.length_take, List.getElem?_take]
    have hmin : min (limit + 1) (sorting.sort rows).length - 1 = limit := by omega
    rw [hmin, if_pos (by omega)]
  have hmore : limit + 1 < ((sorting.sort rows).take (limit + 1 + 1)).length := by
    rw [List.length_take]
    omega
  simp only [collect]
  rw [if_pos hmore, htake, hget, hlast]

/-- The pages end, and they show all rows if no page ends inside a key, and fewer rows
otherwise. -/
theorem collect_spec (hkey : ∀ a b, before a b → key b ≤ key a) {limit : ℕ} (hpos : 0 < limit)
    {fuel : ℕ} {rows : List ρ} (hfuel : rows.length < fuel) :
    ∃ found, collect key sorting limit fuel rows = some found ∧
      (NoSplit limit (keysOf key rows) → found.Perm rows) ∧
      (¬ NoSplit limit (keysOf key rows) → found.length < rows.length) := by
  obtain ⟨size, rfl⟩ : ∃ size, limit = size + 1 := ⟨limit - 1, by omega⟩
  induction fuel generalizing rows with
  | zero => omega
  | succ fuel ih =>
    have hsorted : (sorting.sort rows).Pairwise fun a b => key b ≤ key a :=
      (sorting.sorted rows).imp fun {a b} => hkey a b
    have hkeys : keysOf key rows = (sorting.sort rows).map key := by
      rw [← keysOf_perm key (sorting.perm rows), keysOf_of_sorted key hsorted]
    have hlength := (sorting.perm rows).length_eq
    by_cases hlong : size + 1 < rows.length
    · obtain ⟨last, hlast, hcollect⟩ := collect_of_long key sorting fuel hlong
      have hshort : (rows.filter fun row => key row < key last).length < rows.length := by
        refine List.length_filter_lt_length_iff_exists.mpr ⟨last, ?_, by simp⟩
        exact (sorting.perm rows).mem_iff.mp (List.mem_of_getElem? hlast)
      obtain ⟨found, hfound, hall, hless⟩ := ih (Nat.lt_of_lt_of_le hshort (by omega))
      obtain ⟨next, hnext⟩ : ∃ next, (sorting.sort rows)[size + 1]? = some next :=
        ⟨_, List.getElem?_eq_getElem (by omega)⟩
      have hrest : ((sorting.sort rows).filter fun row => key row < key last).Perm
          (rows.filter fun row => key row < key last) := (sorting.perm rows).filter _
      refine ⟨(sorting.sort rows).take (size + 1) ++ found, by rw [hcollect, hfound]; rfl, ?_⟩
      have htake : ((sorting.sort rows).take (size + 1)).length = size + 1 :=
        List.length_take_of_le (by omega)
      have hbound : found.length ≤ (rows.filter fun row => key row < key last).length := by
        by_cases hsplit : NoSplit (size + 1) (keysOf key (rows.filter fun row => key row < key last))
        · exact (hall hsplit).length_eq.le
        · exact (hless hsplit).le
      have hboundary : (keysOf key rows)[size + 1 - 1]? = (keysOf key rows)[size + 1]? ↔
          key last = key next := by
        rw [hkeys, List.getElem?_map, List.getElem?_map, Nat.add_sub_cancel, hlast, hnext]
        simp
      rw [noSplit_drop hpos (by rw [keysOf_length]; exact hlong), Ne, hboundary]
      by_cases hsame : key last = key next
      · have hlt := filter_length_lt key hsorted hlast hnext hsame
        rw [hrest.length_eq] at hlt
        refine ⟨fun h => absurd hsame h.1, fun _ => ?_⟩
        rw [List.length_append, htake]
        omega
      · have hdrop := filter_eq_drop key hsorted hlast hnext hsame
        rw [hdrop] at hrest
        have hkeysRest : (keysOf key rows).drop (size + 1) =
            keysOf key (rows.filter fun row => key row < key last) := by
          have hsub : ((sorting.sort rows).drop (size + 1)).Pairwise fun a b => key b ≤ key a :=
            hsorted.sublist (List.drop_sublist _ _)
          rw [← keysOf_perm key hrest, keysOf_of_sorted key hsub, hkeys, List.map_drop]
        rw [hkeysRest]
        constructor
        · intro h
          have hperm : ((sorting.sort rows).take (size + 1) ++ found).Perm
              ((sorting.sort rows).take (size + 1) ++ (sorting.sort rows).drop (size + 1)) :=
            ((hall h.2).trans hrest.symm).append_left _
          rw [List.take_append_drop] at hperm
          exact hperm.trans (sorting.perm rows)
        · intro h
          have hsplit := fun hno => h ⟨hsame, hno⟩
          have hfewer := hless hsplit
          have hcount := hrest.length_eq
          rw [List.length_drop] at hcount
          rw [List.length_append, htake]
          omega
    · refine ⟨sorting.sort rows, collect_of_short key sorting (by omega), ?_, ?_⟩
      · intro _
        exact sorting.perm rows
      · intro h
        refine absurd ?_ h
        intro i hi
        rw [keysOf_length] at hi
        have hmul : size + 1 ≤ (i + 1) * (size + 1) := Nat.le_mul_of_pos_left _ (Nat.succ_pos i)
        omega

end Collecting

end EthereumSettlement.KeysetPages
