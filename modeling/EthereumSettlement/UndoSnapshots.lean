import Mathlib.Data.List.Sort
import Mathlib.Data.Set.Finite.Lemmas
import Mathlib.Data.Set.Finite.List

/-!
# Undoing writes by snapshots

A store maps keys to values. Before a write to a key, a snapshot records the value
and a stamp of a linear order. Restoring every snapshot from a bound on, latest
first, gives each key the value of its earliest such snapshot, which is the value
it had before the writes from that bound on. Nothing in this module mentions a
particular program.
-/

namespace EthereumSettlement.UndoSnapshots

/-- The value of a key before a write, with the stamp of the write. -/
structure Snapshot (κ ν σ : Type) where
  /-- Where it was taken. -/
  key : κ
  /-- The value before the write. -/
  before : ν
  /-- When it was written. -/
  stamp : σ

variable {κ ν σ : Type}
variable {log fresh : List (Snapshot κ ν σ)} {values written : κ → Option ν}
variable {bound stamp : σ} {key : κ}

/-- From a bound on, snapshots of one key with one stamp hold one value. -/
def Unambiguous [LE σ] (log : List (Snapshot κ ν σ)) (bound : σ) : Prop :=
  ∀ first ∈ log, ∀ second ∈ log, bound ≤ first.stamp → first.key = second.key →
    first.stamp = second.stamp → first.before = second.before

section Restoring

variable [DecidableEq κ]

/-- Put the value of one snapshot back. Only a stored key can be restored. -/
def restore (values : κ → Option ν) (snapshot : Snapshot κ ν σ) : κ → Option ν :=
  fun key => if key = snapshot.key then (values key).map fun _ => snapshot.before else values key

/-- Snapshots of other keys leave a key as it was. -/
theorem foldl_restore_of_ne {snapshots : List (Snapshot κ ν σ)}
    (h : ∀ snapshot ∈ snapshots, snapshot.key ≠ key) :
    snapshots.foldl restore values key = values key := by
  induction snapshots generalizing values with
  | nil => rfl
  | cons snapshot rest ih =>
    rw [List.foldl_cons, ih fun other hother => h other (List.mem_cons_of_mem _ hother)]
    exact if_neg fun heq => h snapshot List.mem_cons_self heq.symm

/-- Restoring keeps which keys are stored. -/
theorem foldl_restore_map {snapshots : List (Snapshot κ ν σ)} (value : ν) :
    (snapshots.foldl restore values key).map (fun _ => value) =
      (values key).map fun _ => value := by
  induction snapshots generalizing values with
  | nil => rfl
  | cons snapshot rest ih =>
    rw [List.foldl_cons, ih, restore]
    by_cases heq : key = snapshot.key
    · rw [if_pos heq, Option.map_map]
      rfl
    · rw [if_neg heq]

/-- Snapshots of a key that all hold its value keep it. -/
theorem foldl_restore_same {snapshots : List (Snapshot κ ν σ)} {value : ν}
    (h : ∀ snapshot ∈ snapshots, snapshot.key = key → snapshot.before = value)
    {stored : Option ν} (hvalue : values key = stored.map fun _ => value) :
    snapshots.foldl restore values key = stored.map fun _ => value := by
  induction snapshots generalizing values with
  | nil => exact hvalue
  | cons snapshot rest ih =>
    rw [List.foldl_cons]
    refine ih (fun other hother => h other (List.mem_cons_of_mem _ hother)) ?_
    rw [restore]
    by_cases heq : key = snapshot.key
    · rw [if_pos heq, hvalue, Option.map_map, h snapshot List.mem_cons_self heq.symm]
      rfl
    · rw [if_neg heq, hvalue]

end Restoring

variable [LinearOrder σ]

/-- One write of several keys: each changed key has a new snapshot of its old value, all with one
stamp that is later than every earlier one. -/
structure Recorded (log : List (Snapshot κ ν σ)) (values : κ → Option ν)
    (fresh : List (Snapshot κ ν σ)) (written : κ → Option ν) (stamp : σ) : Prop where
  /-- The stamp is later than all before. -/
  later : ∀ snapshot ∈ log, snapshot.stamp < stamp
  /-- Every new snapshot has the stamp. -/
  stamped : ∀ snapshot ∈ fresh, snapshot.stamp = stamp
  /-- Every new snapshot has the old value. -/
  before : ∀ snapshot ∈ fresh, values snapshot.key = some snapshot.before
  /-- No key appears or disappears. -/
  stored : ∀ key, (written key).isSome = (values key).isSome
  /-- A key without a new snapshot keeps its value. -/
  unchanged : ∀ key, (∀ snapshot ∈ fresh, snapshot.key ≠ key) → written key = values key

/-- A recorded write keeps the log unambiguous. -/
theorem Recorded.unambiguous (hlog : Unambiguous log bound)
    (h : Recorded log values fresh written stamp) : Unambiguous (log ++ fresh) bound := by
  intro first hfirst second hsecond hfrom hkey hstamp
  rcases List.mem_append.mp hfirst with hold | hnew
  · rcases List.mem_append.mp hsecond with hold' | hnew'
    · exact hlog first hold second hold' hfrom hkey hstamp
    · exact absurd (hstamp.trans (h.stamped second hnew')) (h.later first hold).ne
  · rcases List.mem_append.mp hsecond with hold' | hnew'
    · exact absurd (hstamp.symm.trans (h.stamped first hnew)) (h.later second hold').ne
    · have hvalue := h.before first hnew
      rw [hkey, h.before second hnew'] at hvalue
      exact (Option.some.inj hvalue).symm

/-- A key with snapshots from the bound on has an earliest one. -/
theorem exists_earliest (h : ∃ snapshot ∈ log, snapshot.key = key ∧ bound ≤ snapshot.stamp) :
    ∃ snapshot ∈ log, snapshot.key = key ∧ bound ≤ snapshot.stamp ∧
      ∀ other ∈ log, other.key = key → bound ≤ other.stamp → snapshot.stamp ≤ other.stamp := by
  have hfinite : {snapshot | snapshot ∈ log ∧ snapshot.key = key ∧
      bound ≤ snapshot.stamp}.Finite :=
    log.finite_toSet.subset fun snapshot hsnapshot => hsnapshot.1
  obtain ⟨snapshot, ⟨hmem, hkey, hbound⟩, hleast⟩ :=
    Set.exists_min_image _ Snapshot.stamp hfinite h
  exact ⟨snapshot, hmem, hkey, hbound,
    fun other hother heq hfrom => hleast other ⟨hother, heq, hfrom⟩⟩

variable [DecidableEq κ]

/-- Restore every snapshot from a bound on, latest first. -/
def undo (log : List (Snapshot κ ν σ)) (values : κ → Option ν) (bound : σ) : κ → Option ν :=
  ((log.filter fun snapshot => decide (bound ≤ snapshot.stamp)).insertionSort
    fun first second => second.stamp ≤ first.stamp).foldl restore values

/-- A key without a snapshot from the bound on keeps its value. -/
theorem undo_of_none (h : ∀ snapshot ∈ log, snapshot.key = key → ¬ bound ≤ snapshot.stamp) :
    undo log values bound key = values key := by
  refine foldl_restore_of_ne fun snapshot hsnapshot heq => ?_
  have hmem := (List.perm_insertionSort _ _).mem_iff.mp hsnapshot
  obtain ⟨hlog, hbound⟩ := List.mem_filter.mp hmem
  exact h snapshot hlog heq (of_decide_eq_true hbound)

/-- A key with snapshots from the bound on gets the value of an earliest one. -/
theorem undo_of_earliest (hlog : Unambiguous log bound) {snapshot : Snapshot κ ν σ}
    (hmem : snapshot ∈ log) (hkey : snapshot.key = key) (hbound : bound ≤ snapshot.stamp)
    (hearliest : ∀ other ∈ log, other.key = key → bound ≤ other.stamp →
      snapshot.stamp ≤ other.stamp) :
    undo log values bound key = (values key).map fun _ => snapshot.before := by
  have hsorted := List.pairwise_insertionSort
    (fun first second : Snapshot κ ν σ => second.stamp ≤ first.stamp)
    (log.filter fun snapshot => decide (bound ≤ snapshot.stamp))
  have hperm := List.perm_insertionSort
    (fun first second : Snapshot κ ν σ => second.stamp ≤ first.stamp)
    (log.filter fun snapshot => decide (bound ≤ snapshot.stamp))
  have hin := hperm.mem_iff.mpr (List.mem_filter.mpr ⟨hmem, decide_eq_true hbound⟩)
  have hfrom : ∀ other ∈ (log.filter fun snapshot => decide (bound ≤ snapshot.stamp)).insertionSort
      (fun first second : Snapshot κ ν σ => second.stamp ≤ first.stamp),
        other ∈ log ∧ bound ≤ other.stamp := by
    intro other hother
    obtain ⟨hother, hfrom⟩ := List.mem_filter.mp (hperm.mem_iff.mp hother)
    exact ⟨hother, of_decide_eq_true hfrom⟩
  rw [undo]
  obtain ⟨later, earlier, hsplit⟩ := List.append_of_mem hin
  rw [hsplit] at hsorted hfrom ⊢
  rw [List.foldl_append, List.foldl_cons]
  refine foldl_restore_same ?_ ?_
  · -- A snapshot of the key after an earliest one has its stamp, so it holds its value.
    intro other hother heq
    obtain ⟨hlogged, hfrom⟩ := hfrom other
      (List.mem_append_right _ (List.mem_cons_of_mem _ hother))
    have hle : other.stamp ≤ snapshot.stamp :=
      List.rel_of_pairwise_cons (List.pairwise_append.mp hsorted).2.1 hother
    have hge := hearliest other hlogged heq hfrom
    exact hlog other hlogged snapshot hmem hfrom (heq.trans hkey.symm) (le_antisymm hle hge)
  · rw [restore, if_pos hkey.symm]
    exact foldl_restore_map snapshot.before

/-- Undoing a recorded write and what follows it gives the values before it. -/
theorem undo_recorded (hlog : Unambiguous log bound) (h : Recorded log values fresh written stamp)
    (hbound : bound ≤ stamp) : undo (log ++ fresh) written bound = undo log values bound := by
  funext key
  have hall := h.unambiguous hlog
  have hmap : ∀ value : ν, (written key).map (fun _ => value) = (values key).map fun _ => value := by
    intro value
    have hstored := h.stored key
    cases hw : written key with
    | none =>
      cases hv : values key with
      | none => rfl
      | some old => simp [hw, hv] at hstored
    | some new =>
      cases hv : values key with
      | none => simp [hw, hv] at hstored
      | some old => rfl
  by_cases hold : ∃ snapshot ∈ log, snapshot.key = key ∧ bound ≤ snapshot.stamp
  · -- An earliest snapshot of the old log stays the earliest.
    obtain ⟨snapshot, hmem, hkey, hfrom, hearliest⟩ := exists_earliest hold
    rw [undo_of_earliest hlog hmem hkey hfrom hearliest,
      undo_of_earliest hall (List.mem_append_left _ hmem) hkey hfrom, hmap]
    intro other hother heq hother'
    rcases List.mem_append.mp hother with hlogged | hnew
    · exact hearliest other hlogged heq hother'
    · rw [h.stamped other hnew]
      exact (h.later snapshot hmem).le
  · have hnone : ∀ snapshot ∈ log, snapshot.key = key → ¬ bound ≤ snapshot.stamp :=
      fun snapshot hmem hkey hfrom => hold ⟨snapshot, hmem, hkey, hfrom⟩
    rw [undo_of_none hnone]
    by_cases hnew : ∃ snapshot ∈ fresh, snapshot.key = key
    · obtain ⟨snapshot, hmem, hkey⟩ := hnew
      have hstamp := h.stamped snapshot hmem
      rw [undo_of_earliest hall (List.mem_append_right _ hmem) hkey (hstamp ▸ hbound), hmap,
        ← hkey, h.before snapshot hmem]
      · rfl
      · intro other hother heq hfrom
        rcases List.mem_append.mp hother with hlogged | hfresh
        · exact absurd hfrom (hnone other hlogged heq)
        · rw [hstamp, h.stamped other hfresh]
    · have huntouched : ∀ snapshot ∈ fresh, snapshot.key ≠ key :=
        fun snapshot hmem hkey => hnew ⟨snapshot, hmem, hkey⟩
      rw [undo_of_none, h.unchanged key huntouched]
      intro snapshot hmem hkey
      rcases List.mem_append.mp hmem with hlogged | hfresh
      · exact hnone snapshot hlogged hkey
      · exact absurd hkey (huntouched snapshot hfresh)

end EthereumSettlement.UndoSnapshots
