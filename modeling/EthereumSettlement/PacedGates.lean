import Mathlib.Data.List.Basic
import Mathlib.Algebra.BigOperators.Group.List.Basic
import Mathlib.Data.Nat.Digits.Lemmas
import Mathlib.Order.Lattice
import Mathlib.Tactic.Ring

/-!
# Gates that pace what passes them

A gate stands between requests and a shared resource. It opens at an instant; whatever
passes pushes that instant into the future by a gap of its own, and a hold pushes it at
least as far as it says. The log of such a gate is orderly: nothing passes before every
earlier passage and hold allows it, and the gaps of what passed within a window add up
to at most the window. Nothing in this module mentions a particular program.
-/

namespace EthereumSettlement.PacedGates

variable {α : Type}

/-- What happens at a gate. -/
inductive Passage (α : Type)
  | grant (label : α) (instant gap : ℕ)
  | hold (release : ℕ)
  deriving DecidableEq

/-- The first instant at which something may follow. -/
def Passage.reopens : Passage α → ℕ
  | .grant _ instant gap => instant + gap
  | .hold release => release

/-- The instant and the gap of a grant. -/
def Passage.granted : Passage α → Option (ℕ × ℕ)
  | .grant _ instant gap => some (instant, gap)
  | .hold _ => none

/-- Every grant comes no earlier than each passage before it allows. -/
def Orderly (log : List (Passage α)) : Prop :=
  log.Pairwise fun earlier later =>
    ∀ grant ∈ later.granted, earlier.reopens ≤ grant.1

/-- A gate that opens at an instant, with the log that led there. -/
structure Gate (opens : ℕ) (log : List (Passage α)) : Prop where
  /-- No passage comes before the gate reopened. -/
  orderly : Orderly log
  /-- The gate opens no earlier than its passages allow. -/
  reopened : ∀ passage ∈ log, passage.reopens ≤ opens

/-- A fresh gate. -/
theorem Gate.nil (opens : ℕ) : Gate opens ([] : List (Passage α)) :=
  ⟨List.Pairwise.nil, fun _ h => absurd h List.not_mem_nil⟩

/-- A passage that respects the gate and moves its opening far enough keeps it a gate. -/
theorem Gate.snoc {opens next : ℕ} {log : List (Passage α)} (h : Gate opens log)
    (passage : Passage α) (hopen : ∀ grant ∈ passage.granted, opens ≤ grant.1)
    (hkeep : opens ≤ next) (hmove : passage.reopens ≤ next) : Gate next (log ++ [passage]) := by
  constructor
  · refine List.pairwise_append.mpr ⟨h.orderly, List.pairwise_singleton _ _, ?_⟩
    intro earlier hearlier later hlater grant hgrant
    rw [List.mem_singleton.mp hlater] at hgrant
    have hreopened := h.reopened earlier hearlier
    have hopened := hopen grant hgrant
    omega
  · intro earlier hearlier
    have hcases := List.mem_append.mp hearlier
    cases hcases with
    | inl hold =>
      have hreopened := h.reopened earlier hold
      omega
    | inr hnew =>
      rw [List.mem_singleton.mp hnew]
      exact hmove

/-- An open gate grants a passage. -/
theorem Gate.grant {opens instant : ℕ} {log : List (Passage α)} (h : Gate opens log)
    (hopen : opens ≤ instant) (label : α) (gap : ℕ) :
    Gate (instant + gap) (log ++ [.grant label instant gap]) := by
  apply h.snoc
  · intro grant hgrant
    have hsame : (instant, gap) = grant := Option.mem_some_iff.mp hgrant
    rw [← hsame]
    exact hopen
  · omega
  · exact Nat.le_refl _

/-- A gate is held shut. -/
theorem Gate.hold {opens : ℕ} {log : List (Passage α)} (h : Gate opens log) (release : ℕ) :
    Gate (max opens release) (log ++ [.hold release]) := by
  apply h.snoc
  · intro grant hgrant
    cases hgrant
  · omega
  · exact Nat.le_max_right _ _

/-- The grants of a log, each with its instant and gap. -/
def grants (log : List (Passage α)) : List (ℕ × ℕ) := log.filterMap Passage.granted

/-- Each grant comes no earlier than the gaps of all grants before it allow. -/
def Spaced (passed : List (ℕ × ℕ)) : Prop :=
  passed.Pairwise fun earlier later => earlier.1 + earlier.2 ≤ later.1

/-- The grants of an orderly log are spaced. -/
theorem Orderly.spaced {log : List (Passage α)} (h : Orderly log) : Spaced (grants log) := by
  apply h.filterMap
  intro earlier later hbefore first hfirst second hsecond
  have hreopens : earlier.reopens = first.1 + first.2 := by
    cases earlier with
    | grant label instant gap =>
      have hsame : (instant, gap) = first := Option.mem_some_iff.mp hfirst
      rw [← hsame]
      rfl
    | hold release => cases hfirst
  rw [← hreopens]
  exact hbefore second hsecond

/-- The gaps of spaced grants within a window, the last one's excepted, fit the window. -/
theorem Spaced.sum_le {passed : List (ℕ × ℕ)} (h : Spaced passed) {start stop : ℕ}
    (hwindow : ∀ grant ∈ passed, start ≤ grant.1 ∧ grant.1 ≤ stop) :
    (passed.dropLast.map Prod.snd).sum ≤ stop - start := by
  induction passed generalizing start with
  | nil => exact Nat.zero_le _
  | cons first rest ih =>
    cases rest with
    | nil => exact Nat.zero_le _
    | cons second rest =>
      have hparts := List.pairwise_cons.mp h
      have hnext := hparts.1 second List.mem_cons_self
      have hfirst := hwindow first List.mem_cons_self
      have hsecond := hwindow second (List.mem_cons_of_mem _ List.mem_cons_self)
      have hlater : ∀ grant ∈ second :: rest, second.1 ≤ grant.1 ∧ grant.1 ≤ stop := by
        intro grant hgrant
        have hinside := hwindow grant (List.mem_cons_of_mem _ hgrant)
        cases List.mem_cons.mp hgrant with
        | inl hsame =>
          rw [hsame]
          exact ⟨le_rfl, hsecond.2⟩
        | inr hmem =>
          have hspaced := (List.pairwise_cons.mp hparts.2).1 grant hmem
          exact ⟨by omega, hinside.2⟩
      have hrest := ih hparts.2 hlater
      rw [List.dropLast_cons_of_ne_nil (List.cons_ne_nil _ _), List.map_cons, List.sum_cons]
      omega

/-- The grants that fall into a window. -/
def within (start stop : ℕ) (passed : List (ℕ × ℕ)) : List (ℕ × ℕ) :=
  passed.filter fun grant => start ≤ grant.1 ∧ grant.1 ≤ stop

/-- In every window the gaps of the grants, the last one's excepted, fit the window. -/
theorem Spaced.within_sum_le {passed : List (ℕ × ℕ)} (h : Spaced passed) (start stop : ℕ) :
    ((within start stop passed).dropLast.map Prod.snd).sum ≤ stop - start := by
  have hspaced : Spaced (within start stop passed) := List.Pairwise.filter _ h
  apply hspaced.sum_le
  intro grant hgrant
  have hinside := (List.mem_filter.mp hgrant).2
  exact of_decide_eq_true hinside

end EthereumSettlement.PacedGates
