import Mathlib.Algebra.BigOperators.Group.List.Basic
import Mathlib.Data.List.Induction
import Mathlib.Data.Nat.Digits.Lemmas
import Mathlib.Tactic.Ring

/-!
# Greedy packing of numbers into words

Items with a width and a value are collected in groups. An item joins the open group
while the widths together stay below the capacity, and otherwise opens the next group.
The number of a group is written by the bits of its items one behind another. Grouping
depends on the widths alone, so the numbers of the groups determine the values. Nothing
in this module mentions a particular program.
-/

namespace EthereumSettlement.GreedyPacking

variable {α : Type} (width value : α → ℕ) (capacity : ℕ)

/-- The widths of a group together. -/
def totalWidth (group : List α) : ℕ := (group.map width).sum

/-- The bits of an item in its width, the highest first. -/
def itemBits (item : α) : List ℕ := (Nat.digitsAppend 2 (width item) (value item)).reverse

/-- The bits of the items one behind another. -/
def groupBits (group : List α) : List ℕ := group.flatMap (itemBits width value)

/-- The number written by the bits of a group. -/
def concatenation (group : List α) : ℕ := Nat.ofDigits 2 (groupBits width value group).reverse

/-- Every value can be written in its width. -/
def Fits (group : List α) : Prop := ∀ item ∈ group, value item < 2 ^ width item

/-- The open group after one more item. -/
def extend (current : List α) (item : α) : List α :=
  if totalWidth width current + width item < capacity then current ++ [item] else [item]

/-- The open group after further items. -/
def openGroup (current items : List α) : List α := items.foldl (extend width capacity) current

/-- All groups, when some items are already in the open one. -/
def pack (current : List α) : List α → List (List α)
  | [] => if 0 < totalWidth width current then [current] else []
  | item :: items =>
    if totalWidth width current + width item < capacity then pack (current ++ [item]) items
    else current :: pack [item] items

variable {width value capacity}

section Widths

@[simp] theorem totalWidth_nil : totalWidth width ([] : List α) = 0 := rfl

@[simp] theorem totalWidth_singleton (item : α) : totalWidth width [item] = width item := by
  simp only [totalWidth, List.map_cons, List.map_nil, List.sum_singleton]

/-- A further item adds its width. -/
@[simp] theorem totalWidth_concat (group : List α) (item : α) :
    totalWidth width (group ++ [item]) = totalWidth width group + width item := by
  simp only [totalWidth, List.map_append, List.map_cons, List.map_nil, List.sum_append,
    List.sum_singleton]

/-- A group without width has no items of positive width. -/
theorem eq_nil_of_totalWidth {group : List α} (hpos : ∀ item ∈ group, 0 < width item)
    (h : ¬ 0 < totalWidth width group) : group = [] := by
  cases group with
  | nil => rfl
  | cons item group =>
    have hitem := hpos item List.mem_cons_self
    simp only [totalWidth, List.map_cons, List.sum_cons] at h
    omega

end Widths

section Bits

/-- A value that fits is written in its width. -/
theorem itemBits_length {item : α} (h : value item < 2 ^ width item) :
    (itemBits width value item).length = width item := by
  rw [itemBits, List.length_reverse, Nat.length_digitsAppend one_lt_two _ h]

/-- Bits are zero or one. -/
theorem itemBits_lt {item : α} {bit : ℕ} (h : bit ∈ itemBits width value item) : bit < 2 :=
  Nat.lt_of_mem_digitsAppend one_lt_two (width item) bit (List.mem_reverse.mp h)

/-- The bits of a group are zero or one. -/
theorem groupBits_lt {group : List α} {bit : ℕ} (h : bit ∈ groupBits width value group) :
    bit < 2 := by
  obtain ⟨item, -, hbit⟩ := List.mem_flatMap.mp h
  exact itemBits_lt hbit

/-- A group is written in the widths of its items together. -/
theorem groupBits_length {group : List α} (h : Fits width value group) :
    (groupBits width value group).length = totalWidth width group := by
  induction group with
  | nil => rfl
  | cons item group ih =>
    have hitem := itemBits_length (h item List.mem_cons_self)
    have hgroup := ih fun other hother => h other (List.mem_cons_of_mem item hother)
    simp only [groupBits, totalWidth, List.flatMap_cons, List.length_append, List.map_cons,
      List.sum_cons] at hgroup ⊢
    omega

/-- The number of a group is below two to the widths of its items together. -/
theorem concatenation_lt {group : List α} (h : Fits width value group) :
    concatenation width value group < 2 ^ totalWidth width group := by
  have hlt := Nat.ofDigits_lt_base_pow_length (l := (groupBits width value group).reverse)
    one_lt_two fun bit hbit => groupBits_lt (List.mem_reverse.mp hbit)
  rwa [List.length_reverse, groupBits_length h] at hlt

@[simp] theorem concatenation_nil : concatenation width value ([] : List α) = 0 := rfl

/-- The bits of an item write its value. -/
theorem ofDigits_itemBits {item : α} (h : value item < 2 ^ width item) :
    Nat.ofDigits 2 (itemBits width value item).reverse = value item := by
  rw [itemBits, List.reverse_reverse]
  exact (Nat.setInvOn_digitsAppend_ofDigits one_lt_two (width item)).2 h

/-- A further item shifts the number by its width and adds its value. -/
theorem concatenation_concat (group : List α) {item : α} (h : value item < 2 ^ width item) :
    concatenation width value (group ++ [item]) =
      concatenation width value group * 2 ^ width item + value item := by
  rw [concatenation, groupBits, List.flatMap_append, List.flatMap_singleton, List.reverse_append,
    Nat.ofDigits_append, ofDigits_itemBits h, List.length_reverse, itemBits_length h,
    concatenation, groupBits]
  ring

/-- The number of a single item is its value. -/
theorem concatenation_singleton {item : α} (h : value item < 2 ^ width item) :
    concatenation width value [item] = value item := by
  have hitem := concatenation_concat [] h
  rwa [List.nil_append, concatenation_nil, zero_mul, zero_add] at hitem

/-- In equal widths the bits determine the values. -/
theorem groupBits_injective {first second : List α} (hwidth : first.map width = second.map width)
    (hfirst : Fits width value first) (hsecond : Fits width value second)
    (h : groupBits width value first = groupBits width value second) :
    first.map value = second.map value := by
  induction first generalizing second with
  | nil =>
    rw [List.map_eq_nil_iff.mp hwidth.symm]
  | cons x first ih =>
    cases second with
    | nil => exact absurd hwidth (List.cons_ne_nil _ _)
    | cons y second =>
      have hxfit := hfirst x List.mem_cons_self
      have hyfit := hsecond y List.mem_cons_self
      have hsplit := List.cons.inj hwidth
      have hlength : (itemBits width value x).length = (itemBits width value y).length := by
        rw [itemBits_length hxfit, itemBits_length hyfit, hsplit.1]
      have hbits := List.append_inj h hlength
      have hvalue : value x = value y := by
        rw [← ofDigits_itemBits hxfit, ← ofDigits_itemBits hyfit, hbits.1]
      rw [List.map_cons, List.map_cons, hvalue,
        ih hsplit.2 (fun item hitem => hfirst item (List.mem_cons_of_mem x hitem))
          (fun item hitem => hsecond item (List.mem_cons_of_mem y hitem)) hbits.2]

/-- In equal widths the number determines the values. -/
theorem concatenation_injective {first second : List α}
    (hwidth : first.map width = second.map width) (hfirst : Fits width value first)
    (hsecond : Fits width value second)
    (h : concatenation width value first = concatenation width value second) :
    first.map value = second.map value := by
  apply groupBits_injective hwidth hfirst hsecond
  apply List.reverse_injective
  have hlength : (groupBits width value first).reverse.length =
      (groupBits width value second).reverse.length := by
    rw [List.length_reverse, List.length_reverse, groupBits_length hfirst,
      groupBits_length hsecond, totalWidth, totalWidth, hwidth]
  exact Nat.ofDigits_inj_of_len_eq one_lt_two hlength
    (fun bit hbit => groupBits_lt (List.mem_reverse.mp hbit))
    (fun bit hbit => groupBits_lt (List.mem_reverse.mp hbit)) h

end Bits

section Groups

/-- The items in the open group and behind it are the items of the groups, in order. -/
theorem pack_flatten {current items : List α} (hpos : ∀ item ∈ current ++ items, 0 < width item) :
    (pack width capacity current items).flatten = current ++ items := by
  induction items generalizing current with
  | nil =>
    rw [List.append_nil] at hpos ⊢
    rw [pack]
    by_cases hwidth : 0 < totalWidth width current
    · rw [if_pos hwidth, List.flatten_singleton]
    · rw [if_neg hwidth, eq_nil_of_totalWidth hpos hwidth, List.flatten_nil]
  | cons item items ih =>
    rw [pack]
    by_cases hroom : totalWidth width current + width item < capacity
    · rw [if_pos hroom]
      have hitems : ∀ other ∈ current ++ [item] ++ items, 0 < width other := by
        rwa [← List.append_cons]
      rw [ih hitems, ← List.append_cons]
    · rw [if_neg hroom, List.flatten_cons]
      have hitems : ∀ other ∈ [item] ++ items, 0 < width other := fun other hother =>
        hpos other (List.mem_append_right current hother)
      rw [ih hitems, List.singleton_append]

/-- Every group has some width, and less than the capacity. -/
theorem totalWidth_of_mem_pack {current items : List α}
    (hcurrent : totalWidth width current < capacity)
    (hitems : ∀ item ∈ items, width item < capacity) {group : List α}
    (h : group ∈ pack width capacity current items) :
    0 < totalWidth width group ∧ totalWidth width group < capacity := by
  induction items generalizing current with
  | nil =>
    rw [pack] at h
    by_cases hwidth : 0 < totalWidth width current
    · rw [if_pos hwidth, List.mem_singleton] at h
      rw [h]
      exact ⟨hwidth, hcurrent⟩
    · rw [if_neg hwidth] at h
      exact absurd h List.not_mem_nil
  | cons item items ih =>
    have hitem := hitems item List.mem_cons_self
    have hrest := fun other hother => hitems other (List.mem_cons_of_mem item hother)
    rw [pack] at h
    by_cases hroom : totalWidth width current + width item < capacity
    · rw [if_pos hroom] at h
      exact ih (by rwa [totalWidth_concat]) hrest h
    · rw [if_neg hroom, List.mem_cons] at h
      cases h with
      | inl hclosed =>
        rw [hclosed]
        exact ⟨by omega, hcurrent⟩
      | inr hopen => exact ih (by rwa [totalWidth_singleton]) hrest hopen

/-- The values of a group's items can be written in their widths. -/
theorem fits_of_mem_pack {current items : List α} (hpos : ∀ item ∈ current ++ items, 0 < width item)
    (hfits : Fits width value (current ++ items)) {group : List α}
    (h : group ∈ pack width capacity current items) : Fits width value group := by
  intro item hitem
  have hmem := List.mem_flatten.mpr ⟨group, h, hitem⟩
  rw [pack_flatten hpos] at hmem
  exact hfits item hmem

end Groups

section Values

/-- The widths alone decide the groups. -/
theorem pack_widths {current other first second : List α}
    (hcurrent : current.map width = other.map width) (h : first.map width = second.map width) :
    List.Forall₂ (fun group twin => group.map width = twin.map width)
      (pack width capacity current first) (pack width capacity other second) := by
  have htotal : totalWidth width current = totalWidth width other := by
    rw [totalWidth, totalWidth, hcurrent]
  induction first generalizing current other second with
  | nil =>
    rw [List.map_eq_nil_iff.mp h.symm, pack, pack, htotal]
    by_cases hwidth : 0 < totalWidth width other
    · rw [if_pos hwidth, if_pos hwidth]
      exact .cons hcurrent .nil
    · rw [if_neg hwidth, if_neg hwidth]
      exact .nil
  | cons x first ih =>
    cases second with
    | nil => exact absurd h (List.cons_ne_nil _ _)
    | cons y second =>
      have hsplit := List.cons.inj h
      rw [pack, pack, htotal, hsplit.1]
      by_cases hroom : totalWidth width other + width y < capacity
      · rw [if_pos hroom, if_pos hroom]
        apply ih _ hsplit.2
        · rw [totalWidth_concat, totalWidth_concat, htotal, hsplit.1]
        · rw [List.map_append, List.map_append, hcurrent, List.map_singleton, hsplit.1]
          rfl
      · rw [if_neg hroom, if_neg hroom]
        have hsingle : [x].map width = [y].map width := by
          rw [List.map_singleton, List.map_singleton, hsplit.1]
        refine .cons hcurrent (ih hsingle hsplit.2 ?_)
        rw [totalWidth_singleton, totalWidth_singleton, hsplit.1]

/-- Groups of equal widths with equal numbers have equal values. -/
theorem values_of_groups {groups twins : List (List α)}
    (hwidths : List.Forall₂ (fun group twin => group.map width = twin.map width) groups twins)
    (hgroups : ∀ group ∈ groups, Fits width value group)
    (htwins : ∀ twin ∈ twins, Fits width value twin)
    (h : groups.map (concatenation width value) = twins.map (concatenation width value)) :
    groups.flatten.map value = twins.flatten.map value := by
  induction hwidths with
  | nil => rfl
  | @cons group twin groups twins hwidth hwidths ih =>
    have hsplit := List.cons.inj h
    have hvalues := concatenation_injective hwidth (hgroups group List.mem_cons_self)
      (htwins twin List.mem_cons_self) hsplit.1
    have hrest := ih (fun other hother => hgroups other (List.mem_cons_of_mem group hother))
      (fun other hother => htwins other (List.mem_cons_of_mem twin hother)) hsplit.2
    rw [List.flatten_cons, List.flatten_cons, List.map_append, List.map_append, hvalues, hrest]

/-- In equal widths the numbers of the groups determine all values. -/
theorem pack_injective {first second : List α} (hwidth : first.map width = second.map width)
    (hfirst : Fits width value first) (hsecond : Fits width value second)
    (hpos : ∀ item ∈ first, 0 < width item) (hpos' : ∀ item ∈ second, 0 < width item)
    (h : (pack width capacity [] first).map (concatenation width value) =
      (pack width capacity [] second).map (concatenation width value)) :
    first.map value = second.map value := by
  have hvalues := values_of_groups (pack_widths rfl hwidth)
    (fun group hgroup => fits_of_mem_pack hpos hfirst hgroup)
    (fun group hgroup => fits_of_mem_pack hpos' hsecond hgroup) h
  rwa [pack_flatten hpos, pack_flatten hpos'] at hvalues

end Values

end EthereumSettlement.GreedyPacking
