import Mathlib.Data.List.Lex
import Mathlib.Data.List.Sort
import EthereumSettlement.ExplorerPages
import EthereumSettlement.HashCommitments
import EthereumSettlement.JsonTexts
import EthereumSettlement.PrefixCodes

/-!
# Canonical JSON of the wallet

The wallet shows the user the SHA-256 digest of a canonical JSON text of what it is
asked to sign. Objects are written with their keys in the order of their code units, and
strings and numbers as `JSON.stringify` writes them. The digits that the engine chooses
for a number are a parameter. Two JSON values have one canonical text exactly when they
are equal up to the order of keys and the sign of zero, so the digest determines the
payload where SHA-256 has no collision.
-/

namespace EthereumSettlement.CanonicalJson

open ByteWords CheckedCalls ExplorerPages FixedBytesText HashCommitments JsStrings JsonTexts
  PrefixCodes

/-- JavaScript values; an object is the list of its entries, and the last constructor
stands for `undefined`, functions, symbols and big integers. -/
inductive JsValue
  | null
  | boolean (value : Bool)
  | number (value : JsNumber)
  | string (value : JsString)
  | array (items : List JsValue)
  | object (entries : List (JsString × JsValue))
  | undefined

/-- The order of keys, by their code units. -/
def byKey {α : Type} (left right : JsString × α) : Prop :=
  left.1.map BitVec.toNat ≤ right.1.map BitVec.toNat

instance {α : Type} : DecidableRel (byKey (α := α)) := fun _ _ => inferInstanceAs (Decidable (_ ≤ _))

/-- `join(",")`. -/
def join (texts : List JsString) : JsString := [unitOf ','].intercalate texts

/-- An entry of an object with its key. -/
def entryText (entry : JsString × JsString) : JsString := quoteJson entry.1 ++ unitOf ':' :: entry.2

/-- The text of an array's items. -/
def arrayText (texts : List JsString) : JsString := unitOf '[' :: (join texts ++ [unitOf ']'])

/-- The text of an object's entries. -/
def objectText (entries : List (JsString × JsString)) : JsString :=
  unitOf '\x7b' :: (join (entries.map entryText) ++ [unitOf '\x7d'])

/-- `JSON.stringify` of a boolean. -/
def booleanText (value : Bool) : JsString := jsText (if value then "true" else "false")

section

variable (shortest : JsNumber → ℕ × ℤ)

mutual

/-- `canonicalJson`; the items of an object are written before they are sorted, which no
key depends on. -/
def canonicalJson : JsValue → Except String JsString
  | .null => pure (jsText "null")
  | .boolean value => pure (booleanText value)
  | .number value =>
    if isFinite value then pure (numberToString shortest value)
    else throw "The zkApp transaction must contain JSON values"
  | .string value => pure (quoteJson value)
  | .array items => do
    let texts ← canonicalItems items
    pure (arrayText texts)
  | .object entries => do
    let texts ← canonicalEntries entries
    pure (objectText (texts.insertionSort byKey))
  | .undefined => throw "The zkApp transaction must contain JSON values"

/-- `map(canonicalJson)`. -/
def canonicalItems : List JsValue → Except String (List JsString)
  | [] => pure []
  | item :: items => do
    let text ← canonicalJson item
    let texts ← canonicalItems items
    pure (text :: texts)

/-- The entries with the texts of their items. -/
def canonicalEntries : List (JsString × JsValue) → Except String (List (JsString × JsString))
  | [] => pure []
  | (key, item) :: entries => do
    let text ← canonicalJson item
    let texts ← canonicalEntries entries
    pure ((key, text) :: texts)

end

end

/-- A property of all values follows from that of the items and the entries. -/
theorem JsValue.induct {P : JsValue → Prop} (null : P .null) (boolean : ∀ b, P (.boolean b))
    (number : ∀ n, P (.number n)) (string : ∀ s, P (.string s))
    (array : ∀ items, (∀ item ∈ items, P item) → P (.array items))
    (object : ∀ entries, (∀ entry ∈ entries, P entry.2) → P (.object entries)) (undefined : P .undefined)
    (value : JsValue) : P value :=
  @JsValue.rec P (fun items => ∀ item ∈ items, P item)
    (fun entries => ∀ entry ∈ entries, P entry.2) (fun entry => P entry.2)
    null boolean number string (fun _ => array _) (fun _ => object _) undefined
    (fun _ hitem => absurd hitem List.not_mem_nil)
    (fun _ _ hitem hitems => List.forall_mem_cons.mpr ⟨hitem, hitems⟩)
    (fun _ hentry => absurd hentry List.not_mem_nil)
    (fun _ _ hentry hentries => List.forall_mem_cons.mpr ⟨hentry, hentries⟩)
    (fun _ _ hvalue => hvalue) value

mutual

/-- A check of every value within a value. -/
def every (check : JsValue → Bool) : JsValue → Bool
  | .array items => check (.array items) && everyItem check items
  | .object entries => check (.object entries) && everyEntry check entries
  | value => check value

/-- A check of every value within the items of an array. -/
def everyItem (check : JsValue → Bool) : List JsValue → Bool
  | [] => true
  | item :: items => every check item && everyItem check items

/-- A check of every value within the entries of an object. -/
def everyEntry (check : JsValue → Bool) : List (JsString × JsValue) → Bool
  | [] => true
  | (_, item) :: entries => every check item && everyEntry check entries

end

/-- What JSON can write: finite numbers and objects with each key once. -/
def jsonNode : JsValue → Bool
  | .number value => isFinite value
  | .object entries => (entries.map Prod.fst).Nodup
  | .undefined => false
  | _ => true

/-- The JSON values. -/
def isJson (value : JsValue) : Bool := every jsonNode value

/-- A zero without its sign. -/
def unsignedZero (n : JsNumber) : JsNumber := if isZero n then 0 else n

mutual

/-- Values that are equal up to the order of keys and the sign of zero. -/
def SameJson : JsValue → JsValue → Prop
  | .null, .null => True
  | .boolean first, .boolean second => first = second
  | .number first, .number second => unsignedZero first = unsignedZero second
  | .string first, .string second => first = second
  | .array first, .array second => SameItems first second
  | .object first, .object second => first.length = second.length ∧ SameEntries first second
  | _, _ => False

/-- Items that are equal one by one. -/
def SameItems : List JsValue → List JsValue → Prop
  | [], [] => True
  | item :: items, other :: others => SameJson item other ∧ SameItems items others
  | _, _ => False

/-- Entries whose keys all have an equal item among other entries. -/
def SameEntries : List (JsString × JsValue) → List (JsString × JsValue) → Prop
  | [], _ => True
  | (key, item) :: entries, others =>
    (∃ other, (key, other) ∈ others ∧ SameJson item other) ∧ SameEntries entries others

end

mutual

/-- A value with its entries in order and its zeros unsigned. -/
def normalForm : JsValue → JsValue
  | .number value => .number (unsignedZero value)
  | .array items => .array (normalItems items)
  | .object entries => .object ((normalEntries entries).insertionSort byKey)
  | value => value

/-- The normal forms of items. -/
def normalItems : List JsValue → List JsValue
  | [] => []
  | item :: items => normalForm item :: normalItems items

/-- The entries with the normal forms of their items. -/
def normalEntries : List (JsString × JsValue) → List (JsString × JsValue)
  | [] => []
  | (key, item) :: entries => (key, normalForm item) :: normalEntries entries

end

section

variable (shortest : JsNumber → ℕ × ℤ)

mutual

/-- The text of a value as its entries stand. -/
def render : JsValue → JsString
  | .null => jsText "null"
  | .boolean value => booleanText value
  | .number value => numberToString shortest value
  | .string value => quoteJson value
  | .array items => arrayText (renderItems items)
  | .object entries => objectText (renderEntries entries)
  | .undefined => []

/-- The texts of items. -/
def renderItems : List JsValue → List JsString
  | [] => []
  | item :: items => render item :: renderItems items

/-- The entries with the texts of their items. -/
def renderEntries : List (JsString × JsValue) → List (JsString × JsString)
  | [] => []
  | (key, item) :: entries => (key, render item) :: renderEntries entries

end

end

/-- An entry with its item changed. -/
def onItem {α β : Type} (change : α → β) (entry : JsString × α) : JsString × β :=
  (entry.1, change entry.2)

/-- The items are checked one by one. -/
theorem everyItem_iff (check : JsValue → Bool) (items : List JsValue) :
    everyItem check items = true ↔ ∀ item ∈ items, every check item = true := by
  induction items with
  | nil => exact iff_of_true rfl fun item hitem => absurd hitem List.not_mem_nil
  | cons item items ih => rw [everyItem, Bool.and_eq_true, ih, List.forall_mem_cons]

/-- The entries are checked one by one. -/
theorem everyEntry_iff (check : JsValue → Bool) (entries : List (JsString × JsValue)) :
    everyEntry check entries = true ↔ ∀ entry ∈ entries, every check entry.2 = true := by
  induction entries with
  | nil => exact iff_of_true rfl fun entry hentry => absurd hentry List.not_mem_nil
  | cons entry entries ih => rw [everyEntry, Bool.and_eq_true, ih, List.forall_mem_cons]

/-- Items are changed one by one. -/
theorem normalItems_eq (items : List JsValue) : normalItems items = items.map normalForm := by
  induction items with
  | nil => rfl
  | cons item items ih => rw [normalItems, ih, List.map_cons]

/-- Entries are changed one by one. -/
theorem normalEntries_eq (entries : List (JsString × JsValue)) :
    normalEntries entries = entries.map (onItem normalForm) := by
  induction entries with
  | nil => rfl
  | cons entry entries ih => rw [normalEntries, ih, List.map_cons, onItem]

/-- Items are equal one by one. -/
theorem sameItems_iff (items others : List JsValue) :
    SameItems items others ↔ List.Forall₂ SameJson items others := by
  induction items generalizing others with
  | nil =>
    cases others with
    | nil => exact iff_of_true trivial List.Forall₂.nil
    | cons other others => exact iff_of_false id (fun h => by cases h)
  | cons item items ih =>
    cases others with
    | nil => exact iff_of_false id (fun h => by cases h)
    | cons other others => rw [SameItems, ih, List.forall₂_cons]

/-- Every entry has an equal item under its key. -/
theorem sameEntries_iff (entries others : List (JsString × JsValue)) :
    SameEntries entries others ↔
      ∀ entry ∈ entries, ∃ item, (entry.1, item) ∈ others ∧ SameJson entry.2 item := by
  induction entries with
  | nil => exact iff_of_true trivial fun entry hentry => absurd hentry List.not_mem_nil
  | cons entry entries ih => rw [SameEntries, ih, List.forall_mem_cons]

section

variable (shortest : JsNumber → ℕ × ℤ)

/-- Items are written one by one. -/
theorem renderItems_eq (items : List JsValue) :
    renderItems shortest items = items.map (render shortest) := by
  induction items with
  | nil => rfl
  | cons item items ih => rw [renderItems, ih, List.map_cons]

/-- Entries are written one by one. -/
theorem renderEntries_eq (entries : List (JsString × JsValue)) :
    renderEntries shortest entries = entries.map (onItem (render shortest)) := by
  induction entries with
  | nil => rfl
  | cons entry entries ih => rw [renderEntries, ih, List.map_cons, onItem]

/-- Items that can all be written are written one by one. -/
theorem canonicalItems_eq (text : JsValue → JsString) {items : List JsValue}
    (h : ∀ item ∈ items, canonicalJson shortest item = .ok (text item)) :
    canonicalItems shortest items = .ok (items.map text) := by
  induction items with
  | nil => rfl
  | cons item items ih =>
    have hitems := ih fun other hother => h other (List.mem_cons_of_mem item hother)
    rw [canonicalItems, h item List.mem_cons_self, hitems]
    rfl

/-- Entries whose items can all be written are written one by one. -/
theorem canonicalEntries_eq (text : JsValue → JsString) {entries : List (JsString × JsValue)}
    (h : ∀ entry ∈ entries, canonicalJson shortest entry.2 = .ok (text entry.2)) :
    canonicalEntries shortest entries = .ok (entries.map (onItem text)) := by
  induction entries with
  | nil => rfl
  | cons entry entries ih =>
    have hentries := ih fun other hother => h other (List.mem_cons_of_mem entry hother)
    rw [canonicalEntries, h entry List.mem_cons_self, hentries]
    rfl

/-- The order of entries does not depend on their items. -/
theorem insertionSort_onItem {α β : Type} (change : α → β) (entries : List (JsString × α)) :
    (entries.map (onItem change)).insertionSort byKey =
      (entries.insertionSort byKey).map (onItem change) :=
  (List.map_insertionSort byKey byKey (onItem change) entries fun _ _ _ _ => Iff.rfl).symm

/-- The sign of a zero is not written. -/
theorem numberToString_unsignedZero (n : JsNumber) :
    numberToString shortest (unsignedZero n) = numberToString shortest n := by
  rw [unsignedZero]
  by_cases hzero : isZero n = true
  · have hplain : isZero 0 = true := by decide
    rw [if_pos hzero, numberToString, numberToString, if_pos hzero, if_pos hplain]
  · rw [if_neg hzero]

/-- A JSON value is written as its normal form. -/
theorem canonicalJson_eq {value : JsValue} (h : isJson value = true) :
    canonicalJson shortest value = .ok (render shortest (normalForm value)) := by
  rw [isJson] at h
  induction value using JsValue.induct with
  | null => rfl
  | boolean b => rfl
  | number n =>
    have hfinite : isFinite n = true := h
    rw [canonicalJson, if_pos hfinite, normalForm, render, numberToString_unsignedZero]
    rfl
  | string s => rfl
  | array items ih =>
    rw [every, Bool.and_eq_true, everyItem_iff] at h
    have hitems := canonicalItems_eq shortest (render shortest ∘ normalForm)
      fun item hitem => ih item hitem (h.2 item hitem)
    rw [canonicalJson, hitems, normalForm, render, normalItems_eq, renderItems_eq, List.map_map]
    rfl
  | object entries ih =>
    rw [every, Bool.and_eq_true, everyEntry_iff] at h
    have hentries := canonicalEntries_eq shortest (render shortest ∘ normalForm)
      fun entry hentry => ih entry hentry (h.2 entry hentry)
    have hcompose : onItem (render shortest ∘ normalForm) =
        onItem (render shortest) ∘ onItem normalForm := rfl
    have hsorted : (entries.map (onItem (render shortest ∘ normalForm))).insertionSort byKey =
        ((entries.map (onItem normalForm)).insertionSort byKey).map (onItem (render shortest)) := by
      rw [hcompose, ← List.map_map, insertionSort_onItem]
    rw [canonicalJson, hentries, normalForm, render, normalEntries_eq, renderEntries_eq, ← hsorted]
    rfl
  | undefined => exact absurd h Bool.false_ne_true

end

instance {α : Type} : Std.Total (byKey (α := α)) := ⟨fun _ _ => le_total _ _⟩

instance {α : Type} : IsTrans (JsString × α) byKey := ⟨fun _ _ _ => le_trans⟩

/-- Keys of one place in the order are equal. -/
theorem key_eq_of_byKey {α : Type} {left right : JsString × α} (h : byKey left right)
    (hback : byKey right left) : left.1 = right.1 := by
  have hunits : left.1.map BitVec.toNat = right.1.map BitVec.toNat := le_antisymm h hback
  exact List.map_injective_iff.mpr (fun _ _ => BitVec.eq_of_toNat_eq) hunits

/-- Entries with each key once have one order exactly when they are the same entries. -/
theorem insertionSort_eq_iff {α : Type} {first second : List (JsString × α)}
    (h : (first.map Prod.fst).Nodup) :
    first.insertionSort byKey = second.insertionSort byKey ↔ first.Perm second := by
  have hfirst := List.perm_insertionSort byKey first
  have hsecond := List.perm_insertionSort byKey second
  constructor
  · intro hsame
    exact hfirst.symm.trans (hsame ▸ hsecond)
  · intro hperm
    refine List.Perm.eq_of_pairwise ?_ (List.pairwise_insertionSort byKey first)
      (List.pairwise_insertionSort byKey second) (hfirst.trans (hperm.trans hsecond.symm))
    intro left right hleft hright hbefore hbehind
    exact List.inj_on_of_nodup_map h (hfirst.mem_iff.mp hleft)
      (hperm.mem_iff.mpr (hsecond.mem_iff.mp hright)) (key_eq_of_byKey hbefore hbehind)

/-- Entries with each key once are the same exactly when there are as many and all of
the first are among the second. -/
theorem perm_iff {α : Type} {first second : List (JsString × α)} (h : (first.map Prod.fst).Nodup) :
    first.Perm second ↔ first.length = second.length ∧ ∀ entry ∈ first, entry ∈ second := by
  constructor
  · intro hperm
    exact ⟨hperm.length_eq, fun entry hentry => hperm.mem_iff.mp hentry⟩
  · intro hall
    have hsub := List.subperm_of_subset (List.Nodup.of_map _ h) hall.2
    exact hsub.perm_of_length_le hall.1.ge

/-- Items are equal one by one exactly when their forms are. -/
theorem forall₂_iff_map_eq {items others : List JsValue} {form : JsValue → JsValue}
    (h : ∀ item ∈ items, ∀ other ∈ others, SameJson item other ↔ form item = form other) :
    List.Forall₂ SameJson items others ↔ items.map form = others.map form := by
  induction items generalizing others with
  | nil =>
    rw [List.forall₂_nil_left_iff, List.map_nil, eq_comm (a := []), List.map_eq_nil_iff]
  | cons item items ih =>
    cases others with
    | nil => exact iff_of_false (fun h => by cases h) (List.cons_ne_nil _ _)
    | cons other others =>
      have hitems := ih fun x hx y hy => h x (List.mem_cons_of_mem item hx) y (List.mem_cons_of_mem other hy)
      rw [List.forall₂_cons, hitems, List.map_cons, List.map_cons, List.cons.injEq,
        h item List.mem_cons_self other List.mem_cons_self]

/-- The keys of entries do not change with their items. -/
theorem keys_onItem {α β : Type} (change : α → β) (entries : List (JsString × α)) :
    (entries.map (onItem change)).map Prod.fst = entries.map Prod.fst := by
  rw [List.map_map]
  rfl

/-- JSON values are equal up to the order of keys and the sign of zero exactly when
their normal forms are equal. -/
theorem sameJson_iff {first second : JsValue} (hfirst : isJson first = true)
    (hsecond : isJson second = true) :
    SameJson first second ↔ normalForm first = normalForm second := by
  rw [isJson] at hfirst hsecond
  induction first using JsValue.induct generalizing second with
  | null =>
    cases second with
    | null => exact iff_of_true trivial rfl
    | _ => exact iff_of_false id (fun h => by cases h)
  | boolean b =>
    cases second with
    | boolean c => exact ⟨fun h => congrArg JsValue.boolean h, fun h => JsValue.boolean.inj h⟩
    | _ => exact iff_of_false id (fun h => by cases h)
  | number m =>
    cases second with
    | number n => exact ⟨fun h => congrArg JsValue.number h, fun h => JsValue.number.inj h⟩
    | _ => exact iff_of_false id (fun h => by cases h)
  | string s =>
    cases second with
    | string t => exact ⟨fun h => congrArg JsValue.string h, fun h => JsValue.string.inj h⟩
    | _ => exact iff_of_false id (fun h => by cases h)
  | array items ih =>
    cases second with
    | array others =>
      rw [every, Bool.and_eq_true, everyItem_iff] at hfirst hsecond
      have hitems := forall₂_iff_map_eq fun item hitem other hother =>
        ih item hitem (hfirst.2 item hitem) (hsecond.2 other hother)
      rw [SameJson, sameItems_iff, hitems, normalForm, normalForm, normalItems_eq, normalItems_eq,
        JsValue.array.injEq]
    | _ => exact iff_of_false id (fun h => by cases h)
  | object entries ih =>
    cases second with
    | object others =>
      rw [every, Bool.and_eq_true, everyEntry_iff] at hfirst hsecond
      have hkeys : (entries.map Prod.fst).Nodup := of_decide_eq_true hfirst.1
      have hnodup : ((entries.map (onItem normalForm)).map Prod.fst).Nodup := by
        rw [keys_onItem]
        exact hkeys
      rw [SameJson, sameEntries_iff, normalForm, normalForm, normalEntries_eq, normalEntries_eq,
        JsValue.object.injEq, insertionSort_eq_iff hnodup, perm_iff hnodup, List.length_map,
        List.length_map, List.forall_mem_map]
      refine and_congr_right fun _ => forall₂_congr fun entry hentry => ?_
      rw [List.mem_map]
      constructor
      · intro h
        obtain ⟨item, hitem, hsame⟩ := h
        have hform := (ih entry hentry (hfirst.2 entry hentry) (hsecond.2 _ hitem)).mp hsame
        exact ⟨(entry.1, item), hitem, by rw [onItem, onItem, hform]⟩
      · intro h
        obtain ⟨other, hother, hsame⟩ := h
        rw [onItem, onItem, Prod.mk.injEq] at hsame
        obtain ⟨hkey, hform⟩ := hsame
        refine ⟨other.2, hkey ▸ hother, ?_⟩
        exact (ih entry hentry (hfirst.2 entry hentry) (hsecond.2 other hother)).mpr hform.symm
    | _ => exact iff_of_false id (fun h => by cases h)
  | undefined => exact absurd hfirst Bool.false_ne_true

/-- What a normal form holds: finite numbers whose zeros have no sign. -/
def plainNode : JsValue → Bool
  | .number value => isFinite value && unsignedZero value = value
  | .undefined => false
  | _ => true

/-- The normal form of a JSON value. -/
theorem every_plainNode {value : JsValue} (h : isJson value = true) :
    every plainNode (normalForm value) = true := by
  rw [isJson] at h
  induction value using JsValue.induct with
  | null => rfl
  | boolean b => rfl
  | number n =>
    have hfinite : isFinite n = true := h
    change (isFinite (unsignedZero n) &&
      decide (unsignedZero (unsignedZero n) = unsignedZero n)) = true
    rw [Bool.and_eq_true, decide_eq_true_eq]
    by_cases hzero : isZero n = true
    · rw [unsignedZero, if_pos hzero]
      exact ⟨by decide, by decide⟩
    · have hsame : unsignedZero n = n := if_neg hzero
      rw [hsame]
      exact ⟨hfinite, hsame⟩
  | string s => rfl
  | array items ih =>
    rw [every, Bool.and_eq_true, everyItem_iff] at h
    rw [normalForm, every, Bool.and_eq_true, everyItem_iff, normalItems_eq, List.forall_mem_map]
    exact ⟨rfl, fun item hitem => ih item hitem (h.2 item hitem)⟩
  | object entries ih =>
    rw [every, Bool.and_eq_true, everyEntry_iff] at h
    rw [normalForm, every, Bool.and_eq_true, everyEntry_iff, normalEntries_eq]
    refine ⟨rfl, fun entry hentry => ?_⟩
    rw [(List.perm_insertionSort byKey _).mem_iff, List.mem_map] at hentry
    obtain ⟨original, horiginal, hsame⟩ := hentry
    rw [← hsame]
    exact ih original horiginal (h.2 original horiginal)
  | undefined => exact absurd h Bool.false_ne_true

/-- The kinds of texts, by their first code unit. -/
def kindOf (c : CodeUnit) : ℕ :=
  if c = unitOf 'n' then 0
  else if c = unitOf 't' ∨ c = unitOf 'f' then 1
  else if c = unitOf '\x22' then 3
  else if c = unitOf '[' then 4
  else if c = unitOf '\x7b' then 5
  else 2

/-- The kinds of values. -/
def kind : JsValue → ℕ
  | .null => 0
  | .boolean _ => 1
  | .number _ => 2
  | .string _ => 3
  | .array _ => 4
  | .object _ => 5
  | .undefined => 6

section

variable (shortest : JsNumber → ℕ × ℤ)

/-- A text starts with a code unit of its value's kind, which closes no array. -/
theorem render_start {value : JsValue} (h : every plainNode value = true) :
    ∃ c tail, render shortest value = c :: tail ∧ kindOf c = kind value ∧ c ≠ unitOf ']' := by
  cases value with
  | null => exact ⟨unitOf 'n', _, rfl, by decide, by decide⟩
  | boolean b =>
    cases b with
    | true => exact ⟨unitOf 't', _, rfl, by decide, by decide⟩
    | false => exact ⟨unitOf 'f', _, rfl, by decide, by decide⟩
  | number n =>
    obtain ⟨c, tail, htext, hstart⟩ := (numberToString_units shortest n).2
    refine ⟨c, tail, htext, ?_⟩
    rcases hstart with hdigit | hminus
    · have hrange := (isDigit_iff c).mp hdigit
      have hall : ∀ n < 58, 48 ≤ n → kindOf (BitVec.ofNat 16 n) = 2 ∧
          BitVec.ofNat 16 n ≠ unitOf ']' := by
        decide
      have hc := hall c.toNat (by omega) hrange.1
      rwa [BitVec.ofNat_toNat, BitVec.setWidth_eq] at hc
    · rw [hminus]
      exact ⟨(by decide : kindOf (unitOf '-') = 2), by decide⟩
  | string s => exact ⟨unitOf '\x22', _, rfl, (by decide : kindOf (unitOf '\x22') = 3), by decide⟩
  | array items => exact ⟨unitOf '[', _, rfl, (by decide : kindOf (unitOf '[') = 4), by decide⟩
  | object entries =>
    exact ⟨unitOf '\x7b', _, rfl, (by decide : kindOf (unitOf '\x7b') = 5), by decide⟩
  | undefined => exact absurd h Bool.false_ne_true

variable {shortest}

/-- Texts that start in the same way are of values of one kind. -/
theorem kind_eq {first second : JsValue} (hfirst : every plainNode first = true)
    (hsecond : every plainNode second = true) {rest other : JsString}
    (h : render shortest first ++ rest = render shortest second ++ other) :
    kind first = kind second := by
  obtain ⟨c, tail, htext, hkind, -⟩ := render_start shortest hfirst
  obtain ⟨d, more, hmore, hother, -⟩ := render_start shortest hsecond
  rw [htext, hmore] at h
  rw [← hkind, ← hother, (List.cons.inj h).1]

/-- A separator and a closing mark end a number. -/
theorem ends_cons {c : CodeUnit} (h : isNumberUnit c = false) (rest : JsString) : Ends (c :: rest) := by
  intro d tail hsame
  rw [← (List.cons.inj hsame).1]
  exact h

/-- An entry is read from the front of a text, if its item is. -/
theorem entryText_readBack {first second : JsString × JsValue}
    (h : ReadBack (render shortest) Ends first.2 second.2) :
    ReadBack (fun entry => entryText (onItem (render shortest) entry)) Ends first second := by
  intro rest other hrest hother heq
  change quoteJson first.1 ++ (unitOf ':' :: render shortest first.2) ++ rest =
    quoteJson second.1 ++ (unitOf ':' :: render shortest second.2) ++ other at heq
  rw [List.append_assoc, List.append_assoc] at heq
  obtain ⟨hkey, htail⟩ := quoteJson_readBack heq
  obtain ⟨hitem, hsame⟩ := h rest other hrest hother (List.cons.inj htail).2
  exact ⟨Prod.ext hkey hitem, hsame⟩

/-- A value is read from the front of a text that does not go on with a number. -/
theorem render_readBack
    (hnumbers : ∀ m n, isFinite m = true → isFinite n = true →
      numberToString shortest m = numberToString shortest n → unsignedZero m = unsignedZero n)
    {first second : JsValue} (hfirst : every plainNode first = true)
    (hsecond : every plainNode second = true) : ReadBack (render shortest) Ends first second := by
  induction first using JsValue.induct generalizing second with
  | null =>
    intro rest other hrest hother heq
    have hkind := kind_eq hfirst hsecond heq
    cases second with
    | null => exact ⟨rfl, List.append_cancel_left heq⟩
    | _ => simp [kind] at hkind
  | boolean b =>
    intro rest other hrest hother heq
    have hkind := kind_eq hfirst hsecond heq
    cases second with
    | boolean c =>
      have htexts : ∀ tail more, booleanText true ++ tail ≠ booleanText false ++ more := by
        intro tail more h
        exact absurd (List.cons.inj h).1 (by decide)
      cases b with
      | true =>
        cases c with
        | true => exact ⟨rfl, List.append_cancel_left heq⟩
        | false => exact absurd heq (htexts rest other)
      | false =>
        cases c with
        | true => exact absurd heq.symm (htexts other rest)
        | false => exact ⟨rfl, List.append_cancel_left heq⟩
    | _ => simp [kind] at hkind
  | number m =>
    intro rest other hrest hother heq
    have hkind := kind_eq hfirst hsecond heq
    cases second with
    | number n =>
      change (isFinite m && decide (unsignedZero m = m)) = true at hfirst
      change (isFinite n && decide (unsignedZero n = n)) = true at hsecond
      rw [Bool.and_eq_true, decide_eq_true_eq] at hfirst hsecond
      obtain ⟨htext, hsame⟩ := units_readBack (numberToString_units shortest m).1 (numberToString_units shortest n).1
        hrest hother heq
      have hnumber := hnumbers m n hfirst.1 hsecond.1 htext
      rw [hfirst.2, hsecond.2] at hnumber
      exact ⟨congrArg JsValue.number hnumber, hsame⟩
    | _ => simp [kind] at hkind
  | string s =>
    intro rest other hrest hother heq
    have hkind := kind_eq hfirst hsecond heq
    cases second with
    | string t =>
      obtain ⟨hsame, htail⟩ := quoteJson_readBack heq
      exact ⟨congrArg JsValue.string hsame, htail⟩
    | _ => simp [kind] at hkind
  | array items ih =>
    intro rest other hrest hother heq
    have hkind := kind_eq hfirst hsecond heq
    cases second with
    | array others =>
      rw [every, Bool.and_eq_true, everyItem_iff] at hfirst hsecond
      rw [render, render, renderItems_eq, renderItems_eq, arrayText, arrayText, join, join,
        intercalate_eq_sequence, intercalate_eq_sequence, List.cons_append, List.cons_append,
        List.append_assoc, List.append_assoc] at heq
      have hstart : ∀ value ∈ items ++ others,
          ∃ c tail, render shortest value = c :: tail ∧ c ≠ unitOf ']' := by
        intro value hvalue
        have hplain : every plainNode value = true :=
          (List.mem_append.mp hvalue).elim (hfirst.2 value) (hsecond.2 value)
        obtain ⟨c, tail, htext, -, hc⟩ := render_start shortest hplain
        exact ⟨c, tail, htext, hc⟩
      obtain ⟨hitems, hsame⟩ := sequence_readBack (ends_cons (by decide)) (ends_cons (by decide))
        (by decide) hstart (fun x hx y hy => ih x hx (hfirst.2 x hx) (hsecond.2 y hy))
        (List.cons.inj heq).2
      exact ⟨congrArg JsValue.array hitems, hsame⟩
    | _ => simp [kind] at hkind
  | object entries ih =>
    intro rest other hrest hother heq
    have hkind := kind_eq hfirst hsecond heq
    cases second with
    | object others =>
      rw [every, Bool.and_eq_true, everyEntry_iff] at hfirst hsecond
      rw [render, render, renderEntries_eq, renderEntries_eq, objectText, objectText, join, join,
        List.map_map, List.map_map, intercalate_eq_sequence, intercalate_eq_sequence,
        List.cons_append, List.cons_append, List.append_assoc, List.append_assoc] at heq
      have hstart : ∀ entry ∈ entries ++ others, ∃ c tail,
          (entryText ∘ onItem (render shortest)) entry = c :: tail ∧ c ≠ unitOf '\x7d' :=
        fun entry _ => ⟨unitOf '\x22', _, rfl, by decide⟩
      obtain ⟨hentries, hsame⟩ := sequence_readBack (ends_cons (by decide)) (ends_cons (by decide))
        (by decide) hstart (fun x hx y hy => entryText_readBack
          (ih x hx (hfirst.2 x hx) (hsecond.2 y hy))) (List.cons.inj heq).2
      exact ⟨congrArg JsValue.object hentries, hsame⟩
    | _ => simp [kind] at hkind
  | undefined => exact absurd hfirst Bool.false_ne_true

/-- Two JSON values have one canonical text exactly when they are equal up to the order
of keys and the sign of zero. -/
theorem canonicalJson_inj
    (hnumbers : ∀ m n, isFinite m = true → isFinite n = true →
      numberToString shortest m = numberToString shortest n → unsignedZero m = unsignedZero n)
    {first second : JsValue} (hfirst : isJson first = true) (hsecond : isJson second = true) :
    canonicalJson shortest first = canonicalJson shortest second ↔ SameJson first second := by
  have hend : Ends [] := fun c tail h => absurd h.symm (List.cons_ne_nil c tail)
  rw [canonicalJson_eq shortest hfirst, canonicalJson_eq shortest hsecond, Except.ok.injEq,
    sameJson_iff hfirst hsecond]
  constructor
  · intro h
    exact (render_readBack hnumbers (every_plainNode hfirst) (every_plainNode hsecond) [] [] hend hend
      (by rw [h])).1
  · intro h
    rw [h]

end

/-- A JSON object has each key once, and its items are JSON values. -/
theorem isJson_object (entries : List (JsString × JsValue)) : isJson (.object entries) = true ↔
    (entries.map Prod.fst).Nodup ∧ ∀ entry ∈ entries, isJson entry.2 = true := by
  rw [isJson, every, Bool.and_eq_true, everyEntry_iff, jsonNode, decide_eq_true_eq]
  rfl

/-- Equal objects have equal items under one key. -/
theorem sameJson_item {entries others : List (JsString × JsValue)} (key : JsString)
    {item other : JsValue} (h : SameJson (.object entries) (.object others))
    (hkeys : (others.map Prod.fst).Nodup) (hitem : (key, item) ∈ entries)
    (hother : (key, other) ∈ others) : SameJson item other := by
  rw [SameJson, sameEntries_iff] at h
  obtain ⟨found, hfound, hsame⟩ := h.2 (key, item) hitem
  have hentry : (key, found) = (key, other) := List.inj_on_of_nodup_map hkeys hfound hother rfl
  rw [← (Prod.mk.inj hentry).2]
  exact hsame

end EthereumSettlement.CanonicalJson
