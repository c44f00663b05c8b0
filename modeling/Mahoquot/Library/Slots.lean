import Mathlib.Data.List.Sort

/-! Stable sorting of the selected elements of a list inside the slots they
occupy; every other element keeps its position. -/

set_option autoImplicit false

namespace Mahoquot.Library

open List
variable {α κ : Type*}

/-- Put the fillers, in order, into the slots of the selected items. -/
def fillSlots (selected : α → Bool) : List α → List α → List α
  | item :: items, filler :: fillers =>
    if selected item then filler :: fillSlots selected items fillers
    else item :: fillSlots selected items (filler :: fillers)
  | items, _ => items

/-- `before` is the non-strict order of a stable sort. -/
def sortSlots (selected : α → Bool) (before : α → α → Bool) (items : List α) : List α :=
  fillSlots selected items
    ((items.filter selected).insertionSort fun left right => before left right = true)

/-- The slots of the selected items hold the fillers, and no other item has moved. -/
structure Filled (selected : α → Bool) (items fillers result : List α) : Prop where
  fillers : result.filter selected = fillers
  rest : result.filter (!selected ·) = items.filter (!selected ·)
  slots : result.map selected = items.map selected
  others : ∀ (slot : Nat) item, items[slot]? = some item → selected item = false → result[slot]? = some item

/-- The selected items of a list sorted by a key in the slots that they have. -/
structure Rearranged [LinearOrder κ] (selected : α → Bool) (key : α → κ) (items result : List α) : Prop where
  perm : result.Perm items
  slots : result.map selected = items.map selected
  others : ∀ (slot : Nat) item, items[slot]? = some item → selected item = false → result[slot]? = some item
  sorted : (result.filter selected).Pairwise fun left right => key left ≤ key right
  stable : ∀ value, (result.filter selected).filter (key · = value) = (items.filter selected).filter (key · = value)

variable {selected : α → Bool} {items : List α}

theorem filled_fillSlots {fillers : List α} (count : fillers.length = (items.filter selected).length)
    (chosen : ∀ filler ∈ fillers, selected filler = true) :
    Filled selected items fillers (fillSlots selected items fillers) := by
  fun_induction fillSlots selected items fillers with
  | case1 item items filler fillers taken ih =>
    obtain ⟨own, later⟩ := forall_mem_cons.mp chosen
    obtain ⟨filled, rest, slots, others⟩ := ih (by simpa [taken] using count) later
    refine ⟨by simp [own, filled], by simp [own, taken, rest], by simp [own, taken, slots], fun slot other found free => ?_⟩
    cases slot with
    | zero =>
      cases found
      cases taken.symm.trans free
    | succ slot => exact others slot other found free
  | case2 item items filler fillers skipped ih =>
    obtain ⟨filled, rest, slots, others⟩ := ih (by simpa [skipped] using count) chosen
    refine ⟨by simp [skipped, filled], by simp [skipped, rest], by simp [slots], fun slot other found free => ?_⟩
    cases slot with
    | zero => exact found
    | succ slot => exact others slot other found free
  | case3 items fillers ends =>
    refine ⟨?_, rfl, rfl, fun _ _ found _ => found⟩
    cases items with
    | nil => exact (eq_nil_of_length_eq_zero count).symm
    | cons item items =>
      cases fillers with
      | nil => exact eq_nil_of_length_eq_zero count.symm
      | cons filler fillers => exact (ends item items filler fillers rfl rfl).elim

theorem fillSlots_self (items : List α) : fillSlots selected items (items.filter selected) = items := by
  induction items with
  | nil => rfl
  | cons item items ih =>
    cases taken : selected item with
    | true => simp [fillSlots, taken, ih]
    | false =>
      rw [filter_cons_of_neg (by simp [taken])]
      cases rest : items.filter selected with
      | nil => rfl
      | cons filler fillers => simp [fillSlots, taken, ← rest, ih]

variable (selected) (before : α → α → Bool) (items)

theorem filled_sortSlots : Filled selected items
    ((items.filter selected).insertionSort fun left right => before left right = true) (sortSlots selected before items) :=
  filled_fillSlots (length_insertionSort _ _) fun _ member => (mem_filter.mp ((mem_insertionSort _).mp member)).2

theorem sortSlots_perm : (sortSlots selected before items).Perm items := by
  have filled := filled_sortSlots selected items before
  have parts := (filter_append_perm selected (sortSlots selected before items)).symm
  rw [filled.fillers, filled.rest] at parts
  exact parts.trans (((perm_insertionSort _ _).append_right _).trans (filter_append_perm selected items))

variable {before}

/-- Where the order is that of a key, the slots are sorted by it, and sorting them again
changes nothing. -/
theorem sortSlots_rearranged [LinearOrder κ] {key : α → κ} (agrees : ∀ left right, before left right ↔ key left ≤ key right) :
    Rearranged selected key items (sortSlots selected before items) ∧
      sortSlots selected before (sortSlots selected before items) = sortSlots selected before items := by
  have filled := filled_sortSlots selected items before
  have total : Std.Total fun left right => before left right = true :=
    ⟨fun left right => by simpa only [agrees] using le_total (key left) (key right)⟩
  have trans : IsTrans α fun left right => before left right = true :=
    ⟨fun _ _ _ first second => (agrees _ _).mpr (((agrees _ _).mp first).trans ((agrees _ _).mp second))⟩
  have sorted : ((sortSlots selected before items).filter selected).Pairwise fun left right => before left right = true := by
    rw [filled.fillers]
    exact pairwise_insertionSort _ _
  refine ⟨⟨sortSlots_perm .., filled.slots, filled.others, sorted.imp (agrees _ _).mp, fun value => ?_⟩, ?_⟩
  · rw [filled.fillers]
    have equal : ((items.filter selected).filter (key · = value)).Pairwise fun left right => before left right = true := by
      refine pairwise_of_forall_mem_list fun left here right there => (agrees left right).mpr ?_
      rw [of_decide_eq_true (mem_filter.mp here).2, of_decide_eq_true (mem_filter.mp there).2]
    have kept := (sublist_insertionSort equal filter_sublist).filter (key · = value)
    rw [filter_filter, funext fun _ => Bool.and_self _] at kept
    exact (kept.eq_of_length ((perm_insertionSort _ _).filter _).length_eq.symm).symm
  · conv_lhs => rw [sortSlots, sorted.insertionSort_eq]
    exact fillSlots_self _

end Mahoquot.Library
