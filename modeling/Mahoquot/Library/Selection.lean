import Mathlib.Data.List.MinMax

/-! Selection from a list, by a test or by key. Iterator `min_by_key` chooses the first least
element, which is `List.argmin`; `max_by_key` chooses the last greatest one. -/

set_option autoImplicit false

namespace Mahoquot.Library

open List
variable {α β κ : Type*}

section FirstMatch

/-- The first match is changed, if there is one. -/
def updateFirst (matches? : α → Bool) (change : α → α) : List α → List α
  | [] => []
  | item :: rest => if matches? item then change item :: rest else item :: updateFirst matches? change rest

variable {matches? wanted : α → Bool} {change : α → α}

theorem find?_updateFirst_self (stays : ∀ item, matches? item = true → matches? (change item) = true)
    (items : List α) : (updateFirst matches? change items).find? matches? = (items.find? matches?).map change := by
  induction items with
  | nil => rfl
  | cons item rest ih =>
    cases here : matches? item with
    | true => simp [updateFirst, here, stays item here]
    | false => simp [updateFirst, here, ih]

/-- A first match of another kind is still found, if the change makes none before it. -/
theorem find?_updateFirst_of_ne {items : List α} {found : α}
    (keeps : ∀ item, matches? item = true → wanted item = false → wanted (change item) = false)
    (here : items.find? wanted = some found) (other : matches? found = false) :
    (updateFirst matches? change items).find? wanted = some found := by
  induction items with
  | nil => cases here
  | cons item rest ih =>
    cases want : wanted item with
    | true =>
      have same : item = found := by simpa [want] using here
      subst same
      simp [updateFirst, other, want]
    | false =>
      have later : rest.find? wanted = some found := by simpa [want] using here
      cases hit : matches? item with
      | true => simp [updateFirst, hit, keeps item hit want, later]
      | false => simp [updateFirst, hit, want, ih later]

theorem find?_filter_of_keeps {keep : α → Bool} {items : List α}
    (kept : ∀ item, wanted item = true → keep item = true) : (items.filter keep).find? wanted = items.find? wanted := by
  rw [find?_filter]
  congr
  funext item
  simpa using kept item

end FirstMatch

variable [LinearOrder κ]

theorem argmin_map (key : β → κ) (view : α → β) (items : List α) :
    (items.map view).argmin key = (items.argmin fun item => key (view item)).map view := by
  induction items using reverseRecOn with
  | nil => rfl
  | append_singleton items last ih =>
    rw [map_append, map_singleton, argmin_concat, argmin_concat, ih]
    cases items.argmin fun item => key (view item) with
    | none => rfl
    | some held =>
      simp only [Option.map_some]
      split <;> rfl

def maxByKey? (key : α → κ) (items : List α) : Option α := items.reverse.argmax key

variable {key : α → κ} {items : List α} {best item : α}

theorem maxByKey?_eq_none_iff : maxByKey? key items = none ↔ items = [] := by
  rw [maxByKey?, argmax_eq_none, reverse_eq_nil_iff]

theorem maxByKey?_mem (selected : maxByKey? key items = some best) : best ∈ items :=
  mem_reverse.mp (argmax_mem selected)

theorem le_maxByKey? (selected : maxByKey? key items = some best) (member : item ∈ items) : key item ≤ key best :=
  le_of_mem_argmax (mem_reverse.mpr member) selected

end Mahoquot.Library
