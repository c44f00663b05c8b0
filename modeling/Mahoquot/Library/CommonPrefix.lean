import Mathlib.Data.List.Infix

/-! Common prefixes of two lists, and lists that are prefix-comparable. -/

set_option autoImplicit false

namespace Mahoquot.Library

/-- One list continues the other. -/
def Comparable {α : Type*} (left right : List α) : Prop := left <+: right ∨ right <+: left

instance {α : Type*} [DecidableEq α] (left right : List α) : Decidable (Comparable left right) :=
  inferInstanceAs (Decidable (_ ∨ _))

theorem Comparable.refl {α : Type*} (list : List α) : Comparable list list :=
  .inl (List.prefix_refl _)

theorem Comparable.symm {α : Type*} {left right : List α}
    (comparable : Comparable left right) : Comparable right left :=
  Or.symm comparable

theorem comparable_of_prefix_of_prefix {α : Type*} {left right whole : List α}
    (first : left <+: whole) (second : right <+: whole) : Comparable left right :=
  List.prefix_or_prefix_of_prefix first second

variable {α : Type*} [DecidableEq α]

def commonPrefixLength (left right : List α) : Nat :=
  ((left.zip right).takeWhile fun pair => pair.1 == pair.2).length

theorem commonPrefixLength_cons (head other : α) (left right : List α) :
    commonPrefixLength (head :: left) (other :: right) =
      if head = other then commonPrefixLength left right + 1 else 0 := by
  by_cases same : head = other <;> simp [commonPrefixLength, same]

variable {left right : List α}

/-- A length is common exactly when both lists are that long and agree so far. -/
theorem le_commonPrefixLength_iff {length : Nat} : length ≤ commonPrefixLength left right ↔
      length ≤ left.length ∧ length ≤ right.length ∧ left.take length = right.take length := by
  induction left generalizing right length with
  | nil => cases length <;> simp [commonPrefixLength]
  | cons head left ih =>
    cases right with
    | nil => cases length <;> simp [commonPrefixLength]
    | cons other right =>
      rw [commonPrefixLength_cons]
      cases length with
      | zero => simp
      | succ length =>
        by_cases same : head = other
        · simp [same, ih]
        · simp [same]

theorem commonPrefixLength_le_left (left right : List α) : commonPrefixLength left right ≤ left.length :=
  (le_commonPrefixLength_iff.mp (Nat.le_refl _)).1

theorem commonPrefixLength_le_right (left right : List α) : commonPrefixLength left right ≤ right.length :=
  (le_commonPrefixLength_iff.mp (Nat.le_refl _)).2.1

theorem take_commonPrefixLength (left right : List α) : left.take (commonPrefixLength left right) =
      right.take (commonPrefixLength left right) :=
  (le_commonPrefixLength_iff.mp (Nat.le_refl _)).2.2

theorem length_le_commonPrefixLength {shared : List α} (inLeft : shared <+: left)
    (inRight : shared <+: right) : shared.length ≤ commonPrefixLength left right := by
  rw [le_commonPrefixLength_iff]
  refine ⟨inLeft.length_le, inRight.length_le, ?_⟩
  rw [← List.prefix_iff_eq_take.mp inLeft, ← List.prefix_iff_eq_take.mp inRight]

theorem prefix_of_commonPrefixLength_eq (whole : commonPrefixLength left right = left.length) : left <+: right := by
  have agree := take_commonPrefixLength left right
  rw [whole, List.take_length] at agree
  exact agree ▸ List.take_prefix _ _

theorem prefix_of_commonPrefixLength_eq_right
    (whole : commonPrefixLength left right = right.length) : right <+: left := by
  have agree := take_commonPrefixLength left right
  rw [whole, List.take_length] at agree
  exact agree ▸ List.take_prefix _ _

end Mahoquot.Library
