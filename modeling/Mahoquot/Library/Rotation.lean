import Mathlib.Data.List.Perm.Subperm
import Mathlib.Data.List.Nodup
import Mahoquot.Library.Runs

/-! Least-recently-served bookkeeping over an arbitrary set of items: a clock,
and for each item the clock value of its latest service. -/

set_option autoImplicit false

namespace Mahoquot.Library

open List

/-- Service stamps that never run ahead of the clock. -/
structure Rotation (α : Type*) where
  stamp : α → Nat
  clock : Nat
  bounded : ∀ item, stamp item ≤ clock

/-- What one operation does to the bookkeeping. `skip` advances the clock
without stamping anybody. -/
inductive ServiceEvent (α : Type*) where
  | idle
  | skip
  | serve (item : α)
deriving DecidableEq

namespace Rotation
variable {α : Type*} [DecidableEq α]

def tick (rotation : Rotation α) : Rotation α where
  stamp := rotation.stamp
  clock := rotation.clock + 1
  bounded item := Nat.le_succ_of_le (rotation.bounded item)

def serve (rotation : Rotation α) (served : α) : Rotation α where
  stamp item := if item = served then rotation.clock + 1 else rotation.stamp item
  clock := rotation.clock + 1
  bounded item := by
    have bounded := rotation.bounded item
    split <;> omega

def apply (rotation : Rotation α) : ServiceEvent α → Rotation α
  | .idle => rotation
  | .skip => rotation.tick
  | .serve item => rotation.serve item

@[simp] theorem serve_stamp_self (rotation : Rotation α) (item : α) :
    (rotation.serve item).stamp item = rotation.clock + 1 := by
  simp [serve]

theorem serve_stamp_of_ne (rotation : Rotation α) {item served : α} (distinct : item ≠ served) :
    (rotation.serve served).stamp item = rotation.stamp item := by
  simp [serve, distinct]

theorem stamp_le_apply (rotation : Rotation α) (event : ServiceEvent α) (item : α) :
    rotation.stamp item ≤ (rotation.apply event).stamp item := by
  have bounded := rotation.bounded item
  cases event with
  | idle | skip => exact Nat.le_refl _
  | serve served =>
    simp only [apply, serve]
    split <;> omega

theorem apply_stamp_of_ne (rotation : Rotation α) {event : ServiceEvent α} {item : α}
    (other : event ≠ .serve item) : (rotation.apply event).stamp item = rotation.stamp item := by
  cases event with
  | idle | skip => rfl
  | serve served => exact rotation.serve_stamp_of_ne fun same => other (same ▸ rfl)

/-- Bounded overtaking. Once `chosen` has been served, it is not behind
`waiting` again before `waiting` has been served too. -/
theorem served_between {start : Rotation α} {events : List (ServiceEvent α)} {first last : Nat}
    {chosen waiting : α} (ordered : first < last) (distinct : chosen ≠ waiting)
    (served : events[first]? = some (.serve chosen)) (behind : (stateAt apply start events last).stamp chosen ≤
    (stateAt apply start events last).stamp waiting) : ∃ position, first < position ∧ position < last ∧
      events[position]? = some (.serve waiting) := by
  by_contra unserved
  push Not at unserved
  -- Until `waiting` is served its stamp stands still below the one `chosen` got.
  have ahead : (stateAt apply start events last).stamp waiting <
      (stateAt apply start events last).stamp chosen := by
    refine stateAt_stretch (fun rotation : Rotation α =>
      rotation.stamp waiting < rotation.stamp chosen) ordered ?_ ?_
    · rw [stateAt_succ served]
      have bounded := (stateAt apply start events first).bounded waiting
      simp only [apply, serve_stamp_self, serve_stamp_of_ne _ distinct.symm]
      omega
    · intro position event lower upper found before
      have other : event ≠ .serve waiting := fun same =>
        unserved position lower upper (same ▸ found)
      rw [apply_stamp_of_ne _ other]
      exact Nat.lt_of_lt_of_le before (stamp_le_apply _ _ _)
  omega

/-- A round of services, each of an item with the least stamp among `items`. -/
inductive LeastPicks (items : List α) : Rotation α → List α → Prop where
  | nil {rotation} : LeastPicks items rotation []
  | cons {rotation pick picks} :
      pick ∈ items → (∀ item ∈ items, rotation.stamp pick ≤ rotation.stamp item) →
      LeastPicks items (rotation.serve pick) picks →
      LeastPicks items rotation (pick :: picks)

private theorem stale_length_serve {items : List α} (distinct : items.Nodup) (rotation : Rotation α)
    (pick : α) (base : Nat) : (items.filter fun item => rotation.stamp item ≤ base).length ≤
      (items.filter fun item => (rotation.serve pick).stamp item ≤ base).length + 1 := by
  have nodup : (items.filter fun item => rotation.stamp item ≤ base).Nodup := distinct.filter _
  have kept : ((items.filter fun item => rotation.stamp item ≤ base).erase pick).length ≤
      (items.filter fun item => (rotation.serve pick).stamp item ≤ base).length := by
    rw [nodup.erase_eq_filter, filter_filter]
    refine (monotone_filter_right items ?_).length_le
    intro item held
    simp only [bne_iff_ne, Bool.and_eq_true] at held ⊢
    rw [serve_stamp_of_ne _ held.1]
    exact held.2
  have := le_length_erase (a := pick) (l := items.filter fun item => rotation.stamp item ≤ base)
  omega

variable {items picks : List α} {rotation : Rotation α}

/-- While items stamped at most `base` are left, the picks are among them and
never repeat. -/
theorem LeastPicks.nodup_of_stale (round : LeastPicks items rotation picks) (distinct : items.Nodup)
    {base : Nat} (past : base ≤ rotation.clock) (enough : picks.length ≤
    (items.filter fun item => rotation.stamp item ≤ base).length) :
    picks.Nodup ∧ ∀ pick ∈ picks, rotation.stamp pick ≤ base := by
  induction round with
  | nil => simp
  | @cons rotation pick picks member least _ ih =>
    obtain ⟨item, found⟩ := exists_mem_of_length_pos (Nat.lt_of_lt_of_le (by simp) enough)
    obtain ⟨itemMember, itemStale⟩ := mem_filter.mp found
    have pickStale : rotation.stamp pick ≤ base := Nat.le_trans (least item itemMember) (by simpa using itemStale)
    have lengths := stale_length_serve distinct rotation pick base
    obtain ⟨nodup, stale⟩ := ih (Nat.le_succ_of_le past) (by simp only [length_cons] at enough; omega)
    have fresh : ∀ other ∈ picks, other ≠ pick := by
      rintro other otherMember rfl
      have := stale other otherMember
      rw [serve_stamp_self] at this
      omega
    refine ⟨nodup_cons.mpr ⟨fun repeated => fresh pick repeated rfl, nodup⟩, forall_mem_cons.mpr ⟨pickStale, ?_⟩⟩
    intro other member
    rw [← rotation.serve_stamp_of_ne (fresh other member)]
    exact stale other member

theorem LeastPicks.subset (round : LeastPicks items rotation picks) : picks ⊆ items := by
  induction round with
  | nil => simp
  | cons member _ _ ih => exact cons_subset.mpr ⟨member, ih⟩

theorem LeastPicks.perm (round : LeastPicks items rotation picks) (distinct : items.Nodup)
    (full : picks.length = items.length) : picks.Perm items := by
  have stale : (items.filter fun item => rotation.stamp item ≤ rotation.clock) = items :=
    filter_eq_self.mpr fun item _ => by simpa using rotation.bounded item
  have nodup := (round.nodup_of_stale distinct (Nat.le_refl rotation.clock) (by simp [stale, full])).1
  exact (subperm_of_subset nodup round.subset).perm_of_length_le (by omega)

end Rotation
end Mahoquot.Library
