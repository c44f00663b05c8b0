import Mahoquot.Library.Runs

/-! A latch with two thresholds and a minimum hold: a reading at or below `enter` trips it,
one above `recover` releases it once it was held for `hold`. -/

set_option autoImplicit false

namespace Mahoquot.Library

structure Latch where
  enter : Nat
  recover : Nat
  hold : Int
  ordered : enter ≤ recover

/-- A level, unless it is unknown, and the time of the reading. -/
structure Reading where
  level : Option Nat
  time : Int
deriving Repr, DecidableEq

namespace Latch
variable {latch : Latch}

/-- Since when the latch is tripped, after a reading. -/
def next (latch : Latch) (since : Option Int) (reading : Reading) : Option Int :=
  match reading.level with
  | none => since
  | some level =>
    if level ≤ latch.enter then some (since.getD reading.time)
    else if latch.recover < level then
      if since.all fun start => decide (latch.hold ≤ reading.time - start) then none else since
    else since

/-- The reading releases a latch that is tripped since `start`. -/
def Releases (latch : Latch) (start : Int) (reading : Reading) : Prop :=
  ∃ level, reading.level = some level ∧ latch.recover < level ∧
    latch.hold ≤ reading.time - start

variable {since : Option Int} {level : Nat} {reading : Reading}

theorem next_of_low (read : reading.level = some level)
    (low : level ≤ latch.enter) : latch.next since reading = some (since.getD reading.time) := by
  simp [next, read, low]

theorem next_of_middle (read : reading.level = some level) (above : ¬ level ≤ latch.enter)
    (below : ¬ latch.recover < level) : latch.next since reading = since := by
  simp [next, read, above, below]

theorem next_of_high (read : reading.level = some level) (high : latch.recover < level) :
    latch.next since reading = if since.all fun start => decide (latch.hold ≤ reading.time - start) then none
      else since := by
  have ordered := latch.ordered
  have above : ¬ level ≤ latch.enter := by omega
  simp [next, read, above, high]

theorem next_of_not_releases {start : Int}
    (held : ¬ latch.Releases start reading) : latch.next (some start) reading = some start := by
  cases read : reading.level with
  | none => simp [next, read]
  | some level =>
    by_cases high : latch.recover < level
    · have short : ¬ latch.hold ≤ reading.time - start := fun long =>
        held ⟨level, read, high, long⟩
      simp [next_of_high read high, short]
    · by_cases low : level ≤ latch.enter
      · rw [next_of_low read low, Option.getD_some]
      · exact next_of_middle read low high

/-- What a tripped latch still lets through is released by the same reading. -/
theorem next_eq_none_of_admitted (read : reading.level = some level)
    (admitted : ∀ start, latch.next since reading = some start →
      latch.recover < level ∧ latch.hold ≤ reading.time - start) : latch.next since reading = none := by
  cases tripped : latch.next since reading with
  | none => rfl
  | some start =>
    obtain ⟨high, long⟩ := admitted start tripped
    rw [next_of_high read high] at tripped
    split at tripped
    · cases tripped
    · rename_i short
      simp [tripped, long] at short

/-- One event of a run: a reading, or something the latch does not see. -/
def step (latch : Latch) (since : Option Int) : Option Reading → Option Int
  | none => since
  | some reading => latch.next since reading

/-- Once tripped, the latch stays so until a reading releases it. -/
theorem released_between {start : Option Int} {events : List (Option Reading)} {first last : Nat}
    {since : Int} (ordered : first ≤ last) (tripped : stateAt latch.step start events first = some since)
    (released : stateAt latch.step start events last = none) : ∃ position reading, first ≤ position ∧ position < last ∧
      events[position]? = some (some reading) ∧ latch.Releases since reading := by
  by_contra unreleased
  have still := stateAt_stretch (fun state => state = some since) ordered tripped <| by
    intro position event lower upper found held
    rw [held]
    cases event with
    | none => rfl
    | some reading =>
      refine next_of_not_releases fun releases => ?_
      exact unreleased ⟨position, reading, lower, upper, found, releases⟩
  rw [released] at still
  cases still

end Latch
end Mahoquot.Library
