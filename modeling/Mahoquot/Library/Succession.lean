import Mahoquot.Library.Runs

/-! An object that is replaced by a copy of itself while it is in use. A replacement is
built fresh, takes over the cells of the current object one by one and is then published;
whoever picked an object before keeps writing to that one. -/

set_option autoImplicit false

namespace Mahoquot.Library

/-- An object with cells: a write touches one cell, and one cell of an object
can be copied into another object. -/
structure Replaceable (Object Cell Write : Type*) where
  fresh : Object
  write : Object → Write → Object
  cell : Write → Cell
  /-- Copy a cell of the first object into the second. -/
  copy : Cell → Object → Object → Object
  /-- The cells a replacement takes over, in this order. -/
  cells : List Cell

/-- A replacement under construction and the cells it has yet to take over. -/
structure Successor (Object Cell : Type*) where
  target : Object
  remaining : List Cell

/-- The objects published before the current one, and which of all these each
holder has picked. -/
structure Succession (Object Cell : Type*) where
  earlier : List Object
  current : Object
  successor : Option (Successor Object Cell)
  holds : Nat → Nat

inductive SuccessionEvent (Write : Type*) where
  | pick (holder : Nat)
  | build
  | copy
  | publish
  | record (holder : Nat) (write : Write)

variable {Object Cell Write : Type*}

def SuccessionEvent.write? : SuccessionEvent Write → Option Write
  | .record _ write => some write
  | _ => none

def Succession.start (object : Object) : Succession Object Cell :=
  ⟨[], object, none, fun _ => 0⟩

namespace Replaceable
variable (kind : Replaceable Object Cell Write)

/-- One event. Only one replacement is under construction at a time, and it is
published when it has taken over every cell. -/
def step (state : Succession Object Cell) : SuccessionEvent Write → Succession Object Cell
  | .pick holder => { state with holds := Function.update state.holds holder state.earlier.length }
  | .build =>
    match state.successor with
    | none => { state with successor := some ⟨kind.fresh, kind.cells⟩ }
    | some _ => state
  | .copy =>
    match state.successor with
    | some ⟨target, cell :: remaining⟩ =>
      { state with successor := some ⟨kind.copy cell state.current target, remaining⟩ }
    | _ => state
  | .publish =>
    match state.successor with
    | some ⟨target, []⟩ =>
      { state with
        earlier := state.earlier ++ [state.current]
        current := target
        successor := none }
    | _ => state
  | .record holder write =>
    if state.holds holder = state.earlier.length then
      { state with current := kind.write state.current write }
    else
      { state with
        earlier := state.earlier.modify (state.holds holder) fun object =>
          kind.write object write }

def before (start : Object) (events : List (SuccessionEvent Write)) (position : Nat) : Succession Object Cell :=
  stateAt kind.step (.start start) events position

/-- The object that every recorded write reaches, replacements or not. -/
def ledger (start : Object) (events : List (SuccessionEvent Write)) : Object :=
  (events.filterMap SuccessionEvent.write?).foldl kind.write start

theorem ledger_take_succ {start : Object} {events : List (SuccessionEvent Write)} {position : Nat}
    {event : SuccessionEvent Write} (found : events[position]? = some event) :
    kind.ledger start (events.take (position + 1)) =
      event.write?.toList.foldl kind.write (kind.ledger start (events.take position)) := by
  simp only [ledger, List.take_add_one, found]
  cases written : event.write? <;> simp [written]

end Replaceable

/-- What it means, cell by cell, that one object knows at least what another
does. Writes are monotone in it. Validity holds of the objects in use, and a
prepared target is one that copying a cell brings up to the source. -/
structure Coverage (kind : Replaceable Object Cell Write) where
  Covers : Cell → Object → Object → Prop
  Valid : Object → Prop
  Prepared : Object → Prop
  refl : ∀ cell object, Covers cell object object
  trans : ∀ {cell first second third}, Covers cell first second → Covers cell second third →
    Covers cell first third
  write_mono : ∀ {cell first second} write, Covers cell first second →
    Covers cell (kind.write first write) (kind.write second write)
  write_frame : ∀ {cell write} object, cell ≠ kind.cell write →
    Covers cell object (kind.write object write)
  copy_covers : ∀ {cell source target}, Valid source → Prepared target →
    Covers cell (kind.copy cell source target) source
  copy_frame : ∀ {cell other source target object}, other ≠ cell → Covers other target object →
    Covers other (kind.copy cell source target) object
  fresh_valid : Valid kind.fresh
  fresh_prepared : Prepared kind.fresh
  write_valid : ∀ {object} write, Valid object → Valid (kind.write object write)
  copy_valid : ∀ {cell source target}, Valid source → Valid target →
    Valid (kind.copy cell source target)
  copy_prepared : ∀ {cell source target}, Valid source → Prepared target →
    Prepared (kind.copy cell source target)

namespace Coverage
variable {kind : Replaceable Object Cell Write} (coverage : Coverage kind)

/-- The object holds what the write would put into its cell. -/
def Knows (object : Object) (write : Write) : Prop :=
  coverage.Covers (kind.cell write) object (kind.write object write)

/-- The write reaches the current object or is known to it, and the replacement
under construction has yet to copy the cell or knows the write as well. -/
structure Reaches (state : Succession Object Cell) (holder : Nat) (write : Write) : Prop where
  current : state.holds holder = state.earlier.length ∨ coverage.Knows state.current write
  successor : ∀ successor, state.successor = some successor →
    kind.cell write ∈ successor.remaining ∨ coverage.Knows successor.target write

/-- The current object knows all that was written, and so does a replacement
in the cells it has taken over. -/
structure Informed (state : Succession Object Cell) (ledger : Object) : Prop where
  valid : coverage.Valid state.current
  current : ∀ cell ∈ kind.cells, coverage.Covers cell state.current ledger
  successor : ∀ successor, state.successor = some successor →
    coverage.Valid successor.target ∧ coverage.Prepared successor.target ∧
      ∀ cell ∈ kind.cells, cell ∉ successor.remaining →
        coverage.Covers cell successor.target ledger

variable {coverage}

/-- An object that covers the ledger still does so after a write it knows. -/
theorem Knows.covers {object ledger : Object} {write : Write} {cell : Cell}
    (knows : cell = kind.cell write → coverage.Knows object write) (covers : coverage.Covers cell object ledger) :
    coverage.Covers cell object (kind.write ledger write) := by
  by_cases same : cell = kind.cell write
  · subst same
    exact coverage.trans (knows rfl) (coverage.write_mono write covers)
  · exact coverage.trans covers (coverage.write_frame ledger same)

variable {state : Succession Object Cell} {ledger : Object}

theorem Informed.record {holder : Nat} {write : Write} (informed : coverage.Informed state ledger)
    (reaches : coverage.Reaches state holder write) :
    coverage.Informed (kind.step state (.record holder write)) (kind.write ledger write) := by
  have successor : ∀ successor, state.successor = some successor →
      coverage.Valid successor.target ∧ coverage.Prepared successor.target ∧
        ∀ cell ∈ kind.cells, cell ∉ successor.remaining →
          coverage.Covers cell successor.target (kind.write ledger write) := by
    intro successor found
    obtain ⟨valid, prepared, covers⟩ := informed.successor successor found
    refine ⟨valid, prepared, fun cell copied absent => ?_⟩
    refine Knows.covers (fun same => ?_) (covers cell copied absent)
    subst same
    exact (reaches.successor successor found).resolve_left absent
  simp only [Replaceable.step]
  split
  next holds =>
    exact ⟨coverage.write_valid write informed.valid, fun cell copied =>
      coverage.write_mono write (informed.current cell copied), successor⟩
  next stale =>
    exact ⟨informed.valid, fun cell copied => Knows.covers
      (fun _ => reaches.current.resolve_left stale) (informed.current cell copied), successor⟩

theorem Informed.copy (informed : coverage.Informed state ledger) :
    coverage.Informed (kind.step state .copy) ledger := by
  simp only [Replaceable.step]
  split
  next target cell remaining found =>
    obtain ⟨valid, prepared, covers⟩ := informed.successor _ found
    refine ⟨informed.valid, informed.current, fun successor same => ?_⟩
    cases same
    refine ⟨coverage.copy_valid informed.valid valid,
      coverage.copy_prepared informed.valid prepared, fun other copied absent => ?_⟩
    by_cases same : other = cell
    · subst same
      exact coverage.trans (coverage.copy_covers informed.valid prepared) (informed.current other copied)
    · exact coverage.copy_frame same (covers other copied (by simp [same, absent]))
  next => exact informed

theorem Informed.publish (informed : coverage.Informed state ledger) :
    coverage.Informed (kind.step state .publish) ledger := by
  simp only [Replaceable.step]
  split
  next target found =>
    obtain ⟨valid, _, covers⟩ := informed.successor _ found
    exact ⟨valid, fun cell copied => covers cell copied (by simp), fun successor absent => by
      cases absent⟩
  next => exact informed

theorem Informed.build (informed : coverage.Informed state ledger) :
    coverage.Informed (kind.step state .build) ledger := by
  simp only [Replaceable.step]
  split
  next =>
    refine ⟨informed.valid, informed.current, fun successor same => ?_⟩
    cases same
    exact ⟨coverage.fresh_valid, coverage.fresh_prepared, fun cell copied absent =>
      absurd copied absent⟩
  next => exact informed

theorem Informed.step {event : SuccessionEvent Write} (informed : coverage.Informed state ledger)
    (reaches : ∀ holder write, event = .record holder write → coverage.Reaches state holder write) :
    coverage.Informed (kind.step state event) (event.write?.toList.foldl kind.write ledger) := by
  cases event with
  | pick holder => exact ⟨informed.valid, informed.current, informed.successor⟩
  | build => exact informed.build
  | copy => exact informed.copy
  | publish => exact informed.publish
  | record holder write => exact informed.record (reaches holder write rfl)

/-- While every write reaches the current object, whatever is published in the
course of a run knows all writes of the run. -/
theorem informed_before {start : Object} (valid : coverage.Valid start) {events : List (SuccessionEvent Write)}
    (reaches : ∀ (position holder : Nat) (write : Write), events[position]? = some (.record holder write) →
        coverage.Reaches (kind.before start events position) holder write) (position : Nat) :
    coverage.Informed (kind.before start events position) (kind.ledger start (events.take position)) := by
  induction position with
  | zero => exact ⟨valid, fun cell _ => coverage.refl cell start, fun _ absent => by cases absent⟩
  | succ position ih =>
    cases found : events[position]? with
    | none =>
      rw [Replaceable.before, stateAt_succ_of_none found, List.take_add_one, found, Option.toList_none, List.append_nil]
      exact ih
    | some event =>
      rw [Replaceable.before, stateAt_succ found, kind.ledger_take_succ found]
      refine ih.step fun holder write same => ?_
      exact reaches position holder write (by rw [found, same])

end Coverage
end Mahoquot.Library
