import Mathlib.Data.List.Basic
import Mathlib.Data.List.Induction

/-! Runs of deterministic machines: a run is a list of operations, and `stateAt` names the
state before each of them. In a run of rounds, of at most `cap` picks each and at most
`limit` after the first, picks and steps are bounded. In a schedule steps may be disabled,
and an invariant may speak of the whole history. -/

set_option autoImplicit false

namespace Mahoquot.Library

variable {State Op : Type*}

/-- The state before operation number `position` of the run. -/
def stateAt (step : State → Op → State) (start : State) (ops : List Op) (position : Nat) : State :=
  (ops.take position).foldl step start

@[simp] theorem stateAt_zero (step : State → Op → State) (start : State)
    (ops : List Op) : stateAt step start ops 0 = start := rfl

variable {ops : List Op} {position : Nat} {Obs : Type*} {step : State → Op → State} {start : State}

theorem stateAt_succ {op : Op} (found : ops[position]? = some op) : stateAt step start ops (position + 1) =
      step (stateAt step start ops position) op := by
  simp [stateAt, List.take_add_one, found]

theorem stateAt_succ_of_none (absent : ops[position]? = none) :
    stateAt step start ops (position + 1) = stateAt step start ops position := by
  simp [stateAt, List.take_add_one, absent]

theorem stateAt_length (step : State → Op → State) (start : State) (ops : List Op) :
    stateAt step start ops ops.length = ops.foldl step start := by
  simp [stateAt]

/-- Induction over a stretch of a run: what holds at `first` and survives every
operation before `last` holds at `last`. -/
theorem stateAt_stretch {first last : Nat} (Holds : State → Prop) (ordered : first ≤ last)
    (initial : Holds (stateAt step start ops first)) (preserved : ∀ position op, first ≤ position → position < last →
      ops[position]? = some op → Holds (stateAt step start ops position) →
      Holds (step (stateAt step start ops position) op)) : Holds (stateAt step start ops last) := by
  induction ordered with
  | refl => exact initial
  | @step last ordered ih =>
    have before := ih fun position op lower upper =>
      preserved position op lower (Nat.lt_succ_of_lt upper)
    cases found : ops[last]? with
    | none => rwa [stateAt_succ_of_none found]
    | some op =>
      rw [stateAt_succ found]
      exact preserved last op ordered (Nat.lt_succ_self last) found before

def runCost (step : State → Op → State) (cost : State → Op → Nat) : State → List Op → Nat
  | _, [] => 0
  | state, op :: ops => cost state op + runCost step cost (step state op) ops

@[simp] theorem runCost_nil (step : State → Op → State) (cost : State → Op → Nat)
    (state : State) : runCost step cost state [] = 0 := rfl

@[simp] theorem runCost_cons (step : State → Op → State) (cost : State → Op → Nat) (state : State)
    (op : Op) (ops : List Op) : runCost step cost state (op :: ops) =
      cost state op + runCost step cost (step state op) ops := rfl

theorem runCost_append (step : State → Op → State) (cost : State → Op → Nat) (state : State)
    (first second : List Op) : runCost step cost state (first ++ second) = runCost step cost state first +
        runCost step cost (first.foldl step state) second := by
  induction first generalizing state with
  | nil => simp
  | cons op first ih => simp [ih, Nat.add_assoc]

theorem runCost_take_succ_le (step : State → Op → State) (cost : State → Op → Nat) (start : State)
    {op : Op} (found : ops[position]? = some op) : runCost step cost start (ops.take position) +
        cost (stateAt step start ops position) op ≤ runCost step cost start ops := by
  obtain ⟨inRange, rfl⟩ := List.getElem?_eq_some_iff.mp found
  conv_rhs => rw [← List.take_append_drop position ops, runCost_append, List.drop_eq_getElem_cons inRange, runCost_cons]
  simp only [stateAt]
  omega

/-- What an observer sees of each operation of a run, in the state it runs in. -/
def trace {Obs : Type*} (step : State → Op → State) (observe : State → Op → Obs) : State → List Op → List Obs
  | _, [] => []
  | state, op :: ops => observe state op :: trace step observe (step state op) ops

theorem trace_getElem? (step : State → Op → State) (observe : State → Op → Obs) (start : State)
    (ops : List Op) (position : Nat) : (trace step observe start ops)[position]? =
      ops[position]?.map (observe (stateAt step start ops position)) := by
  induction ops generalizing start position with
  | nil => simp [trace]
  | cons op ops ih =>
    cases position with
    | zero => simp [trace]
    | succ position => simpa [trace, stateAt] using ih (step start op) position

@[simp] theorem length_trace (step : State → Op → State) (observe : State → Op → Obs)
    (start : State) (ops : List Op) : (trace step observe start ops).length = ops.length := by
  induction ops generalizing start with
  | nil => rfl
  | cons op ops ih => simp [trace, ih]

/-- Simulation along a run: a relation every operation carries over to the
abstract machine holds at every position. -/
theorem stateAt_simulates {Abs : Type*} {observe : State → Op → Obs}
    {abstractStep : Abs → Obs → Abs} {abstract : Abs} (Related : State → Abs → Prop)
    (initial : Related start abstract) (simulated : ∀ position op abstractState, ops[position]? = some op →
      Related (stateAt step start ops position) abstractState → Related (step (stateAt step start ops position) op)
        (abstractStep abstractState (observe (stateAt step start ops position) op))) (position : Nat) :
    Related (stateAt step start ops position)
      (stateAt abstractStep abstract (trace step observe start ops) position) := by
  induction position with
  | zero => exact initial
  | succ position ih =>
    have observed := trace_getElem? step observe start ops position
    cases found : ops[position]? with
    | none =>
      rw [found] at observed
      rwa [stateAt_succ_of_none found, stateAt_succ_of_none observed]
    | some op =>
      rw [found] at observed
      rw [stateAt_succ found, stateAt_succ observed]
      exact simulated position op _ found ih

/-- The round a process is in and the picks it has made in it. -/
structure Progress where
  round : Nat
  used : Nat

namespace Progress
variable {limit cap round used : Nat}

def picksLeft (limit cap : Nat) (progress : Progress) : Nat :=
  (limit - progress.round) * cap + (cap - progress.used)

def stepsLeft (limit cap : Nat) (progress : Progress) : Nat :=
  progress.picksLeft limit cap + (limit - progress.round)

theorem picksLeft_start : picksLeft limit cap ⟨0, 0⟩ = (limit + 1) * cap := by
  simp [picksLeft, Nat.add_mul]

theorem stepsLeft_start : stepsLeft limit cap ⟨0, 0⟩ + 1 = (limit + 1) * (cap + 1) := by
  simp only [stepsLeft, picksLeft_start, Nat.mul_add]
  omega

theorem picksLeft_pick (free : used < cap) :
    picksLeft limit cap ⟨round, used + 1⟩ + 1 = picksLeft limit cap ⟨round, used⟩ := by
  simp only [picksLeft]
  omega

theorem picksLeft_newRound (more : round < limit) :
    picksLeft limit cap ⟨round + 1, 0⟩ ≤ picksLeft limit cap ⟨round, used⟩ := by
  have split : (limit - round) * cap = (limit - (round + 1)) * cap + cap := by
    rw [← Nat.succ_mul]
    congr 1
    omega
  simp only [picksLeft]
  omega

theorem stepsLeft_pick (free : used < cap) :
    stepsLeft limit cap ⟨round, used + 1⟩ < stepsLeft limit cap ⟨round, used⟩ := by
  have picks := @picksLeft_pick limit cap round used free
  simp only [stepsLeft]
  omega

theorem stepsLeft_newRound (more : round < limit) :
    stepsLeft limit cap ⟨round + 1, 0⟩ < stepsLeft limit cap ⟨round, used⟩ := by
  have picks := @picksLeft_newRound limit cap round used more
  simp only [stepsLeft]
  omega

end Progress


/-- A process halts once it was given more steps than it has left. -/
theorem halts_of_stepsLeft (Holds Halted : State → Prop) (left : State → Nat) (initial : Holds start)
    (stays : ∀ state op, Halted state → Halted (step state op))
    (advances : ∀ state, ∀ op ∈ ops, Holds state → ¬ Halted state →
      Holds (step state op) ∧ (Halted (step state op) ∨ left (step state op) < left state))
    (enough : left start < ops.length) : Halted (ops.foldl step start) := by
  induction ops generalizing start with
  | nil => simp at enough
  | cons op ops ih =>
    have settled : ∀ state, Halted state → Halted (ops.foldl step state) :=
      fun state halted => List.foldlRecOn ops step halted fun state halted op _ =>
        stays state op halted
    by_cases halted : Halted start
    · exact settled _ (stays start op halted)
    · obtain ⟨holds, ends | fewer⟩ := advances start op List.mem_cons_self initial halted
      · exact settled _ ends
      · refine ih holds (fun state op member => advances state op (.tail _ member)) ?_
        simp only [List.length_cons] at enough
        omega

open List
variable {State Event : Type}

/-- The state a schedule leads to, if each of its events is enabled in turn. -/
def schedule (step : State → Event → Option State) (start : State) (events : List Event) : Option State :=
  events.foldlM step start

variable {step : State → Event → Option State} {start last : State} {events : List Event}

theorem schedule_concat {event : Event} : schedule step start (events ++ [event]) = some last ↔
      ∃ state, schedule step start events = some state ∧ step state event = some last := by
  rw [schedule, foldlM_append, Option.bind_eq_bind, Option.bind_eq_some_iff]
  refine exists_congr fun state => and_congr_right fun _ => ?_
  rw [foldlM_cons, Option.bind_eq_bind, Option.bind_eq_some_iff]
  constructor
  · rintro ⟨next, enabled, stopped⟩
    cases stopped
    exact enabled
  · intro enabled
    exact ⟨last, enabled, rfl⟩

theorem schedule_append {past later : List Event} : schedule step start (past ++ later) = some last ↔
      ∃ state, schedule step start past = some state ∧ schedule step state later = some last := by
  rw [schedule, foldlM_append, Option.bind_eq_bind, Option.bind_eq_some_iff]
  rfl

/-- What holds of the empty history and survives each event of a schedule, in the state
it meets, holds after the schedule. -/
theorem schedule_invariant_within (Holds : List Event → State → Prop) (initial : Holds [] start)
    (preserved : ∀ history state event next, history ++ [event] <+: events →
      schedule step start history = some state → Holds history state →
      step state event = some next → Holds (history ++ [event]) next)
    (ran : schedule step start events = some last) : Holds events last := by
  induction events using reverseRecOn generalizing last with
  | nil =>
    cases ran
    exact initial
  | append_singleton history event ih =>
    obtain ⟨state, before, enabled⟩ := schedule_concat.mp ran
    refine preserved history state event last (prefix_refl _) before (ih ?_ before) enabled
    intro past state event next within
    exact preserved past state event next (within.trans (prefix_append _ _))

/-- What holds of the empty history and survives every enabled event holds
after every schedule. -/
theorem schedule_invariant (Holds : List Event → State → Prop) (initial : Holds [] start)
    (preserved : ∀ history state event next, Holds history state →
      step state event = some next → Holds (history ++ [event]) next)
    (ran : schedule step start events = some last) : Holds events last :=
  schedule_invariant_within Holds initial
    (fun history state event next _ _ => preserved history state event next) ran

/-- Of two places in a history, the one with fewer marked events before it,
itself marked, comes first. -/
theorem concat_isPrefix_of_countP_lt (marked : Event → Bool) {history : List Event}
    {before before' after after' : List Event} {event event' : Event}
    (here : history = before ++ event :: after) (there : history = before' ++ event' :: after')
    (fewer : before.countP marked < before'.countP marked) : before ++ [event] <+: before' := by
  have first : before ++ [event] <+: history := ⟨after, by simp [here]⟩
  have second : before' <+: history := ⟨event' :: after', there.symm⟩
  rcases prefix_or_prefix_of_prefix first second with shorter | longer
  · exact shorter
  · rcases prefix_concat_iff.mp longer with same | within
    · exact same ▸ prefix_refl _
    · have := within.sublist.countP_le (p := marked)
      omega

end Mahoquot.Library
