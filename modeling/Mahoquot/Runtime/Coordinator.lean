import Mathlib.Logic.Function.Basic
import Mahoquot.Library.Runs

/-! The coordinator of refreshes. Calls of `coordinate` take a request number before they
queue for the lock; the holder refreshes for all requests it reads, or returns when its own
is covered. Calls of `exclusive` share the lock only. Every atomic access is an event. -/

set_option autoImplicit false

namespace Mahoquot.Runtime
open Library

abbrev CallId := Nat

/-- Where a call stands; `myReq` and `target` are its local variables. -/
inductive Phase where
  | outside
  | waiting (myReq : Nat)
  | locked (myReq : Nat)
  | leading (myReq : Nat)
  | aimed (myReq target : Nat)
  | running (myReq target : Nat)
  | succeeded (myReq target newGen : Nat)
  /-- The result is decided and the lock still held. -/
  | leaving (result : Option Nat)
  | returned (result : Option Nat)
  | queued
  | admitted
  | busy
  | releasing (result : Option Nat)
  | released (result : Option Nat)
deriving Repr, DecidableEq

def Phase.holdsLock : Phase → Bool
  | .locked _ | .leading _ | .aimed _ _ | .running _ _ | .succeeded _ _ _ | .leaving _ => true
  | .admitted | .busy | .releasing _ => true
  | _ => false

def Phase.acts : Phase → Bool
  | .running _ _ | .busy => true
  | _ => false

inductive Event where
  | enter (call : CallId)
  | enterExclusive (call : CallId)
  | lock (call : CallId)
  | loadCompleted (call : CallId)
  | loadTarget (call : CallId)
  | start (call : CallId)
  /-- The action's value; none where it fails or panics. -/
  | finish (call : CallId) (outcome : Option Nat)
  | store (call : CallId)
  | leave (call : CallId)
deriving Repr, DecidableEq

structure RefreshCoordinator where
  requestSeq : Nat
  completedSeq : Nat
  holder : Option CallId
  calls : CallId → Phase

namespace RefreshCoordinator

def default : RefreshCoordinator := ⟨0, 0, none, fun _ => .outside⟩

def setPhase (state : RefreshCoordinator) (call : CallId) (phase : Phase) : RefreshCoordinator :=
  { state with calls := Function.update state.calls call phase }

def step (state : RefreshCoordinator) : Event → Option RefreshCoordinator
  | .enter call =>
    match state.calls call with
    | .outside => some { state.setPhase call (.waiting (state.requestSeq + 1)) with
        requestSeq := state.requestSeq + 1 }
    | _ => none
  | .enterExclusive call =>
    match state.calls call with
    | .outside => some (state.setPhase call .queued)
    | _ => none
  | .lock call =>
    if state.holder = none then
      match state.calls call with
      | .waiting myReq => some { state.setPhase call (.locked myReq) with holder := some call }
      | .queued => some { state.setPhase call .admitted with holder := some call }
      | _ => none
    else none
  | .loadCompleted call =>
    match state.calls call with
    | .locked myReq => some (state.setPhase call
        (if myReq ≤ state.completedSeq then .leaving (some state.completedSeq)
          else .leading myReq))
    | _ => none
  | .loadTarget call =>
    match state.calls call with
    | .leading myReq => some (state.setPhase call (.aimed myReq state.requestSeq))
    | _ => none
  | .start call =>
    match state.calls call with
    | .aimed myReq target => some (state.setPhase call (.running myReq target))
    | .admitted => some (state.setPhase call .busy)
    | _ => none
  | .finish call outcome =>
    match state.calls call with
    | .running myReq target => some (state.setPhase call
        (match outcome with
          | some newGen => .succeeded myReq target newGen
          | none => .leaving none))
    | .busy => some (state.setPhase call (.releasing outcome))
    | _ => none
  | .store call =>
    match state.calls call with
    | .succeeded _ target newGen => some
        { state.setPhase call (.leaving (some newGen)) with completedSeq := target }
    | _ => none
  | .leave call =>
    match state.calls call with
    | .leaving result => some { state.setPhase call (.returned result) with holder := none }
    | .releasing result => some { state.setPhase call (.released result) with holder := none }
    | _ => none

def after (events : List Event) : Option RefreshCoordinator := schedule step default events

end RefreshCoordinator

open Function List
namespace Event

def isEnter : Event → Bool
  | enter _ => true
  | _ => false

end Event

variable (history : List Event)

def entries : Nat := history.countP Event.isEnter

@[simp]
theorem entries_append (first second : List Event) : entries (first ++ second) = entries first + entries second :=
  countP_append

def NumberedAt (call : CallId) (myReq : Nat) : Prop :=
  ∃ before after, history = before ++ .enter call :: after ∧ entries before + 1 = myReq

/-- The call's action began when `target` calls had entered. -/
def StartedAt (call : CallId) (target : Nat) : Prop :=
  ∃ before after, history = before ++ .start call :: after ∧ target ≤ entries before

/-- And it has succeeded since. -/
def SucceededAt (call : CallId) (target : Nat) : Prop :=
  ∃ before during newGen after,
    history = before ++ .start call :: (during ++ .finish call (some newGen) :: after) ∧
      target ≤ entries before

def CoveredBy (call leader : CallId) : Prop :=
  ∃ newGen, [.enter call, .start leader, .finish leader (some newGen)].Sublist history

section Growth
variable {history} {call leader : CallId} {myReq target : Nat} {event : Event}

theorem NumberedAt.grow (numbered : NumberedAt history call myReq) : NumberedAt (history ++ [event]) call myReq := by
  obtain ⟨before, after, rfl, number⟩ := numbered
  exact ⟨before, after ++ [event], by simp, number⟩

theorem NumberedAt.le_entries (numbered : NumberedAt history call myReq) : myReq ≤ entries history := by
  obtain ⟨before, after, rfl, number⟩ := numbered
  have entered : entries (.enter call :: after) = entries after + 1 := countP_cons_of_pos rfl
  rw [entries_append]
  omega

theorem StartedAt.grow (started : StartedAt history call target) : StartedAt (history ++ [event]) call target := by
  obtain ⟨before, after, rfl, seen⟩ := started
  exact ⟨before, after ++ [event], by simp, seen⟩

theorem SucceededAt.grow (succeeded : SucceededAt history call target) :
    SucceededAt (history ++ [event]) call target := by
  obtain ⟨before, during, newGen, after, rfl, seen⟩ := succeeded
  exact ⟨before, during, newGen, after ++ [event], by simp, seen⟩

theorem CoveredBy.grow (covered : CoveredBy history call leader) : CoveredBy (history ++ [event]) call leader := by
  obtain ⟨newGen, sublist⟩ := covered
  exact ⟨newGen, sublist.trans (sublist_append_left history [event])⟩

theorem numberedAt_enter : NumberedAt (history ++ [.enter call]) call (entries history + 1) :=
  ⟨history, [], rfl, rfl⟩

theorem startedAt_start (seen : target ≤ entries history) : StartedAt (history ++ [.start call]) call target :=
  ⟨history, [], rfl, seen⟩

theorem StartedAt.succeeds (started : StartedAt history call target) (newGen : Nat) :
    SucceededAt (history ++ [.finish call (some newGen)]) call target := by
  obtain ⟨before, during, rfl, seen⟩ := started
  exact ⟨before, during, newGen, [], by simp, seen⟩

/-- A refresh covers the requests up to its target: they were numbered before
it began. -/
theorem SucceededAt.covers (succeeded : SucceededAt history leader target)
    (numbered : NumberedAt history call myReq) (within : myReq ≤ target) : CoveredBy history call leader := by
  obtain ⟨before, during, newGen, after, whole, seen⟩ := succeeded
  obtain ⟨earlier, later, entry, number⟩ := numbered
  have first : earlier ++ [.enter call] <+: before :=
    concat_isPrefix_of_countP_lt Event.isEnter entry whole
      (by simp only [entries] at *; omega)
  have entered : [.enter call].Sublist before := (sublist_append_right earlier [.enter call]).trans first.sublist
  refine ⟨newGen, ?_⟩
  rw [whole]
  exact entered.append (.cons_cons _ (singleton_sublist.mpr (by simp)))

theorem SucceededAt.sublist (succeeded : SucceededAt history call target) :
    ∃ newGen, [.start call, .finish call (some newGen)].Sublist history := by
  obtain ⟨before, during, newGen, after, rfl, -⟩ := succeeded
  refine ⟨newGen, sublist_append_of_sublist_right ?_⟩
  exact .cons_cons _ (singleton_sublist.mpr (by simp))

end Growth

/-- What the history says of a call in this phase. -/
def Phase.Sound (call : CallId) : Phase → Prop
  | .waiting myReq | .locked myReq | .leading myReq => NumberedAt history call myReq
  | .aimed myReq target => NumberedAt history call myReq ∧ myReq ≤ target ∧ target ≤ entries history
  | .running myReq target => NumberedAt history call myReq ∧ myReq ≤ target ∧ StartedAt history call target
  | .succeeded myReq target _ =>
    NumberedAt history call myReq ∧ myReq ≤ target ∧ SucceededAt history call target
  | .leaving (some _) => ∃ leader, CoveredBy history call leader
  | .returned (some _) => ∃ leader newGen, [.enter call, .start leader,
      .finish leader (some newGen), .leave call].Sublist history
  | _ => True

theorem Phase.Sound.grow {history : List Event} {call : CallId} {phase : Phase} {event : Event}
    (sound : phase.Sound history call) : phase.Sound (history ++ [event]) call := by
  cases phase with
  | waiting | locked | leading => exact NumberedAt.grow sound
  | aimed myReq target =>
    obtain ⟨numbered, within, seen⟩ := sound
    exact ⟨numbered.grow, within, by rw [entries_append]; omega⟩
  | running myReq target =>
    obtain ⟨numbered, within, started⟩ := sound
    exact ⟨numbered.grow, within, started.grow⟩
  | succeeded myReq target newGen =>
    obtain ⟨numbered, within, succeeded⟩ := sound
    exact ⟨numbered.grow, within, succeeded.grow⟩
  | leaving result =>
    cases result with
    | none => trivial
    | some value =>
      obtain ⟨leader, covered⟩ := sound
      exact ⟨leader, covered.grow⟩
  | returned result =>
    cases result with
    | none => trivial
    | some value =>
      obtain ⟨leader, newGen, sublist⟩ := sound
      exact ⟨leader, newGen, sublist.trans (sublist_append_left history [event])⟩
  | _ => trivial

namespace RefreshCoordinator

inductive Move (state : RefreshCoordinator) : Event → RefreshCoordinator → Prop where
  | enter {call : CallId} (found : state.calls call = .outside) :
      Move state (.enter call) { state.setPhase call (.waiting (state.requestSeq + 1)) with
        requestSeq := state.requestSeq + 1 }
  | enterExclusive {call : CallId} (found : state.calls call = .outside) :
      Move state (.enterExclusive call) (state.setPhase call .queued)
  | lock {call : CallId} {myReq : Nat} (free : state.holder = none)
      (found : state.calls call = .waiting myReq) :
      Move state (.lock call) { state.setPhase call (.locked myReq) with holder := some call }
  | lockExclusive {call : CallId} (free : state.holder = none)
      (found : state.calls call = .queued) :
      Move state (.lock call) { state.setPhase call .admitted with holder := some call }
  | skip {call : CallId} {myReq : Nat} (found : state.calls call = .locked myReq)
      (covered : myReq ≤ state.completedSeq) :
      Move state (.loadCompleted call)
        (state.setPhase call (.leaving (some state.completedSeq)))
  | lead {call : CallId} {myReq : Nat} (found : state.calls call = .locked myReq)
      (uncovered : state.completedSeq < myReq) :
      Move state (.loadCompleted call) (state.setPhase call (.leading myReq))
  | aim {call : CallId} {myReq : Nat} (found : state.calls call = .leading myReq) :
      Move state (.loadTarget call) (state.setPhase call (.aimed myReq state.requestSeq))
  | start {call : CallId} {myReq target : Nat} (found : state.calls call = .aimed myReq target) :
      Move state (.start call) (state.setPhase call (.running myReq target))
  | startExclusive {call : CallId} (found : state.calls call = .admitted) :
      Move state (.start call) (state.setPhase call .busy)
  | succeed {call : CallId} {myReq target : Nat} (newGen : Nat)
      (found : state.calls call = .running myReq target) :
      Move state (.finish call (some newGen))
        (state.setPhase call (.succeeded myReq target newGen))
  | fail {call : CallId} {myReq target : Nat} (found : state.calls call = .running myReq target) :
      Move state (.finish call none) (state.setPhase call (.leaving none))
  | finishExclusive {call : CallId} (outcome : Option Nat) (found : state.calls call = .busy) :
      Move state (.finish call outcome) (state.setPhase call (.releasing outcome))
  | store {call : CallId} {myReq target newGen : Nat}
      (found : state.calls call = .succeeded myReq target newGen) :
      Move state (.store call) { state.setPhase call (.leaving (some newGen)) with
        completedSeq := target }
  | leave {call : CallId} {result : Option Nat} (found : state.calls call = .leaving result) :
      Move state (.leave call) { state.setPhase call (.returned result) with holder := none }
  | leaveExclusive {call : CallId} {result : Option Nat}
      (found : state.calls call = .releasing result) :
      Move state (.leave call) { state.setPhase call (.released result) with holder := none }

variable {state : RefreshCoordinator} {history}

theorem Move.of_step {next : RefreshCoordinator} {event : Event}
    (stepped : state.step event = some next) : Move state event next := by
  cases event <;> simp only [step] at stepped <;> split at stepped <;> try split at stepped
  all_goals cases stepped
  · exact .enter ‹_›
  · exact .enterExclusive ‹_›
  · exact .lock ‹_› ‹_›
  · exact .lockExclusive ‹_› ‹_›
  · exact .skip ‹_› ‹_›
  · exact .lead ‹_› (Nat.lt_of_not_le ‹_›)
  · exact .aim ‹_›
  · exact .start ‹_›
  · exact .startExclusive ‹_›
  · exact .succeed _ ‹_›
  · exact .fail ‹_›
  · exact .finishExclusive _ ‹_›
  · exact .store ‹_›
  · exact .leave ‹_›
  · exact .leaveExclusive ‹_›

/-- The counters agree with the history, the lock with the phases, and every
phase with what its call has done. -/
structure Sound (history : List Event) (state : RefreshCoordinator) : Prop where
  numbered : state.requestSeq = entries history
  completed : state.completedSeq = 0 ∨ ∃ leader, SucceededAt history leader state.completedSeq
  exclusive : ∀ call, (state.calls call).holdsLock = true ↔ state.holder = some call
  calls : ∀ call, (state.calls call).Sound history call

section Lock
variable {call : CallId} {phase : Phase}

def Exclusive (holder : Option CallId) (calls : CallId → Phase) : Prop :=
  ∀ call, (calls call).holdsLock = true ↔ holder = some call

theorem exclusive_keep (exclusive : Exclusive state.holder state.calls)
    (same : phase.holdsLock = (state.calls call).holdsLock) :
    Exclusive state.holder (update state.calls call phase) := by
  intro other
  by_cases here : other = call
  · subst here
    rw [update_self, same]
    exact exclusive other
  · rw [update_of_ne here]
    exact exclusive other

theorem exclusive_take (exclusive : Exclusive state.holder state.calls) (free : state.holder = none)
    (holds : phase.holdsLock = true) : Exclusive (some call) (update state.calls call phase) := by
  intro other
  by_cases here : other = call
  · subst here
    simp [holds]
  · rw [update_of_ne here, exclusive other, free]
    simp [Ne.symm here]

theorem exclusive_drop (exclusive : Exclusive state.holder state.calls)
    (held : (state.calls call).holdsLock = true) (drops : phase.holdsLock = false) :
    Exclusive none (update state.calls call phase) := by
  intro other
  by_cases here : other = call
  · subst here
    simp [drops]
  · have holder := (exclusive call).mp held
    rw [update_of_ne here, exclusive other, holder]
    simp [Ne.symm here]

end Lock

section
variable (sound : Sound history state) {call : CallId} {event : Event}
include sound

theorem Sound.setCall {phase : Phase} (fits : phase.Sound (history ++ [event]) call) (other : CallId) :
    (update state.calls call phase other).Sound (history ++ [event]) other := by
  by_cases here : other = call
  · subst here
    rwa [update_self]
  · rw [update_of_ne here]
    exact (sound.calls other).grow

theorem Sound.phase {phase : Phase} (found : state.calls call = phase) : phase.Sound history call :=
  found ▸ sound.calls call

theorem Sound.completed_grow :
    state.completedSeq = 0 ∨ ∃ leader, SucceededAt (history ++ [event]) leader state.completedSeq :=
  sound.completed.imp_right fun ⟨leader, succeeded⟩ => ⟨leader, succeeded.grow⟩

theorem Sound.numbered_grow (silent : event.isEnter = false) : state.requestSeq = entries (history ++ [event]) := by
  rw [entries_append, ← sound.numbered, entries]
  simp [silent]

/-- A move that leaves the counters alone and does not change who holds the
lock only has to account for its own call. -/
theorem Sound.setPhase {phase : Phase}
    (silent : event.isEnter = false) (same : phase.holdsLock = (state.calls call).holdsLock)
    (fits : phase.Sound (history ++ [event]) call) : Sound (history ++ [event]) (state.setPhase call phase) where
  numbered := sound.numbered_grow silent
  completed := sound.completed_grow
  exclusive := exclusive_keep sound.exclusive same
  calls := sound.setCall fits

/-- The request of a call that holds the lock is covered once the completed
sequence has reached it. -/
theorem Sound.covered {myReq : Nat} (numbered : NumberedAt history call myReq)
    (within : myReq ≤ state.completedSeq) : ∃ leader, CoveredBy history call leader := by
  rcases sound.completed with none | ⟨leader, succeeded⟩
  · obtain ⟨before, after, -, number⟩ := numbered
    omega
  · exact ⟨leader, succeeded.covers numbered within⟩

theorem Sound.move {next : RefreshCoordinator} (moved : Move state event next) : Sound (history ++ [event]) next := by
  cases moved with
  | @enter call found =>
    refine ⟨?_, sound.completed_grow, exclusive_keep sound.exclusive (by rw [found]; rfl), sound.setCall ?_⟩
    · rw [entries_append, ← sound.numbered]
      rfl
    · rw [sound.numbered]
      exact numberedAt_enter
  | enterExclusive found | startExclusive found | fail found | finishExclusive _ found =>
    exact sound.setPhase rfl (by rw [found]; rfl) trivial
  | @lock call myReq free found =>
    have phase := sound.phase found
    exact ⟨sound.numbered_grow rfl, sound.completed_grow, exclusive_take sound.exclusive free rfl, sound.setCall phase.grow⟩
  | lockExclusive free found =>
    exact ⟨sound.numbered_grow rfl, sound.completed_grow, exclusive_take sound.exclusive free rfl, sound.setCall trivial⟩
  | @skip call myReq found within =>
    have numbered := sound.phase found
    obtain ⟨leader, covered⟩ := sound.covered numbered within
    exact sound.setPhase rfl (by rw [found]; rfl) ⟨leader, covered.grow⟩
  | @lead call myReq found uncovered =>
    have numbered := sound.phase found
    exact sound.setPhase rfl (by rw [found]; rfl) (NumberedAt.grow numbered)
  | @aim call myReq found =>
    have numbered := sound.phase found
    refine sound.setPhase rfl (by rw [found]; rfl) ⟨NumberedAt.grow numbered, ?_, ?_⟩
    · rw [sound.numbered]
      exact NumberedAt.le_entries numbered
    · rw [sound.numbered, entries_append]
      exact Nat.le_add_right _ _
  | @start call myReq target found =>
    obtain ⟨numbered, within, seen⟩ := sound.phase found
    exact sound.setPhase rfl (by rw [found]; rfl) ⟨numbered.grow, within, startedAt_start seen⟩
  | @succeed call myReq target newGen found =>
    obtain ⟨numbered, within, started⟩ := sound.phase found
    exact sound.setPhase rfl (by rw [found]; rfl) ⟨numbered.grow, within, started.succeeds newGen⟩
  | @store call myReq target newGen found =>
    obtain ⟨numbered, within, succeeded⟩ := sound.phase found
    refine ⟨sound.numbered_grow rfl, .inr ⟨call, succeeded.grow⟩,
      exclusive_keep sound.exclusive (by rw [found]; rfl), sound.setCall ?_⟩
    exact ⟨call, (succeeded.covers numbered within).grow⟩
  | @leave call result found =>
    have leaving := sound.phase found
    refine ⟨sound.numbered_grow rfl, sound.completed_grow,
      exclusive_drop sound.exclusive (by rw [found]; rfl) rfl, sound.setCall ?_⟩
    cases result with
    | none => trivial
    | some value =>
      obtain ⟨leader, newGen, covered⟩ := leaving
      exact ⟨leader, newGen, covered.append (Sublist.refl [Event.leave call])⟩
  | leaveExclusive found =>
    exact ⟨sound.numbered_grow rfl, sound.completed_grow,
      exclusive_drop sound.exclusive (by rw [found]; rfl) rfl, sound.setCall trivial⟩

end

theorem sound_default : Sound [] default where
  numbered := rfl
  completed := .inl rfl
  exclusive call := by simp [default, Phase.holdsLock]
  calls call := trivial

theorem sound_after {events : List Event} (ran : after events = some state) : Sound events state :=
  schedule_invariant Sound sound_default
    (fun _ _ _ _ sound stepped => sound.move (.of_step stepped)) ran

theorem Sound.one_acts (sound : Sound history state) {first second : CallId}
    (firstActs : (state.calls first).acts = true) (secondActs : (state.calls second).acts = true) : first = second := by
  have holds {phase : Phase} (acts : phase.acts = true) : phase.holdsLock = true := by
    cases phase with
    | running myReq target => rfl
    | busy => rfl
    | _ => cases acts
  have firstHolds := (sound.exclusive first).mp (holds firstActs)
  have secondHolds := (sound.exclusive second).mp (holds secondActs)
  exact Option.some.inj (firstHolds.symm.trans secondHolds)

/-- A call that returns a value is covered by a refresh that began after the call had
entered and succeeded before it returned; at most one action runs at a time; and only a
successful refresh moves the completed sequence, to its target. -/
theorem refresh_covers_callers {events : List Event} {state : RefreshCoordinator}
    (ran : after events = some state) : (∀ call value, state.calls call = .returned (some value) →
      ∃ leader newGen, [.enter call, .start leader, .finish leader (some newGen), .leave call].Sublist events) ∧
    (∀ first second, (state.calls first).acts = true → (state.calls second).acts = true → first = second) ∧
    (∀ event next, state.step event = some next → next.completedSeq ≠ state.completedSeq →
      ∃ call newGen, event = .store call ∧ [.start call, .finish call (some newGen)].Sublist events) ∧
    (∀ call next, state.step (.finish call none) = some next →
      next.completedSeq = state.completedSeq ∧ ∀ other ≠ call, next.calls other = state.calls other) ∧
    ∀ call next value, state.step (.loadCompleted call) = some next → next.calls call = .leaving (some value) →
        ∃ leader newGen, [.enter call, .start leader, .finish leader (some newGen)].Sublist events := by
  have sound := sound_after ran
  refine ⟨?_, ?_, ?_, ?_, ?_⟩
  · intro call value returned
    have covered := sound.calls call
    rwa [returned] at covered
  · intro first second firstActs secondActs
    exact sound.one_acts firstActs secondActs
  · intro event next stepped moved
    cases Move.of_step stepped with
    | @store call myReq target newGen found =>
      have stored := sound.phase found
      obtain ⟨newGen, sublist⟩ := SucceededAt.sublist stored.2.2
      exact ⟨call, newGen, rfl, sublist⟩
    | _ => exact absurd rfl moved
  · intro call next stepped
    cases Move.of_step stepped with
    | fail | finishExclusive => exact ⟨rfl, fun other here => update_of_ne here _ _⟩
  · intro call next value stepped skipped
    cases Move.of_step stepped with
    | @skip call myReq found within =>
      have numbered := sound.phase found
      exact sound.covered numbered within
    | lead found uncovered => simp [setPhase] at skipped

def sharedRefresh : List Event :=
  [.enter 0, .enter 1, .lock 0, .loadCompleted 0, .loadTarget 0, .start 0, .finish 0 (some 7),
    .store 0, .leave 0, .lock 1, .loadCompleted 1, .leave 1]

theorem sharedRefresh_covers : ∃ state, after sharedRefresh = some state ∧ state.calls 1 = .returned (some 2) ∧
      ∃ leader newGen, [.enter 1, .start leader, .finish leader (some newGen), .leave 1].Sublist sharedRefresh := by
  have ran : after sharedRefresh = some ((after sharedRefresh).get rfl) := rfl
  have returned : ((after sharedRefresh).get rfl).calls 1 = .returned (some 2) := rfl
  exact ⟨_, ran, returned, (refresh_covers_callers ran).1 1 2 returned⟩

/-- The request of a call that leads lies ahead of the completed sequence. -/
def Ahead (completedSeq : Nat) : Phase → Prop
  | .leading myReq | .aimed myReq _ | .running myReq _ | .succeeded myReq _ _ => completedSeq < myReq
  | _ => True

theorem ahead_of_unlocked {phase : Phase} (unlocked : phase.holdsLock = false) (completedSeq : Nat) :
    Ahead completedSeq phase := by
  cases phase <;> trivial

variable {events : List Event}

theorem ahead_after (ran : after events = some state) (call : CallId) : Ahead state.completedSeq (state.calls call) := by
  refine schedule_invariant_within (fun _ (state : RefreshCoordinator) => ∀ call, Ahead state.completedSeq (state.calls call))
    ?_ ?_ ran call
  · exact fun _ => trivial
  intro history state event next _ before ahead stepped
  have moves {call : CallId} {phase : Phase} (fits : Ahead state.completedSeq phase) :
      ∀ other, Ahead state.completedSeq (update state.calls call phase other) :=
    (forall_update_iff _ fun _ => Ahead _).2 ⟨fits, fun other _ => ahead other⟩
  cases Move.of_step stepped with
  | lead found uncovered => exact moves uncovered
  | aim found | start found | succeed _ found => exact moves (found ▸ ahead _ :)
  | @store call _ _ _ found =>
    -- no other call leads, as none holds the lock
    refine (forall_update_iff _ fun _ => Ahead _).2 ⟨trivial, fun other different => ahead_of_unlocked ?_ _⟩
    have sound := sound_after before
    have holder := (sound.exclusive call).1 (by rw [found]; rfl)
    refine Bool.eq_false_iff.2 fun locked => different ?_
    exact Option.some.inj (((sound.exclusive other).1 locked).symm.trans holder)
  | _ => exact moves trivial

/-- The completed sequence is written by a plain store, yet never goes back, and every
refresh that succeeds takes it further. -/
theorem completedSeq_grows {event : Event} {next : RefreshCoordinator} (ran : after events = some state)
    (stepped : state.step event = some next) : state.completedSeq ≤ next.completedSeq ∧
      ∀ call, event = .store call → state.completedSeq < next.completedSeq := by
  cases Move.of_step stepped with
  | @store call myReq target newGen found =>
    have ahead := ahead_after ran call
    rw [found] at ahead
    have grows : state.completedSeq < target := Nat.lt_of_lt_of_le ahead ((sound_after ran).phase found).2.1
    exact ⟨Nat.le_of_lt grows, fun _ _ => grows⟩
  | _ => exact ⟨Nat.le_refl _, nofun⟩

theorem sharedRefresh_grows : ∃ state next, after (sharedRefresh.take 7) = some state ∧
    state.step (.store 0) = some next ∧ state.completedSeq < next.completedSeq :=
  ⟨_, _, rfl, rfl, (@completedSeq_grows _ (sharedRefresh.take 7) _ _ rfl rfl).2 0 rfl⟩

end RefreshCoordinator
end Mahoquot.Runtime
