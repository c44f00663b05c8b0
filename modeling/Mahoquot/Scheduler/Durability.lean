import Mahoquot.Scheduler.HoldProperties
import Mathlib.Data.List.Induction

/-! The scheduler's runtime state on disk. A reconciliation that changes the state schedules
a write of it; the writes complete in any order. -/

set_option autoImplicit false

namespace Mahoquot.Scheduler

open List

deriving instance DecidableEq for PersistedState

structure DurableScheduler where
  registry : SchedulerRegistry
  stateGeneration : Nat
  persistedGeneration : Nat
  /-- The writes that are scheduled and have not completed. -/
  pending : List (Nat × PersistedState)
  /-- What the file holds; without a file, the default. -/
  stored : PersistedState

inductive DurableEvent where
  | call (step : SchedulerStep)
  | complete (write : Nat × PersistedState)

/-- The event may change the state outside a reconciliation. -/
def DurableEvent.records : DurableEvent → Bool
  | .call (.reconcile ..) | .complete _ => false
  | .call _ => true

namespace DurableScheduler
variable (settings : SchedulerSettings)

/-- `load` up to its reconciliation. -/
def load (file : Option PersistedState) : DurableScheduler :=
  ⟨⟨settings, .default, file.getD .default, false⟩, 0, 0, [], file.getD .default⟩

variable (scheduler : DurableScheduler)

def persistGeneration (write : Nat × PersistedState) : DurableScheduler :=
  if write.1 ≤ scheduler.persistedGeneration then scheduler
  else { scheduler with stored := write.2, persistedGeneration := write.1 }

/-- A reconciliation compares the state it leaves with the one it found. -/
def reconcile (registry : SchedulerRegistry) : DurableScheduler :=
  if scheduler.registry.runtime ≠ registry.runtime then
    { scheduler with
      registry
      stateGeneration := scheduler.stateGeneration + 1
      pending := scheduler.pending ++ [(scheduler.stateGeneration + 1, registry.runtime)] }
  else { scheduler with registry }

def apply : DurableEvent → DurableScheduler
  | .call (.reconcile members nowUnix) => scheduler.reconcile (scheduler.registry.reconcile members nowUnix)
  | .call step => { scheduler with registry := scheduler.registry.step step }
  | .complete write =>
    if write ∈ scheduler.pending then
      { scheduler with pending := scheduler.pending.erase write }.persistGeneration write
    else scheduler

/-- The state that the last scheduled write brings to disk. -/
structure Saves (scheduler : DurableScheduler) (newest : PersistedState) : Prop where
  published : scheduler.persistedGeneration ≤ scheduler.stateGeneration
  numbered : ∀ write ∈ scheduler.pending, write.1 ≤ scheduler.stateGeneration
  scheduled : ∀ write ∈ scheduler.pending, write.1 = scheduler.stateGeneration → write.2 = newest
  settled : scheduler.persistedGeneration = scheduler.stateGeneration → scheduler.stored = newest
  kept : scheduler.persistedGeneration = scheduler.stateGeneration ∨
    ∃ write ∈ scheduler.pending, write.1 = scheduler.stateGeneration

variable {scheduler : DurableScheduler} {newest : PersistedState}

theorem Saves.complete (saves : Saves scheduler newest) (write : Nat × PersistedState) :
    Saves (scheduler.apply (.complete write)) newest := by
  simp only [apply]
  split
  next held =>
    have numbered := saves.numbered write held
    have others : ∀ other ∈ scheduler.pending.erase write, other ∈ scheduler.pending := fun other => mem_of_mem_erase
    have kept : write.1 = scheduler.stateGeneration ∨
        scheduler.persistedGeneration = scheduler.stateGeneration ∨
        ∃ other ∈ scheduler.pending.erase write, other.1 = scheduler.stateGeneration := by
      rcases saves.kept with done | ⟨other, waits, last⟩
      · exact .inr (.inl done)
      · by_cases same : other = write
        · exact .inl (same ▸ last)
        · exact .inr (.inr ⟨other, (mem_erase_of_ne same).mpr waits, last⟩)
    have published := saves.published
    simp only [persistGeneration]
    split
    next late =>
      refine ⟨published, fun other waits => saves.numbered other (others other waits),
        fun other waits => saves.scheduled other (others other waits), saves.settled, ?_⟩
      exact kept.elim (fun last => .inl (Nat.le_antisymm published (last ▸ late))) id
    next newer =>
      refine ⟨numbered, fun other waits => saves.numbered other (others other waits),
        fun other waits => saves.scheduled other (others other waits),
        saves.scheduled write held, ?_⟩
      exact kept.imp_right fun rest => rest.resolve_left (by omega)
  · exact saves

abbrev Changes (event : DurableEvent) : Prop :=
  scheduler.registry.runtime ≠ (scheduler.apply event).registry.runtime

/-- An event brings the state it leaves to disk, or is one that records or changes nothing. -/
theorem Saves.apply (saves : Saves scheduler newest) (event : DurableEvent) :
    Saves (scheduler.apply event) newest ∧ (event.records ∨ ¬ scheduler.Changes event) ∨
      Saves (scheduler.apply event) (scheduler.apply event).registry.runtime := by
  rcases event with ⟨step⟩ | write
  · cases step with
    | reconcile members nowUnix =>
      simp only [Changes, DurableScheduler.apply, reconcile]
      have published := saves.published
      split
      · refine .inr ⟨by dsimp only; omega, ?_, ?_, fun done => ?_, .inr ⟨_, mem_concat_self, rfl⟩⟩
        · refine forall_mem_append.mpr ⟨fun write held => ?_, by simp⟩
          exact Nat.le_succ_of_le (saves.numbered write held)
        · refine forall_mem_append.mpr ⟨fun write held last => ?_, by simp⟩
          have := saves.numbered write held
          dsimp only at last
          omega
        · dsimp only at done
          omega
      next same => exact .inl ⟨⟨published, saves.numbered, saves.scheduled, saves.settled, saves.kept⟩, .inr same⟩
    | forgetFailures | countFailure | configure =>
      exact .inl ⟨⟨saves.published, saves.numbered, saves.scheduled, saves.settled, saves.kept⟩, .inl rfl⟩
  · refine .inl ⟨saves.complete write, .inr (not_not.mpr ?_)⟩
    simp only [DurableScheduler.apply, persistGeneration]
    split
    · split <;> rfl
    · rfl

/-- Something that changed the state was recorded, and no reconciliation changed it since. -/
inductive Unsaved (start : DurableScheduler) : List DurableEvent → Prop where
  | recorded {front : List DurableEvent} {event : DurableEvent} (records : event.records)
      (changes : (front.foldl apply start).Changes event) : Unsaved start (front ++ [event])
  | later {front : List DurableEvent} {event : DurableEvent} (unsaved : Unsaved start front)
      (quiet : event.records ∨ ¬ (front.foldl apply start).Changes event) :
      Unsaved start (front ++ [event])

theorem Unsaved.cases_concat {start : DurableScheduler} {front : List DurableEvent} {event : DurableEvent}
    (unsaved : Unsaved start (front ++ [event])) : (event.records ∧ (front.foldl apply start).Changes event) ∨
      Unsaved start front ∧ (event.records ∨ ¬ (front.foldl apply start).Changes event) := by
  generalize whole : front ++ [event] = events at unsaved
  cases unsaved with
  | recorded records changes =>
    obtain ⟨rfl, rfl⟩ := append_singleton_inj.1 whole
    exact .inl ⟨records, changes⟩
  | later unsaved quiet =>
    obtain ⟨rfl, rfl⟩ := append_singleton_inj.1 whole
    exact .inr ⟨unsaved, quiet⟩

theorem saves_run (file : Option PersistedState) (events : List DurableEvent) :
    ∃ newest, Saves (events.foldl apply (load settings file)) newest ∧
      (newest = (events.foldl apply (load settings file)).registry.runtime ∨ Unsaved (load settings file) events) := by
  induction events using reverseRecOn with
  | nil => exact ⟨_, ⟨Nat.le_refl _, by simp [load], by simp [load], fun _ => rfl, .inl rfl⟩, .inl rfl⟩
  | append_singleton front event ih =>
    obtain ⟨newest, saves, known⟩ := ih
    rw [foldl_concat]
    rcases saves.apply event with ⟨saves, quiet⟩ | saves
    · refine ⟨newest, saves, ?_⟩
      rcases known with current | unsaved
      · by_cases changes : (front.foldl apply (load settings file)).Changes event
        · exact .inr (.recorded (quiet.resolve_right (not_not.mpr changes)) changes)
        · exact .inl (current.trans (not_not.mp changes))
      · exact .inr (.later unsaved quiet)
    · exact ⟨_, saves, .inl rfl⟩

/-- A write that completes replaces no later one; and when all of them have completed,
the file holds the state, unless something recorded waits for a reconciliation that
changes the state. -/
theorem stored_of_saved (file : Option PersistedState) (events : List DurableEvent) :
    (∀ front event, front ++ [event] <+: events →
      let before := front.foldl apply (load settings file)
      let after := before.apply event
      after.stored = before.stored ∧ after.persistedGeneration = before.persistedGeneration ∨
        before.persistedGeneration < after.persistedGeneration) ∧
      (¬ Unsaved (load settings file) events → (events.foldl apply (load settings file)).pending = [] →
          (events.foldl apply (load settings file)).stored =
            (events.foldl apply (load settings file)).registry.runtime) := by
  constructor
  · intro front event _
    rcases event with ⟨step⟩ | write
    · cases step with
      | reconcile =>
        simp only [apply, reconcile]
        split <;> exact .inl ⟨rfl, rfl⟩
      | forgetFailures | countFailure | configure => exact .inl ⟨rfl, rfl⟩
    · simp only [apply, persistGeneration]
      split
      · split
        · exact .inl ⟨rfl, rfl⟩
        next newer => exact .inr (Nat.lt_of_not_le newer)
      · exact .inl ⟨rfl, rfl⟩
  · intro saved done
    obtain ⟨newest, saves, known⟩ := saves_run settings file events
    have settled := saves.kept.resolve_right (by simp [done])
    rw [saves.settled settled]
    exact known.resolve_right saved

namespace DurabilitySample

def account : Gateway.AccountMember := .new "a" .codex

def failedCall : List DurableEvent :=
  [.call (.countFailure "a"), .call (.reconcile [account] 0)]

/-- A failure is counted; the reconciliation behind it finds nothing else to change. -/
theorem counted_failure_unsaved : (failedCall.foldl apply (load ⟨true, ∅⟩ none)).pending = [] ∧
      (failedCall.foldl apply (load ⟨true, ∅⟩ none)).stored ≠
        (failedCall.foldl apply (load ⟨true, ∅⟩ none)).registry.runtime := by
  decide +kernel

/-- A failure is counted, and the reconciliation behind it selects the account. -/
def selection : List DurableEvent :=
  [.call (.countFailure "codex-a")] ++ [.call (.reconcile [usedAccount 50] 0)]

def written : DurableEvent := .complete (1, ⟨some "codex-a", ∅, .ofList [("codex-a", 1)]⟩)

theorem selection_saved : ((selection ++ [written]).foldl apply (load ⟨true, ∅⟩ none)).stored =
      ((selection ++ [written]).foldl apply (load ⟨true, ∅⟩ none)).registry.runtime := by
  refine (stored_of_saved ⟨true, ∅⟩ none (selection ++ [written])).2 (fun unsaved => ?_) (by decide +kernel)
  obtain ⟨recorded, -⟩ | ⟨selected, -⟩ := unsaved.cases_concat
  · cases recorded
  · obtain ⟨recorded, -⟩ | ⟨-, quiet⟩ := selected.cases_concat
    · cases recorded
    · exact absurd quiet (by decide +kernel)

end DurabilitySample
end DurableScheduler
end Mahoquot.Scheduler
