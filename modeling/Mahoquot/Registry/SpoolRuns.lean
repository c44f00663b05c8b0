import Mahoquot.Registry.SpoolProperties
import Mathlib.Data.List.Infix

/-! Whole runs of one manager: what its callers see of conflicts and of deleted objects,
and what the spool holds when no call is under way. -/

set_option autoImplicit false

namespace Mahoquot.Registry
open Library StorageState
open Compat (Bytes)
variable {state after last : StorageState Unit} {event : StorageEvent Unit}

/-- Before the first call: the spool is empty or mirrors the backend. -/
structure Quiet (state : StorageState Unit) : Prop where
  calls : ∀ id, state.calls id = none
  mirrored : ∀ path, Mirrors state.backend (state.managers ()).spool path

/-- The runs without a disturbed read: no key is named like a temporary file, and at no
time a read brings its object to the spool while another call is at work on a key with
the same temporary file. -/
structure Exclusive (start : StorageState Unit) (events : List (StorageEvent Unit)) : Prop where
  plain : ∀ id process request, .invoke id process request ∈ events →
    ∀ other, tempPath (start.managers ()).pid other ≠ request.key
  undisturbed : ∀ past state, past <+: events →
    schedule step start past = some state → Undisturbed state

/-- The manager behaves as its backend does. -/
structure Linearises (start : StorageState Unit) (events : List (StorageEvent Unit)) : Prop where
  unconflicted : ∀ last, schedule step start events = some last →
    ∀ id key data message,
      last.calls id ≠ some ((), .put key data (.done (.error (.conflict message))))
  /-- From the end of a delete with no put of the key under way until the next put is
  called, a read that begins finds nothing. -/
  deleted : ∀ past later id key before after last, events = past ++ .advance id :: later →
    schedule step start past = some before →
    before.calls id = some ((), .delete key .unspool) →
    before.step (.advance id) = some after →
    (∀ other data phase, after.calls other = some ((), .put key data phase) → ∃ reply, phase = .done reply) →
    (∀ other process data, .invoke other process (.put key data) ∉ later) →
    schedule step after later = some last →
    ∀ getter reply, after.calls getter = none →
      last.calls getter = some ((), .get key (.done reply)) → reply = .ok none
  mirrored : ∀ last, schedule step start events = some last →
    (∀ id activity, last.calls id = some ((), activity) → activity.finished = true) →
    ∀ key, (last.managers ()).spool.read key = none ∨
      (last.managers ()).spool.read key = last.backend.objects key

variable {start : StorageState Unit} {events : List (StorageEvent Unit)}

theorem pid_of_step
    (stepped : state.step event = some after) : (after.managers ()).pid = (state.managers ()).pid := by
  rcases step_cases stepped with
    ⟨id, process, request, -, -, rfl⟩ | ⟨id, process, activity, backend, manager, next, -, -, moved, rfl⟩
  · rfl
  · simpa using moved.pid_eq

theorem pid_of_schedule (ran : schedule step start events = some last) :
    (last.managers ()).pid = (start.managers ()).pid :=
  schedule_invariant (fun _ state => (state.managers ()).pid = (start.managers ()).pid) rfl
    (fun _ _ _ _ holds stepped => (pid_of_step stepped).trans holds) ran

theorem Mirroring.of_quiet (quiet : Quiet start) : Mirroring start where
  sound := fun id _ called => nomatch (quiet.calls id).symm.trans called
  plain := fun id _ called => nomatch (quiet.calls id).symm.trans called
  mirrored := fun path => .inl (quiet.mirrored path)

theorem Mirroring.step (mirroring : Mirroring state) (undisturbed : Undisturbed state)
    (plain : ∀ id process request, event = .invoke id process request →
      ∀ other, tempPath (state.managers ()).pid other ≠ request.key)
    (stepped : state.step event = some after) : Mirroring after := by
  rcases step_cases stepped with
    ⟨id, process, request, rfl, fresh, rfl⟩ |
      ⟨id, process, activity, backend, manager, next, rfl, called, moved, rfl⟩
  · exact mirroring.invoke fresh (plain id process request rfl)
  · exact mirroring.advance undisturbed called moved

theorem mirroring_of_schedule (quiet : Quiet start) (exclusive : Exclusive start events)
    (ran : schedule step start events = some last) : Mirroring last := by
  refine schedule_invariant_within (fun _ state => Mirroring state) (.of_quiet quiet) ?_ ran
  intro history state event next within reached mirroring stepped
  have earlier : history <+: events := (List.prefix_append _ _).trans within
  refine mirroring.step (exclusive.undisturbed history state earlier reached) ?_ stepped
  rintro id process request rfl
  rw [pid_of_schedule reached]
  exact exclusive.plain id process request (within.subset (by simp))

section Deleted

/-- What a call may be while its key is absent. -/
def Activity.Blank (known : Prop) (key : String) : Activity → Prop
  | .put other _ phase => other = key → ∃ reply, phase = .done reply
  | .get other (.refresh _ _) => other ≠ key
  | .get other (.done reply) => other = key → ¬ known → reply = .ok none
  | _ => True

/-- Nothing is left of the key, and nobody is about to bring it back. -/
structure Absent (known : Nat → Prop) (key : String) (state : StorageState Unit) : Prop where
  object : state.backend.objects key = none
  file : (state.managers ()).spool.entries key = none
  keyPlain : ∀ other, tempPath (state.managers ()).pid other ≠ key
  plain : ∀ id activity, state.calls id = some ((), activity) →
    tempPath (state.managers ()).pid activity.key ≠ activity.key
  blank : ∀ id activity, state.calls id = some ((), activity) → activity.Blank (known id) key

variable {known : Nat → Prop} {key : String} {state : StorageState Unit}

theorem Absent.moves (absent : Absent known key state) {id : Nat} {activity next : Activity}
    {backend : Backend} {manager : StorageManager} (called : state.calls id = some ((), activity))
    (moved : Moves id state.backend (state.managers ()) activity backend manager next) :
    backend.objects key = none ∧ manager.spool.entries key = none ∧ next.Blank (known id) key := by
  have blank := absent.blank id activity called
  by_cases own : key = activity.key
  · have missing : (state.managers ()).spool.read key = none := by
      rw [Files.read_eq_none]
      exact absent.file
    cases moved with
    | found here =>
      have object := absent.object
      rw [own] at object
      cases object.symm.trans here
    | missing => exact ⟨absent.object, absent.file, trivial⟩
    | fallback =>
      refine ⟨absent.object, absent.file, ?_⟩
      intro same _
      rw [same, missing]
    | refresh | refreshed | refreshFailed => exact absurd own.symm blank
    | lockDelete => exact ⟨absent.object, absent.file, trivial⟩
    | erase => exact ⟨(Backend.objects_delete _ _ _).trans (if_pos own), absent.file, trivial⟩
    | unspool => exact ⟨absent.object, (Files.entries_remove _ _ _).trans (if_pos own), trivial⟩
    | lockPut | spooled | unspooled | same | diverged | gone | store | stage | staged | stageFailed =>
      obtain ⟨reply, ended⟩ := blank own.symm
      cases ended
  · refine ⟨(moved.objects_eq own).trans absent.object, ?_, ?_⟩
    · rw [(moved.frame (absent.plain id _ called) own (absent.keyPlain _).symm).1]
      exact absent.file
    · have other : next.key ≠ key := by
        rw [moved.key_eq]
        exact Ne.symm own
      unfold Activity.Blank
      split
      · exact fun same => absurd same other
      · exact other
      · exact fun same => absurd same other
      · trivial

theorem Absent.step (absent : Absent known key state)
    (plain : ∀ id process request, event = .invoke id process request →
      tempPath (state.managers ()).pid request.key ≠ request.key)
    (unput : ∀ id process data, event ≠ .invoke id process (.put key data))
    (stepped : state.step event = some after) : Absent known key after := by
  rcases step_cases stepped with
    ⟨id, process, request, rfl, fresh, rfl⟩ |
      ⟨id, process, activity, backend, manager, next, rfl, called, moved, rfl⟩
  · refine ⟨absent.object, absent.file, absent.keyPlain, ?_, ?_⟩
    · intro other activity called
      rcases update_calls_eq called with ⟨rfl, -, rfl⟩ | ⟨-, called⟩
      · have own := plain other process request rfl
        cases request <;> exact own
      · exact absent.plain other activity called
    · intro other activity called
      rcases update_calls_eq called with ⟨rfl, -, rfl⟩ | ⟨-, called⟩
      · cases request with
        | put other' data =>
          rintro rfl
          exact absurd rfl (unput other process data)
        | _ => trivial
      · exact absent.blank other activity called
  · obtain ⟨object, file, blank⟩ := absent.moves called moved
    refine ⟨object, by simpa using file, ?_, ?_, ?_⟩
    · simp only [Function.update_self, moved.pid_eq]
      exact absent.keyPlain
    · intro other activity' called'
      simp only [Function.update_self, moved.pid_eq]
      rcases update_calls_eq called' with ⟨rfl, -, rfl⟩ | ⟨-, called'⟩
      · rw [moved.key_eq]
        exact absent.plain other activity called
      · exact absent.plain other activity' called'
    · intro other activity' called'
      rcases update_calls_eq called' with ⟨rfl, -, rfl⟩ | ⟨-, called'⟩
      · exact blank
      · exact absent.blank other activity' called'

/-- The last step of a delete leaves the key absent, if no put of it is under way. -/
theorem Absent.of_delete {before : StorageState Unit} (mirroring : Mirroring before)
    (undisturbed : Undisturbed before) {id : Nat} (called : before.calls id = some ((), .delete key .unspool))
    (stepped : before.step (.advance id) = some after)
    (unput : ∀ other data phase, after.calls other = some ((), .put key data phase) →
      ∃ reply, phase = .done reply) : Absent (fun other => after.calls other ≠ none) key after := by
  have keyPlain := mirroring.plain id _ called
  rcases step_cases stepped with
    ⟨_, _, _, wrong, -, -⟩ | ⟨id', process, activity, backend, manager, next, same, called', moved, rfl⟩
  · cases wrong
  cases same
  rw [called] at called'
  cases called'
  cases moved
  refine ⟨(mirroring.sound id _ called).warranted, ?_, keyPlain, ?_, ?_⟩
  · exact (Files.entries_remove _ _ _).trans (if_pos rfl)
  · intro other activity called'
    rcases update_calls_eq called' with ⟨rfl, -, rfl⟩ | ⟨-, called'⟩
    · exact keyPlain _
    · exact mirroring.plain other activity called' _
  · intro other activity called'
    cases activity with
    | get key phase =>
      cases phase with
      | refresh data phase =>
        rintro rfl
        rcases update_calls_eq called' with ⟨-, -, wrong⟩ | ⟨different, called'⟩
        · cases wrong
        -- A read of the key that is still at work would disturb the delete.
        · exact undisturbed other id _ _ different called' called rfl rfl rfl
      | done reply => exact fun _ unknown => absurd (fun gone => nomatch called'.symm.trans gone) unknown
      | _ => trivial
    | put key data phase =>
      rintro rfl
      exact unput other data phase called'
    | delete => trivial

theorem absent_of_schedule {later : List (StorageEvent Unit)}
    (absent : Absent known key after) (plain : ∀ id process request, .invoke id process request ∈ later →
      ∀ other, tempPath (after.managers ()).pid other ≠ request.key)
    (unput : ∀ id process data, .invoke id process (.put key data) ∉ later)
    (ran : schedule step after later = some last) : Absent known key last := by
  refine schedule_invariant_within (fun _ state => Absent known key state) absent ?_ ran
  intro history state event next within reached before stepped
  have member : event ∈ later := within.subset (by simp)
  refine before.step ?_ ?_ stepped
  · rintro id process request rfl
    rw [pid_of_schedule reached]
    exact plain id process request member _
  · rintro id process data rfl
    exact unput id process data member

end Deleted

theorem Exclusive.earlier {past : List (StorageEvent Unit)} (exclusive : Exclusive start events)
    (earlier : past <+: events) : Exclusive start past where
  plain := fun id process request member =>
    exclusive.plain id process request (earlier.subset member)
  undisturbed := fun past' state within =>
    exclusive.undisturbed past' state (within.trans earlier)

/-- In a run without a disturbed read no put is refused, what was deleted stays so, and
when no call is under way the spool mirrors the backend. -/
theorem linearises_of_exclusive (start : StorageState Unit) (events : List (StorageEvent Unit))
    (quiet : Quiet start) (exclusive : Exclusive start events) : Linearises start events where
  unconflicted := by
    intro last ran id key data message called
    exact ((mirroring_of_schedule quiet exclusive ran).sound id _ called).warranted message rfl
  deleted := by
    intro past later id key before after last split reached called stepped unput unasked ran
      getter reply unknown answered
    have earlier : past <+: events := ⟨_, split.symm⟩
    have mirroring := mirroring_of_schedule quiet (exclusive.earlier earlier) reached
    have absent := Absent.of_delete mirroring (exclusive.undisturbed past before earlier reached) called stepped unput
    have stays := absent_of_schedule absent ?_ unasked ran
    · exact stays.blank getter _ answered rfl (not_not.mpr unknown)
    · rw [pid_of_step stepped, pid_of_schedule reached]
      intro id process request member
      apply exclusive.plain id process request
      rw [split]
      exact List.mem_append_right _ (List.mem_cons_of_mem _ member)
  mirrored := by
    intro last ran quiescent key
    have mirroring := mirroring_of_schedule quiet exclusive ran
    rcases mirroring.mirrored key with mirrors | ⟨id, activity, called, unsettled⟩
    · cases here : (last.managers ()).spool.read key with
      | none => exact .inl rfl
      | some bytes => exact .inr (mirrors bytes here).symm
    · have idle := Activity.idle_of_finished (quiescent id activity called)
      rw [unsettled.cases.1] at idle
      cases idle

namespace SpoolSample

def idle (backend : Backend) : StorageState Unit where
  backend := backend
  managers := fun _ => ⟨7, .empty, none⟩
  calls := fun _ => none

theorem quiet_idle (backend : Backend) : Quiet (idle backend) :=
  ⟨fun _ => rfl, fun _ _ here => nomatch here⟩

/-- A read, then a put that a delete overlaps, and a read behind both. -/
def shared : List (StorageEvent Unit) :=
  .invoke 0 () (.get "k") :: List.replicate 4 (.advance 0) ++ [.invoke 1 () (.put "k" [2]), .advance 1,
    .invoke 2 () (.delete "k")] ++ List.replicate 6 (.advance 1) ++ List.replicate 3 (.advance 2) ++
    [.invoke 3 () (.get "k"), .advance 3, .advance 3]

def busy (test : Activity → Bool) (state : StorageState Unit) (id : Nat) : Bool :=
  (state.calls id).any fun call => test call.2

theorem shared_inits : shared.inits.all (fun past => (schedule step (idle (Backend.empty.put "k" [1])) past).all fun state =>
    [0, 1, 2, 3].all fun id => [0, 1, 2, 3].all fun other => id == other ||
      !(busy Activity.refreshes state id && busy Activity.works state other)) = true := by decide +kernel

theorem ids_of_shared {past : List (StorageEvent Unit)} {backend : Backend} (within : past <+: shared)
    (ran : schedule step (idle backend) past = some state) {id : Nat} {call : Unit × Activity}
    (called : state.calls id = some call) : id ∈ [0, 1, 2, 3] := by
  have present : state.calls id ≠ none := by simp [called]
  obtain ⟨process, request, member⟩ := invoked_of_called (fun _ => rfl) ran present
  have aimed := within.subset member
  simp [shared] at aimed
  grind

theorem shared_calls_linearise : (schedule step (idle (Backend.empty.put "k" [1])) shared).isSome = true ∧
    Exclusive (idle (Backend.empty.put "k" [1])) shared ∧ Linearises (idle (Backend.empty.put "k" [1])) shared := by
  have exclusive : Exclusive (idle (Backend.empty.put "k" [1])) shared := by
    refine ⟨?_, ?_⟩
    · intro id process request member other same
      have aimed : request.key = "k" := by
        simp [shared] at member
        grind [Request.key]
      have long := tempPath_length 7 other
      rw [show tempPath 7 other = "k" from same.trans aimed] at long
      exact absurd long (by decide)
    · intro past state within ran id other activity activity' different called called' refreshes works
      have all := List.all_eq_true.mp shared_inits past ((List.mem_inits _ _).mpr within)
      rw [ran] at all
      have here := List.all_eq_true.mp (List.all_eq_true.mp all id (ids_of_shared within ran called)) other
        (ids_of_shared within ran called')
      simp [busy, called, called', different, refreshes, works] at here
  exact ⟨by decide +kernel, exclusive, linearises_of_exclusive _ _ (quiet_idle _) exclusive⟩

def putSteps (id : Nat) (data : Bytes) (steps : Nat) : List (StorageEvent Unit) :=
  .invoke id () (.put "k" data) :: List.replicate steps (.advance id)

def overtaken : List (StorageEvent Unit) :=
  putSteps 0 [1] 6 ++ [.invoke 1 () (.get "k"), .advance 1] ++ putSteps 2 [2] 7 ++
    List.replicate 3 (.advance 1) ++ putSteps 3 [3] 3

def returned : List (StorageEvent Unit) :=
  putSteps 0 [1] 6 ++ [.invoke 1 () (.get "k"), .advance 1] ++
    (.invoke 2 () (.delete "k") :: List.replicate 3 (.advance 2)) ++
    List.replicate 3 (.advance 1) ++ [.invoke 3 () (.get "k"), .advance 3, .advance 3]

def refused : Option (Unit × Activity) → Bool
  | some (_, .put _ _ (.done (.error (.conflict _)))) => true
  | _ => false

def found : Option (Unit × Activity) → Option (Option Bytes)
  | some (_, .get _ (.done (.ok reply))) => some reply
  | _ => none

theorem overtaken_read_poisons_spool : Quiet (idle .empty) ∧ (schedule step (idle .empty) overtaken).map (fun last =>
      ((last.managers ()).spool.read "k", last.backend.objects "k", refused (last.calls 3))) =
        some (some [1], some [2], true) ∧ (schedule step (idle .empty) returned).map (fun last =>
      ((last.managers ()).spool.read "k", last.backend.objects "k", found (last.calls 3))) =
        some (some [1], none, some (some [1])) ∧ ¬ Linearises (idle .empty) overtaken := by
  refine ⟨quiet_idle _, (and_iff_left_of_imp ?_).mpr (by decide +kernel)⟩
  intro run
  refine ⟨by decide +kernel, ?_⟩
  intro linear
  obtain ⟨last, ran, ends⟩ := Option.map_eq_some_iff.mp run
  have conflict : refused (last.calls 3) = true := (Prod.mk.inj (Prod.mk.inj ends).2).2
  unfold refused at conflict
  split at conflict
  · next called => exact linear.unconflicted last ran 3 _ _ _ called
  · cases conflict

end SpoolSample
end Mahoquot.Registry
