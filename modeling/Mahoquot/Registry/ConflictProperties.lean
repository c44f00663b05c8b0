import Mahoquot.Registry.Storage
import Mathlib.Data.List.Infix

/-! Managers of several processes with calls beside each other: whose objects a put may
replace. -/

set_option autoImplicit false

namespace Mahoquot.Registry
open Library StorageState Function List
open Compat (Bytes)

section Runs
variable {Process : Type} [DecidableEq Process]

/-- In this run the process has read the value of the key, or has written it. -/
def Acquainted (start : StorageState Process) (events : List (StorageEvent Process))
    (process : Process) (key : String) (value : Bytes) : Prop :=
  ∃ past id state, past ++ [.advance id] <+: events ∧
    schedule step start past = some state ∧
    ((state.calls id = some (process, .get key .called) ∧ state.backend.objects key = some value) ∨
      ∃ seen, state.calls id = some (process, .put key value (.store seen)))

/-- No update is lost: a put that succeeds replaces only what its process knew, and one
that is refused has changed nothing. -/
structure NoLostUpdate (start : StorageState Process) (events : List (StorageEvent Process)) : Prop where
  known : ∀ past id state last process key data seen value,
    past ++ [.advance id] <+: events →
    schedule step start past = some state →
    state.calls id = some (process, .put key data (.store seen)) →
    state.backend.objects key = some value →
    schedule step start events = some last →
    last.calls id = some (process, .put key data (.done (.ok ()))) →
    Acquainted start past process key value
  untouched : ∀ past id state after last process key data message,
    past ++ [.advance id] <+: events →
    schedule step start past = some state →
    state.step (.advance id) = some after →
    schedule step start events = some last →
    last.calls id = some (process, .put key data (.done (.error (.conflict message)))) →
    after.backend = state.backend ∧
      ∀ other, (after.managers other).spool = (state.managers other).spool

/-- Before the first call, with nothing in the spools. -/
structure Unspooled (state : StorageState Process) : Prop where
  calls : ∀ id, state.calls id = none
  entries : ∀ process path, (state.managers process).spool.entries path = none

/-- The runs in which the check of a put is worth something: no key is named like a
temporary file, a manager does not write two spool files through one temporary file at a
time, and when a put writes to the backend there is no object, or its check was made and
the backend still holds what the check saw. -/
structure Checked (start : StorageState Process) (events : List (StorageEvent Process)) : Prop where
  plain : ∀ id process request, .invoke id process request ∈ events →
    ∀ other, tempPath (start.managers process).pid other ≠ request.key
  separate : ∀ past state, past <+: events →
    schedule step start past = some state →
    ∀ id id' process activity activity', id ≠ id' →
      state.calls id = some (process, activity) → state.calls id' = some (process, activity') →
      activity.writes.isSome = true → activity'.writes.isSome = true →
      tempPath (start.managers process).pid activity.key ≠
        tempPath (start.managers process).pid activity'.key
  current : ∀ past id state process key data seen, past ++ [.advance id] <+: events →
    schedule step start past = some state →
    state.calls id = some (process, .put key data (.store seen)) →
    state.backend.objects key = none ∨ seen = some (state.backend.objects key)

/-- A call that will not be refused any more. -/
def Activity.Unrefused : Activity → Prop
  | .put _ _ .called => False
  | .put _ _ .check => False
  | .put _ _ (.compare _) => False
  | .put _ _ (.done reply) => ∀ message, reply ≠ .error (.conflict message)
  | _ => True

variable {id : Nat} {backend backend' : Backend} {manager manager' : StorageManager}
  {activity next : Activity}

theorem Activity.Unrefused.step (unrefused : activity.Unrefused)
    (moved : Moves id backend manager activity backend' manager' next) : next.Unrefused := by
  cases moved with
  | lockPut | spooled | unspooled | same | diverged | gone => exact unrefused.elim
  | staged | stageFailed => exact nofun
  | _ => trivial

/-- Before a put writes, its steps leave the backend and the spool as they are. -/
theorem Moves.untouched (moved : Moves id backend manager activity backend' manager' next)
    (refusable : ¬ activity.Unrefused) : backend' = backend ∧ manager'.spool = manager.spool := by
  cases moved with
  | lockPut | spooled | unspooled | same | diverged | gone => exact ⟨rfl, rfl⟩
  | _ => exact absurd trivial refusable

variable {state after : StorageState Process} {process : Process}

theorem unrefused_of_schedule {later : List (StorageEvent Process)}
    (called : state.calls id = some (process, activity)) (unrefused : activity.Unrefused)
    (ran : schedule step state later = some after) :
    ∃ activity', after.calls id = some (process, activity') ∧ activity'.Unrefused := by
  refine schedule_invariant
    (fun _ state => ∃ activity, state.calls id = some (process, activity) ∧ activity.Unrefused)
    ⟨activity, called, unrefused⟩ ?_ ran
  rintro _ state event next ⟨activity, called, unrefused⟩ stepped
  rcases step_cases stepped with
    ⟨id', process', request, -, fresh, rfl⟩ |
      ⟨id', process', activity', backend, manager, next, -, called', moved, rfl⟩
  · have different : id ≠ id' := by
      rintro rfl
      rw [called] at fresh
      cases fresh
    exact ⟨activity, (update_of_ne different _ _).trans called, unrefused⟩
  · by_cases same : id = id'
    · subst same
      rw [called] at called'
      cases called'
      exact ⟨next, update_self .., unrefused.step moved⟩
    · exact ⟨activity, (update_of_ne same _ _).trans called, unrefused⟩

variable {start : StorageState Process} {events : List (StorageEvent Process)}

theorem Acquainted.later {key : String} {value : Bytes} {more : List (StorageEvent Process)}
    (known : Acquainted start events process key value) : Acquainted start (events ++ more) process key value := by
  obtain ⟨past, id, state, within, reached, how⟩ := known
  exact ⟨past, id, state, within.trans (prefix_append _ _), reached, how⟩

/-- What a call holds is known to its process. -/
def Activity.Knows (Known : String → Bytes → Prop) : Activity → Prop
  | .get key (.refresh data _) => Known key data
  | .put key _ (.compare spooled) => Known key spooled
  | .put key _ (.store (some (some remote))) => Known key remote
  | .put key data (.stage _) => Known key data
  | _ => True

theorem Activity.Knows.mono {Known Known' : String → Bytes → Prop} {activity : Activity}
    (more : ∀ key value, Known key value → Known' key value) (knows : activity.Knows Known) :
    activity.Knows Known' := by
  unfold Activity.Knows at knows ⊢
  split at knows
  all_goals first | exact more _ _ knows | trivial

/-- After this history every process knows what its spool and its calls hold. -/
structure Informed (start : StorageState Process) (history : List (StorageEvent Process))
    (state : StorageState Process) : Prop where
  pid : ∀ process, (state.managers process).pid = (start.managers process).pid
  plain : ∀ id process activity, state.calls id = some (process, activity) →
    ∀ other, tempPath (start.managers process).pid other ≠ activity.key
  ready : ∀ id process activity data phase, state.calls id = some (process, activity) →
    activity.writes = some (data, phase) →
    phase.Ready (state.managers process).spool
      (tempPath (start.managers process).pid activity.key) data
  knows : ∀ id process activity, state.calls id = some (process, activity) →
    activity.Knows (Acquainted start history process)
  files : ∀ process path bytes,
    (∀ other, tempPath (start.managers process).pid other ≠ path) →
    (state.managers process).spool.read path = some bytes →
    Acquainted start history process path bytes

theorem Activity.Knows.writes {Known : String → Bytes → Prop} {activity : Activity} {data : Bytes}
    {phase : SpoolWrite} (knows : activity.Knows Known)
    (writes : activity.writes = some (data, phase)) : Known activity.key data := by
  unfold Activity.writes at writes
  split at writes <;> cases writes
  · exact knows
  · exact knows

section
variable (moved : Moves id backend manager activity backend' manager' next)
  (plain : tempPath manager.pid activity.key ≠ activity.key)
  (prepared : ∀ data phase, activity.writes = some (data, phase) →
    phase.Ready manager.spool (tempPath manager.pid activity.key) data)
include moved plain prepared

/-- A call that writes goes on with its temporary file as it left it. -/
theorem Moves.ready {data : Bytes} {phase : SpoolWrite} (writes : next.writes = some (data, phase)) :
    phase.Ready manager'.spool (tempPath manager.pid activity.key) data := by
  cases moved with
  | found | store =>
    cases writes
    trivial
  | refresh written | stage written =>
    cases writes
    exact (writeStep_fits plain (prepared _ _ rfl) written).1
  | _ => cases writes

/-- What the spool has under the key of a call after a step, it had before, or the call
has just written it. -/
theorem Moves.read_key {bytes : Bytes} (here : manager'.spool.read activity.key = some bytes) :
    manager.spool.read activity.key = some bytes ∨ ∃ phase, activity.writes = some (bytes, phase) := by
  cases moved with
  | refresh written | stage written =>
    have fits := writeStep_fits plain (prepared _ _ rfl) written
    exact .inl (fits.2.symm.trans here)
  | refreshed written | staged written =>
    have fits := writeStep_fits plain (prepared _ _ rfl) written
    cases fits.1.symm.trans here
    exact .inr ⟨_, rfl⟩
  | refreshFailed written | stageFailed written => exact (writeStep_fits plain (prepared _ _ rfl) written).elim
  | @unspool key =>
    have gone : (manager.spool.remove key).read key = none := (Files.read_remove _ _ _).trans (if_pos rfl)
    cases gone.symm.trans here
  | _ => exact .inl here

end

variable {history : List (StorageEvent Process)}

theorem Informed.of_unspooled (unspooled : Unspooled start) : Informed start [] start where
  pid := fun _ => rfl
  plain := fun id _ _ called => nomatch (unspooled.calls id).symm.trans called
  ready := fun id _ _ _ _ called => nomatch (unspooled.calls id).symm.trans called
  knows := fun id _ _ called => nomatch (unspooled.calls id).symm.trans called
  files := by
    intro process path bytes _ here
    rw [Files.read_eq_none.mpr (unspooled.entries process path)] at here
    cases here

theorem Informed.invoke (informed : Informed start history state) {id : Nat} {request : Request}
    (plain : ∀ other, tempPath (start.managers process).pid other ≠ request.key) :
    Informed start (history ++ [.invoke id process request]) { state with
      calls := update state.calls id (some (process, request.activity)) } := by
  refine ⟨informed.pid, ?_, ?_, ?_, ?_⟩
  · intro other process' activity called
    rcases update_calls_eq called with ⟨rfl, rfl, rfl⟩ | ⟨-, called⟩
    · cases request <;> exact plain
    · exact informed.plain other process' activity called
  · intro other process' activity data phase called writes
    rcases update_calls_eq called with ⟨rfl, rfl, rfl⟩ | ⟨-, called⟩
    · cases request <;> cases writes
    · exact informed.ready other process' activity data phase called writes
  · intro other process' activity called
    rcases update_calls_eq called with ⟨rfl, rfl, rfl⟩ | ⟨-, called⟩
    · cases request <;> trivial
    · exact (informed.knows other process' activity called).mono fun _ _ known => known.later
  · intro process' path bytes unlike here
    exact (informed.files process' path bytes unlike here).later

section
variable (informed : Informed start history state) (reached : schedule step start history = some state)
  (called : state.calls id = some (process, activity))
  (moved : Moves id state.backend (state.managers process) activity backend manager next)
include informed reached called moved

/-- What the next history says that a process knows, after a step of one of its calls. -/
theorem Informed.knows_next :
    next.Knows (Acquainted start (history ++ [.advance id]) process) := by
  have before : activity.Knows (Acquainted start (history ++ [.advance id]) process) :=
    (informed.knows id process activity called).mono fun _ _ known => known.later
  have plain := informed.plain id process activity called
  cases moved with
  | found here => exact ⟨history, id, state, prefix_refl _, reached, .inl ⟨called, here⟩⟩
  | spooled here => exact (informed.files process _ _ plain here).later
  | store => exact ⟨history, id, state, prefix_refl _, reached, .inr ⟨_, called⟩⟩
  | refresh | stage | same => exact before
  | _ => trivial

theorem Informed.advance (separate : ∀ id' activity', id ≠ id' → state.calls id' = some (process, activity') →
      activity.writes.isSome = true → activity'.writes.isSome = true →
      tempPath (start.managers process).pid activity.key ≠ tempPath (start.managers process).pid activity'.key) :
    Informed start (history ++ [.advance id]) ⟨backend, update state.managers process manager,
      update state.calls id (some (process, next))⟩ := by
  have pid := informed.pid process
  have plain := informed.plain id process activity called
  have ready : ∀ data phase, activity.writes = some (data, phase) →
      phase.Ready (state.managers process).spool
        (tempPath (state.managers process).pid activity.key) data := by
    rw [pid]
    exact fun data phase => informed.ready id process activity data phase called
  have ownPlain : tempPath (state.managers process).pid activity.key ≠ activity.key := by
    rw [pid]
    exact plain _
  refine ⟨?_, ?_, ?_, ?_, ?_⟩
  · intro process'
    by_cases same : process' = process
    · subst same
      simpa only [update_self] using moved.pid_eq.trans pid
    · simpa only [update_of_ne same] using informed.pid process'
  · intro other process' activity' called'
    rcases update_calls_eq called' with ⟨rfl, rfl, rfl⟩ | ⟨-, called'⟩
    · rw [moved.key_eq]
      exact plain
    · exact informed.plain other process' activity' called'
  · intro other process' activity' data phase called' writes
    rcases update_calls_eq called' with ⟨rfl, rfl, rfl⟩ | ⟨different, earlier⟩
    · simp only [update_self]
      rw [moved.key_eq, ← pid]
      exact moved.ready ownPlain ready writes
    · have before := informed.ready other process' activity' data phase earlier writes
      by_cases same : process' = process
      · subst same
        simp only [update_self]
        have notKey := plain activity'.key
        cases writing : activity.writes with
        | none => exact before.transfer (moved.frame_of_unwritten writing notKey)
        | some writing' =>
          obtain ⟨entries, bytes⟩ := moved.frame ownPlain notKey (by
            rw [pid]
            exact (separate other activity' different.symm earlier (by simp [writing]) (by simp [writes])).symm)
          exact before.transfer ⟨entries, bytes ready⟩
      · simpa only [update_of_ne same] using before
  · intro other process' activity' called'
    rcases update_calls_eq called' with ⟨rfl, rfl, rfl⟩ | ⟨-, called'⟩
    · exact informed.knows_next reached called moved
    · exact (informed.knows other process' activity' called').mono fun _ _ known => known.later
  · intro process' path bytes unlike here
    by_cases same : process' = process
    · subst same
      simp only [update_self] at here
      by_cases own : path = activity.key
      · subst own
        rcases moved.read_key ownPlain ready here with before | ⟨phase, writes⟩
        · exact (informed.files _ _ _ unlike before).later
        · exact ((informed.knows id _ _ called).writes writes).later
      · have notTemp : path ≠ tempPath (state.managers process').pid activity.key := by
          rw [pid]
          exact (unlike _).symm
        have kept := (moved.frame ownPlain own notTemp).2 ready
        exact (informed.files _ _ _ unlike (kept.symm.trans here)).later
    · simp only [update_of_ne same] at here
      exact (informed.files _ _ _ unlike here).later

end

theorem informed_of_schedule (unspooled : Unspooled start) (checked : Checked start events)
    (within : history <+: events) (ran : schedule step start history = some state) : Informed start history state := by
  refine schedule_invariant_within (Informed start) (.of_unspooled unspooled) ?_ ran
  intro past state event next front reached informed stepped
  have earlier : past <+: events := ((prefix_append _ _).trans front).trans within
  rcases step_cases stepped with
    ⟨id, process, request, rfl, -, rfl⟩ |
      ⟨id, process, activity, backend, manager, next, rfl, called, moved, rfl⟩
  · have member := (front.trans within).subset (mem_append_right _ (mem_singleton_self _))
    exact informed.invoke (checked.plain id process request member)
  · exact informed.advance reached called moved fun id' activity' different called' =>
      checked.separate past state earlier reached id id' process activity activity' different called called'

/-- If the check of each put is made and still stands when it writes, no update of
another process is lost; and a refused put changes nothing in any run. -/
theorem no_lost_update_of_checked (start : StorageState Process) (events : List (StorageEvent Process))
    (unspooled : Unspooled start) (checked : Checked start events) : NoLostUpdate start events where
  known := by
    intro past id state last process key data seen value within reached called here _ _
    have earlier : past <+: events := (prefix_append _ _).trans within
    have informed := informed_of_schedule unspooled checked earlier reached
    rcases checked.current past id state process key data seen within reached called with
      gone | current
    · rw [here] at gone
      cases gone
    · rw [here] at current
      subst current
      exact informed.knows id process _ called
  untouched := by
    intro past id state after last process key data message within reached stepped ran refused
    obtain ⟨later, rfl⟩ := within
    obtain ⟨after', reached', ran⟩ := schedule_append.mp ran
    obtain ⟨state', before, stepped'⟩ := schedule_concat.mp reached'
    rw [reached] at before
    cases before
    rw [stepped] at stepped'
    cases stepped'
    rcases step_cases stepped with
      ⟨_, _, _, wrong, -, -⟩ |
        ⟨_, process', activity, backend, manager, next, same, called, moved, rfl⟩
    · cases wrong
    cases same
    by_cases unrefused : activity.Unrefused
    · obtain ⟨activity', ended, unrefused'⟩ := unrefused_of_schedule (update_self ..) (unrefused.step moved) ran
      rw [refused] at ended
      cases ended
      exact absurd rfl (unrefused' message)
    · obtain ⟨backendSame, spoolSame⟩ := moved.untouched unrefused
      refine ⟨backendSame, ?_⟩
      intro other
      by_cases same : other = process'
      · subst same
        simpa only [update_self] using spoolSame
      · simp only [update_of_ne same]

end Runs

namespace ConflictSample

def shared : StorageState Bool where
  backend := .empty
  managers := fun process => ⟨if process then 8 else 7, .empty, none⟩
  calls := fun _ => none

def steps (id : Nat) (process : Bool) (request : Request) (count : Nat) : List (StorageEvent Bool) :=
  .invoke id process request :: replicate count (.advance id)

def readFirst : List (StorageEvent Bool) :=
  steps 0 false (.put "k" [1]) 6 ++ steps 1 true (.get "k") 4 ++ steps 2 true (.put "k" [2]) 7

def unread : List (StorageEvent Bool) :=
  steps 0 false (.put "k" [1]) 6 ++ steps 1 true (.put "k" [2]) 6

variable (state : StorageState Bool)

def writesAt (id : Nat) : Bool :=
  (state.calls id).any fun call => call.2.writes.isSome

def currentAt (id : Nat) : Bool :=
  match state.calls id with
  | some (_, .put key _ (.store seen)) =>
    state.backend.objects key == none || seen == some (state.backend.objects key)
  | _ => true

theorem unspooled_shared : Unspooled shared := ⟨fun _ => rfl, fun _ _ => rfl⟩

section
variable {past : List (StorageEvent Bool)} {state : StorageState Bool} {id : Nat} (within : past <+: readFirst)
  (ran : schedule step shared past = some state) (called : state.calls id ≠ none)
include within ran called

theorem ids_of_readFirst : id ∈ [0, 1, 2] := by
  obtain ⟨process, request, member⟩ := invoked_of_called (fun _ => rfl) ran called
  have aimed := within.subset member
  simp [readFirst, steps] at aimed
  rcases aimed with ⟨rfl, -⟩ | ⟨rfl, -⟩ | ⟨rfl, -⟩ <;> decide

omit within ran called in
/-- At every point of the run at most one call writes, and the puts are current. -/
theorem readFirst_inits : readFirst.inits.all (fun past => (schedule step shared past).all fun state =>
    [0, 1, 2].all fun id => currentAt state id &&
    [0, 1, 2].all fun other => id == other || !(writesAt state id && writesAt state other)) = true := by decide +kernel

theorem readFirst_point : currentAt state id = true ∧ ∀ other, state.calls other ≠ none → id ≠ other →
      ¬ (writesAt state id = true ∧ writesAt state other = true) := by
  have all := all_eq_true.mp readFirst_inits past ((mem_inits _ _).mpr within)
  rw [ran] at all
  have here := all_eq_true.mp all id (ids_of_readFirst within ran called)
  rw [Bool.and_eq_true] at here
  refine ⟨here.1, ?_⟩
  intro other called' different both
  have pair := all_eq_true.mp here.2 other (ids_of_readFirst within ran called')
  simp [different, both.1, both.2] at pair

end

theorem checked_readFirst : Checked shared readFirst where
  plain := by
    intro id process request member other same
    have key : request.key = "k" := by
      simp [readFirst, steps] at member
      rcases member with ⟨-, -, rfl⟩ | ⟨-, -, rfl⟩ | ⟨-, -, rfl⟩ <;> rfl
    have long := tempPath_length (shared.managers process).pid other
    rw [same, key] at long
    exact absurd long (by decide)
  separate := by
    intro past state within ran id id' process activity activity' different called called' writes
      writes'
    have there : state.calls id ≠ none := by simp [called]
    have apart := (readFirst_point within ran there).2 id' (by simp [called']) different
    exact absurd ⟨by simp [writesAt, called, writes], by simp [writesAt, called', writes']⟩ apart
  current := by
    intro past id state process key data seen within ran called
    have earlier : past <+: readFirst := (prefix_append _ _).trans within
    have there : state.calls id ≠ none := by simp [called]
    have current := (readFirst_point earlier ran there).1
    simpa [currentAt, called] using current

theorem read_object_replaced : Checked shared readFirst ∧ NoLostUpdate shared readFirst :=
  ⟨checked_readFirst, no_lost_update_of_checked shared readFirst unspooled_shared checked_readFirst⟩

def storedOver : List (StorageEvent Bool) :=
  steps 0 false (.put "k" [1]) 6 ++ steps 1 true (.put "k" [2]) 2

/-- Whether the second process now reads the first object or writes it itself. -/
def learnsAt (id : Nat) : Bool :=
  match state.calls id with
  | some (true, .get _ .called) => true
  | some (true, .put _ data (.store _)) => data == [1]
  | _ => false

theorem storedOver_inits : storedOver.inits.all (fun past => (schedule step shared past).all fun state =>
    [0, 1].all fun id => !(learnsAt state id)) = true := by decide +kernel

theorem storedOver_unacquainted : ¬ Acquainted shared storedOver true "k" [1] := by
  rintro ⟨past, id, state, within, ran, how⟩
  have called : state.calls id ≠ none := by
    rcases how with ⟨called, -⟩ | ⟨seen, called⟩ <;> simp [called]
  have learns : learnsAt state id = true := by
    rcases how with ⟨called, -⟩ | ⟨seen, called⟩ <;> simp [learnsAt, called]
  have earlier : past <+: storedOver := (prefix_append _ _).trans within
  obtain ⟨process, request, member⟩ := invoked_of_called (fun _ => rfl) ran called
  have aimed := earlier.subset member
  have known : id ∈ [0, 1] := by
    simp [storedOver, steps] at aimed
    rcases aimed with ⟨rfl, -⟩ | ⟨rfl, -⟩ <;> decide
  have all := all_eq_true.mp storedOver_inits past ((mem_inits _ _).mpr earlier)
  rw [ran] at all
  have never := all_eq_true.mp all id known
  rw [learns] at never
  cases never

def storing : Option (Bool × Activity) → Bool
  | some (true, .put "k" [2] (.store none)) => true
  | _ => false

def succeeded : Option (Bool × Activity) → Bool
  | some (true, .put "k" [2] (.done (.ok ()))) => true
  | _ => false

/-- The put of the second process succeeds over an object it has never seen. -/
theorem unread_object_replaced : Unspooled shared ∧ (schedule step shared storedOver).map (fun state =>
      (storing (state.calls 1), state.backend.objects "k")) = some (true, some [1]) ∧
    (schedule step shared unread).map (fun last =>
      (succeeded (last.calls 1), last.backend.objects "k")) = some (true, some [2]) ∧ ¬ NoLostUpdate shared unread := by
  have before : (schedule step shared storedOver).map (fun state =>
      (storing (state.calls 1), state.backend.objects "k")) = some (true, some [1]) := by
    decide +kernel
  refine ⟨unspooled_shared, before, (and_iff_left_of_imp ?_).mpr (by decide +kernel)⟩
  intro ends kept
  obtain ⟨state, reached, here⟩ := Option.map_eq_some_iff.mp before
  obtain ⟨last, ran, there⟩ := Option.map_eq_some_iff.mp ends
  have storing' : storing (state.calls 1) = true := (Prod.mk.inj here).1
  have succeeded' : succeeded (last.calls 1) = true := (Prod.mk.inj there).1
  unfold storing at storing'
  split at storing'
  next called =>
    unfold succeeded at succeeded'
    split at succeeded'
    next called' =>
      exact storedOver_unacquainted (kept.known storedOver 1 state last true "k" [2] none [1]
        ⟨_, rfl⟩ reached called (Prod.mk.inj here).2 ran called')
    · cases succeeded'
  · cases storing'

end ConflictSample
end Mahoquot.Registry
