import Mahoquot.Library.Files
import Mahoquot.Compat.Value
import Mahoquot.Library.Runs

/-! The store of documents: a backend shared by processes, and for each process a manager
that keeps copies in its spool directory, below which keys are normalised file names. Then
what one step of a call does to the backend and to the spool. -/

set_option autoImplicit false

namespace Mahoquot.Registry
open Library

open Compat (Bytes)

inductive StoreError where
  | conflict (message : String)
  | io
deriving DecidableEq, Repr

/-- A backend that answers every request: its objects, and their names for a listing. -/
structure Backend where
  objects : String → Option Bytes
  names : List String
  listed : ∀ key, key ∈ names ↔ (objects key).isSome = true

namespace Backend

def empty : Backend where
  objects := fun _ => none
  names := []
  listed := by simp

def put (backend : Backend) (key : String) (data : Bytes) : Backend where
  objects := Function.update backend.objects key (some data)
  names := key :: backend.names
  listed := by
    intro other
    by_cases same : other = key
    · simp [same]
    · simp [same, backend.listed]

def delete (backend : Backend) (key : String) : Backend where
  objects := Function.update backend.objects key none
  names := backend.names.filter (· ≠ key)
  listed := by
    intro other
    by_cases same : other = key
    · simp [same]
    · simp [same, backend.listed]

end Backend

/-- The file name with its extension replaced, or given one. -/
def withExtension (path extension : String) : String :=
  let reversed := path.toList.reverse
  let name := reversed.takeWhile (· ≠ '/')
  match name.dropWhile (· ≠ '.') with
  -- No dot, or only the one of a hidden file: the whole name is the stem.
  | [] | [_] => path ++ "." ++ extension
  | _ :: stem => String.ofList (stem ++ reversed.dropWhile (· ≠ '/')).reverse ++ "." ++ extension

/-- The name under which a spool file is written before it takes its place. It does not
keep the extension of the key. -/
def tempPath (pid : Nat) (key : String) : String :=
  withExtension key ("tmp-" ++ toString pid)

def diverged (key : String) : StoreError :=
  .conflict ("spool conflict for key '" ++ key ++ "': remote backend has diverged from local spool")

def disappeared (key : String) : StoreError :=
  .conflict ("listed storage key disappeared: " ++ key)

/-- A manager with its process, its spool directory and the holder of its mutation lock. -/
structure StorageManager where
  pid : Nat
  spool : Files String
  mutation : Option Nat

/-! Calls that run to their end without another beside them. -/

namespace StorageManager
variable (manager : StorageManager)

def openTemp (temp : String) : Files String × Nat :=
  match manager.spool.entries temp with
  | none => (manager.spool.create temp, manager.spool.next)
  | some file => (manager.spool.truncate file, file)

def writeSpool (key : String) (data : Bytes) : StorageManager × Except StoreError Unit :=
  let temp := tempPath manager.pid key
  let (opened, file) := manager.openTemp temp
  let written := opened.write file data
  match written.rename temp key with
  | some spool => ({ manager with spool }, .ok ())
  | none => ({ manager with spool := written.remove temp }, .error .io)

variable (backend : Backend)

def get (key : String) : StorageManager × Except StoreError (Option Bytes) :=
  match backend.objects key with
  | some data =>
    match manager.writeSpool key data with
    | (manager, .ok ()) => (manager, .ok (some data))
    | (manager, .error error) => (manager, .error error)
  | none => (manager, .ok (manager.spool.read key))

/-- Whether the backend still holds what the spool has. -/
def agrees (key : String) : Bool :=
  match manager.spool.read key, backend.objects key with
  | some spooled, some remote => remote == spooled
  | _, _ => true

def put (backend : Backend) (key : String) (data : Bytes) : StorageManager × Backend × Except StoreError Unit :=
  if manager.agrees backend key then
    match manager.writeSpool key data with
    | (manager, reply) => (manager, backend.put key data, reply)
  else (manager, backend, .error (diverged key))

def delete (backend : Backend) (key : String) : StorageManager × Backend × Except StoreError Unit :=
  ({ manager with spool := manager.spool.remove key }, backend.delete key, .ok ())

/-- The objects of the backend, each checked against the spool. -/
def snapshot (keys : List String) : Except StoreError (List (String × Bytes)) :=
  keys.mapM fun key =>
    match backend.objects key with
    | none => .error (disappeared key)
    | some data => if manager.agrees backend key then .ok (key, data) else .error (diverged key)

def writeAll (manager : StorageManager) : List (String × Bytes) → StorageManager × Except StoreError Unit
  | [] => (manager, .ok ())
  | (key, data) :: rest =>
    match manager.writeSpool key data with
    | (manager, .ok ()) => manager.writeAll rest
    | (manager, .error error) => (manager, .error error)

def syncAllToSpool : StorageManager × Except StoreError Unit :=
  match manager.snapshot backend backend.names with
  | .error error => (manager, .error error)
  | .ok objects =>
    match manager.writeAll objects with
    | (manager, .error error) => (manager, .error error)
    | (manager, .ok ()) =>
      ({ manager with
          spool := manager.spool.retain (fun key => backend.names.contains key) }, .ok ())

end StorageManager

section Steps

/-! Calls beside each other. A step is one access to the backend, to a name or to a
file of the spool, or to the lock. -/

/-- Where the writing of a spool file is. -/
inductive SpoolWrite where
  | create
  | reopen
  | write (file : Nat)
  | rename
  | cleanup
deriving DecidableEq, Repr

inductive WriteStatus where
  | running (phase : SpoolWrite)
  | written
  | failed
deriving DecidableEq, Repr

variable (manager : StorageManager)

def StorageManager.writeStep (key : String) (data : Bytes) : SpoolWrite → StorageManager × WriteStatus
  | .create =>
    match manager.spool.entries (tempPath manager.pid key) with
    | none =>
      ({ manager with spool := manager.spool.create (tempPath manager.pid key) }, .running (.write manager.spool.next))
    | some _ => (manager, .running .reopen)
  | .reopen =>
    match manager.spool.entries (tempPath manager.pid key) with
    | none => (manager, .running .cleanup)
    | some file => ({ manager with spool := manager.spool.truncate file }, .running (.write file))
  | .write file => ({ manager with spool := manager.spool.write file data }, .running .rename)
  | .rename =>
    match manager.spool.rename (tempPath manager.pid key) key with
    | some spool => ({ manager with spool }, .written)
    | none => (manager, .running .cleanup)
  | .cleanup => ({ manager with spool := manager.spool.remove (tempPath manager.pid key) }, .failed)

inductive GetPhase where
  | called
  | fallback
  | refresh (data : Bytes) (phase : SpoolWrite)
  | done (reply : Except StoreError (Option Bytes))

inductive PutPhase where
  | called
  | check
  | compare (spooled : Bytes)
  /-- With what the check read in the backend, if it was made. -/
  | store (seen : Option (Option Bytes))
  | stage (phase : SpoolWrite)
  | done (reply : Except StoreError Unit)

inductive DeletePhase where
  | called
  | erase
  | unspool
  | done

inductive Activity where
  | get (key : String) (phase : GetPhase)
  | put (key : String) (data : Bytes) (phase : PutPhase)
  | delete (key : String) (phase : DeletePhase)

structure Move where
  backend : Backend
  manager : StorageManager
  activity : Activity

/-- Taking the lock waits until it is free. -/
def StorageManager.lock (id : Nat) : Option StorageManager :=
  if manager.mutation = none then some { manager with mutation := some id } else none

def StorageManager.unlock : StorageManager :=
  { manager with mutation := none }

def getStep (backend : Backend) (manager : StorageManager) (key : String) : GetPhase → Option Move
  | .called =>
    match backend.objects key with
    | some data => some ⟨backend, manager, .get key (.refresh data .create)⟩
    | none => some ⟨backend, manager, .get key .fallback⟩
  | .fallback => some ⟨backend, manager, .get key (.done (.ok (manager.spool.read key)))⟩
  | .refresh data phase =>
    match manager.writeStep key data phase with
    | (manager, .running phase) => some ⟨backend, manager, .get key (.refresh data phase)⟩
    | (manager, .written) => some ⟨backend, manager, .get key (.done (.ok (some data)))⟩
    | (manager, .failed) => some ⟨backend, manager, .get key (.done (.error .io))⟩
  | .done _ => none

def putStep (id : Nat) (backend : Backend) (manager : StorageManager) (key : String)
    (data : Bytes) : PutPhase → Option Move
  | .called => (manager.lock id).map fun manager => ⟨backend, manager, .put key data .check⟩
  | .check =>
    match manager.spool.read key with
    | some spooled => some ⟨backend, manager, .put key data (.compare spooled)⟩
    | none => some ⟨backend, manager, .put key data (.store none)⟩
  | .compare spooled =>
    match backend.objects key with
    | some remote =>
      if remote = spooled then
        some ⟨backend, manager, .put key data (.store (some (some remote)))⟩
      else
        some ⟨backend, manager.unlock, .put key data (.done (.error (diverged key)))⟩
    | none => some ⟨backend, manager, .put key data (.store (some none))⟩
  | .store _ => some ⟨backend.put key data, manager, .put key data (.stage .create)⟩
  | .stage phase =>
    match manager.writeStep key data phase with
    | (manager, .running phase) => some ⟨backend, manager, .put key data (.stage phase)⟩
    | (manager, .written) => some ⟨backend, manager.unlock, .put key data (.done (.ok ()))⟩
    | (manager, .failed) => some ⟨backend, manager.unlock, .put key data (.done (.error .io))⟩
  | .done _ => none

def deleteStep (id : Nat) (backend : Backend) (manager : StorageManager) (key : String) : DeletePhase → Option Move
  | .called => (manager.lock id).map fun manager => ⟨backend, manager, .delete key .erase⟩
  | .erase => some ⟨backend.delete key, manager, .delete key .unspool⟩
  | .unspool => some ⟨backend, { manager with spool := manager.spool.remove key }.unlock, .delete key .done⟩
  | .done => none

def Activity.step (id : Nat) (backend : Backend) (manager : StorageManager) : Activity → Option Move
  | .get key phase => getStep backend manager key phase
  | .put key data phase => putStep id backend manager key data phase
  | .delete key phase => deleteStep id backend manager key phase

/-- Managers over one backend, and the calls made through them. -/
structure StorageState (Process : Type) where
  backend : Backend
  managers : Process → StorageManager
  calls : Nat → Option (Process × Activity)

inductive Request where
  | get (key : String)
  | put (key : String) (data : Bytes)
  | delete (key : String)

def Request.key : Request → String
  | .get key => key
  | .put key _ => key
  | .delete key => key

def Request.activity : Request → Activity
  | .get key => .get key .called
  | .put key data => .put key data .called
  | .delete key => .delete key .called

inductive StorageEvent (Process : Type) where
  | invoke (id : Nat) (process : Process) (request : Request)
  | advance (id : Nat)

def StorageState.step {Process : Type} [DecidableEq Process] (state : StorageState Process) :
    StorageEvent Process → Option (StorageState Process)
  | .invoke id process request =>
    match state.calls id with
    | some _ => none
    | none =>
      some { state with
        calls := Function.update state.calls id (some (process, request.activity)) }
  | .advance id =>
    match state.calls id with
    | none => none
    | some (process, activity) =>
      (activity.step id state.backend (state.managers process)).map fun move =>
        { backend := move.backend
          managers := Function.update state.managers process move.manager
          calls := Function.update state.calls id (some (process, move.activity)) }

end Steps

open Files Function

section Backend
variable (backend : Backend) (key other : String) (data : Bytes)

@[simp] theorem Backend.objects_put : (backend.put key data).objects other =
      if other = key then some data else backend.objects other := by
  simp [Backend.put, update_apply]

@[simp] theorem Backend.objects_delete : (backend.delete key).objects other =
      if other = key then none else backend.objects other := by
  simp [Backend.delete, update_apply]

end Backend

/-- A name stands for the same file with the same bytes in two spools. -/
def SameFile (before after : Files String) (path : String) : Prop :=
  after.entries path = before.entries path ∧ after.read path = before.read path

theorem SameFile.refl (files : Files String) (path : String) : SameFile files files path :=
  ⟨rfl, rfl⟩

/-- The temporary file is as the writer left it. -/
def SpoolWrite.Ready (files : Files String) (temp : String) (data : Bytes) : SpoolWrite → Prop
  | .create => True
  | .reopen => ∃ file, files.entries temp = some file
  | .write file => files.entries temp = some file ∧ files.read temp = some []
  | .rename => files.read temp = some data
  | .cleanup => False

theorem SpoolWrite.Ready.transfer {before after : Files String} {temp : String} {data : Bytes} {phase : SpoolWrite}
    (ready : phase.Ready before temp data) (same : SameFile before after temp) : phase.Ready after temp data := by
  obtain ⟨entry, bytes⟩ := same
  cases phase with
  | create => trivial
  | reopen => simpa only [SpoolWrite.Ready, entry] using ready
  | write file => simpa only [SpoolWrite.Ready, entry, bytes] using ready
  | rename => simpa only [SpoolWrite.Ready, bytes] using ready
  | cleanup => exact ready

section WriteStep
variable {manager after : StorageManager} {key : String} {data : Bytes} {phase : SpoolWrite}
  {status : WriteStatus}

theorem writeStep_pid (moved : manager.writeStep key data phase = (after, status)) :
    after.pid = manager.pid ∧ after.mutation = manager.mutation := by
  unfold StorageManager.writeStep at moved
  repeat' split at moved
  all_goals
    cases moved
    exact ⟨rfl, rfl⟩

/-- Whatever the temporary file has become, a write gives and takes no other names than
its two. While the temporary file is the writer's own, nothing is seen of the write under
other names. -/
theorem writeStep_frame (plain : tempPath manager.pid key ≠ key)
    (moved : manager.writeStep key data phase = (after, status)) (path : String)
    (notKey : path ≠ key) (notTemp : path ≠ tempPath manager.pid key) :
    after.spool.entries path = manager.spool.entries path ∧ (phase.Ready manager.spool (tempPath manager.pid key) data →
        after.spool.read path = manager.spool.read path) := by
  unfold StorageManager.writeStep at moved
  cases phase <;> simp only at moved
  case create =>
    split at moved <;> cases moved
    · exact ⟨by simp [entries_create, notTemp], fun _ => read_create_of_ne _ notTemp⟩
    · exact ⟨rfl, fun _ => rfl⟩
  case reopen =>
    split at moved <;> cases moved
    · exact ⟨rfl, fun _ => rfl⟩
    · next file named => exact ⟨rfl, fun _ => read_overwrite_of_ne named notTemp _⟩
  case write file =>
    cases moved
    exact ⟨rfl, fun ready => read_overwrite_of_ne ready.1 notTemp _⟩
  case rename =>
    split at moved <;> cases moved
    · next renamed =>
      rw [entries_rename plain renamed, read_rename plain renamed]
      simp [notKey, notTemp]
    · exact ⟨rfl, fun _ => rfl⟩
  case cleanup =>
    cases moved
    exact ⟨by simp [entries_remove, notTemp], False.elim⟩

/-- How a write goes on that nobody disturbs: to the end, where the key has the data and
the temporary name is free. -/
def WriteStatus.Fits (before after : Files String) (temp key : String) (data : Bytes) : WriteStatus → Prop
  | .running phase => phase.Ready after temp data ∧ after.read key = before.read key
  | .written => after.read key = some data ∧ after.read temp = none
  | .failed => False

theorem writeStep_fits (plain : tempPath manager.pid key ≠ key)
    (ready : phase.Ready manager.spool (tempPath manager.pid key) data)
    (moved : manager.writeStep key data phase = (after, status)) :
    status.Fits manager.spool after.spool (tempPath manager.pid key) key data := by
  unfold StorageManager.writeStep at moved
  cases phase <;> simp only at moved
  case create =>
    split at moved <;> cases moved
    · refine ⟨⟨by simp [Files.entries_create], ?_⟩, Files.read_create_of_ne _ plain.symm⟩
      simp [Files.read, Files.entries_create, Files.contents_create]
    · next file named => exact ⟨⟨file, named⟩, rfl⟩
  case reopen =>
    split at moved <;> cases moved
    next missing =>
      obtain ⟨file, named⟩ := ready
      rw [missing] at named
      cases named
    next file named =>
      exact ⟨⟨named, read_overwrite_self named _⟩, read_overwrite_of_ne named plain.symm _⟩
  case write file =>
    cases moved
    obtain ⟨named, blank⟩ := ready
    have untouched : manager.spool.contents file = [] := by
      simpa [Files.read, named] using blank
    refine ⟨?_, read_overwrite_of_ne named plain.symm _⟩
    change (manager.spool.write file data).read (tempPath manager.pid key) = some data
    unfold write
    rw [read_overwrite_self named, untouched]
    simp
  case rename =>
    split at moved
    next renamed =>
      cases moved
      refine ⟨?_, ?_⟩
      · rw [read_rename plain renamed, if_pos rfl]
        exact ready
      · rw [read_rename plain renamed, if_neg plain, if_pos rfl]
    next failed =>
      obtain ⟨file, named, -⟩ := Option.map_eq_some_iff.mp ready
      obtain ⟨renamed, succeeded⟩ := exists_rename named key
      rw [succeeded] at failed
      cases failed
  case cleanup => exact ready.elim

end WriteStep

namespace Activity

def key : Activity → String
  | .get key _ => key
  | .put key _ _ => key
  | .delete key _ => key

def mutates : Activity → Bool
  | .get _ _ => false
  | .put _ _ .called => false
  | .put _ _ (.done _) => false
  | .put _ _ _ => true
  | .delete _ .called => false
  | .delete _ .done => false
  | .delete _ _ => true

/-- A read that found its object and brings it to the spool, without the lock. -/
def refreshes : Activity → Bool
  | .get _ (.refresh _ _) => true
  | _ => false

def works (activity : Activity) : Bool := activity.mutates || activity.refreshes

def writes : Activity → Option (Bytes × SpoolWrite)
  | .get _ (.refresh data phase) => some (data, phase)
  | .put _ data (.stage phase) => some (data, phase)
  | _ => none

def finished : Activity → Bool
  | .get _ (.done _) => true
  | .put _ _ (.done _) => true
  | .delete _ .done => true
  | _ => false

end Activity

inductive Moves (id : Nat) (backend : Backend) (manager : StorageManager) :
    Activity → Backend → StorageManager → Activity → Prop
  | found {key data} : backend.objects key = some data →
      Moves id backend manager (.get key .called)
        backend manager (.get key (.refresh data .create))
  | missing {key} : backend.objects key = none →
      Moves id backend manager (.get key .called) backend manager (.get key .fallback)
  | fallback {key} :
      Moves id backend manager (.get key .fallback)
        backend manager (.get key (.done (.ok (manager.spool.read key))))
  | refresh {key data phase next after} :
      manager.writeStep key data phase = (after, .running next) →
      Moves id backend manager (.get key (.refresh data phase))
        backend after (.get key (.refresh data next))
  | refreshed {key data phase after} :
      manager.writeStep key data phase = (after, .written) →
      Moves id backend manager (.get key (.refresh data phase))
        backend after (.get key (.done (.ok (some data))))
  | refreshFailed {key data phase after} :
      manager.writeStep key data phase = (after, .failed) →
      Moves id backend manager (.get key (.refresh data phase))
        backend after (.get key (.done (.error .io)))
  | lockPut {key data} : manager.mutation = none →
      Moves id backend manager (.put key data .called)
        backend { manager with mutation := some id } (.put key data .check)
  | spooled {key data spooled} : manager.spool.read key = some spooled →
      Moves id backend manager (.put key data .check)
        backend manager (.put key data (.compare spooled))
  | unspooled {key data} : manager.spool.read key = none →
      Moves id backend manager (.put key data .check)
        backend manager (.put key data (.store none))
  | same {key data spooled} : backend.objects key = some spooled →
      Moves id backend manager (.put key data (.compare spooled))
        backend manager (.put key data (.store (some (some spooled))))
  | diverged {key data spooled remote} : backend.objects key = some remote →
      remote ≠ spooled →
      Moves id backend manager (.put key data (.compare spooled))
        backend manager.unlock (.put key data (.done (.error (diverged key))))
  | gone {key data spooled} : backend.objects key = none →
      Moves id backend manager (.put key data (.compare spooled))
        backend manager (.put key data (.store (some none)))
  | store {key data seen} :
      Moves id backend manager (.put key data (.store seen))
        (backend.put key data) manager (.put key data (.stage .create))
  | stage {key data phase next after} :
      manager.writeStep key data phase = (after, .running next) →
      Moves id backend manager (.put key data (.stage phase))
        backend after (.put key data (.stage next))
  | staged {key data phase after} :
      manager.writeStep key data phase = (after, .written) →
      Moves id backend manager (.put key data (.stage phase))
        backend after.unlock (.put key data (.done (.ok ())))
  | stageFailed {key data phase after} :
      manager.writeStep key data phase = (after, .failed) →
      Moves id backend manager (.put key data (.stage phase))
        backend after.unlock (.put key data (.done (.error .io)))
  | lockDelete {key} : manager.mutation = none →
      Moves id backend manager (.delete key .called)
        backend { manager with mutation := some id } (.delete key .erase)
  | erase {key} :
      Moves id backend manager (.delete key .erase)
        (backend.delete key) manager (.delete key .unspool)
  | unspool {key} :
      Moves id backend manager (.delete key .unspool)
        backend { manager with spool := manager.spool.remove key }.unlock (.delete key .done)

section Step
variable {id : Nat} {backend : Backend} {manager : StorageManager}

theorem step_moves {activity : Activity} {move : Move} (moved : activity.step id backend manager = some move) :
    Moves id backend manager activity move.backend move.manager move.activity := by
  unfold Activity.step getStep putStep deleteStep StorageManager.lock at moved
  split at moved <;> split at moved <;> try split at moved
  all_goals try split at moved
  all_goals cases moved
  · exact .found ‹_›
  · exact .missing ‹_›
  · exact .fallback
  · exact .refresh ‹_›
  · exact .refreshed ‹_›
  · exact .refreshFailed ‹_›
  · exact .lockPut ‹_›
  · exact .spooled ‹_›
  · exact .unspooled ‹_›
  · next here equal => exact equal ▸ .same here
  · exact .diverged ‹_› ‹_›
  · exact .gone ‹_›
  · exact .store
  · exact .stage ‹_›
  · exact .staged ‹_›
  · exact .stageFailed ‹_›
  · exact .lockDelete ‹_›
  · exact .erase
  · exact .unspool

variable {activity next : Activity} {backend' : Backend} {manager' : StorageManager}

section
variable (moved : Moves id backend manager activity backend' manager' next)
include moved

theorem Moves.key_eq : next.key = activity.key := by
  cases moved <;> rfl

theorem Moves.pid_eq : manager'.pid = manager.pid := by
  cases moved with
  | refresh written | refreshed written | refreshFailed written | stage written
  | staged written | stageFailed written => exact (writeStep_pid written).1
  | _ => rfl

theorem Moves.objects_eq {other : String} (different : other ≠ activity.key) :
    backend'.objects other = backend.objects other := by
  cases moved with
  | store => exact (Backend.objects_put _ _ _ _).trans (if_neg different)
  | erase => exact (Backend.objects_delete _ _ _).trans (if_neg different)
  | _ => rfl

/-- A call that has not begun to work, or only reads the spool, changes neither the
backend nor the spool. -/
theorem Moves.idle (idle : activity.works = false) : backend' = backend ∧ manager'.spool = manager.spool := by
  cases moved with
  | found | missing | fallback | lockPut | lockDelete => exact ⟨rfl, rfl⟩
  | _ => cases idle

theorem Moves.of_locked {holder : Nat} (held : manager.mutation = some holder) (idle : activity.mutates = false) :
    backend' = backend ∧ manager'.mutation = manager.mutation ∧ next.mutates = false := by
  cases moved with
  | found | missing | fallback => exact ⟨rfl, rfl, rfl⟩
  | refresh written | refreshed written | refreshFailed written => exact ⟨rfl, (writeStep_pid written).2, rfl⟩
  | lockPut free | lockDelete free =>
    rw [free] at held
    cases held
  | _ => cases idle

variable {path : String}

/-- What a step leaves of the other names, and of their files while its temporary file is
its own. -/
theorem Moves.frame (plain : tempPath manager.pid activity.key ≠ activity.key)
    (notKey : path ≠ activity.key) (notTemp : path ≠ tempPath manager.pid activity.key) :
    manager'.spool.entries path = manager.spool.entries path ∧ ((∀ data phase, activity.writes = some (data, phase) →
          phase.Ready manager.spool (tempPath manager.pid activity.key) data) →
        manager'.spool.read path = manager.spool.read path) := by
  cases moved with
  | refresh written | refreshed written | refreshFailed written | stage written
  | staged written | stageFailed written =>
    obtain ⟨entries, bytes⟩ := writeStep_frame plain written path notKey notTemp
    exact ⟨entries, fun ready => bytes (ready _ _ rfl)⟩
  | unspool =>
    exact ⟨(entries_remove _ _ _).trans (if_neg notKey), fun _ => (read_remove _ _ _).trans (if_neg notKey)⟩
  | _ => exact ⟨rfl, fun _ => rfl⟩

/-- A call that writes no spool file changes at most the one of its key. -/
theorem Moves.frame_of_unwritten (unwritten : activity.writes = none)
    (notKey : path ≠ activity.key) : SameFile manager.spool manager'.spool path := by
  cases moved with
  | refresh | refreshed | refreshFailed | stage | staged | stageFailed => cases unwritten
  | unspool => exact ⟨(entries_remove _ _ _).trans (if_neg notKey), (read_remove _ _ _).trans (if_neg notKey)⟩
  | _ => exact .refl _ _

end

variable {Process : Type}

theorem update_calls_eq {calls : Nat → Option (Process × Activity)} {other : Nat} {process process' : Process}
    (called : update calls id (some (process, next)) other = some (process', activity)) :
    (other = id ∧ process = process' ∧ next = activity) ∨ (other ≠ id ∧ calls other = some (process', activity)) := by
  by_cases same : other = id
  · subst same
    rw [update_self] at called
    cases called
    exact .inl ⟨rfl, rfl, rfl⟩
  · rw [update_of_ne same] at called
    exact .inr ⟨same, called⟩

/-- An event brings a new call or moves one on. -/
theorem StorageState.step_cases [DecidableEq Process] {state after : StorageState Process}
    {event : StorageEvent Process} (stepped : state.step event = some after) :
    (∃ id process request, event = .invoke id process request ∧ state.calls id = none ∧ after = { state with
        calls := update state.calls id (some (process, request.activity)) }) ∨
    ∃ id process activity backend manager next, event = .advance id ∧ state.calls id = some (process, activity) ∧
      Moves id state.backend (state.managers process) activity backend manager next ∧
      after = ⟨backend, update state.managers process manager, update state.calls id (some (process, next))⟩ := by
  cases event with
  | invoke id process request =>
    simp only [StorageState.step] at stepped
    split at stepped
    · cases stepped
    next fresh =>
      cases stepped
      exact .inl ⟨id, process, request, rfl, fresh, rfl⟩
  | advance id =>
    simp only [StorageState.step] at stepped
    split at stepped
    · cases stepped
    next process activity called =>
      obtain ⟨move, moved, rfl⟩ := Option.map_eq_some_iff.mp stepped
      exact .inr ⟨id, process, activity, _, _, _, rfl, called, step_moves moved, rfl⟩

theorem invoked_of_called [DecidableEq Process] {start state : StorageState Process}
    {past : List (StorageEvent Process)} (uncalled : ∀ id, start.calls id = none)
    (ran : schedule StorageState.step start past = some state)
    (called : state.calls id ≠ none) : ∃ process request, .invoke id process request ∈ past := by
  have along := schedule_invariant
    (fun history state => ∀ id, state.calls id ≠ none →
      ∃ process request, StorageEvent.invoke id process request ∈ history)
    (fun id called => absurd (uncalled id) called) ?_ ran
  · exact along id called
  · intro history state event next holds stepped id called
    rcases StorageState.step_cases stepped with
      ⟨id', process, request, rfl, -, rfl⟩ | ⟨id', process, _, _, _, _, rfl, here, -, rfl⟩
    · by_cases same : id = id'
      · subst same
        exact ⟨process, request, by simp⟩
      · obtain ⟨process', request', member⟩ := holds id (by simpa [update_of_ne same] using called)
        exact ⟨process', request', List.mem_append_left _ member⟩
    · have before : state.calls id ≠ none := by
        by_cases same : id = id'
        · subst same
          simp [here]
        · simpa [update_of_ne same] using called
      obtain ⟨process', request', member⟩ := holds id before
      exact ⟨process', request', List.mem_append_left _ member⟩

/-- A temporary name is never as short as one character. -/
theorem tempPath_length (pid : Nat) (key : String) : 1 < (tempPath pid key).toList.length := by
  unfold tempPath withExtension
  simp only
  split <;> simp <;> omega

end Step
end Mahoquot.Registry
