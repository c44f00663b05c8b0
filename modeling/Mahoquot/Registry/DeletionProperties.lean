import Mahoquot.Registry.Storage
import Mahoquot.Library.Checks

/-! Managers of several processes over one backend, one call at a time. A manager answers
from its spool when the backend has no object, and only clears its own. -/

set_option autoImplicit false

namespace Mahoquot.Registry
open Library StorageManager
open Compat (Bytes)

structure StorageSystem (Process : Type) where
  backend : Backend
  managers : Process → StorageManager

inductive StorageCall (Process : Type) where
  | get (process : Process) (key : String)
  | put (process : Process) (key : String) (data : Bytes)
  | delete (process : Process) (key : String)
  | sync (process : Process)
deriving DecidableEq

section Calls
variable {Process : Type} [DecidableEq Process]

variable (system : StorageSystem Process)

def StorageSystem.setManager (process : Process) (manager : StorageManager) : StorageSystem Process :=
  { system with managers := Function.update system.managers process manager }

def StorageSystem.call : StorageCall Process → StorageSystem Process × Except StoreError (Option Bytes)
  | .get process key =>
    let (manager, reply) := (system.managers process).get system.backend key
    (system.setManager process manager, reply)
  | .put process key data =>
    let (manager, backend, reply) := (system.managers process).put system.backend key data
    ({ system.setManager process manager with backend }, reply.map fun _ => none)
  | .delete process key =>
    let (manager, backend, reply) := (system.managers process).delete system.backend key
    ({ system.setManager process manager with backend }, reply.map fun _ => none)
  | .sync process =>
    let (manager, reply) := (system.managers process).syncAllToSpool system.backend
    (system.setManager process manager, reply.map fun _ => none)

def StorageSystem.after (call : StorageCall Process) : StorageSystem Process :=
  (system.call call).1

abbrev systemAt (start : StorageSystem Process) (calls : List (StorageCall Process))
    (position : Nat) : StorageSystem Process :=
  stateAt StorageSystem.after start calls position

theorem systemAt_succ {start : StorageSystem Process} {calls : List (StorageCall Process)}
    {position : Nat} {call : StorageCall Process} (found : calls[position]? = some call) :
    systemAt start calls (position + 1) = (systemAt start calls position).after call :=
  stateAt_succ found

end Calls

section Spool
variable {manager : StorageManager} {backend : Backend} {key path : String} {data : Bytes}

theorem openTemp_entries_none {temp : String} (other : path ≠ temp) (missing : manager.spool.entries path = none) :
    (manager.openTemp temp).1.entries path = none := by
  unfold openTemp
  split
  · simp [Files.entries_create, other, missing]
  · exact missing

theorem writeSpool_entries_none (other : path ≠ key) (missing : manager.spool.entries path = none) :
    (manager.writeSpool key data).1.spool.entries path = none := by
  have untouched : path ≠ tempPath manager.pid key →
      (manager.openTemp (tempPath manager.pid key)).1.entries path = none :=
    fun notTemp => openTemp_entries_none notTemp missing
  simp only [writeSpool]
  split
  next renamed moved =>
    by_cases same : tempPath manager.pid key = key
    · have stays : ((manager.openTemp (tempPath manager.pid key)).1.write
          (manager.openTemp (tempPath manager.pid key)).2 data) = renamed := by
        unfold Files.rename at moved
        rw [if_pos same] at moved
        obtain ⟨_, _, unchanged⟩ := Option.map_eq_some_iff.mp moved
        exact unchanged
      rw [← stays]
      exact untouched (same.symm ▸ other)
    · rw [Files.entries_rename same moved, if_neg other]
      split
      · rfl
      · next notTemp => exact untouched notTemp
  · rw [Files.entries_remove]
    split
    · rfl
    · next notTemp => exact untouched notTemp

theorem writeAll_entries_none {objects : List (String × Bytes)}
    (others : ∀ object ∈ objects, object.1 ≠ path) (missing : manager.spool.entries path = none) :
    (manager.writeAll objects).1.spool.entries path = none := by
  induction objects generalizing manager with
  | nil => exact missing
  | cons object rest ih =>
    obtain ⟨name, bytes⟩ := object
    have written : (manager.writeSpool name bytes).1.spool.entries path = none :=
      writeSpool_entries_none (others (name, bytes) (by simp)).symm missing
    simp only [writeAll]
    split
    next step =>
      rw [step] at written
      exact ih (fun object member => others object (by simp [member])) written
    next step =>
      rw [step] at written
      exact written

theorem snapshot_keys {keys : List String} {objects : List (String × Bytes)}
    (taken : manager.snapshot backend keys = .ok objects) (object : String × Bytes)
    (member : object ∈ objects) : backend.objects object.1 ≠ none := by
  obtain ⟨key, -, fetched⟩ := exists_of_mem_mapM taken member
  split at fetched
  · cases fetched
  next data here =>
    split at fetched <;> cases fetched
    rw [here]
    exact nofun

/-- A sync does not bring back a name without an object, and one that succeeds clears it. -/
theorem syncAllToSpool_entries (gone : backend.objects path = none) : (manager.spool.entries path = none →
      (manager.syncAllToSpool backend).1.spool.entries path = none) ∧ ((manager.syncAllToSpool backend).2 = .ok () →
      (manager.syncAllToSpool backend).1.spool.entries path = none) := by
  simp only [syncAllToSpool]
  cases taken : manager.snapshot backend backend.names with
  | error error => exact ⟨id, nofun⟩
  | ok objects =>
    have others : ∀ object ∈ objects, object.1 ≠ path := by
      rintro object member rfl
      exact snapshot_keys taken object member gone
    have unlisted : backend.names.contains path = false := by
      have absent : path ∉ backend.names := by
        rw [backend.listed, gone]
        exact nofun
      simpa using absent
    have written : manager.spool.entries path = none →
        (manager.writeAll objects).1.spool.entries path = none := writeAll_entries_none others
    dsimp only
    split
    next failed =>
      rw [failed] at written
      exact ⟨written, nofun⟩
    · simp only [Files.retain, unlisted, Bool.false_eq_true, if_false, implies_true, and_self]

theorem get_entries_none (gone : backend.objects path = none) (missing : manager.spool.entries path = none) :
    (manager.get backend key).1.spool.entries path = none := by
  unfold StorageManager.get
  split
  next data here =>
    have other : path ≠ key := by
      rintro rfl
      rw [gone] at here
      cases here
    have written : (manager.writeSpool key data).1.spool.entries path = none := writeSpool_entries_none other missing
    split <;> next step => rwa [step] at written
  · exact missing

theorem put_entries_none (other : path ≠ key) (missing : manager.spool.entries path = none) :
    (manager.put backend key data).1.spool.entries path = none := by
  unfold put
  split
  · exact writeSpool_entries_none other missing
  · exact missing

theorem delete_entries (manager : StorageManager) (backend : Backend) (key path : String) :
    (manager.delete backend key).1.spool.entries path = if path = key then none else manager.spool.entries path :=
  Files.entries_remove _ _ _

end Spool

section Runs
variable {Process : Type} [DecidableEq Process]

variable (start : StorageSystem Process)

/-- After a delete and before the next put of the key, no read of it finds anything. -/
def StaysDeleted (calls : List (StorageCall Process)) : Prop :=
  ∀ deletion reading deleter reader key, deletion < reading →
    calls[deletion]? = some (.delete deleter key) →
    calls[reading]? = some (.get reader key) →
    (∀ position process data, deletion < position → position < reading →
      calls[position]? ≠ some (.put process key data)) →
    ((systemAt start calls reading).call (.get reader key)).2 = .ok none

/-- A manager that reads a deleted key has no spool file of it once it is deleted, or
deletes it itself or synchronises its spool before it reads. -/
def Cleaned (calls : List (StorageCall Process)) : Prop :=
  ∀ deletion reading deleter reader key, deletion < reading →
    calls[deletion]? = some (.delete deleter key) →
    calls[reading]? = some (.get reader key) →
    (∀ position process data, deletion < position → position < reading →
      calls[position]? ≠ some (.put process key data)) →
    ((systemAt start calls (deletion + 1)).managers reader).spool.read key = none ∨
    ∃ position, deletion < position ∧ position < reading ∧
      (calls[position]? = some (.delete reader key) ∨ (calls[position]? = some (.sync reader) ∧
          ((systemAt start calls position).call (.sync reader)).2 = .ok none))

def StorageCall.process : StorageCall Process → Process
  | .get process _ | .put process _ _ | .delete process _ | .sync process => process

attribute [local simp] StorageSystem.call StorageSystem.setManager StorageSystem.after
  StorageCall.process

variable {system : StorageSystem Process} {key : String} {process : Process}
  {call : StorageCall Process}

theorem managers_after_of_ne (other : process ≠ call.process) :
    (system.after call).managers process = system.managers process := by
  cases call <;> exact Function.update_of_ne other _ _

theorem after_objects_none (unput : ∀ process data, call ≠ .put process key data)
    (gone : system.backend.objects key = none) : (system.after call).backend.objects key = none := by
  cases call with
  | get process' other => exact gone
  | put process' other data =>
    have different : key ≠ other := by
      rintro rfl
      exact unput process' data rfl
    simp only [StorageSystem.after, StorageSystem.call, put]
    split
    · exact (Backend.objects_put _ _ _ _).trans ((if_neg different).trans gone)
    · exact gone
  | delete process' other =>
    refine (Backend.objects_delete _ _ _).trans ?_
    split
    · rfl
    · exact gone
  | sync process' => exact gone

/-- Where there is neither an object nor a spool file, only a put makes one. -/
theorem after_entries_none (unput : ∀ process data, call ≠ .put process key data)
    (gone : system.backend.objects key = none) (missing : (system.managers process).spool.entries key = none) :
    ((system.after call).managers process).spool.entries key = none := by
  by_cases own : process = call.process
  · subst own
    cases call with
    | get process' other => simpa using get_entries_none gone missing
    | put process' other data =>
      have different : key ≠ other := by
        rintro rfl
        exact unput process' data rfl
      simpa using put_entries_none different missing
    | delete process' other => simpa [delete_entries] using fun _ => missing
    | sync process' => simpa using (syncAllToSpool_entries gone).1 missing
  · rwa [managers_after_of_ne own]

/-- Its own delete or a successful sync of its spool clears a manager of the key. -/
theorem after_cleaned (gone : system.backend.objects key = none) (cleans : call = .delete process key ∨
    (call = .sync process ∧ (system.call (.sync process)).2 = .ok none)) :
    ((system.after call).managers process).spool.entries key = none := by
  rcases cleans with rfl | ⟨rfl, succeeded⟩
  · simp [delete_entries]
  · have synced : ((system.managers process).syncAllToSpool system.backend).2 = .ok () := by
      cases reply : ((system.managers process).syncAllToSpool system.backend).2 with
      | ok value => rfl
      | error error => simp [reply, Except.map] at succeeded
    simpa using (syncAllToSpool_entries gone).2 synced

theorem get_of_cleaned (gone : system.backend.objects key = none)
    (missing : (system.managers process).spool.entries key = none) : (system.call (.get process key)).2 = .ok none := by
  simp [StorageManager.get, gone, Files.read_eq_none.mpr missing]

/-- If every manager was without the deleted key or has cleared its spool before it reads
it again, then what was deleted stays deleted for all of them. -/
theorem stays_deleted_of_cleaned (calls : List (StorageCall Process)) (cleaned : Cleaned start calls) :
    StaysDeleted start calls := by
  intro deletion reading deleter reader key before deleted read unput
  have unputAt : ∀ position call, deletion ≤ position → position < reading →
      calls[position]? = some call → ∀ process data, call ≠ .put process key data := by
    rintro position call lower upper here process data rfl
    rcases Nat.lt_or_eq_of_le lower with later | rfl
    · exact unput position process data later upper here
    · rw [deleted] at here
      cases here
  -- The object is gone from the delete on.
  have gone : ∀ position, deletion < position → position ≤ reading →
      (systemAt start calls position).backend.objects key = none := by
    intro position lower upper
    refine stateAt_stretch (fun system : StorageSystem Process => system.backend.objects key = none) lower ?_ ?_
    · rw [stateAt_succ deleted]
      exact (Backend.objects_delete _ _ _).trans (if_pos rfl)
    · intro position' call lower' upper' here holds
      exact after_objects_none (unputAt position' call (by omega) (by omega) here) holds
  -- From the time its spool is clear of the key, the reader stays clear of it.
  have clear : ∀ position, deletion < position → position ≤ reading →
      ((systemAt start calls position).managers reader).spool.entries key = none →
      ((systemAt start calls reading).managers reader).spool.entries key = none := by
    intro position lower upper missing
    refine stateAt_stretch (fun system : StorageSystem Process =>
      (system.managers reader).spool.entries key = none) upper missing ?_
    intro position' call lower' upper' here holds
    exact after_entries_none (unputAt position' call (by omega) upper' here) (gone position' (by omega) (by omega)) holds
  apply get_of_cleaned (gone reading before (Nat.le_refl _))
  rcases cleaned deletion reading deleter reader key before deleted read unput with
    missing | ⟨position, lower, upper, cleans⟩
  · exact clear (deletion + 1) (Nat.lt_succ_self _) before (Files.read_eq_none.mp missing)
  · apply clear (position + 1) (by omega) upper
    rcases cleans with own | ⟨sync, succeeded⟩
    · rw [systemAt_succ own]
      exact after_cleaned (gone position lower (by omega)) (.inl rfl)
    · rw [systemAt_succ sync]
      exact after_cleaned (gone position lower (by omega)) (.inr ⟨rfl, succeeded⟩)

end Runs

namespace DeletionSample

def shared : StorageSystem Bool where
  backend := .empty
  managers := fun process => ⟨if process then 8 else 7, .empty, none⟩

def unread : List (StorageCall Bool) :=
  [.put false "k" [1], .delete false "k", .get true "k"]

def remembered : List (StorageCall Bool) :=
  [.put false "k" [1], .get true "k", .delete false "k", .get true "k"]

theorem cleaned_unread : Cleaned shared unread := by
  intro deletion reading deleter reader key before deleted read unput
  rcases deletion with _ | _ | _ | deletion
  · cases deleted
  · rcases reading with _ | _ | _ | reading
    · omega
    · omega
    · cases read
      exact .inl (by decide +kernel)
    · cases read
  · cases deleted
  · cases deleted

theorem unread_key_stays_deleted : Cleaned shared unread ∧ StaysDeleted shared unread :=
  ⟨cleaned_unread, stays_deleted_of_cleaned shared unread cleaned_unread⟩

/-- The second process has read the object, and finds it again when it is deleted. -/
theorem remembered_key_returns : (systemAt shared remembered 3).backend.objects "k" = none ∧
    ((systemAt shared remembered 3).call (.get true "k")).2.toOption = some (some [1]) ∧
    ¬ StaysDeleted shared remembered := by
  have read : ((systemAt shared remembered 3).call (.get true "k")).2.toOption = some (some [1]) := by decide +kernel
  refine ⟨by decide +kernel, read, ?_⟩
  intro stays
  have blank := stays 2 3 false true "k" (by decide) rfl rfl (fun position _ _ lower upper => absurd lower (by omega))
  rw [blank] at read
  cases read

end DeletionSample
end Mahoquot.Registry
