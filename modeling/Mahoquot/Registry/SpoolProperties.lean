import Mahoquot.Registry.Storage

/-! One manager with calls beside each other. The lock keeps the mutations apart; a read
that brings its object to the spool does not take it. -/

set_option autoImplicit false

namespace Mahoquot.Registry
open Library Function
open Compat (Bytes)

/-- The spool has nothing under the name that the backend does not have. -/
def Mirrors (backend : Backend) (spool : Files String) (path : String) : Prop :=
  ∀ bytes, spool.read path = some bytes → backend.objects path = some bytes

/-- A name whose spool file the call may have left behind the backend, or is writing. -/
def Activity.Unsettled (pid : Nat) (path : String) : Activity → Prop
  | .get key (.refresh _ _) => path = tempPath pid key
  | .put key _ (.stage _) => path = key ∨ path = tempPath pid key
  | .delete key .unspool => path = key
  | _ => False

/-- What a call relies on in the backend, and that no put is refused. -/
def Activity.Warranted (backend : Backend) : Activity → Prop
  | .put key _ (.compare spooled) => backend.objects key = some spooled
  | .put _ _ (.done reply) => ∀ message, reply ≠ .error (.conflict message)
  | .delete key .unspool => backend.objects key = none
  | _ => True

/-- What holds of a call that nobody disturbs. -/
structure Activity.Sound (backend : Backend) (manager : StorageManager) (id : Nat) (activity : Activity) : Prop where
  locked : activity.mutates = true → manager.mutation = some id
  writing : ∀ data phase, activity.writes = some (data, phase) →
    backend.objects activity.key = some data ∧
      phase.Ready manager.spool (tempPath manager.pid activity.key) data
  warranted : activity.Warranted backend

variable {activity : Activity}

theorem Activity.works_of_mutates (mutates : activity.mutates = true) : activity.works = true := by
  simp [Activity.works, mutates]

theorem Activity.works_of_writes {data : Bytes} {phase : SpoolWrite}
    (writes : activity.writes = some (data, phase)) : activity.works = true := by
  cases activity with
  | get key phase | put key data phase => cases phase <;> first | rfl | cases writes
  | delete key phase => cases writes

theorem Activity.idle_of_finished (finished : activity.finished = true) : activity.works = false := by
  cases activity with
  | get key phase | put key data phase | delete key phase => cases phase <;> first | rfl | cases finished

theorem Activity.Unsettled.cases {pid : Nat} {path : String} (unsettled : activity.Unsettled pid path) :
    activity.works = true ∧ (path = activity.key ∨ path = tempPath pid activity.key) := by
  unfold Activity.Unsettled at unsettled
  split at unsettled
  · exact ⟨rfl, .inr unsettled⟩
  · exact ⟨rfl, unsettled⟩
  · exact ⟨rfl, .inl unsettled⟩
  · exact unsettled.elim

section Own
variable {id : Nat} {backend backend' : Backend} {manager manager' : StorageManager}
  {activity next : Activity}

/-- A call that only reads, waits or has ended is sound as it is. -/
theorem Activity.Sound.of_idle (idle : activity.works = false)
    (warranted : activity.Warranted backend) : activity.Sound backend manager id where
  locked := by
    intro mutates
    rw [Activity.works_of_mutates mutates] at idle
    cases idle
  writing := by
    intro data phase writes
    rw [Activity.works_of_writes writes] at idle
    cases idle
  warranted := warranted

section
variable (sound : activity.Sound backend manager id) (plain : tempPath manager.pid activity.key ≠ activity.key)
  (moved : Moves id backend manager activity backend' manager' next)
include sound plain moved

/-- A step keeps its own call sound, if the spool mirrors the backend at the key when
the call begins to work. -/
theorem Activity.Sound.step (mirror : activity.works = true → Mirrors backend manager.spool activity.key ∨
      activity.Unsettled manager.pid activity.key) : next.Sound backend' manager' id := by
  cases moved with
  | found here =>
    refine ⟨nofun, ?_, trivial⟩
    intro data phase writes
    cases writes
    exact ⟨here, trivial⟩
  | missing | fallback => exact .of_idle rfl trivial
  | refresh written | stage written =>
    obtain ⟨object, ready⟩ := sound.writing _ _ rfl
    obtain ⟨pid, mutation⟩ := writeStep_pid written
    have fits := writeStep_fits plain ready written
    refine ⟨fun mutates => mutation.trans (sound.locked mutates), ?_, trivial⟩
    intro data phase writes
    cases writes
    rw [pid]
    exact ⟨object, fits.1⟩
  | refreshed written => exact .of_idle rfl trivial
  | staged written => exact .of_idle rfl nofun
  | refreshFailed written | stageFailed written =>
    exact (writeStep_fits plain (sound.writing _ _ rfl).2 written).elim
  | lockPut free | lockDelete free => exact ⟨fun _ => rfl, nofun, trivial⟩
  | spooled here =>
    refine ⟨fun _ => sound.locked rfl, nofun, ?_⟩
    rcases mirror rfl with mirrors | unsettled
    · exact mirrors _ here
    · exact unsettled.elim
  | unspooled | same | gone => exact ⟨fun _ => sound.locked rfl, nofun, trivial⟩
  | diverged here unequal =>
    have object : backend.objects _ = some _ := sound.warranted
    rw [here] at object
    cases object
    exact absurd rfl unequal
  | store =>
    refine ⟨fun _ => sound.locked rfl, ?_, trivial⟩
    intro data phase writes
    cases writes
    exact ⟨(Backend.objects_put _ _ _ _).trans (if_pos rfl), trivial⟩
  | erase => exact ⟨fun _ => sound.locked rfl, nofun, (Backend.objects_delete _ _ _).trans (if_pos rfl)⟩
  | unspool => exact .of_idle rfl trivial

/-- A call at work leaves its two names mirrored, or is still about to. -/
theorem Activity.Sound.settle (works : activity.works = true)
    {path : String} (own : path = activity.key ∨ path = tempPath manager.pid activity.key)
    (mirror : Mirrors backend manager.spool path ∨ activity.Unsettled manager.pid path) :
    Mirrors backend' manager'.spool path ∨ next.Unsettled manager.pid path := by
  cases moved with
  | found | missing | fallback | lockPut | lockDelete => cases works
  | refresh written =>
    have fits := writeStep_fits plain (sound.writing _ _ rfl).2 written
    rcases own with rfl | temp
    · rcases mirror with mirrors | unsettled
      · exact .inl fun bytes here => mirrors bytes (fits.2.symm.trans here)
      · exact absurd unsettled.symm plain
    · exact .inr temp
  | refreshed written | staged written =>
    obtain ⟨object, ready⟩ := sound.writing _ _ rfl
    have fits := writeStep_fits plain ready written
    refine .inl fun bytes here => ?_
    rcases own with rfl | rfl
    · rw [← here]
      exact object.trans fits.1.symm
    · exact absurd (here.symm.trans fits.2) nofun
  | refreshFailed written | stageFailed written =>
    exact (writeStep_fits plain (sound.writing _ _ rfl).2 written).elim
  | store | stage => exact .inr own
  | spooled | unspooled | same | gone | diverged =>
    rcases mirror with mirrors | unsettled
    · exact .inl mirrors
    · exact unsettled.elim
  | erase =>
    rcases own with rfl | rfl
    · exact .inr rfl
    · rcases mirror with mirrors | unsettled
      · refine .inl fun bytes here => ?_
        exact ((Backend.objects_delete _ _ _).trans (if_neg plain)).trans (mirrors bytes here)
      · exact unsettled.elim
  | unspool =>
    refine .inl fun bytes here => ?_
    have kept := (Files.read_remove _ _ _).symm.trans here
    split at kept
    · cases kept
    next notKey =>
      rcases mirror with mirrors | unsettled
      · exact mirrors bytes kept
      · exact absurd unsettled notKey

end

/-- A step keeps another call sound when the two work on different temporary files. -/
theorem Activity.Sound.beside {other : Activity} {otherId : Nat}
    (sound : other.Sound backend manager otherId) (own : activity.Sound backend manager id)
    (different : id ≠ otherId) (plain : tempPath manager.pid activity.key ≠ activity.key)
    (plainKey : tempPath manager.pid other.key ≠ activity.key)
    (moved : Moves id backend manager activity backend' manager' next)
    (apart : activity.works = true → other.works = true →
      tempPath manager.pid other.key ≠ tempPath manager.pid activity.key) : other.Sound backend' manager' otherId := by
  have object : other.works = true → backend'.objects other.key = backend.objects other.key := by
    intro works
    cases working : activity.works with
    | false => rw [(moved.idle working).1]
    | true =>
      apply moved.objects_eq
      intro same
      exact apart working works (congrArg (tempPath manager.pid) same)
  have file : other.works = true →
      SameFile manager.spool manager'.spool (tempPath manager.pid other.key) := by
    intro works
    cases working : activity.works with
    | false =>
      rw [(moved.idle working).2]
      exact .refl _ _
    | true =>
      obtain ⟨entries, bytes⟩ := moved.frame plain plainKey (apart working works)
      exact ⟨entries, bytes fun data phase writes => (own.writing data phase writes).2⟩
  refine ⟨?_, ?_, ?_⟩
  · intro mutates
    have held := sound.locked mutates
    cases mutating : activity.mutates with
    | false => rw [(moved.of_locked held mutating).2.1, held]
    | true =>
      have ours := own.locked mutating
      rw [held] at ours
      exact absurd (Option.some.inj ours).symm different
  · intro data phase writes
    have works := Activity.works_of_writes writes
    obtain ⟨here, ready⟩ := sound.writing data phase writes
    rw [object works, moved.pid_eq]
    exact ⟨here, ready.transfer (file works)⟩
  · have before := sound.warranted
    unfold Activity.Warranted at before ⊢
    split at before
    · exact (object rfl).trans before
    · exact before
    · exact (object rfl).trans before
    · trivial

end Own

section Runs

/-- While a read brings its object to the spool, no other call is at work on a key with
the same temporary file. -/
def Undisturbed (state : StorageState Unit) : Prop :=
  ∀ id other activity activity', id ≠ other →
    state.calls id = some ((), activity) → state.calls other = some ((), activity') →
    activity.refreshes = true → activity'.works = true →
    tempPath (state.managers ()).pid activity.key ≠ tempPath (state.managers ()).pid activity'.key

/-- The spool mirrors the backend except where a call is about to settle it. -/
structure Mirroring (state : StorageState Unit) : Prop where
  sound : ∀ id activity, state.calls id = some ((), activity) →
    activity.Sound state.backend (state.managers ()) id
  plain : ∀ id activity, state.calls id = some ((), activity) →
    ∀ other, tempPath (state.managers ()).pid other ≠ activity.key
  mirrored : ∀ path, Mirrors state.backend (state.managers ()).spool path ∨
    ∃ id activity, state.calls id = some ((), activity) ∧
      activity.Unsettled (state.managers ()).pid path

variable {state after : StorageState Unit}

section
variable (mirroring : Mirroring state) (undisturbed : Undisturbed state) {id : Nat} {activity : Activity}
  (called : state.calls id = some ((), activity)) (works : activity.works = true)
include mirroring undisturbed called works

/-- Two calls at work have different temporary files: two mutations by the lock, and a
read and another call because nobody disturbs it. -/
theorem Mirroring.apart {other : Nat} {activity' : Activity} (different : id ≠ other)
    (called' : state.calls other = some ((), activity')) (works' : activity'.works = true) :
    tempPath (state.managers ()).pid activity'.key ≠ tempPath (state.managers ()).pid activity.key := by
  cases refreshes : activity.refreshes with
  | true => exact (undisturbed id other _ _ different called called' refreshes works').symm
  | false =>
    cases refreshes' : activity'.refreshes with
    | true => exact undisturbed other id _ _ different.symm called' called refreshes' works
    | false =>
      have mutates : activity.mutates = true := by
        simpa [Activity.works, refreshes] using works
      have mutates' : activity'.mutates = true := by
        simpa [Activity.works, refreshes'] using works'
      have held := (mirroring.sound id _ called).locked mutates
      have held' := (mirroring.sound other _ called').locked mutates'
      rw [held] at held'
      exact absurd (Option.some.inj held') different

/-- Where a name of a call at work is not mirrored, it is that call that settles it. -/
theorem Mirroring.own {path : String} (own : path = activity.key ∨ path = tempPath (state.managers ()).pid activity.key) :
    Mirrors state.backend (state.managers ()).spool path ∨ activity.Unsettled (state.managers ()).pid path := by
  rcases mirroring.mirrored path with mirrors | ⟨other, activity', called', unsettled⟩
  · exact .inl mirrors
  · by_cases same : id = other
    · subst same
      rw [called] at called'
      cases called'
      exact .inr unsettled
    · obtain ⟨works', theirs⟩ := unsettled.cases
      have apart := mirroring.apart undisturbed called works same called' works'
      rcases own with rfl | rfl
      · rcases theirs with key | temp
        · exact absurd (congrArg _ key.symm) apart
        · exact absurd temp.symm (mirroring.plain id _ called _)
      · rcases theirs with key | temp
        · exact absurd key (mirroring.plain other _ called' _)
        · exact absurd temp.symm apart

end

theorem Mirroring.invoke (mirroring : Mirroring state) {id : Nat} {request : Request}
    (fresh : state.calls id = none) (plain : ∀ other, tempPath (state.managers ()).pid other ≠ request.key) :
    Mirroring { state with calls := update state.calls id (some ((), request.activity)) } := by
  refine ⟨?_, ?_, ?_⟩
  · intro other activity called
    rcases update_calls_eq called with ⟨rfl, -, rfl⟩ | ⟨-, called⟩
    · cases request <;> exact .of_idle rfl trivial
    · exact mirroring.sound other activity called
  · intro other activity called
    rcases update_calls_eq called with ⟨rfl, -, rfl⟩ | ⟨-, called⟩
    · cases request <;> exact plain
    · exact mirroring.plain other activity called
  · intro path
    rcases mirroring.mirrored path with mirrors | ⟨other, activity, called, unsettled⟩
    · exact .inl mirrors
    · have different : other ≠ id := by
        rintro rfl
        rw [fresh] at called
        cases called
      exact .inr ⟨other, activity, (update_of_ne different _ _).trans called, unsettled⟩

theorem Mirroring.advance (mirroring : Mirroring state) (undisturbed : Undisturbed state) {id : Nat}
    {next : Activity} {backend : Backend} {manager : StorageManager}
    (called : state.calls id = some ((), activity))
    (moved : Moves id state.backend (state.managers ()) activity backend manager next) :
    Mirroring ⟨backend, update state.managers () manager, update state.calls id (some ((), next))⟩ := by
  have ownSound := mirroring.sound id activity called
  have plain := mirroring.plain id activity called
  refine ⟨?_, ?_, ?_⟩
  · intro other activity' called'
    rcases update_calls_eq called' with ⟨rfl, -, rfl⟩ | ⟨different, called'⟩
    · exact ownSound.step (plain _) moved fun works =>
        mirroring.own undisturbed called works (.inl rfl)
    · exact (mirroring.sound other activity' called').beside ownSound different.symm (plain _)
        (plain _) moved fun works works' =>
          mirroring.apart undisturbed called works different.symm called' works'
  · intro other activity' called'
    simp only [update_self, moved.pid_eq]
    rcases update_calls_eq called' with ⟨rfl, -, rfl⟩ | ⟨-, called'⟩
    · rw [moved.key_eq]
      exact plain
    · exact mirroring.plain other activity' called'
  · intro path
    simp only [update_self, moved.pid_eq]
    by_cases mine : activity.works = true ∧
        (path = activity.key ∨ path = tempPath (state.managers ()).pid activity.key)
    · obtain ⟨works, own⟩ := mine
      rcases ownSound.settle (plain _) moved works own
        (mirroring.own undisturbed called works own) with mirrors | unsettled
      · exact .inl mirrors
      · exact .inr ⟨id, next, update_self .., unsettled⟩
    · rcases mirroring.mirrored path with mirrors | ⟨other, activity', called', unsettled⟩
      · refine .inl fun bytes here => ?_
        cases works : activity.works with
        | false =>
          obtain ⟨backendSame, spoolSame⟩ := moved.idle works
          rw [backendSame]
          rw [spoolSame] at here
          exact mirrors bytes here
        | true =>
          obtain ⟨notKey, notTemp⟩ := not_or.mp fun own => mine ⟨works, own⟩
          rw [moved.objects_eq notKey]
          have kept := (moved.frame (plain _) notKey notTemp).2
            fun data phase writes => (ownSound.writing data phase writes).2
          exact mirrors bytes (kept.symm.trans here)
      · have different : other ≠ id := by
          rintro rfl
          rw [called] at called'
          cases called'
          exact mine unsettled.cases
        exact .inr ⟨other, activity', (update_of_ne different _ _).trans called', unsettled⟩

end Runs
end Mahoquot.Registry
