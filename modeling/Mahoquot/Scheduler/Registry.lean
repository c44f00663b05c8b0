import Mathlib.Data.Int.Order.Basic
import Mathlib.Data.List.MinMax
import Mathlib.Data.List.Sort
import Mathlib.Data.Prod.Lex
import Mathlib.Data.String.Basic
import Mahoquot.Gateway.Account

/-! The scheduler: its candidates, their order and the margin that keeps the incumbent; its
settings, the state that survives a restart, and the snapshot that each reconciliation
publishes. The clock is an argument. -/

set_option autoImplicit false

namespace Mahoquot.Scheduler
open Gateway

def exhaustionEnterPercent : Nat := 3
def exhaustionRecoverPercent : Nat := 5
def minimumHoldSecs : Int := 10 * 60
def switchMarginSecs : Int := 15 * 60

/-- `u32::MAX`, the priority of accounts without one. -/
def noPriority : Nat := 4294967295

inductive WindowActivity where
  | active
  | idle
deriving Repr, DecidableEq

def WindowActivity.tier : WindowActivity → Nat
  | .active => 0
  | .idle => 1

structure Candidate where
  key : String
  manuallyDisabled : Bool
  manualPriority : Option Nat
  remainingPercent : Option Nat
  resetAtUnix : Option Int
  windowActivity : WindowActivity
  exhaustedSinceUnix : Option Int
deriving Repr, DecidableEq

namespace Candidate

def isEligible (candidate : Candidate) : Bool :=
  match candidate.remainingPercent with
  | none => false
  | some remaining =>
    !candidate.manuallyDisabled && !decide (remaining ≤ exhaustionEnterPercent) &&
      !(candidate.exhaustedSinceUnix.isSome && decide (remaining ≤ exhaustionRecoverPercent))

/-- Active windows first, then the soonest reset to come, then the key. -/
def rank (nowUnix : Int) (candidate : Candidate) : Lex (Nat × Lex (Int × String)) :=
  toLex (candidate.windowActivity.tier,
    toLex ((candidate.resetAtUnix.filter fun reset => decide (nowUnix < reset)).getD i64Max, candidate.key))

def incumbency (candidate : Candidate) : Lex (Nat × String) :=
  toLex (candidate.manualPriority.getD noPriority, candidate.key)

end Candidate

/-- `Option<u32>` as ordered by its derive: no priority comes first. -/
def priorityBelow : Option Nat → Option Nat → Bool
  | _, none => false
  | none, some _ => true
  | some first, some second => decide (first < second)

def ranked (candidates : List Candidate) (nowUnix : Int) : List Candidate :=
  let eligible := candidates.filter Candidate.isEligible
  let kept := if eligible.any fun candidate => candidate.manualPriority.isSome then
    eligible.filter fun candidate => candidate.manualPriority.isSome else eligible
  kept.insertionSort fun first second => first.rank nowUnix ≤ second.rank nowUnix

def selectCandidate (candidates : List Candidate) (nowUnix : Int) : Option Candidate :=
  match ranked candidates nowUnix with
  | [] => none
  | best :: rest =>
    match ((best :: rest).argmin Candidate.incumbency).filter fun candidate =>
        priorityBelow candidate.manualPriority best.manualPriority with
    | none => some best
    | some incumbent =>
      if incumbent.resetAtUnix.getD i64Max ≤
          saturatingAdd (best.resetAtUnix.getD i64Max) switchMarginSecs then some incumbent
      else some best

theorem mem_ranked {candidates : List Candidate} {nowUnix : Int} {candidate : Candidate}
    (member : candidate ∈ ranked candidates nowUnix) : candidate ∈ candidates ∧ candidate.isEligible = true := by
  simp only [ranked, List.mem_insertionSort] at member
  split at member
  · exact List.mem_filter.mp (List.mem_of_mem_filter member)
  · exact List.mem_filter.mp member

theorem selectCandidate_some {candidates : List Candidate} {nowUnix : Int} {candidate : Candidate}
    (selected : selectCandidate candidates nowUnix = some candidate) :
    candidate ∈ candidates ∧ candidate.isEligible = true := by
  apply mem_ranked
  rw [selectCandidate] at selected
  cases sorted : ranked candidates nowUnix with
  | nil => simp [sorted] at selected
  | cons best rest =>
    simp only [sorted] at selected
    split at selected
    · cases selected
      exact List.mem_cons_self
    · rename_i incumbent found
      split at selected
      · cases selected
        exact List.argmin_mem (Option.filter_eq_some_iff.mp found).1
      · cases selected
        exact List.mem_cons_self

structure SchedulerSettings where
  enabled : Bool
  priorities : Std.ExtTreeMap String Nat

structure PersistedState where
  selected : Option String
  exhaustedSinceUnix : Std.ExtTreeMap String Int
  nonAuthFailures : Std.ExtTreeMap String Nat

structure AccountScheduleStatus where
  id : String
  selected : Bool
  parked : Bool
  priority : Option Nat
  remainingPercent : Option Nat
  resetAtUnix : Option Int
  consecutiveNonAuthFailures : Nat
deriving Repr, DecidableEq

structure Snapshot where
  enabled : Bool
  selected : Option String
  order : List String
  failOpen : Bool
  reason : String
  accounts : List AccountScheduleStatus
  allowed : List String
deriving Repr, DecidableEq

def Snapshot.default : Snapshot := ⟨false, none, [], true, "disabled", [], []⟩

/-- `f64::round`, away from zero on a tie, for a percentage. -/
def roundPercent (percent : Rat) : Nat := (percent + 1 / 2).floor.toNat

def leftOf (used : Rat) : Nat := roundPercent (max 0 (min 100 (100 - used)))

/-- The remaining percentage of the most consumed window, with its reset. -/
def observedWindow (member : AccountMember) : Option Nat × Option Int :=
  [member.usage.primary, member.usage.secondary].foldl
    (fun best window =>
      match window.usedPercent with
      | none => best
      | some used =>
        if best.1.all fun least => decide (leftOf used < least) then
          (some (leftOf used), window.resetAtUnix)
        else best)
    (none, none)

def remainingPercent (member : AccountMember) : Option Nat := (observedWindow member).1

def observeExhaustion (nowUnix : Int) (exhausted : Std.ExtTreeMap String Int)
    (member : AccountMember) : Std.ExtTreeMap String Int :=
  match remainingPercent member with
  | none => exhausted
  | some remaining =>
    if remaining ≤ exhaustionEnterPercent then exhausted.insertIfNew member.id nowUnix
    else if exhaustionRecoverPercent < remaining then
      if exhausted[member.id]?.all fun since =>
          decide (minimumHoldSecs ≤ saturatingSub nowUnix since) then
        exhausted.erase member.id
      else exhausted
    else exhausted

structure Fact where
  id : String
  remaining : Option Nat
  resetAtUnix : Option Int
  health : Health
  exhaustedSince : Option Int
  failures : Nat

/-- The facts of the members in turn, each read after its own observation. -/
def gatherFacts (nowUnix : Int) (failures : Std.ExtTreeMap String Nat) :
    List AccountMember → Std.ExtTreeMap String Int →
      List Fact × Std.ExtTreeMap String Int
  | [], exhausted => ([], exhausted)
  | member :: members, exhausted =>
    let observed := observeExhaustion nowUnix exhausted member
    let rest := gatherFacts nowUnix failures members observed
    (⟨member.id, (observedWindow member).1, (observedWindow member).2, member.health,
      observed[member.id]?, failures.getD member.id 0⟩ :: rest.1, rest.2)

def Fact.candidate (settings : SchedulerSettings) (incumbent : Option String) (nowUnix : Int)
    (fact : Fact) : Candidate where
  key := fact.id
  manuallyDisabled := !fact.health.isAvailable (nowUnix * 1000) || decide (3 ≤ fact.failures) ||
    fact.exhaustedSince.any fun since => decide (saturatingSub nowUnix since < minimumHoldSecs)
  manualPriority :=
    if !settings.priorities.isEmpty then settings.priorities[fact.id]?
    else if incumbent == some fact.id then some 0
    else if incumbent.isSome then some 1
    else none
  remainingPercent := fact.remaining
  resetAtUnix := fact.resetAtUnix
  windowActivity :=
    if fact.resetAtUnix.any fun reset => decide (nowUnix < reset) then .active else .idle
  exhaustedSinceUnix := fact.exhaustedSince

/-- The accounts in the order they would be served, the selected one first. -/
def servingOrder (candidates : List Candidate) (selected : Option String) : List String :=
  let key (id : String) : Lex (Nat × Lex (Int × String)) :=
    let found := candidates.find? fun candidate => candidate.key == id
    toLex ((found.bind Candidate.manualPriority).getD noPriority,
      toLex ((found.bind Candidate.resetAtUnix).getD i64Max, id))
  let order := ((candidates.filter fun candidate =>
    !candidate.manuallyDisabled && candidate.remainingPercent.isSome).map
      Candidate.key).insertionSort fun first second => key first ≤ key second
  match selected with
  | none => order
  | some id => id :: order.erase id

def Fact.status (settings : SchedulerSettings) (selected : Option String) (fact : Fact) : AccountScheduleStatus :=
  ⟨fact.id, selected == some fact.id, selected.isSome && selected != some fact.id,
    settings.priorities[fact.id]?, fact.remaining, fact.resetAtUnix, fact.failures⟩

namespace PersistedState

def default : PersistedState := ⟨none, ∅, ∅⟩

/-- What belongs to accounts that left the pool is dropped. -/
def retain (runtime : PersistedState) (members : List AccountMember) : PersistedState :=
  let known (id : String) : Bool := members.any fun member => member.id == id
  { selected := runtime.selected.filter known
    exhaustedSinceUnix := runtime.exhaustedSinceUnix.filter fun id _ => known id
    nonAuthFailures := runtime.nonAuthFailures.filter fun id _ => known id }

def reconcile (runtime : PersistedState) (settings : SchedulerSettings)
    (members : List AccountMember) (nowUnix : Int) : PersistedState × Snapshot :=
  let kept := runtime.retain members
  let facts := gatherFacts nowUnix kept.nonAuthFailures members kept.exhaustedSinceUnix
  let candidates := facts.1.map (Fact.candidate settings kept.selected nowUnix)
  let selected := (selectCandidate candidates nowUnix).map Candidate.key
  ({ kept with selected, exhaustedSinceUnix := facts.2 },
    { enabled := true
      selected
      order := servingOrder candidates selected
      failOpen := selected.isNone
      reason := if selected.isNone then "no-eligible-target" else "scheduled"
      accounts := facts.1.map (Fact.status settings selected)
      allowed := selected.toList })

end PersistedState

structure SchedulerRegistry where
  settings : SchedulerSettings
  snapshot : Snapshot
  runtime : PersistedState
  stateParseFailed : Bool

namespace SchedulerRegistry
variable (registry : SchedulerRegistry)

/-- Reconciliation schedules accounts and does not just fail open. -/
def isScheduling : Bool :=
  registry.settings.enabled && !registry.stateParseFailed

def reconcile (members : List AccountMember) (nowUnix : Int) : SchedulerRegistry :=
  if !registry.settings.enabled then { registry with snapshot := .default }
  else if registry.stateParseFailed then
    { registry with
      snapshot := { Snapshot.default with enabled := true, reason := "state-parse-failure" } }
  else
    let reconciled := registry.runtime.reconcile registry.settings members nowUnix
    { registry with runtime := reconciled.1, snapshot := reconciled.2 }

/-- The part of `record_success` before it reconciles. -/
def forgetFailures (account : String) : SchedulerRegistry :=
  { registry with
    runtime := { registry.runtime with
      nonAuthFailures := registry.runtime.nonAuthFailures.erase account } }

/-- The part of `record_non_auth_failure` before it reconciles. -/
def countFailure (account : String) : SchedulerRegistry :=
  { registry with
    runtime := { registry.runtime with
      nonAuthFailures := registry.runtime.nonAuthFailures.insert account
        (min 255 (registry.runtime.nonAuthFailures.getD account 0 + 1)) } }

/-- The part of `update_settings` between its write to disk and its reconciliation. -/
def configure (next : SchedulerSettings) : SchedulerRegistry :=
  { registry with settings := next, stateParseFailed := false }

def recordSuccess (account : String) (members : List AccountMember) (nowUnix : Int) : SchedulerRegistry :=
  if registry.runtime.nonAuthFailures.contains account then
    (registry.forgetFailures account).reconcile members nowUnix
  else registry.forgetFailures account

def recordNonAuthFailure (account : String) (members : List AccountMember) (nowUnix : Int) : SchedulerRegistry :=
  (registry.countFailure account).reconcile members nowUnix

def recordAuthFailure (members : List AccountMember) (nowUnix : Int) : SchedulerRegistry :=
  registry.reconcile members nowUnix

/-- `saved` is whether the settings could be written to disk. -/
def updateSettings (next : SchedulerSettings) (saved : Bool)
    (members : List AccountMember) (nowUnix : Int) : SchedulerRegistry :=
  if saved then (registry.configure next).reconcile members nowUnix else registry

def orderPriorities (order : List String) (members : List AccountMember) : Std.ExtTreeMap String Nat :=
  order.zipIdx.foldl
    (fun priorities entry =>
      if members.any fun member => member.id == entry.1 then
        priorities.insertIfNew entry.1 (entry.2 % 2 ^ 32)
      else priorities)
    ∅

def setOrder (order : List String) (saved : Bool) (members : List AccountMember) (nowUnix : Int) : SchedulerRegistry :=
  registry.updateSettings { registry.settings with priorities := orderPriorities order members }
    saved members nowUnix

def load (settings : Option SchedulerSettings) (runtime : Option PersistedState)
    (parseFailed : Bool) (members : List AccountMember) (nowUnix : Int) : SchedulerRegistry :=
  SchedulerRegistry.reconcile
    ⟨settings.getD ⟨false, ∅⟩, .default, runtime.getD .default, parseFailed⟩ members nowUnix

end SchedulerRegistry

/-- The calls that the relay and the management interface make. -/
inductive SchedulerCall where
  | reconcile
  | recordSuccess (account : String)
  | recordNonAuthFailure (account : String)
  | recordAuthFailure
  | updateSettings (next : SchedulerSettings) (saved : Bool)
  | setOrder (order : List String) (saved : Bool)

variable (registry : SchedulerRegistry)

def SchedulerRegistry.apply (members : List AccountMember) (nowUnix : Int) : SchedulerCall → SchedulerRegistry
  | .reconcile => registry.reconcile members nowUnix
  | .recordSuccess account => registry.recordSuccess account members nowUnix
  | .recordNonAuthFailure account => registry.recordNonAuthFailure account members nowUnix
  | .recordAuthFailure => registry.recordAuthFailure members nowUnix
  | .updateSettings next saved => registry.updateSettings next saved members nowUnix
  | .setOrder order saved => registry.setOrder order saved members nowUnix

/-- What a call does under the registry's locks, one at a time. -/
inductive SchedulerStep where
  | reconcile (members : List AccountMember) (nowUnix : Int)
  | forgetFailures (account : String)
  | countFailure (account : String)
  | configure (next : SchedulerSettings)

def SchedulerRegistry.step : SchedulerStep → SchedulerRegistry
  | .reconcile members nowUnix => registry.reconcile members nowUnix
  | .forgetFailures account => registry.forgetFailures account
  | .countFailure account => registry.countFailure account
  | .configure next => registry.configure next

/-- Every call is a few steps, of which only the last may reconcile, with the
call's own members and clock; calls of several threads interleave as steps. -/
theorem SchedulerRegistry.apply_eq_steps (members : List AccountMember) (nowUnix : Int) (call : SchedulerCall) :
    ∃ steps : List SchedulerStep, registry.apply members nowUnix call = steps.foldl SchedulerRegistry.step registry ∧
      ∀ others time, .reconcile others time ∈ steps → others = members ∧ time = nowUnix := by
  cases call with
  | reconcile | recordAuthFailure =>
    refine ⟨[.reconcile members nowUnix], rfl, ?_⟩
    simp
  | recordSuccess account =>
    rw [apply, recordSuccess]
    split
    · refine ⟨[.forgetFailures account, .reconcile members nowUnix], rfl, ?_⟩
      simp
    · refine ⟨[.forgetFailures account], rfl, ?_⟩
      simp
  | recordNonAuthFailure account =>
    refine ⟨[.countFailure account, .reconcile members nowUnix], rfl, ?_⟩
    simp
  | updateSettings next saved =>
    rw [apply, updateSettings]
    split
    · refine ⟨[.configure next, .reconcile members nowUnix], rfl, ?_⟩
      simp
    · exact ⟨[], rfl, by simp⟩
  | setOrder order saved =>
    rw [apply, setOrder, updateSettings]
    split
    · refine ⟨[.configure _, .reconcile members nowUnix], rfl, ?_⟩
      simp
    · exact ⟨[], rfl, by simp⟩

end Mahoquot.Scheduler
