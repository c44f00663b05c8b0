import Mathlib.Data.Rat.Defs
import Mathlib.Logic.Function.Basic
import Mahoquot.Library.Selection
import Mahoquot.Library.Runs
import Mathlib.Data.List.Infix

/-! How the usage of an account is written: merges of response headers under its lock, and
the buckets of free Cline models, put into a copy that is stored in a second step. -/

set_option autoImplicit false

namespace Mahoquot.Gateway.UsageUpdates
open Library

structure QuotaWindow where
  usedPercent : Option Rat
  windowMinutes : Option Int
  resetAfterSeconds : Option Int
  resetAtUnix : Option Int
  limitName : Option String
deriving DecidableEq, Inhabited

structure QuotaBucket where
  bucketId : Option String
  displayName : Option String
  window : Option String
  usedPercent : Option Rat
  resetAtUnix : Option Int
deriving DecidableEq, Inhabited

structure QuotaGroup where
  displayName : Option String
  models : Option String
  buckets : List QuotaBucket
deriving DecidableEq, Inhabited

structure ResetCredit where
  grantedAtUnix : Option Int
  expiresAtUnix : Option Int
  status : Option String
deriving DecidableEq, Inhabited

structure AccountUsage where
  planType : Option String
  activeLimit : Option String
  primary : QuotaWindow
  secondary : QuotaWindow
  groups : List QuotaGroup
  creditsBalance : Option Rat
  creditsUnlimited : Option Bool
  hasCredits : Option Bool
  overageLimitReached : Option Bool
  resetCreditsAvailable : Option Int
  resetCredits : List ResetCredit
  observedAtUnix : Option Int
  refreshedAtUnix : Option Int
  lastRefreshError : Option String
  refreshStatus : Option String
  modelAvailability : Option (List (String × Option Bool))
deriving DecidableEq, Inhabited

def QuotaWindow.isEmpty (window : QuotaWindow) : Bool :=
  window.usedPercent.isNone && window.windowMinutes.isNone &&
    window.resetAfterSeconds.isNone && window.resetAtUnix.isNone

def sameIdentity (existing incoming : QuotaWindow) : Bool :=
  match existing.windowMinutes, incoming.windowMinutes with
  | some left, some right => left == right
  | _, _ =>
    match existing.limitName, incoming.limitName with
    | some left, some right => left == right
    | _, _ => true

def mergeQuotaWindow (existing incoming : QuotaWindow) : QuotaWindow :=
  if sameIdentity existing incoming then
    { usedPercent := incoming.usedPercent.or existing.usedPercent
      windowMinutes := incoming.windowMinutes.or existing.windowMinutes
      resetAfterSeconds := incoming.resetAfterSeconds.or existing.resetAfterSeconds
      resetAtUnix := incoming.resetAtUnix.or existing.resetAtUnix
      limitName := incoming.limitName.or existing.limitName }
  else incoming

def mergeQuotaBucket (existing incoming : QuotaBucket) : QuotaBucket :=
  { existing with
    displayName := incoming.displayName.or existing.displayName
    window := incoming.window.or existing.window
    usedPercent := incoming.usedPercent.or existing.usedPercent
    resetAtUnix := incoming.resetAtUnix.or existing.resetAtUnix }

structure Windows where
  primary : QuotaWindow
  secondary : QuotaWindow
deriving DecidableEq, Inhabited

inductive Place where
  | primary
  | secondary
deriving DecidableEq, Repr

/-- A window of the same length whose name does not speak against it. -/
def fitsLength (window : QuotaWindow) (minutes : Int) (name : Option String) : Bool :=
  window.windowMinutes == some minutes &&
    (name.isNone || window.limitName.isNone || window.limitName == name)

def firstEmpty (windows : Windows) : Option Place :=
  if windows.primary.isEmpty then some .primary
  else if windows.secondary.isEmpty then some .secondary
  else none

/-- Which window an incoming one belongs to. -/
def target (windows : Windows) (incoming : QuotaWindow) : Option Place :=
  if incoming.windowMinutes.any (fun minutes =>
      fitsLength windows.primary minutes incoming.limitName) then some .primary
  else if incoming.windowMinutes.any (fun minutes =>
      fitsLength windows.secondary minutes incoming.limitName) then some .secondary
  else if incoming.limitName.isSome && windows.primary.limitName == incoming.limitName then
    some .primary
  else if incoming.limitName.isSome && windows.secondary.limitName == incoming.limitName then
    some .secondary
  else if incoming.windowMinutes.isSome then firstEmpty windows
  else if incoming.limitName.isNone && !windows.primary.isEmpty then some .primary
  else if incoming.limitName.isNone && !windows.secondary.isEmpty then some .secondary
  else firstEmpty windows

def mergeIncoming (windows : Windows) (incoming : QuotaWindow) : Windows :=
  if incoming.isEmpty then windows
  else
    match target windows incoming with
    | some .primary => { windows with primary := mergeQuotaWindow windows.primary incoming }
    | some .secondary => { windows with secondary := mergeQuotaWindow windows.secondary incoming }
    | none => windows

def mergeWindows (windows : Windows) (header : AccountUsage) : Windows :=
  [header.primary, header.secondary].foldl mergeIncoming windows

def mergeBucketInto (buckets : List QuotaBucket) (incoming : QuotaBucket) : List QuotaBucket :=
  let same := fun bucket : QuotaBucket =>
    bucket.bucketId.isSome && bucket.bucketId == incoming.bucketId
  if buckets.any same then
    updateFirst same (fun bucket => mergeQuotaBucket bucket incoming) buckets
  else buckets ++ [incoming]

def sameModels (incoming group : QuotaGroup) : Bool :=
  group.models.isSome && group.models == incoming.models

def mergeGroup (incoming group : QuotaGroup) : QuotaGroup :=
  { group with
    buckets := incoming.buckets.foldl mergeBucketInto group.buckets
    displayName := incoming.displayName.or group.displayName }

def mergeGroupInto (groups : List QuotaGroup) (incoming : QuotaGroup) : List QuotaGroup :=
  if groups.any (sameModels incoming) then
    updateFirst (sameModels incoming) (mergeGroup incoming) groups
  else groups ++ [incoming]

def AccountUsage.windows (usage : AccountUsage) : Windows := ⟨usage.primary, usage.secondary⟩

def AccountUsage.applyHeaderUpdate (usage header : AccountUsage) : AccountUsage :=
  let windows := mergeWindows usage.windows header
  { usage with
    observedAtUnix := header.observedAtUnix.or usage.observedAtUnix
    planType := header.planType.or usage.planType
    activeLimit := header.activeLimit.or usage.activeLimit
    primary := windows.primary
    secondary := windows.secondary
    creditsBalance := header.creditsBalance.or usage.creditsBalance
    creditsUnlimited := header.creditsUnlimited.or usage.creditsUnlimited
    hasCredits := header.hasCredits.or usage.hasCredits
    overageLimitReached := header.overageLimitReached.or usage.overageLimitReached
    groups := header.groups.foldl mergeGroupInto usage.groups }

def clineQuotaSlug (model : String) : String :=
  String.ofList (model.toList.reverse.takeWhile (· ≠ '/')).reverse

def canonicalClineQuotaModel (model : String) : String :=
  "cline-free/" ++ clineQuotaSlug model

def clineGroupName : String := "Cline Free Limits"

def isClineGroup (group : QuotaGroup) : Bool :=
  group.displayName == some clineGroupName

def expireBucket (nowUnix : Int) (bucket : QuotaBucket) : QuotaBucket :=
  if bucket.resetAtUnix.any (fun reset => decide (reset ≤ nowUnix)) then
    { bucket with usedPercent := none, resetAtUnix := none }
  else bucket

def expireGroup (nowUnix : Int) (group : QuotaGroup) : QuotaGroup :=
  if isClineGroup group then { group with buckets := group.buckets.map (expireBucket nowUnix) }
  else group

def AccountUsage.expireStaleClineLimits (usage : AccountUsage) (nowUnix : Int) : AccountUsage :=
  { usage with groups := usage.groups.map (expireGroup nowUnix) }

def AccountUsage.withQuotaFreshness (usage : AccountUsage) (nowUnix staleAfter : Int) : AccountUsage :=
  if usage.refreshStatus == some "ok" &&
      usage.refreshedAtUnix.any (fun refreshed => decide (nowUnix - refreshed > staleAfter)) then
    { usage with refreshStatus := some "stale" }
  else usage

/-- What readers of an account get; `cline` says whether it is one of that provider. -/
def AccountUsage.snapshotAt (usage : AccountUsage) (cline : Bool) (nowUnix : Int) : AccountUsage :=
  let usage := usage.withQuotaFreshness nowUnix 360
  if cline then usage.expireStaleClineLimits nowUnix else usage

structure QuotaCall where
  model : String
  resetSeconds : Int
  nowUnix : Int
  usedPercent : Rat
deriving DecidableEq

namespace QuotaCall

def canonical (call : QuotaCall) : String := canonicalClineQuotaModel call.model

def resetAt (call : QuotaCall) : Int := call.nowUnix + call.resetSeconds

def label (call : QuotaCall) : String := call.canonical ++ " (Daily limit)"

def isOwn (call : QuotaCall) (bucket : QuotaBucket) : Bool :=
  bucket.bucketId == some call.canonical

/-- Buckets of the same model under another of its names are dropped. -/
def keeps (call : QuotaCall) (bucket : QuotaBucket) : Bool :=
  !(bucket.bucketId.any fun id =>
    id != call.canonical && canonicalClineQuotaModel id == call.canonical)

def write (call : QuotaCall) (bucket : QuotaBucket) : QuotaBucket :=
  { bucket with
    usedPercent := some call.usedPercent
    resetAtUnix := some call.resetAt
    displayName := some call.label }

def newBucket (call : QuotaCall) : QuotaBucket :=
  ⟨some call.canonical, some call.label, some "Daily", some call.usedPercent, some call.resetAt⟩

def editBuckets (call : QuotaCall) (buckets : List QuotaBucket) : List QuotaBucket :=
  let kept := buckets.filter call.keeps
  if kept.any call.isOwn then updateFirst call.isOwn call.write kept
  else kept ++ [call.newBucket]

def editGroup (call : QuotaCall) (group : QuotaGroup) : QuotaGroup :=
  { group with buckets := call.editBuckets group.buckets }

def newGroup : QuotaGroup := ⟨some clineGroupName, some "Cline Free Models", []⟩

def editGroups (call : QuotaCall) (groups : List QuotaGroup) : List QuotaGroup :=
  let present := if groups.any isClineGroup then groups else groups ++ [newGroup]
  updateFirst isClineGroup call.editGroup present

/-- The bucket of the model goes into a copy of the usage. -/
def edit (call : QuotaCall) (usage : AccountUsage) : AccountUsage :=
  { usage with
    groups := call.editGroups usage.groups
    observedAtUnix := some call.nowUnix }

end QuotaCall

/-- Storing a usage that was not polled keeps what only a poll gives. -/
def AccountUsage.setUsage (slot usage : AccountUsage) : AccountUsage :=
  if usage.refreshedAtUnix.isNone then
    { usage with
      resetCreditsAvailable := usage.resetCreditsAvailable.or slot.resetCreditsAvailable
      resetCredits := if usage.resetCredits.isEmpty then slot.resetCredits else usage.resetCredits
      refreshedAtUnix := slot.refreshedAtUnix
      lastRefreshError := usage.lastRefreshError.or slot.lastRefreshError
      refreshStatus := usage.refreshStatus.or slot.refreshStatus
      modelAvailability := usage.modelAvailability.or slot.modelAvailability
      planType := usage.planType.or slot.planType
      groups := if usage.groups.isEmpty then slot.groups else usage.groups }
  else usage

/-- What was written to a usage, and for a bucket the time of the copy it went into. -/
inductive Write where
  | recorded (call : QuotaCall) (clock : Int)
  | merged (header : AccountUsage)

/-- A call that has its copy and has not stored it; with how much had been written when
the copy was taken. -/
structure Copied where
  call : QuotaCall
  clock : Int
  usage : AccountUsage
  writes : Nat

/-- The usage of one account, the calls under way, and what was written so far. -/
structure UsageState where
  cline : Bool
  slot : AccountUsage
  copies : Nat → Option Copied
  log : List Write

inductive UsageEvent where
  | copy (id : Nat) (call : QuotaCall) (clock : Int)
  | store (id : Nat)
  | merge (header : AccountUsage)

def UsageState.step (state : UsageState) : UsageEvent → Option UsageState
  | .copy id call clock =>
    match state.copies id with
    | some _ => none
    | none =>
      some { state with
        copies := Function.update state.copies id (some
          ⟨call, clock, state.slot.snapshotAt state.cline clock, state.log.length⟩) }
  | .store id =>
    match state.copies id with
    | none => none
    | some copied =>
      some { state with
        slot := state.slot.setUsage (copied.call.edit copied.usage)
        copies := Function.update state.copies id none
        log := state.log ++ [.recorded copied.call copied.clock] }
  | .merge header =>
    some { state with
      slot := state.slot.applyHeaderUpdate header
      log := state.log ++ [.merged header] }

open AccountUsage List Option

theorem canonical_canonical (model : String) :
    canonicalClineQuotaModel (canonicalClineQuotaModel model) = canonicalClineQuotaModel model := by
  have slug : clineQuotaSlug (canonicalClineQuotaModel model) = clineQuotaSlug model := by
    unfold canonicalClineQuotaModel clineQuotaSlug
    have reversed : ("cline-free/" ++ String.ofList
        (model.toList.reverse.takeWhile (· ≠ '/')).reverse).toList.reverse =
        model.toList.reverse.takeWhile (· ≠ '/') ++ '/' :: "cline-free".toList.reverse := by
      simp
    rw [reversed, takeWhile_append_of_pos, takeWhile_cons_of_neg (by decide), append_nil]
    intro char member
    exact all_eq_true.mp (all_takeWhile (p := (· ≠ '/'))) char member
  unfold canonicalClineQuotaModel at slug ⊢
  rw [slug]

def AccountUsage.clineBucket (usage : AccountUsage) (id : String) : Option QuotaBucket :=
  (usage.groups.find? isClineGroup).bind fun group =>
    group.buckets.find? fun bucket => bucket.bucketId == some id

section Edit
variable (call other : QuotaCall) (usage slot : AccountUsage)

theorem find?_editGroups : (call.editGroups usage.groups).find? isClineGroup =
      some (call.editGroup ((usage.groups.find? isClineGroup).getD QuotaCall.newGroup)) := by
  have stays : ∀ group, isClineGroup group = true → isClineGroup (call.editGroup group) = true := fun _ named => named
  simp only [QuotaCall.editGroups]
  rw [find?_updateFirst_self stays]
  by_cases present : usage.groups.any isClineGroup = true
  · rw [if_pos present]
    cases found : usage.groups.find? isClineGroup with
    | some group => rfl
    | none =>
      obtain ⟨group, member, named⟩ := any_eq_true.mp present
      exact absurd named (find?_eq_none.mp found group member)
  · rw [if_neg present]
    have missing : usage.groups.find? isClineGroup = none := by
      rw [find?_eq_none]
      intro group member named
      exact present (any_eq_true.mpr ⟨group, member, named⟩)
    rw [find?_append, missing]
    rfl

theorem clineBucket_edit (id : String) : (call.edit usage).clineBucket id =
      (call.editBuckets ((usage.groups.find? isClineGroup).getD QuotaCall.newGroup).buckets).find?
        (fun bucket => bucket.bucketId == some id) := by
  unfold clineBucket
  simp only [QuotaCall.edit]
  rw [find?_editGroups]
  rfl

theorem clineBucket_edit_own : ∃ bucket, (call.edit usage).clineBucket call.canonical = some bucket ∧
      bucket.displayName = some call.label ∧ bucket.usedPercent = some call.usedPercent ∧
      bucket.resetAtUnix = some call.resetAt := by
  rw [clineBucket_edit]
  simp only [QuotaCall.editBuckets]
  generalize ((usage.groups.find? isClineGroup).getD QuotaCall.newGroup).buckets.filter
    call.keeps = kept
  by_cases present : kept.any call.isOwn = true
  · obtain ⟨old, found⟩ : ∃ old, kept.find? call.isOwn = some old := by
      rw [← isSome_iff_exists, find?_isSome]
      exact any_eq_true.mp present
    refine ⟨call.write old, ?_, rfl, rfl, rfl⟩
    rw [if_pos present]
    have stays : ∀ bucket, call.isOwn bucket = true → call.isOwn (call.write bucket) = true := fun _ own => own
    have updated := find?_updateFirst_self stays kept
    rw [found] at updated
    exact updated
  · rw [if_neg present, find?_append, find?_eq_none.mpr]
    · simp [QuotaCall.newBucket]
    · intro bucket member own
      exact present (any_eq_true.mpr ⟨bucket, member, own⟩)

theorem clineBucket_edit_other (different : other.canonical ≠ call.canonical) {bucket : QuotaBucket}
    (here : usage.clineBucket call.canonical = some bucket) :
    (other.edit usage).clineBucket call.canonical = some bucket := by
  obtain ⟨group, named, found⟩ := bind_eq_some_iff.mp here
  rw [clineBucket_edit, named, getD_some]
  have kept : (group.buckets.filter other.keeps).find?
      (fun bucket => bucket.bucketId == some call.canonical) = some bucket := by
    rw [find?_filter_of_keeps, found]
    intro bucket own
    have id : bucket.bucketId = some call.canonical := by simpa using own
    have apart : canonicalClineQuotaModel call.canonical ≠ other.canonical := by
      unfold QuotaCall.canonical at different ⊢
      rw [canonical_canonical]
      exact different.symm
    simp [QuotaCall.keeps, id, apart]
  have notOther : other.isOwn bucket = false := by
    have id : bucket.bucketId = some call.canonical := by simpa using find?_some found
    simp [QuotaCall.isOwn, id, different.symm]
  simp only [QuotaCall.editBuckets]
  split
  · refine find?_updateFirst_of_ne ?_ kept notOther
    exact fun _ _ want => want
  · rw [find?_append, kept]
    rfl

theorem groups_edit_ne_nil : (call.edit usage).groups ≠ [] := by
  intro nil
  have found := find?_editGroups call usage
  have groups : call.editGroups usage.groups = [] := nil
  rw [groups] at found
  cases found

theorem groups_setUsage_edit : (slot.setUsage (call.edit usage)).groups = (call.edit usage).groups := by
  unfold setUsage
  split
  · simp [groups_edit_ne_nil]
  · rfl

theorem windows_setUsage_edit : (slot.setUsage (call.edit usage)).windows = usage.windows := by
  unfold setUsage
  split <;> rfl

end Edit

section Snapshot
variable (usage : AccountUsage) (cline : Bool) (nowUnix : Int)

theorem groups_withQuotaFreshness (staleAfter : Int) :
    (usage.withQuotaFreshness nowUnix staleAfter).groups = usage.groups := by
  unfold withQuotaFreshness
  split <;> rfl

theorem windows_snapshotAt : (usage.snapshotAt cline nowUnix).windows = usage.windows := by
  simp only [snapshotAt, withQuotaFreshness]
  split <;> split <;> rfl

theorem clineBucket_expire (id : String) : (usage.expireStaleClineLimits nowUnix).clineBucket id =
      (usage.clineBucket id).map (expireBucket nowUnix) := by
  have named : isClineGroup ∘ expireGroup nowUnix = isClineGroup := by
    funext group
    simp only [Function.comp_apply, expireGroup]
    split <;> rfl
  have own : (fun bucket : QuotaBucket => bucket.bucketId == some id) ∘ expireBucket nowUnix =
      fun bucket => bucket.bucketId == some id := by
    funext bucket
    simp only [Function.comp_apply, expireBucket]
    split <;> rfl
  unfold clineBucket expireStaleClineLimits
  rw [find?_map, named]
  cases found : usage.groups.find? isClineGroup with
  | none => rfl
  | some group =>
    have isNamed := find?_some found
    simp only [map_some, bind_some, expireGroup, isNamed, if_true]
    rw [find?_map, own]

/-- A bucket in a snapshot is the one stored, or what is left of it after its reset. -/
theorem clineBucket_snapshotAt (id : String) : (usage.snapshotAt cline nowUnix).clineBucket id = usage.clineBucket id ∨
      (usage.snapshotAt cline nowUnix).clineBucket id = (usage.clineBucket id).map (expireBucket nowUnix) := by
  have fresh : (usage.withQuotaFreshness nowUnix 360).clineBucket id = usage.clineBucket id := by
    unfold clineBucket
    rw [groups_withQuotaFreshness]
  cases cline with
  | false => exact .inl fresh
  | true =>
    right
    rw [← fresh]
    exact clineBucket_expire _ nowUnix id

end Snapshot

/-- A header update with no group of the name or for the models of the Cline group. -/
def Foreign (header usage : AccountUsage) : Prop :=
  ∀ incoming ∈ header.groups, incoming.displayName ≠ some clineGroupName ∧
    ∀ group, usage.groups.find? isClineGroup = some group → sameModels incoming group = false

theorem find?_mergeGroupInto {groups : List QuotaGroup} {incoming group : QuotaGroup}
    (unnamed : incoming.displayName ≠ some clineGroupName)
    (found : groups.find? isClineGroup = some group) (other : sameModels incoming group = false) :
    (mergeGroupInto groups incoming).find? isClineGroup = some group := by
  unfold mergeGroupInto
  split
  · refine find?_updateFirst_of_ne ?_ found other
    intro item _ notNamed
    cases name : incoming.displayName with
    | none => simpa [isClineGroup, mergeGroup, name] using notNamed
    | some shown => simpa [isClineGroup, mergeGroup, name] using unnamed
  · rw [find?_append, found]
    rfl

theorem clineBucket_applyHeaderUpdate {usage header : AccountUsage} {id : String}
    {bucket : QuotaBucket} (foreign : Foreign header usage) (here : usage.clineBucket id = some bucket) :
    (usage.applyHeaderUpdate header).clineBucket id = some bucket := by
  obtain ⟨group, named, found⟩ := bind_eq_some_iff.mp here
  have kept : ∀ incoming ∈ header.groups, incoming.displayName ≠ some clineGroupName ∧
      sameModels incoming group = false :=
    fun incoming member => ⟨(foreign incoming member).1, (foreign incoming member).2 group named⟩
  have stays : (header.groups.foldl mergeGroupInto usage.groups).find? isClineGroup =
      some group := by
    generalize usage.groups = groups at named
    generalize header.groups = merged at kept
    induction merged generalizing groups with
    | nil => exact named
    | cons incoming rest ih =>
      obtain ⟨unnamed, other⟩ := kept incoming (by simp)
      exact ih (mergeGroupInto groups incoming) (find?_mergeGroupInto unnamed named other)
        fun incoming member => kept incoming (by simp [member])
  unfold clineBucket applyHeaderUpdate
  rw [stays]
  exact found

section Shows

/-- The bucket of a call is there as it was written, or cleared at one of these times
because its reset had come. -/
def Shows (usage : AccountUsage) (call : QuotaCall) (clocks : List Int) : Prop :=
  ∃ bucket, usage.clineBucket call.canonical = some bucket ∧
    bucket.displayName = some call.label ∧
    ((bucket.usedPercent = some call.usedPercent ∧ bucket.resetAtUnix = some call.resetAt) ∨
      (bucket.usedPercent = none ∧ bucket.resetAtUnix = none ∧ ∃ clock ∈ clocks, call.resetAt ≤ clock))

variable {usage : AccountUsage} {call : QuotaCall} {clocks : List Int}

theorem Shows.of_bucket {after : AccountUsage} (shows : Shows usage call clocks)
    (kept : ∀ bucket, usage.clineBucket call.canonical = some bucket →
      after.clineBucket call.canonical = some bucket) : Shows after call clocks := by
  obtain ⟨bucket, here, shown⟩ := shows
  exact ⟨bucket, kept bucket here, shown⟩

theorem Shows.snapshotAt (shows : Shows usage call clocks) (cline : Bool) (nowUnix : Int) :
    Shows (usage.snapshotAt cline nowUnix) call (clocks ++ [nowUnix]) := by
  obtain ⟨bucket, here, label, how⟩ := shows
  rcases clineBucket_snapshotAt usage cline nowUnix call.canonical with same | expired
  · refine ⟨bucket, same.trans here, label, ?_⟩
    rcases how with written | ⟨used, reset, clock, member, passed⟩
    · exact .inl written
    · exact .inr ⟨used, reset, clock, mem_append_left _ member, passed⟩
  · rw [here] at expired
    refine ⟨expireBucket nowUnix bucket, expired, ?_, ?_⟩
    · unfold expireBucket
      split <;> exact label
    · unfold expireBucket
      rcases how with ⟨used, reset⟩ | ⟨used, reset, clock, member, passed⟩
      · by_cases due : call.resetAt ≤ nowUnix
        · exact .inr (by simp [reset, due])
        · exact .inl (by simp [reset, used, due])
      · exact .inr ⟨by simp [reset, used], by simp [reset], clock, mem_append_left _ member, passed⟩

theorem Shows.of_record (slot : AccountUsage) : Shows (slot.setUsage (call.edit usage)) call clocks := by
  obtain ⟨bucket, here, label, used, reset⟩ := clineBucket_edit_own call usage
  refine ⟨bucket, ?_, label, .inl ⟨used, reset⟩⟩
  unfold clineBucket at here ⊢
  rw [groups_setUsage_edit]
  exact here

theorem Shows.record (shows : Shows usage call clocks) {other : QuotaCall}
    (different : other.canonical ≠ call.canonical) (slot : AccountUsage) :
    Shows (slot.setUsage (other.edit usage)) call clocks := by
  refine shows.of_bucket fun bucket here => ?_
  have kept := clineBucket_edit_other call other usage different here
  unfold clineBucket at kept ⊢
  rw [groups_setUsage_edit]
  exact kept

theorem Shows.merge (shows : Shows usage call clocks) {header : AccountUsage}
    (foreign : Foreign header usage) : Shows (usage.applyHeaderUpdate header) call clocks :=
  shows.of_bucket fun _ here => clineBucket_applyHeaderUpdate foreign here

end Shows

section Runs

def clocksOf (log : List Write) : List Int :=
  log.filterMap fun
    | .recorded _ clock => some clock
    | .merged _ => none

def headersOf (log : List Write) : List AccountUsage :=
  log.filterMap fun
    | .recorded _ _ => none
    | .merged header => some header

/-- The write of a call that no later one for the same model has replaced. -/
def LastFor (call : QuotaCall) (log after : List Write) : Prop :=
  (∃ before clock, log = before ++ .recorded call clock :: after) ∧
    ∀ other clock, .recorded other clock ∈ after → other.canonical ≠ call.canonical

/-- Nothing written is lost: every reader finds the bucket of each model as the last call
for it has written it, and the windows are those that the header updates give, one after
another. -/
structure NoLostUsage (start : UsageState) (events : List UsageEvent) : Prop where
  buckets : ∀ last call after now, schedule UsageState.step start events = some last →
    (∀ id, last.copies id = none) → LastFor call last.log after →
    Shows (last.slot.snapshotAt last.cline now) call (clocksOf after ++ [now])
  windows : ∀ last now, schedule UsageState.step start events = some last →
    (∀ id, last.copies id = none) →
    (last.slot.snapshotAt last.cline now).windows =
      (headersOf last.log).foldl mergeWindows start.slot.windows

/-- No writer comes between the copy of a call and its store, and no header update is
about the Cline group. -/
structure Undivided (start : UsageState) (events : List UsageEvent) : Prop where
  stored : ∀ past id state copied, past ++ [.store id] <+: events →
    schedule UsageState.step start past = some state → state.copies id = some copied →
    copied.writes = state.log.length
  foreign : ∀ past header state, past ++ [.merge header] <+: events →
    schedule UsageState.step start past = some state → Foreign header state.slot

/-- Before the first writer. -/
structure Fresh (state : UsageState) : Prop where
  copies : ∀ id, state.copies id = none
  log : state.log = []

/-- What holds after each step of a run without a divided call. -/
structure Kept (start state : UsageState) : Prop where
  windows : state.slot.windows = (headersOf state.log).foldl mergeWindows start.slot.windows
  buckets : ∀ call after, LastFor call state.log after → Shows state.slot call (clocksOf after)
  copies : ∀ id copied, state.copies id = some copied → copied.writes ≤ state.log.length ∧
    (copied.writes = state.log.length → copied.usage = state.slot.snapshotAt state.cline copied.clock)

variable {start state next : UsageState}

theorem Kept.of_fresh (fresh : Fresh start) : Kept start start where
  windows := by simp [fresh.log, headersOf]
  buckets := by
    rintro call after ⟨⟨before, clock, split⟩, -⟩
    rw [fresh.log] at split
    simp at split
  copies := by
    intro id copied here
    rw [fresh.copies id] at here
    cases here

/-- The last write for a model in a longer log is the new one, or was the last before and
the new one is for another model. -/
theorem lastFor_concat {call : QuotaCall} {log after : List Write} {write : Write}
    (last : LastFor call (log ++ [write]) after) : (after = [] ∧ ∃ clock, write = .recorded call clock) ∨
    ∃ earlier, after = earlier ++ [write] ∧ LastFor call log earlier ∧
      ∀ other clock, write = .recorded other clock → other.canonical ≠ call.canonical := by
  obtain ⟨⟨before, clock, split⟩, unreplaced⟩ := last
  rcases eq_nil_or_concat' after with rfl | ⟨earlier, final, rfl⟩
  · obtain ⟨-, same⟩ := append_inj' split rfl
    exact .inl ⟨rfl, clock, singleton_inj.mp same⟩
  · rw [← cons_append, ← append_assoc] at split
    obtain ⟨same, final'⟩ := append_inj' split rfl
    cases singleton_inj.mp final'
    refine .inr ⟨earlier, rfl, ⟨⟨before, clock, same⟩, ?_⟩, ?_⟩
    · exact fun other clock member => unreplaced other clock (mem_append_left _ member)
    · rintro other clock rfl
      exact unreplaced other clock (by simp)

theorem Kept.step {event : UsageEvent} (kept : Kept start state)
    (stored : ∀ id copied, event = .store id → state.copies id = some copied → copied.writes = state.log.length)
    (foreign : ∀ header, event = .merge header → Foreign header state.slot)
    (stepped : state.step event = some next) : Kept start next := by
  cases event with
  | copy id call clock =>
    simp only [UsageState.step] at stepped
    split at stepped <;> cases stepped
    refine ⟨kept.windows, kept.buckets, ?_⟩
    intro other copied here
    by_cases same : other = id
    · subst same
      simp only [Function.update_self, some.injEq] at here
      subst here
      exact ⟨Nat.le_refl _, fun _ => rfl⟩
    · simp only [Function.update_of_ne same] at here
      exact kept.copies other copied here
  | store id =>
    simp only [UsageState.step] at stepped
    split at stepped <;> cases stepped
    next copied here =>
      have current := stored id copied rfl here
      have taken := (kept.copies id copied here).2 current
      refine ⟨?_, ?_, ?_⟩
      · rw [windows_setUsage_edit, taken, windows_snapshotAt, kept.windows]
        simp [headersOf]
      · intro call after last
        rcases lastFor_concat last with ⟨rfl, clock, same⟩ | ⟨earlier, rfl, last, different⟩
        · cases same
          exact .of_record _
        · have shown := (kept.buckets call earlier last).snapshotAt state.cline copied.clock
          rw [← taken] at shown
          have clocks : clocksOf (earlier ++ [.recorded copied.call copied.clock]) =
              clocksOf earlier ++ [copied.clock] := by simp [clocksOf]
          rw [clocks]
          exact shown.record (different copied.call copied.clock rfl) _
      · intro other copied' here'
        by_cases same : other = id
        · subst same
          simp at here'
        · simp only [Function.update_of_ne same] at here'
          have bound := (kept.copies other copied' here').1
          simp only [length_append, length_singleton]
          exact ⟨by omega, fun equal => by omega⟩
  | merge header =>
    cases stepped
    refine ⟨?_, ?_, ?_⟩
    · have merged : (state.slot.applyHeaderUpdate header).windows = mergeWindows state.slot.windows header := rfl
      rw [merged, kept.windows]
      simp [headersOf]
    · intro call after last
      rcases lastFor_concat last with ⟨-, clock, same⟩ | ⟨earlier, rfl, last, -⟩
      · cases same
      · have clocks : clocksOf (earlier ++ [.merged header]) = clocksOf earlier := by
          simp [clocksOf]
        rw [clocks]
        exact (kept.buckets call earlier last).merge (foreign header rfl)
    · intro other copied here
      have bound := (kept.copies other copied here).1
      simp only [length_append, length_singleton]
      exact ⟨by omega, fun equal => by omega⟩

theorem kept_of_schedule {events : List UsageEvent} {last : UsageState} (fresh : Fresh start)
    (undivided : Undivided start events)
    (ran : schedule UsageState.step start events = some last) : Kept start last := by
  refine schedule_invariant_within (fun _ state => Kept start state) (.of_fresh fresh) ?_ ran
  intro history state event next within reached kept stepped
  refine kept.step ?_ ?_ stepped
  · rintro id copied rfl here
    exact undivided.stored history id state copied within reached here
  · rintro header rfl
    exact undivided.foreign history header state within reached

/-- If no writer comes between the copy and the store of a call, nothing that was written
to the usage is lost. -/
theorem no_lost_usage_of_undivided (start : UsageState) (events : List UsageEvent)
    (fresh : Fresh start) (undivided : Undivided start events) : NoLostUsage start events where
  buckets := by
    intro last call after now ran _ latest
    exact ((kept_of_schedule fresh undivided ran).buckets call after latest).snapshotAt _ now
  windows := by
    intro last now ran _
    rw [windows_snapshotAt]
    exact (kept_of_schedule fresh undivided ran).windows

end Runs

namespace UsageSample

def blank : UsageState := ⟨true, default, fun _ => none, []⟩

def glm : QuotaCall := ⟨"z-ai/glm", 60, 1000, 50⟩

def deepseek : QuotaCall := ⟨"cline-free/deepseek", 60, 1000, 75⟩

def inTurn : List UsageEvent := [.copy 0 glm 1000, .store 0, .copy 1 deepseek 1000, .store 1]

def crossed : List UsageEvent := [.copy 0 glm 1000, .copy 1 deepseek 1000, .store 0, .store 1]

theorem fresh_blank : Fresh blank := ⟨fun _ => rfl, rfl⟩

def storesCurrent (events : List UsageEvent) : Bool :=
  match events.getLast? with
  | some (.store id) =>
    (schedule UsageState.step blank events.dropLast).all fun state =>
      (state.copies id).all fun copied => copied.writes == state.log.length
  | _ => true

theorem inTurn_inits : inTurn.inits.all storesCurrent = true := by decide +kernel

theorem undivided_inTurn : Undivided blank inTurn where
  stored := by
    intro past id state copied within reached here
    have current := all_eq_true.mp inTurn_inits _ ((mem_inits _ _).mpr within)
    simpa [storesCurrent, reached, here] using current
  foreign := by
    intro past header state within _
    have member : UsageEvent.merge header ∈ inTurn := within.subset (by simp)
    simp [inTurn] at member

theorem calls_in_turn_kept : Undivided blank inTurn ∧ NoLostUsage blank inTurn :=
  ⟨undivided_inTurn, no_lost_usage_of_undivided blank inTurn fresh_blank undivided_inTurn⟩

/-- Both calls copy the usage before either stores it: the first bucket is lost. -/
theorem crossed_bucket_lost : Fresh blank ∧ (schedule UsageState.step blank crossed).map (fun last =>
      ((last.slot.snapshotAt true 1000).clineBucket glm.canonical,
        ((last.slot.snapshotAt true 1000).clineBucket deepseek.canonical).map QuotaBucket.bucketId)) =
      some (none, some (some deepseek.canonical)) ∧ ¬ NoLostUsage blank crossed := by
  refine ⟨fresh_blank, (and_iff_left_of_imp ?_).mpr (by decide +kernel)⟩
  intro run kept
  obtain ⟨last, ran, ends⟩ := map_eq_some_iff.mp run
  have lost : (last.slot.snapshotAt true 1000).clineBucket glm.canonical = none := (Prod.mk.inj ends).1
  have latest : LastFor glm [.recorded glm 1000, .recorded deepseek 1000]
      [.recorded deepseek 1000] := by
    refine ⟨⟨[], 1000, rfl⟩, ?_⟩
    intro other clock member
    simp only [mem_singleton, Write.recorded.injEq] at member
    rw [member.1]
    decide +kernel
  have finished : ∀ id, last.copies id = none := by
    cases ran
    intro id
    by_cases first : id = 0
    · subst first
      rfl
    · by_cases second : id = 1
      · subst second
        rfl
      · simp [blank, first, second]
  have log : last.log = [.recorded glm 1000, .recorded deepseek 1000] := by
    cases ran
    rfl
  have cline : last.cline = true := by
    cases ran
    rfl
  rw [← log] at latest
  obtain ⟨bucket, here, -⟩ := kept.buckets last glm [.recorded deepseek 1000] 1000 ran finished latest
  rw [cline, lost] at here
  cases here

end UsageSample
end Mahoquot.Gateway.UsageUpdates
