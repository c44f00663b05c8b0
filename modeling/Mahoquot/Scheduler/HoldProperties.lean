import Mahoquot.Library.Latch
import Mahoquot.Scheduler.Registry

/-! Exhaustion hysteresis over whole runs: the entry of an account in the exhaustion table is
a latch on its readings, released when the account is selected. -/

set_option autoImplicit false

namespace Mahoquot.Scheduler
open Library Gateway SchedulerRegistry List

def exhaustionLatch : Latch where
  enter := exhaustionEnterPercent
  recover := exhaustionRecoverPercent
  hold := minimumHoldSecs
  ordered := by decide

variable {nowUnix : Int} {member : AccountMember} {members : List AccountMember}

theorem hold_le_saturatingSub {since : Int} :
    minimumHoldSecs ≤ saturatingSub nowUnix since ↔ minimumHoldSecs ≤ nowUnix - since := by
  simp only [saturatingSub, minimumHoldSecs, i64Min, i64Max]
  omega

theorem observeExhaustion_self (nowUnix : Int) (exhausted : Std.ExtTreeMap String Int) (member : AccountMember) :
    (observeExhaustion nowUnix exhausted member)[member.id]? =
      exhaustionLatch.next exhausted[member.id]? ⟨remainingPercent member, nowUnix⟩ := by
  rw [observeExhaustion]
  cases remainingPercent member with
  | none => rfl
  | some remaining =>
    by_cases low : remaining ≤ exhaustionEnterPercent
    · rw [Latch.next_of_low rfl low]
      simp only [low, if_true, Std.ExtTreeMap.getElem?_insertIfNew, Std.ExtTreeMap.mem_iff_isSome_getElem?]
      cases exhausted[member.id]? with
      | none => simp
      | some since => simp
    · by_cases high : exhaustionRecoverPercent < remaining
      · rw [Latch.next_of_high rfl high]
        simp only [low, high, if_true, if_false, hold_le_saturatingSub]
        change _ = if exhausted[member.id]?.all (fun start =>
          decide (minimumHoldSecs ≤ nowUnix - start)) = true then none else exhausted[member.id]?
        split
        · simp
        · rfl
      · rw [Latch.next_of_middle rfl low high]
        simp only [low, high, if_false]

variable {account : String}

theorem observeExhaustion_other {exhausted : Std.ExtTreeMap String Int} (other : member.id ≠ account) :
    (observeExhaustion nowUnix exhausted member)[account]? = exhausted[account]? := by
  rw [observeExhaustion]
  split
  · rfl
  · split
    · simp [Std.ExtTreeMap.getElem?_insertIfNew, other]
    · split
      · split
        · simp [Std.ExtTreeMap.getElem?_erase, other]
        · rfl
      · rfl

def OnlyMember (members : List AccountMember) (account : String) (member : AccountMember) : Prop :=
  members.filter (fun other => other.id == account) = [member]

section Facts
variable {failures : Std.ExtTreeMap String Nat} {exhausted : Std.ExtTreeMap String Int}

theorem gatherFacts_absent (absent : ∀ other ∈ members, other.id ≠ account) :
    (gatherFacts nowUnix failures members exhausted).2[account]? = exhausted[account]? ∧
      ∀ fact ∈ (gatherFacts nowUnix failures members exhausted).1, fact.id ≠ account := by
  induction members generalizing exhausted with
  | nil =>
    exact ⟨rfl, nofun⟩
  | cons head members ih =>
    obtain ⟨other, rest⟩ := forall_mem_cons.mp absent
    obtain ⟨entry, facts⟩ := @ih (observeExhaustion nowUnix exhausted head) rest
    exact ⟨entry.trans (observeExhaustion_other other), forall_mem_cons.mpr ⟨other, facts⟩⟩

/-- The account's entry after all observations, which is also what its fact
was read from. -/
theorem gatherFacts_only (only : OnlyMember members account member) :
    (gatherFacts nowUnix failures members exhausted).2[account]? =
        exhaustionLatch.next exhausted[account]? ⟨remainingPercent member, nowUnix⟩ ∧
      ∀ fact ∈ (gatherFacts nowUnix failures members exhausted).1, fact.id = account →
        fact.remaining = remainingPercent member ∧ fact.exhaustedSince =
          exhaustionLatch.next exhausted[account]? ⟨remainingPercent member, nowUnix⟩ := by
  induction members generalizing exhausted with
  | nil => cases only
  | cons head members ih =>
    by_cases same : head.id = account
    · subst same
      have alone : members.filter (fun other => other.id == head.id) = [] ∧ head = member := by
        simpa [OnlyMember, and_comm] using only
      obtain ⟨alone, rfl⟩ := alone
      have absent : ∀ other ∈ members, other.id ≠ head.id := by
        simpa [filter_eq_nil_iff] using alone
      obtain ⟨entry, others⟩ := @gatherFacts_absent nowUnix members head.id failures
        (observeExhaustion nowUnix exhausted head) absent
      have seen := observeExhaustion_self nowUnix exhausted head
      refine ⟨entry.trans seen, forall_mem_cons.mpr ⟨fun _ => ⟨rfl, seen⟩, fun fact among named => ?_⟩⟩
      exact absurd named (others fact among)
    · have further : OnlyMember members account member := by
        simpa [OnlyMember, same] using only
      obtain ⟨entry, facts⟩ := @ih (observeExhaustion nowUnix exhausted head) further
      rw [observeExhaustion_other same] at entry facts
      exact ⟨entry, forall_mem_cons.mpr ⟨fun named => absurd named same, facts⟩⟩

end Facts

theorem OnlyMember.known (only : OnlyMember members account member) :
    members.any (fun other => other.id == account) = true := by
  have among : member ∈ members.filter fun other => other.id == account := by
    rw [only]
    exact mem_singleton_self member
  exact any_eq_true.mpr ⟨member, mem_filter.mp among⟩

theorem OnlyMember.find (only : OnlyMember members account member) :
    members.find? (fun other => other.id == account) = some member := by
  rw [← head?_filter, only]
  rfl

theorem retain_exhausted {runtime : PersistedState} (known : members.any (fun other => other.id == account) = true) :
    (runtime.retain members).exhaustedSinceUnix[account]? = runtime.exhaustedSinceUnix[account]? := by
  simp only [PersistedState.retain, Std.ExtTreeMap.getElem?_filter', known]
  cases runtime.exhaustedSinceUnix[account]? with
  | none => rfl
  | some since => rfl

/-- A candidate that may be selected has its latch released. -/
theorem eligible_released {settings : SchedulerSettings} {incumbent : Option String} {fact : Fact}
    {since : Option Int} (read : fact.exhaustedSince = exhaustionLatch.next since ⟨fact.remaining, nowUnix⟩)
    (eligible : (fact.candidate settings incumbent nowUnix).isEligible = true) :
    exhaustionLatch.next since ⟨fact.remaining, nowUnix⟩ = none := by
  cases remaining : fact.remaining with
  | none => simp [Candidate.isEligible, Fact.candidate, remaining] at eligible
  | some level =>
    simp only [Candidate.isEligible, Fact.candidate, remaining, Bool.and_eq_true,
      Bool.not_eq_true', Bool.or_eq_false_iff] at eligible
    obtain ⟨⟨⟨_, held⟩, _⟩, low⟩ := eligible
    rw [remaining] at read
    refine Latch.next_eq_none_of_admitted rfl fun start tripped => ?_
    rw [read, tripped] at held low
    have long : ¬ saturatingSub nowUnix start < minimumHoldSecs := by simpa using held
    exact ⟨by simpa [exhaustionLatch] using low, hold_le_saturatingSub.mp (not_lt.mp long)⟩

section Reconcile
variable {runtime : PersistedState} {settings : SchedulerSettings}

theorem reconcile_exhausted (only : OnlyMember members account member) :
    (runtime.reconcile settings members nowUnix).1.exhaustedSinceUnix[account]? =
      exhaustionLatch.next runtime.exhaustedSinceUnix[account]? ⟨remainingPercent member, nowUnix⟩ := by
  have entry := (@gatherFacts_only nowUnix member members account (runtime.retain members).nonAuthFailures
    (runtime.retain members).exhaustedSinceUnix only).1
  rwa [retain_exhausted only.known] at entry

theorem reconcile_selected (only : OnlyMember members account member)
    (selected : (runtime.reconcile settings members nowUnix).2.selected = some account) :
    (runtime.reconcile settings members nowUnix).1.exhaustedSinceUnix[account]? = none := by
  rw [reconcile_exhausted only]
  obtain ⟨candidate, chosen, key⟩ := Option.map_eq_some_iff.mp selected
  obtain ⟨among, eligible⟩ := selectCandidate_some chosen
  obtain ⟨fact, gathered, rfl⟩ := mem_map.mp among
  obtain ⟨remaining, since⟩ := (gatherFacts_only only).2 fact gathered key
  rw [retain_exhausted only.known, ← remaining] at since
  rw [← remaining]
  exact eligible_released since eligible

end Reconcile

namespace SchedulerRegistry

/-- What a step shows of the account: a reconciliation that schedules reads
its remaining percentage. -/
def reading (account : String) (registry : SchedulerRegistry) : SchedulerStep → Option Reading
  | .reconcile members nowUnix =>
    if registry.isScheduling then
      (members.find? fun member => member.id == account).map fun member =>
        ⟨remainingPercent member, nowUnix⟩
    else none
  | _ => none

/-- The account is in every member list, once. -/
def Present (account : String) (steps : List SchedulerStep) : Prop :=
  ∀ members nowUnix, .reconcile members nowUnix ∈ steps →
    ∃ member, OnlyMember members account member

variable {registry : SchedulerRegistry}

theorem reconcile_of_scheduling (scheduling : registry.isScheduling = true) : registry.reconcile members nowUnix =
      { registry with
        runtime := (registry.runtime.reconcile registry.settings members nowUnix).1
        snapshot := (registry.runtime.reconcile registry.settings members nowUnix).2 } := by
  simp only [isScheduling, Bool.and_eq_true, Bool.not_eq_true'] at scheduling
  simp [reconcile, scheduling]

theorem reconcile_of_idle (idle : registry.isScheduling = false) :
    (registry.reconcile members nowUnix).runtime = registry.runtime ∧
      (registry.reconcile members nowUnix).snapshot.selected = none ∧
      (registry.reconcile members nowUnix).snapshot.allowed = [] := by
  rw [reconcile]
  split
  · exact ⟨rfl, rfl, rfl⟩
  · split
    · exact ⟨rfl, rfl, rfl⟩
    · rename_i enabled parsed
      simp only [isScheduling, Bool.and_eq_false_iff, Bool.not_eq_false'] at idle
      rcases idle with disabled | failed
      · simp [disabled] at enabled
      · exact absurd failed parsed

/-- The account's entry follows its latch on the readings, whatever the step. -/
theorem step_exhausted {step : SchedulerStep} (present : Present account [step]) :
    (registry.step step).runtime.exhaustedSinceUnix[account]? =
      exhaustionLatch.step registry.runtime.exhaustedSinceUnix[account]? (registry.reading account step) := by
  cases step with
  | reconcile members nowUnix =>
    obtain ⟨member, only⟩ := present members nowUnix (mem_singleton_self _)
    rw [step, reading]
    cases scheduling : registry.isScheduling with
    | true =>
      rw [reconcile_of_scheduling scheduling, only.find]
      exact reconcile_exhausted only
    | false =>
      rw [(reconcile_of_idle scheduling).1]
      rfl
  | forgetFailures other => rfl
  | countFailure other => rfl
  | configure next => rfl

theorem reconcile_selects (only : OnlyMember members account member)
    (selects : (registry.reconcile members nowUnix).snapshot.selected = some account ∨
      account ∈ (registry.reconcile members nowUnix).snapshot.allowed) :
    (registry.reconcile members nowUnix).runtime.exhaustedSinceUnix[account]? = none := by
  cases scheduling : registry.isScheduling with
  | false =>
    obtain ⟨_, unselected, allowed⟩ := @reconcile_of_idle nowUnix members registry scheduling
    rw [unselected, allowed] at selects
    rcases selects with selected | allowed
    · cases selected
    · cases allowed
  | true =>
    rw [reconcile_of_scheduling scheduling] at selects ⊢
    have selected :
        (registry.runtime.reconcile registry.settings members nowUnix).2.selected =
          some account := by
      rcases selects with selected | allowed
      · exact selected
      · exact Option.mem_toList.mp allowed
    exact reconcile_selected only selected

abbrev before (start : SchedulerRegistry) (steps : List SchedulerStep) (position : Nat) : SchedulerRegistry :=
  stateAt step start steps position

theorem exhausted_follows_latch {start : SchedulerRegistry} {steps : List SchedulerStep}
    (present : Present account steps) (position : Nat) :
    (before start steps position).runtime.exhaustedSinceUnix[account]? =
      stateAt exhaustionLatch.step start.runtime.exhaustedSinceUnix[account]?
        (trace step (reading account) start steps) position := by
  refine stateAt_simulates
    (fun (registry : SchedulerRegistry) since =>
      registry.runtime.exhaustedSinceUnix[account]? = since) rfl ?_ position
  intro position step since found related
  have alone : Present account [step] := by
    intro members nowUnix among
    cases mem_singleton.mp among
    exact present members nowUnix (mem_of_getElem? found)
  rw [step_exhausted alone, related]

theorem exhausted_account_held {start : SchedulerRegistry} {steps : List SchedulerStep}
    {account : String} (present : Present account steps) {first last : Nat} {step : SchedulerStep}
    {observed : Reading} {percent : Nat} (found : steps[first]? = some step)
    (observes : (before start steps first).reading account step = some observed)
    (level : observed.level = some percent) (low : percent ≤ exhaustionEnterPercent)
    {members : List AccountMember} {nowUnix : Int} (later : first < last)
    (reconciles : steps[last]? = some (.reconcile members nowUnix))
    (selects : (before start steps (last + 1)).snapshot.selected = some account ∨
      account ∈ (before start steps (last + 1)).snapshot.allowed) : ∃ since,
      (before start steps (first + 1)).runtime.exhaustedSinceUnix[account]? = some since ∧ (since = observed.time ∨
        (before start steps first).runtime.exhaustedSinceUnix[account]? = some since) ∧
      ∃ position other recovery recovered, first < position ∧ position ≤ last ∧ steps[position]? = some other ∧
        (before start steps position).reading account other = some recovery ∧
        recovery.level = some recovered ∧ exhaustionRecoverPercent < recovered ∧
        minimumHoldSecs ≤ recovery.time - since := by
  -- the observation at `first` trips the latch, the selection finds it released
  have tripped : (before start steps (first + 1)).runtime.exhaustedSinceUnix[account]? =
      some ((before start steps first).runtime.exhaustedSinceUnix[account]?.getD
        observed.time) := by
    have observed := trace_getElem? SchedulerRegistry.step (reading account) start steps first
    rw [found, Option.map_some, observes] at observed
    rw [exhausted_follows_latch present, exhausted_follows_latch present, stateAt_succ observed]
    exact Latch.next_of_low level low
  obtain ⟨member, only⟩ := present members nowUnix (mem_of_getElem? reconciles)
  have released : (before start steps (last + 1)).runtime.exhaustedSinceUnix[account]? = none := by
    rw [before, stateAt_succ reconciles] at selects ⊢
    exact reconcile_selects only selects
  refine ⟨_, tripped, ?_, ?_⟩
  · cases (before start steps first).runtime.exhaustedSinceUnix[account]? with
    | none => exact .inl rfl
    | some since => exact .inr rfl
  · rw [exhausted_follows_latch present] at tripped released
    obtain ⟨position, recovery, lower, upper, event, recovered, level, high, long⟩ :=
      Latch.released_between (Nat.succ_le_succ later.le) tripped released
    rw [trace_getElem?] at event
    obtain ⟨other, among, reads⟩ := Option.map_eq_some_iff.mp event
    exact ⟨position, other, recovery, recovered, lower, Nat.lt_succ_iff.mp upper, among, reads, level, high, long⟩

end SchedulerRegistry

def usedAccount (used : Rat) : AccountMember :=
  { AccountMember.new "codex-a" .codex with
    usage := { AccountUsage.default with
      primary := { QuotaWindow.empty with usedPercent := some used } } }

def reconciliations (readings : List (Rat × Int)) : List SchedulerStep :=
  readings.map fun reading => .reconcile [usedAccount reading.1] reading.2

def enabledScheduler : SchedulerRegistry := ⟨⟨true, ∅⟩, .default, .default, false⟩

theorem reconciliations_present (readings : List (Rat × Int)) : Present "codex-a" (reconciliations readings) := by
  intro members nowUnix among
  obtain ⟨reading, _, same⟩ := mem_map.mp among
  cases same
  exact ⟨usedAccount reading.1, rfl⟩

theorem selected_after_hold : (before enabledScheduler (reconciliations [(98, 0), (50, 600)])
        2).snapshot.selected = some "codex-a" ∧ ∃ since position, 0 < position ∧ position ≤ 1 ∧
        (before enabledScheduler (reconciliations [(98, 0), (50, 600)])
          1).runtime.exhaustedSinceUnix["codex-a"]? = some since := by
  have exhausts : (reconciliations [(98, 0), (50, 600)])[0]? = some (.reconcile [usedAccount 98] 0) := rfl
  have observes : (before enabledScheduler (reconciliations [(98, 0), (50, 600)]) 0).reading "codex-a"
        (.reconcile [usedAccount 98] 0) = some ⟨some 2, 0⟩ := by decide +kernel
  have recovers : (reconciliations [(98, 0), (50, 600)])[1]? = some (.reconcile [usedAccount 50] 600) := rfl
  have selects : (before enabledScheduler
      (reconciliations [(98, 0), (50, 600)]) 2).snapshot.selected = some "codex-a" := by
    decide +kernel
  obtain ⟨since, tripped, _, position, _, _, _, lower, upper, _⟩ :=
    exhausted_account_held (reconciliations_present [(98, 0), (50, 600)])
      exhausts observes rfl (by decide) Nat.zero_lt_one recovers (.inl selects)
  exact ⟨selects, since, position, lower, upper, tripped⟩

/-- After an episode has ended the account is selected down to 4 percent. -/
theorem selected_between_thresholds :
    remainingPercent (usedAccount 98) = some 2 ∧ remainingPercent (usedAccount 96) = some 4 ∧
      (before enabledScheduler (reconciliations [(98, 0), (50, 600), (96, 700)]) 3).snapshot.selected =
          some "codex-a" := by
  decide +kernel

end Mahoquot.Scheduler
