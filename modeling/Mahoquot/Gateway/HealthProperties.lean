import Mahoquot.Gateway.Writes
import Mahoquot.Library.Runs

/-! The health of one account over a run of outcomes. Only the account-wide bench of the
relay, an unconditional store, can revive a withdrawn account or shorten a bench. -/

set_option autoImplicit false

namespace Mahoquot.Gateway
open Library Outcome AccountMember

/-- Withdrawn by the operator or by a rejected credential. -/
def Withdrawn (health : Health) : Prop :=
  health = .disabled ∨ health = .authFailed

namespace Outcome

/-- The clock of a rate-limit or exhaustion outcome. -/
def limitedAt : Outcome → Option Int
  | .limited _ _ nowMs | .exhausted _ nowMs | .unpaid _ _ nowMs => some nowMs
  | .warmupLimited _ _ nowUnix => some (nowUnix * 1000)
  | .served _ | .unsupported _ | .authFailed | .released _ => none

variable (member : AccountMember)

/-- Clock and deadline of an outcome that the relay files on the whole account:
neither a rejected model, nor a Cline cap, nor a quota group narrows it. -/
def accountWide : Outcome → Option (Int × Int)
  | .limited response model nowMs =>
    if rejectedModel response member model = none ∧ clineCap response member = none ∧
        model.bind member.quotaGroupFor = none then
      some (nowMs, cooldownDeadlineFromHeaders response.headers nowMs)
    else none
  | .exhausted model nowMs =>
    if model.bind member.quotaGroupFor = none then some (nowMs, cooldownDeadlineMs nowMs 300)
    else none
  | _ => none

/-- The account is not withdrawn, and no deadline after `nowMs` is running that
lies behind the one to be filed. -/
def Admissible (outcome : Outcome) : Prop :=
  ∀ nowMs deadline, outcome.accountWide member = some (nowMs, deadline) →
    ¬ Withdrawn member.health ∧
      ∀ running, member.health = .cooldown running → nowMs < running → running ≤ deadline

/-- A limit never moves a running deadline to an earlier time. -/
def Lengthens (outcome : Outcome) : Prop :=
  ∀ nowMs running, outcome.limitedAt = some nowMs → member.health = .cooldown running →
    nowMs < running →
      ∃ deadline, (member.after outcome).health = .cooldown deadline ∧ running ≤ deadline

end Outcome

namespace AccountMember

theorem health_raises (member : AccountMember) (filed : List String) (deadline : Int) :
    (((BenchScope.keys filed).writes deadline).foldl write member).health = member.health := by
  rw [← bench_eq_writes]
  simp only [bench]
  rw [raiseCooldowns_eq]

theorem health_after (member : AccountMember) (outcome : Outcome) : (member.after outcome).health =
      ((outcome.writes member).foldl write member.unlabelled).health := by
  rw [← unlabelled_after]
  rfl

variable {member : AccountMember} {nowMs deadline : Int} {model : Option String}

theorem groupScope_of_ungrouped (ungrouped : model.bind member.quotaGroupFor = none) :
    member.groupScope model = .account := by
  simp [groupScope, ungrouped]

theorem groupScope_of_grouped (grouped : model.bind member.quotaGroupFor ≠ none) :
    ∃ group, member.groupScope model = .keys [group] := by
  obtain ⟨group, found⟩ := Option.ne_none_iff_exists'.mp grouped
  exact ⟨group, by simp [groupScope, found]⟩

variable {outcome : Outcome}

/-- An outcome that the relay files on the whole account is one write to its
health. -/
theorem writes_of_accountWide (wide : outcome.accountWide member = some (nowMs, deadline)) :
    outcome.limitedAt = some nowMs ∧ outcome.writes member = [.bench deadline] := by
  cases outcome with
  | limited response model clock =>
    simp only [accountWide] at wide
    split at wide
    next unscoped =>
      obtain ⟨rejected, capped, ungrouped⟩ := unscoped
      cases wide
      refine ⟨rfl, ?_⟩
      simp only [writes, benchScope, benchDeadline, rejected, capped, groupScope_of_ungrouped ungrouped]
      rfl
    next => cases wide
  | exhausted model clock =>
    simp only [accountWide] at wide
    split at wide
    next ungrouped =>
      cases wide
      refine ⟨rfl, ?_⟩
      rw [writes, groupScope_of_ungrouped ungrouped]
      rfl
    next => cases wide
  | served | unpaid | warmupLimited | unsupported | authFailed | released => cases wide

theorem health_after_accountWide (wide : outcome.accountWide member = some (nowMs, deadline)) :
    (member.after outcome).health = .cooldown deadline := by
  rw [health_after, (writes_of_accountWide wide).2]
  rfl

theorem benchScope_of_narrow {response : Response} (narrow : (limited response model nowMs).accountWide member = none) :
    ∃ filed, benchScope response member model = .keys filed := by
  simp only [benchScope]
  cases rejected : rejectedModel response member model with
  | some name => exact ⟨_, rfl⟩
  | none =>
    cases capped : clineCap response member with
    | some cap => exact ⟨_, rfl⟩
    | none =>
      have grouped : model.bind member.quotaGroupFor ≠ none := by
        intro ungrouped
        simp [accountWide, rejected, capped, ungrouped] at narrow
      obtain ⟨group, scope⟩ := groupScope_of_grouped grouped
      exact ⟨[group], scope⟩

theorem health_after_raises {filed : List String}
    (raises : outcome.writes member = (BenchScope.keys filed).writes deadline) :
    (member.after outcome).health = member.health := by
  rw [health_after, raises, health_raises]
  rfl

/-- What an outcome that is not filed on the whole account can do to the health. -/
inductive HealthMove (outcome : Outcome) : Health → Health → Prop where
  | kept (health : Health) : HealthMove outcome health health
  | healed (running : Int) (unlimited : outcome.limitedAt = none) :
      HealthMove outcome (.cooldown running) .available
  | rejected (health : Health) (unlimited : outcome.limitedAt = none) :
      HealthMove outcome health .authFailed
  | benched (deadline : Int) : HealthMove outcome .available (.cooldown deadline)
  | extended (running deadline : Int) :
      HealthMove outcome (.cooldown running) (.cooldown (max running deadline))

theorem healthMove_coolDown (member : AccountMember) (deadline : Int) (outcome : Outcome) :
    HealthMove outcome member.health (member.coolDown deadline).health := by
  simp only [coolDown]
  split
  next found =>
    rw [found]
    exact .benched deadline
  next running found =>
    rw [found]
    exact .extended running deadline
  next => exact .kept _
  next => exact .kept _

theorem healthMove_warmup (member start : AccountMember) (quotaModel model : String)
    (deadline : Int) (outcome : Outcome) : HealthMove outcome start.health
      ((member.warmupWrites quotaModel model deadline).foldl write start).health := by
  have requested (first : AccountMember) :
      ((if quotaModel ≠ model then
          (BenchScope.keys (member.quotaGroupFor model).toList).writes deadline
        else []).foldl write first).health = first.health := by
    split
    · exact health_raises _ _ _
    · rfl
  simp only [warmupWrites, List.foldl_append, requested]
  cases member.quotaGroupFor quotaModel with
  | none => exact healthMove_coolDown start deadline outcome
  | some group => exact .kept _

theorem healthMove_recordOk (member : AccountMember) (nowMs : Int) :
    HealthMove (.served nowMs) member.health (member.recordOk nowMs).health := by
  simp only [recordOk]
  split
  next running found =>
    split
    · rw [found]
      exact .healed running rfl
    · exact .kept _
  next => exact .kept _

theorem healthMove_release (member : AccountMember) (nowUnix : Int) : HealthMove (.released nowUnix) member.health
      (member.releaseCodexCooldownIfQuotaFree nowUnix).2.health := by
  simp only [releaseCodexCooldownIfQuotaFree]
  split
  · split
    next running found =>
      rw [found]
      exact .healed running rfl
    next => exact .kept _
  · exact .kept _

theorem healthMove_of_narrow (narrow : outcome.accountWide member = none) :
    HealthMove outcome member.health (member.after outcome).health := by
  cases outcome with
  | served nowMs => exact healthMove_recordOk member nowMs
  | limited response model nowMs =>
    obtain ⟨filed, scope⟩ := benchScope_of_narrow narrow
    rw [health_after_raises (by rw [writes, scope])]
    exact .kept _
  | exhausted model nowMs =>
    have grouped : model.bind member.quotaGroupFor ≠ none := by
      intro ungrouped
      simp [accountWide, ungrouped] at narrow
    obtain ⟨group, scope⟩ := groupScope_of_grouped grouped
    rw [health_after_raises (by rw [writes, scope])]
    exact .kept _
  | unpaid body model nowMs =>
    rw [health_after, writes]
    split
    · rw [creditWrites, health_raises]
      exact .kept _
    · exact .kept _
  | warmupLimited response model nowUnix =>
    rw [health_after]
    exact healthMove_warmup member member.unlabelled _ model _ _
  | unsupported model =>
    simp only [after, markUnsupported]
    split <;> exact .kept _
  | authFailed => exact .rejected _ rfl
  | released nowUnix => exact healthMove_release member nowUnix

theorem HealthMove.withdrawn {before after : Health} (move : HealthMove outcome before after)
    (withdrawn : Withdrawn before) : Withdrawn after := by
  cases move with
  | kept => exact withdrawn
  | rejected => exact .inr rfl
  | healed | benched | extended => simp [Withdrawn] at withdrawn

theorem HealthMove.lengthens {running : Int} {after : Health} (move : HealthMove outcome (.cooldown running) after)
    (limited : outcome.limitedAt = some nowMs) : ∃ deadline, after = .cooldown deadline ∧ running ≤ deadline := by
  cases move with
  | kept => exact ⟨running, rfl, le_refl running⟩
  | extended _ deadline => exact ⟨max running deadline, rfl, le_max_left running deadline⟩
  | healed _ unlimited => cases unlimited.symm.trans limited
  | rejected _ unlimited => cases unlimited.symm.trans limited

/-- One outcome keeps a withdrawn account withdrawn and a running deadline in
place exactly when it is admissible. -/
theorem after_keeps_iff (member : AccountMember) (outcome : Outcome) :
    (Withdrawn member.health → Withdrawn (member.after outcome).health) ∧ outcome.Lengthens member ↔
      outcome.Admissible member := by
  constructor
  · rintro ⟨keeps, lengthens⟩ nowMs deadline wide
    have filed := health_after_accountWide wide
    refine ⟨fun withdrawn => ?_, fun running found early => ?_⟩
    · have kept := keeps withdrawn
      simp [filed, Withdrawn] at kept
    · obtain ⟨later, same, ordered⟩ := lengthens nowMs running (writes_of_accountWide wide).1 found early
      rw [filed] at same
      cases same
      exact ordered
  · intro admissible
    cases wide : outcome.accountWide member with
    | none =>
      have move := healthMove_of_narrow wide
      refine ⟨move.withdrawn, fun nowMs running limited found _ => ?_⟩
      rw [found] at move
      exact move.lengthens limited
    | some filed =>
      obtain ⟨clock, deadline⟩ := filed
      obtain ⟨present, ordered⟩ := admissible clock deadline wide
      refine ⟨fun withdrawn => absurd withdrawn present, ?_⟩
      intro nowMs running limited found early
      have same : some clock = some nowMs := (writes_of_accountWide wide).1.symm.trans limited
      cases same
      exact ⟨deadline, health_after_accountWide wide, ordered running found early⟩

def beforeOutcome (start : AccountMember) (outcomes : List Outcome) (position : Nat) : AccountMember :=
  stateAt after start outcomes position

/-- Over a run of outcomes, a withdrawn account stays withdrawn and no limit
moves a running deadline to an earlier time exactly when every outcome meets an
account on which it is admissible. -/
theorem health_kept_iff_admissible (start : AccountMember) (outcomes : List Outcome) :
    (∀ first last, first ≤ last → Withdrawn (start.beforeOutcome outcomes first).health →
        Withdrawn (start.beforeOutcome outcomes last).health) ∧
      (∀ (position : Nat) (outcome : Outcome), outcomes[position]? = some outcome →
        outcome.Lengthens (start.beforeOutcome outcomes position)) ↔
    ∀ (position : Nat) (outcome : Outcome), outcomes[position]? = some outcome →
      outcome.Admissible (start.beforeOutcome outcomes position) := by
  constructor
  · rintro ⟨keeps, lengthens⟩ position outcome found
    rw [← after_keeps_iff]
    refine ⟨fun withdrawn => ?_, lengthens position outcome found⟩
    have next := keeps position (position + 1) (Nat.le_succ position) withdrawn
    rwa [beforeOutcome, stateAt_succ found] at next
  · intro admissible
    have steps (position : Nat) (outcome : Outcome) (found : outcomes[position]? = some outcome) :=
      (after_keeps_iff _ outcome).mpr (admissible position outcome found)
    refine ⟨fun first last ordered withdrawn => ?_, fun position outcome found =>
      (steps position outcome found).2⟩
    exact stateAt_stretch (fun member : AccountMember => Withdrawn member.health) ordered withdrawn
      fun position outcome _ _ found => (steps position outcome found).1

end AccountMember

/-- What an attempt of the failover loop leaves on its account: nothing, or one
outcome. -/
def Recorded (member result : AccountMember) : Prop :=
  result = member ∨ ∃ outcome, result = member.after outcome

section Attempts
variable (plan : RelayPlan) (member : AccountMember) (encounter : Encounter)

theorem markStreamError_recorded (error : StreamError) (nowMs : Int) :
    Recorded member (markStreamError plan member error nowMs) := by
  simp only [markStreamError]
  split
  · exact .inr ⟨.exhausted plan.model nowMs, rfl⟩
  · split
    · exact .inr ⟨.authFailed, rfl⟩
    · exact .inl rfl

theorem settleRefusal_recorded (status : Nat) (failure : FinalFailure) :
    Recorded member (settleRefusal plan member status failure).1 := by
  simp only [settleRefusal]
  split
  · exact .inr ⟨.authFailed, rfl⟩
  · split
    next model _ => exact .inr ⟨.unsupported model, rfl⟩
    next =>
      repeat' split
      all_goals first
        | exact .inl rfl
        | exact .inr ⟨.authFailed, rfl⟩

variable (response : Response)

theorem settleFailure_recorded (nowMs : Int) : Recorded member (settleFailure plan member response nowMs).1 := by
  simp only [settleFailure]
  split
  · split <;> exact .inr ⟨.limited response plan.model nowMs, rfl⟩
  · split
    · split
      next model owed =>
        split at owed
        next credits =>
          refine .inr ⟨.unpaid (extractFailure response).body model nowMs, ?_⟩
          simp only [after, credits, ↓reduceIte]
        next => cases owed
      next => exact .inl rfl
    · split
      · exact .inl rfl
      · exact settleRefusal_recorded plan member _ _

theorem settle_recorded : Recorded member (settle plan member response encounter).1 := by
  simp only [settle]
  split
  · split
    · exact .inl rfl
    · simp only [settleStreamError]
      split
      · exact .inl rfl
      · exact markStreamError_recorded plan member _ _
  · exact settleFailure_recorded plan member response _

theorem afterRefreshError_recorded (error : RefreshError) : Recorded member (afterRefreshError member error) := by
  simp only [afterRefreshError]
  split
  · exact .inr ⟨.authFailed, rfl⟩
  · exact .inl rfl

theorem replayed_recorded (refreshed : Bool) :
    Recorded member (replayed plan member response refreshed encounter).member := by
  simp only [replayed]
  split
  · split
    · exact afterRefreshError_recorded member _
    · split
      · exact .inl rfl
      · exact settle_recorded plan member encounter _
  · exact settle_recorded plan member encounter response

theorem attempt_recorded : Recorded member (attempt plan member encounter).member := by
  have answers (response : Response) (refreshed : Bool) :
      Recorded member (answered plan member response refreshed encounter).member := by
    simp only [answered]
    split
    · split
      · exact .inl rfl
      · exact replayed_recorded plan member encounter _ _
    · exact replayed_recorded plan member encounter _ _
  have sends (refreshed : Bool) :
      Recorded member (sent plan member refreshed encounter).member := by
    simp only [sent]
    split
    · exact .inl rfl
    · split
      · exact .inl rfl
      · exact .inl rfl
      · split
        · split <;> exact .inl rfl
        · exact answers _ _
  simp only [attempt]
  split
  · split
    · exact afterRefreshError_recorded member _
    · exact sends true
  · exact sends false

end Attempts

def codexAccount : AccountMember := .new "codex-a" .codex

/-- A 429 with a Retry-After, then a stream that runs dry a second later. -/
def limitedThenExhausted (retryAfter : String) : List Outcome :=
  [.limited ⟨429, [("retry-after", retryAfter)], .ok ⟨"", none⟩⟩ (some "gpt-5") 0, .exhausted (some "gpt-5") 1000]

/-- The first deadline lies a minute ahead, the second five, and the later one wins. -/
theorem deadline_grows_after_short_limit :
    (codexAccount.beforeOutcome (limitedThenExhausted "60") 1).health = .cooldown 60000 ∧
      ∃ deadline, (codexAccount.beforeOutcome (limitedThenExhausted "60") 2).health =
        .cooldown deadline ∧ 60000 ≤ deadline := by
  have benched : (codexAccount.beforeOutcome (limitedThenExhausted "60") 1).health = .cooldown 60000 := by decide +kernel
  have admissible : ∀ (position : Nat) (outcome : Outcome),
      (limitedThenExhausted "60")[position]? = some outcome →
        outcome.Admissible (codexAccount.beforeOutcome (limitedThenExhausted "60") position) := by
    intro position outcome found nowMs deadline wide
    match position with
    | 0 => exact ⟨by simp [beforeOutcome, codexAccount, new, Withdrawn], by simp [beforeOutcome, codexAccount, new]⟩
    | 1 =>
      have same : outcome = .exhausted (some "gpt-5") 1000 := by
        simpa [limitedThenExhausted] using found.symm
      have filed : (exhausted (some "gpt-5") 1000).accountWide
          (codexAccount.beforeOutcome (limitedThenExhausted "60") 1) =
            some (1000, 301000) := by decide +kernel
      subst same
      cases filed.symm.trans wide
      refine ⟨by simp [benched, Withdrawn], fun running running60 _ => ?_⟩
      cases benched.symm.trans running60
      decide
    | position + 2 => simp [limitedThenExhausted] at found
  have lengthens := (health_kept_iff_admissible codexAccount
    (limitedThenExhausted "60")).mpr admissible |>.2 1 (.exhausted (some "gpt-5") 1000) rfl
  exact ⟨benched, lengthens 1000 60000 rfl benched (by decide)⟩

/-- A rejected credential is cooled down and so comes back, and an hour's bench
is cut to five minutes. -/
theorem bench_heals_and_shortens :
    (codexAccount.beforeOutcome [.authFailed, .exhausted (some "gpt-5") 0] 1).health = .authFailed ∧
      (codexAccount.beforeOutcome [.authFailed, .exhausted (some "gpt-5") 0] 2).health = .cooldown 300000 ∧
      (codexAccount.beforeOutcome (limitedThenExhausted "3600") 1).health = .cooldown 3600000 ∧
      (codexAccount.beforeOutcome (limitedThenExhausted "3600") 2).health = .cooldown 301000 := by
  decide +kernel

end Mahoquot.Gateway
