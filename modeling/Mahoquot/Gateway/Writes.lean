import Mahoquot.Gateway.Attempt

/-! Outcomes as writes. A handler takes one lock per cell, so what it does to
the cells that routing reads is a list of writes to single cells. -/

set_option autoImplicit false

namespace Mahoquot.Gateway
open Library AccountMember

inductive Write where
  /-- Cool down, whatever the health was. -/
  | bench (untilUnixMs : Int)
  | reject
  /-- End a cooldown that has run out. -/
  | expire (nowMs : Int)
  /-- Cool down behind the later of two deadlines. -/
  | extend (untilUnixMs : Int)
  /-- End a cooldown whatever its deadline. -/
  | lift
  | raise (key : String) (untilUnixMs : Int)
  | unsupported (model : String)
deriving Repr, DecidableEq

variable (member : AccountMember)

def AccountMember.write : Write → AccountMember
  | .bench untilUnixMs => member.setHealth (.cooldown untilUnixMs)
  | .reject => member.setHealth .authFailed
  | .expire nowMs => member.recordOk nowMs
  | .extend untilUnixMs => member.coolDown untilUnixMs
  | .lift =>
    match member.health with
    | .cooldown _ => member.setHealth .available
    | _ => member
  | .raise key untilUnixMs => member.raiseCooldown key untilUnixMs
  | .unsupported model => member.markUnsupported model

def BenchScope.writes (scope : BenchScope) (untilUnixMs : Int) : List Write :=
  match scope with
  | .account => [.bench untilUnixMs]
  | .keys filed => filed.map fun key => .raise key untilUnixMs

/-- The groups a Cline cap is filed under: of the billed and of the requested name. -/
def AccountMember.capGroups (capModel model : String) : List String :=
  (capModel :: ((some model).filter (· ≠ capModel)).toList).filterMap member.quotaGroupFor

def AccountMember.creditWrites (body : Body) (model : String) (nowMs : Int) : List Write :=
  let cap := cline402Fallback body model
  let resetAt := resolveClineDeadline (some (member.clineTrackerFor cap.1)) (nowMs.tdiv 1000)
    cap.2
  (BenchScope.keys (member.capGroups cap.1 model)).writes (resetAt * 1000)

def AccountMember.warmupWrites (quotaModel model : String) (untilUnixMs : Int) : List Write :=
  (match member.quotaGroupFor quotaModel with
    | some group => [.raise group untilUnixMs]
    | none => [.extend untilUnixMs]) ++
  if quotaModel ≠ model then
    (BenchScope.keys (member.quotaGroupFor model).toList).writes untilUnixMs
  else []

def Outcome.writes : Outcome → List Write
  | .served nowMs => [.expire nowMs]
  | .limited response model nowMs => (benchScope response member model).writes
      (benchDeadline response member model nowMs)
  | .exhausted model nowMs => (member.groupScope model).writes (cooldownDeadlineMs nowMs 300)
  | .unpaid body model nowMs =>
    if failureIsInsufficientCredits body && member.providerName == "cline" then
      member.creditWrites body model nowMs
    else []
  | .warmupLimited response model nowUnix =>
    let (_, quotaModel, untilUnixMs) := member.warmupLimit response model nowUnix
    member.warmupWrites quotaModel model untilUnixMs
  | .unsupported model => [.unsupported model]
  | .authFailed => [.reject]
  | .released nowUnix => if member.codexQuotaFree nowUnix then [.lift] else []

namespace AccountMember

theorem inner_write (write : Write) : (member.write write).inner = member.inner := by
  cases write <;> simp only [write, recordOk, coolDown, markUnsupported] <;>
    (repeat' split) <;> rfl

theorem unlabelled_write (write : Write) : (member.write write).unlabelled = member.unlabelled.write write := by
  have health : member.unlabelled.health = member.health := rfl
  have models : member.unlabelled.unsupportedModels = member.unsupportedModels := rfl
  cases write <;> simp only [write, recordOk, coolDown, markUnsupported, health, models] <;> (repeat' split) <;> rfl

theorem quotaGroupFor_write (write : Write) (model : String) :
    (member.write write).quotaGroupFor model = member.quotaGroupFor model := by
  simp only [quotaGroupFor, providerName, inner_write]

theorem bench_eq_writes (scope : BenchScope) (deadline : Int) :
    member.bench scope deadline = (scope.writes deadline).foldl write member := by
  cases scope with
  | account => rfl
  | keys filed =>
    induction filed generalizing member with
    | nil => rfl
    | cons key filed ih => exact ih (member.raiseCooldown key deadline)

theorem unlabelled_setGroupCreditBench (model : String) (deadline : Int) :
    (member.setGroupCreditBench model deadline).unlabelled = member.unlabelled := by
  simp only [setGroupCreditBench]
  split <;> rfl

theorem unlabelled_labelOutOfCredit (capModel : String) :
    (labelOutOfCredit member capModel).unlabelled = member.unlabelled := by
  simp only [labelOutOfCredit]
  split
  · simp only [setGroupBenchKind]
    split <;> rfl
  · rfl

theorem unlabelled_labelCreditBench (capModel : String) (requested : Option String) (deadline : Int) :
    (labelCreditBench member capModel requested deadline).unlabelled = member.unlabelled := by
  simp only [labelCreditBench]
  split
  · split
    · rw [unlabelled_setGroupCreditBench, unlabelled_labelOutOfCredit, unlabelled_setGroupCreditBench]
    · rw [unlabelled_labelOutOfCredit, unlabelled_setGroupCreditBench]
  · rw [unlabelled_labelOutOfCredit, unlabelled_setGroupCreditBench]

theorem unlabelled_recordClineCredits {member : AccountMember}
    (cline : member.providerName = "cline") (body : Body) (model : String) (nowMs : Int) :
    (recordClineCredits member body model nowMs).unlabelled =
      (member.creditWrites body model nowMs).foldl write member.unlabelled := by
  have tracked (capModel : String) (tracker : ClineDailyTracker) :
      (member.setClineTracker capModel tracker).providerName = "cline" := cline
  simp only [recordClineCredits]
  rw [unlabelled_labelCreditBench, unlabelled_benchClineCap _ (tracked _ _), bench_eq_writes]
  rfl

/-- The requested model is benched on top only where it has a group. -/
theorem unlabelled_setGroupCooldown_getD (model : String) (deadline : Int) :
    ((member.setGroupCooldown model deadline).getD member).unlabelled =
      ((BenchScope.keys (member.quotaGroupFor model).toList).writes deadline).foldl write member.unlabelled := by
  cases grouped : member.quotaGroupFor model with
  | none => simp [setGroupCooldown, grouped, BenchScope.writes]
  | some group =>
    simp only [setGroupCooldown, grouped]
    rfl

theorem unlabelled_benchWarmup (quotaModel model : String) (deadline : Int) :
    (member.benchWarmup quotaModel model deadline).unlabelled =
      (member.warmupWrites quotaModel model deadline).foldl write member.unlabelled := by
  have requested (write : Write) (first : AccountMember) (same : first = member.write write) :
      (if quotaModel ≠ model then (first.setGroupCooldown model deadline).getD first
        else first).unlabelled =
      ((if quotaModel ≠ model then
          (BenchScope.keys (member.quotaGroupFor model).toList).writes deadline
        else []).foldl AccountMember.write (member.unlabelled.write write)) := by
    subst same
    rw [← unlabelled_write]
    split
    · rw [unlabelled_setGroupCooldown_getD, quotaGroupFor_write]
    · rfl
  simp only [benchWarmup, warmupWrites]
  cases grouped : member.quotaGroupFor quotaModel with
  | none =>
    simp only [setGroupCooldown, grouped]
    exact requested (.extend deadline) _ rfl
  | some group =>
    simp only [setGroupCooldown, grouped]
    exact requested (.raise group deadline) _ rfl

/-- What an outcome does to the cells that routing reads is its list of writes. -/
theorem unlabelled_after (outcome : Outcome) : (member.after outcome).unlabelled =
      (outcome.writes member).foldl write member.unlabelled := by
  cases outcome with
  | served nowMs => exact member.unlabelled_write (.expire nowMs)
  | limited response model nowMs =>
    rw [Outcome.writes, ← bench_eq_writes]
    exact unlabelled_recordCooldown response member model nowMs
  | exhausted model nowMs =>
    rw [Outcome.writes, ← bench_eq_writes]
    exact unlabelled_benchExhaustedQuota member model _ _
  | unpaid body model nowMs =>
    simp only [after, Outcome.writes]
    split
    next owed =>
      rw [Bool.and_eq_true, beq_iff_eq] at owed
      exact unlabelled_recordClineCredits owed.2 body model nowMs
    · rfl
  | warmupLimited response model nowUnix =>
    simp only [after, recordWarmupLimit, Outcome.writes, unlabelled_benchWarmup]
    simp only [warmupLimit]
    split <;> rfl
  | unsupported model => exact member.unlabelled_write (.unsupported model)
  | authFailed => rfl
  | released nowUnix =>
    simp only [after, releaseCodexCooldownIfQuotaFree, Outcome.writes]
    split
    · rw [List.foldl_cons, ← unlabelled_write]
      simp only [write]
      cases member.health <;> rfl
    · rfl

end AccountMember
end Mahoquot.Gateway
