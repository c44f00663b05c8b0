import Mahoquot.Gateway.Cooldown

/-! Reading an upstream answer, and one attempt of the failover loop: from the chosen account
to the verdict on its answer, how often it sends and when it is given back, and what a
request leaves on the one health cell of its account, from whichever handler. -/

set_option autoImplicit false

namespace Mahoquot.Gateway
open Library

variable (member : AccountMember)

def isClaudeMember : Bool :=
  decide (member.kind = .claude) && !member.isNekosRelay

def enforcementSignatures : List String :=
  ["only authorized for use with claude code", "has been disabled", "suspended",
    "terms of service", "usage policy", "organization has been"]

inductive Denial where
  | enforcement
  | denied
  | other
deriving Repr, DecidableEq

def isEnforcementText (message : String) : Bool :=
  enforcementSignatures.any fun signature =>
    Text.contains signature (Text.toAsciiLowercase message)

def classify (status : Nat) (message : String) : Denial :=
  if (status == 400 || status == 401 || status == 403) && isEnforcementText message then
    .enforcement
  else if status = 403 then .denied
  else .other

def isAccountScopedModelRejection (status : Nat) (body : Body) : Bool :=
  if status = 402 then true
  else if status ≠ 400 ∧ status ≠ 403 then false
  else
    ["is not supported when using Codex", "model is not supported", "INVALID_MODEL_ID",
      "MONTHLY_REQUEST_COUNT"].any fun text => Text.contains text body.text

inductive ConnectCode where
  | canceled
  | unknown
  | invalidArgument
  | deadlineExceeded
  | notFound
  | alreadyExists
  | permissionDenied
  | resourceExhausted
  | failedPrecondition
  | aborted
  | outOfRange
  | unimplemented
  | internal
  | unavailable
  | dataLoss
  | unauthenticated
deriving Repr, DecidableEq

def ConnectCode.asStr : ConnectCode → String
  | .canceled => "canceled"
  | .unknown => "unknown"
  | .invalidArgument => "invalid_argument"
  | .deadlineExceeded => "deadline_exceeded"
  | .notFound => "not_found"
  | .alreadyExists => "already_exists"
  | .permissionDenied => "permission_denied"
  | .resourceExhausted => "resource_exhausted"
  | .failedPrecondition => "failed_precondition"
  | .aborted => "aborted"
  | .outOfRange => "out_of_range"
  | .unimplemented => "unimplemented"
  | .internal => "internal"
  | .unavailable => "unavailable"
  | .dataLoss => "data_loss"
  | .unauthenticated => "unauthenticated"

def ConnectCode.all : List ConnectCode :=
  [.canceled, .unknown, .invalidArgument, .deadlineExceeded, .notFound, .alreadyExists,
    .permissionDenied, .resourceExhausted, .failedPrecondition, .aborted, .outOfRange,
    .unimplemented, .internal, .unavailable, .dataLoss, .unauthenticated]

def normalizeConnectCode (raw : String) : Option ConnectCode :=
  ConnectCode.all.find? fun code => code.asStr == raw

def connectCodeToHttpStatus : ConnectCode → Nat
  | .canceled => 408
  | .invalidArgument | .failedPrecondition | .outOfRange => 400
  | .deadlineExceeded => 504
  | .notFound => 404
  | .alreadyExists | .aborted => 409
  | .permissionDenied => 403
  | .resourceExhausted => 429
  | .unimplemented => 501
  | .unavailable => 503
  | .unauthenticated => 401
  | .unknown | .internal | .dataLoss => 500

/-- An error that ended a stream before its first event. -/
structure StreamError where
  status : Nat
  code : ConnectCode
  description : String
deriving Repr, DecidableEq

def streamError (reason : String) : StreamError :=
  match Text.splitAt? ": " reason with
  | none => ⟨502, .unknown, reason⟩
  | some (raw, description) =>
    match normalizeConnectCode raw with
    | none => ⟨502, .unknown, reason⟩
    | some code => ⟨connectCodeToHttpStatus code, code, description⟩

def StreamError.failure (error : StreamError) : FinalFailure :=
  { status := error.status
    contentType := some "application/json"
    body :=
      { text := "\x7b\"error\":\x7b\"message\":\"" ++ error.description ++
          "\",\"type\":\"upstream_error\",\"code\":\"" ++ error.code.asStr ++ "\"\x7d\x7d"
        json := some (.obj [("error", .obj [("message", .str error.description),
          ("type", .str "upstream_error"), ("code", .str error.code.asStr)])]) } }

def rebuildResponse (failure : FinalFailure) : Response :=
  { status := failure.status
    headers := failure.contentType.toList.map fun contentType => ("content-type", contentType)
    body := .ok failure.body }

def accountRetryLimit (globalRetry : Int) : Nat :=
  (max (member.requestRetryOverride.getD (max globalRetry 0)) 0).toNat

def retryRoundAllows (round : Nat) (globalRetry : Int) : Bool :=
  round == 0 || decide (accountRetryLimit member globalRetry ≥ round)

def retryStatus (status : Nat) : Bool :=
  [403, 408, 429, 500, 502, 503, 504].contains status

def retryRoundWaitMs (deadlinesMs : List Int) (nowMs maxIntervalSecs : Int) : Option Nat :=
  let maxWaitMs := (max maxIntervalSecs 0).toNat * 1000
  ((deadlinesMs.map fun deadline => (max (saturatingAdd deadline (-nowMs)) 0).toNat).filter
    fun wait => decide (wait ≤ maxWaitMs)).min?

structure RefreshError where
  isAuthFailure : Bool
deriving Repr, DecidableEq

structure SendError where
  isAmbiguous : Bool
  message : String
deriving Repr, DecidableEq

inductive Reply where
  | error (status : Nat) (message : String)
  | coolingDown (retryAfterSecs : Int)
  /-- No account is left; the body may name the earliest reset. -/
  | unavailable
  | intercepted (status : Nat)
  | failure (failure : FinalFailure)
  | served (status : Nat)

inductive Charge where
  | budget
  /-- The attempt is given back to the round and costs no budget. -/
  | refund
  /-- The account is excluded for this request, at the cost of budget. -/
  | denied
deriving Repr, DecidableEq

inductive Verdict where
  | reply (reply : Reply)
  | stop
  | again (charge : Charge) (retryable : Bool)

structure RelayPlan where
  model : Option String
  carriesDocument : Bool
  authRefreshEnabled : Bool

/-- What one attempt meets outside the loop. -/
structure Encounter where
  expired : Bool
  proactiveRefresh : Except RefreshError Unit
  target : Except String Unit
  /-- Status of a plugin that terminates the request. -/
  intercepted : Option Nat
  exchange : Except SendError Response
  refresh : Except RefreshError Unit
  replay : Except SendError Response
  /-- Whether a successful answer also starts well; the reason if not. -/
  finish : Except String Unit
  nowMs : Int

structure AttemptResult where
  /-- What each send to the upstream came to, the replay included. -/
  exchanges : List (Except SendError Response)
  member : AccountMember
  lastFailure : Option FinalFailure
  verdict : Verdict

def afterRefreshError (error : RefreshError) : AccountMember :=
  if error.isAuthFailure then member.setHealth .authFailed else member

variable (plan : RelayPlan)

/-- A Claude denial that no other account may see; model rejections are not. -/
def denialOf (status : Nat) (failure : FinalFailure) : Denial :=
  if plan.model.isSome && isAccountScopedModelRejection status failure.body then .other
  else classify status failure.body.text

def validationMessage : String :=
  "Google account verification required for " ++ member.email.getD member.id ++
    " (VALIDATION_REQUIRED). Verify this Google account in your browser, then reauthenticate " ++
    "in the app."

def validationRequired (error : Json) : Bool :=
  match error.get? "details" with
  | some (.arr details) => details.any fun detail =>
    (detail.get? "reason").bind Json.asStr? == some "VALIDATION_REQUIRED"
  | _ => false

def validationFailure (failure : FinalFailure) : Option FinalFailure :=
  match failure.body.json with
  | none => none
  | some body =>
    let nested := match body.get? "error" with
      | some (.obj entries) => some (Json.obj entries)
      | _ => none
    let error := nested.getD body
    if validationRequired error then
      let message := validationMessage member
      let updated := (error.set "message" (.str message)).set "account_id" (.str member.id)
      let json := if nested.isSome then body.set "error" updated else updated
      some { failure with body := ⟨message, some json⟩ }
    else none

def cline402Fallback (body : Body) (requestedModel : String) : String × Int :=
  (parseClineCapError body).getD (requestedModel, clineCreditBackoffSecs)

/-- The cause of a credit bench, on the group or else on the account. -/
def labelOutOfCredit (capModel : String) : AccountMember :=
  match member.quotaGroupFor capModel with
  | some _ => member.setGroupBenchKind capModel .outOfCredit
  | none => member.setAccountBenchKind .outOfCredit

def labelCreditBench (capModel : String) (requestedModel : Option String) (untilUnixMs : Int) : AccountMember :=
  let labelled := labelOutOfCredit (member.setGroupCreditBench capModel untilUnixMs) capModel
  match requestedModel with
  | some requested =>
    if requested ≠ capModel then labelled.setGroupCreditBench requested untilUnixMs
    else labelled
  | none => labelled

def recordClineCredits (body : Body) (model : String) (nowMs : Int) : AccountMember :=
  let nowUnix := nowMs.tdiv 1000
  let cap := cline402Fallback body model
  let tracker := member.clineTrackerFor cap.1
  let resetAt := resolveClineDeadline (some tracker) nowUnix cap.2
  let tracked := member.setClineTracker cap.1 (tracker.onCap429 resetAt nowUnix)
  labelCreditBench (tracked.benchClineCap cap.1 (some model) (resetAt * 1000)) cap.1 (some model)
    (resetAt * 1000)

/-- A Claude stream error that is classified as a denial. -/
def streamDenial (error : StreamError) : Bool :=
  let sseStatus := if error.code = .permissionDenied then 403 else 401
  isClaudeMember member &&
    (decide (error.code = .permissionDenied) || decide (error.code = .unauthenticated)) &&
    decide (classify sseStatus error.description ≠ .other)

def claudePermissionDenied (error : StreamError) : Bool :=
  decide (error.code = .permissionDenied) && decide (member.kind = .claude)

def markStreamError (member : AccountMember) (error : StreamError) (nowMs : Int) : AccountMember :=
  if error.code = .resourceExhausted ||
      (error.code = .permissionDenied && !claudePermissionDenied member error) then
    member.benchExhaustedQuota plan.model (cooldownDeadlineMs nowMs 300) .rateLimited
  else if error.code = .unauthenticated then member.setHealth .authFailed
  else member

def streamVerdict (error : StreamError) (reason : String) : Verdict :=
  if claudePermissionDenied member error then .again .denied false
  else if member.kind = .devin && (Text.contains "ended without EndStream" reason ||
      Text.contains "truncated" reason || Text.contains "ambiguous" reason) then .stop
  else if error.code = .resourceExhausted || error.code = .permissionDenied then
    .again .refund false
  else .again .budget false

def settleStreamError (member : AccountMember) (reason : String)
    (nowMs : Int) : AccountMember × Option FinalFailure × Verdict :=
  let error := streamError reason
  if streamDenial member error then (member, none, .reply (.failure error.failure))
  else (markStreamError plan member error nowMs, some error.failure,
    streamVerdict member error reason)

/-- The status ladder from 403 down: denials, model rejections, dead credentials. -/
def settleRefusal (member : AccountMember) (status : Nat)
    (failure : FinalFailure) : AccountMember × Option FinalFailure × Verdict :=
  match if status = 403 && decide (member.kind = .antigravity) then
      validationFailure member failure else none with
  | some rewritten => (member.setHealth .authFailed, some rewritten, .again .budget (retryStatus status))
  | none =>
    match if isAccountScopedModelRejection status failure.body then plan.model else none with
    | some model => (member.markUnsupported model, some failure, .again .budget (retryStatus status))
    | none =>
      if status = 403 then
        if member.kind = .claude then (member, some failure, .again .denied false)
        else (member, some failure, .again .budget true)
      else if status = 408 then (member, some failure, .again .budget true)
      else if status = 401 then
        (member.setHealth .authFailed, some failure, .again .budget (retryStatus status))
      else (member, none, .reply (.failure failure))

def settleFailure (member : AccountMember) (response : Response)
    (nowMs : Int) : AccountMember × Option FinalFailure × Verdict :=
  let status := response.status
  let failure := extractFailure response
  if status = 429 then
    let recorded := recordCooldown response member plan.model nowMs
    if failureIsLimitExhaustion recorded.1.body then
      (recorded.2, some recorded.1, .again .refund true)
    else (recorded.2, some recorded.1, .again .budget true)
  else if status = 402 then
    match if failureIsInsufficientCredits failure.body && member.providerName == "cline"
        then plan.model else none with
    | some model => (recordClineCredits member failure.body model nowMs, some failure, .again .refund false)
    | none => (member, some failure, .again .budget false)
  else if (500 ≤ status && status ≤ 504) || (status == 529 && isClaudeMember member) then
    (member, some failure, .again .budget ([500, 502, 503, 504].contains status))
  else settleRefusal plan member status failure

def Response.isSuccess (response : Response) : Bool :=
  decide (200 ≤ response.status) && decide (response.status ≤ 399)

def settle (member : AccountMember) (response : Response)
    (encounter : Encounter) : AccountMember × Option FinalFailure × Verdict :=
  if response.isSuccess then
    match encounter.finish with
    | .ok () => (member, none, .reply (.served response.status))
    | .error reason => settleStreamError plan member reason encounter.nowMs
  else settleFailure plan member response encounter.nowMs

/-- A 401 earns one refresh and one replay of the same request. -/
def replayed (member : AccountMember) (response : Response) (refreshed : Bool)
    (encounter : Encounter) : AttemptResult :=
  if response.status = 401 && plan.authRefreshEnabled && !refreshed then
    match encounter.refresh with
    | .error error => ⟨[encounter.exchange], afterRefreshError member error,
        some (extractFailure response), .again .budget false⟩
    | .ok () =>
      let exchanges := [encounter.exchange, encounter.replay]
      match encounter.replay with
      | .error _ => ⟨exchanges, member, none, .again .budget false⟩
      | .ok replay =>
        let settled := settle plan member replay encounter
        ⟨exchanges, settled.1, settled.2.1, settled.2.2⟩
  else
    let settled := settle plan member response encounter
    ⟨[encounter.exchange], settled.1, settled.2.1, settled.2.2⟩

/-- The first answer; a Claude denial is classified before anything acts on it. -/
def answered (member : AccountMember) (response : Response) (refreshed : Bool)
    (encounter : Encounter) : AttemptResult :=
  if isClaudeMember member && [400, 401, 403].contains response.status then
    let failure := extractFailure response
    if denialOf plan response.status failure ≠ .other then
      ⟨[encounter.exchange], member, none, .reply (.failure failure)⟩
    else replayed plan member (rebuildResponse failure) refreshed encounter
  else replayed plan member response refreshed encounter

def sent (member : AccountMember) (refreshed : Bool) (encounter : Encounter) : AttemptResult :=
  if member.kind ≠ .claude && plan.carriesDocument then
    ⟨[], member, none, .reply (.error 400 "target translation does not support document inputs")⟩
  else
    match encounter.target, encounter.intercepted with
    | .error message, _ => ⟨[], member, none, .reply (.error 400 message)⟩
    | .ok (), some status => ⟨[], member, none, .reply (.intercepted status)⟩
    | .ok (), none =>
      match encounter.exchange with
      | .error error =>
        if member.kind = .devin && error.isAmbiguous then
          ⟨[encounter.exchange], member, none, .reply (.error 504
            ("ambiguous upstream request error: " ++ error.message))⟩
        else ⟨[encounter.exchange], member, none, .again .budget false⟩
      | .ok response => answered plan member response refreshed encounter

def attempt (member : AccountMember) (encounter : Encounter) : AttemptResult :=
  if plan.authRefreshEnabled && encounter.expired then
    match encounter.proactiveRefresh with
    | .error error => ⟨[], afterRefreshError member error, none, .again .budget false⟩
    | .ok () => sent plan member true encounter
  else sent plan member false encounter

namespace AccountMember

def recordOk (nowMs : Int) : AccountMember :=
  match member.health with
  | .cooldown untilUnixMs => if untilUnixMs ≤ nowMs then member.setHealth .available else member
  | _ => member

def codexQuotaFree (nowUnix : Int) : Bool :=
  decide (member.kind = .codex) &&
    ([member.usage.primary, member.usage.secondary].any fun window =>
      window.usedPercent.isSome) &&
    !member.usage.isCodexHardLimitReached &&
    !member.usage.isCodexIncludedQuotaExhausted none nowUnix

/-- Lift a Codex cooldown whose quota is free again; whether one was lifted. -/
def releaseCodexCooldownIfQuotaFree (nowUnix : Int) : Bool × AccountMember :=
  if member.codexQuotaFree nowUnix then
    match member.health with
    | .cooldown _ => (true, member.setHealth .available)
    | _ => (false, member)
  else (false, member)

/-- The account-wide bench of the warm-up probe, which keeps the later deadline. -/
def coolDown (untilUnixMs : Int) : AccountMember :=
  match member.health with
  | .available => member.setHealth (.cooldown untilUnixMs)
  | .cooldown earlier => member.setHealth (.cooldown (max earlier untilUnixMs))
  | .authFailed | .disabled => member

/-- Model and deadline that a 429 to the warm-up probe of `model` names. The
tracker is reconciled first and then read again for the deadline. -/
def warmupLimit (response : Response) (model : String) (nowUnix : Int) : AccountMember × String × Int :=
  match clineCap response member with
  | some (capModel, resetSecs) =>
    let tracker := member.clineTrackerFor capModel
    let reconciled := tracker.onCap429
      (resolveClineDeadline (some tracker) nowUnix resetSecs) nowUnix
    (member.setClineTracker capModel reconciled, capModel,
      resolveClineDeadline (some reconciled) nowUnix resetSecs * 1000)
  | none => (member, model, cooldownDeadlineFromHeaders response.headers (nowUnix * 1000))

/-- Bench what the probe was refused, and the model it asked for if that differs. -/
def benchWarmup (quotaModel model : String) (untilUnixMs : Int) : AccountMember :=
  let benched := (member.setGroupCooldown quotaModel untilUnixMs).getD
    (member.coolDown untilUnixMs)
  if quotaModel ≠ model then (benched.setGroupCooldown model untilUnixMs).getD benched
  else benched

def recordWarmupLimit (response : Response) (model : String) (nowUnix : Int) : AccountMember :=
  let (tracked, quotaModel, untilUnixMs) := member.warmupLimit response model nowUnix
  tracked.benchWarmup quotaModel model untilUnixMs

end AccountMember

/-- What the relay and the warm-up probe record on an account. -/
inductive Outcome where
  | served (nowMs : Int)
  | limited (response : Response) (model : Option String) (nowMs : Int)
  | exhausted (model : Option String) (nowMs : Int)
  | unpaid (body : Body) (model : String) (nowMs : Int)
  | warmupLimited (response : Response) (model : String) (nowUnix : Int)
  | unsupported (model : String)
  | authFailed
  | released (nowUnix : Int)

def AccountMember.after (member : AccountMember) : Outcome → AccountMember
  | .served nowMs => member.recordOk nowMs
  | .limited response model nowMs => (recordCooldown response member model nowMs).2
  | .exhausted model nowMs => member.benchExhaustedQuota model (cooldownDeadlineMs nowMs 300) .rateLimited
  | .unpaid body model nowMs =>
    if failureIsInsufficientCredits body && member.providerName == "cline" then
      recordClineCredits member body model nowMs
    else member
  | .warmupLimited response model nowUnix => member.recordWarmupLimit response model nowUnix
  | .unsupported model => member.markUnsupported model
  | .authFailed => member.setHealth .authFailed
  | .released nowUnix => (member.releaseCodexCooldownIfQuotaFree nowUnix).2

namespace Verdict

def refunded : Verdict → Bool
  | .again .refund _ => true
  | _ => false

def charged : Verdict → Bool
  | .again .budget _ | .again .denied _ => true
  | _ => false

theorem refunded_iff {verdict : Verdict} :
    verdict.refunded = true ↔ ∃ retryable, verdict = .again .refund retryable := by
  cases verdict with
  | reply reply => simp [refunded]
  | stop => simp [refunded]
  | again charge retryable => cases charge <;> simp [refunded]

end Verdict

variable {plan : RelayPlan} {member : AccountMember} {encounter : Encounter} {response : Response}

theorem rebuildResponse_status {status : Nat} (readable : status ≠ 502)
    (rebuilt : (rebuildResponse (extractFailure response)).status = status) : response.status = status := by
  simp only [rebuildResponse, extractFailure] at rebuilt
  cases body : response.body with
  | error message =>
    rw [body] at rebuilt
    exact absurd rebuilt.symm readable
  | ok read => simpa [body] using rebuilt

/-- What the loop acts on: the first answer as it came, or as it was read to see that it
denies nothing. -/
inductive Reads (plan : RelayPlan) (member : AccountMember) (first : Response) : Response → Prop where
  | passed (unread : isClaudeMember member = true →
      [400, 401, 403].contains first.status = false) : Reads plan member first first
  | rebuilt (refused : [400, 401, 403].contains first.status = true)
      (harmless : denialOf plan first.status (extractFailure first) = .other) :
      Reads plan member first (rebuildResponse (extractFailure first))

inductive AttemptCase (plan : RelayPlan) (member : AccountMember) (encounter : Encounter)
    (result : AttemptResult) : Prop where
  | unsent (silent : result.exchanges = []) (kept : result.verdict.refunded = false)
  | lost (error : SendError) (sent : result.exchanges = [.error error])
      (kept : result.verdict.refunded = false)
  | denied (first : Response) (once : result.exchanges = [.ok first])
      (verdict : result.verdict = .reply (.failure (extractFailure first)))
  | settled (first read : Response) (met : encounter.exchange = .ok first)
      (reads : Reads plan member first read) (once : result.exchanges = [.ok first])
      (verdict : result.verdict = (settle plan member read encounter).2.2)
  /-- The refresh failed, or the replay was lost. -/
  | unreplayed (first read : Response) (later : Option SendError)
      (reads : Reads plan member first read) (unauthenticated : read.status = 401)
      (sent : result.exchanges = .ok first :: later.toList.map .error)
      (verdict : result.verdict = .again .budget false)
  | replayed (first read replay : Response) (met : encounter.exchange = .ok first)
      (reads : Reads plan member first read) (unauthenticated : read.status = 401)
      (again : encounter.replay = .ok replay) (twice : result.exchanges = [.ok first, .ok replay])
      (verdict : result.verdict = (settle plan member replay encounter).2.2)

theorem replayed_cases {first read : Response} (met : encounter.exchange = .ok first)
    (reads : Reads plan member first read) (refreshed : Bool) :
    AttemptCase plan member encounter (replayed plan member read refreshed encounter) := by
  simp only [replayed, met]
  split
  next refused =>
    have unauthenticated : read.status = 401 := by
      simp only [Bool.and_eq_true, decide_eq_true_eq] at refused
      exact refused.1.1
    cases encounter.refresh with
    | error error => exact .unreplayed first read none reads unauthenticated rfl rfl
    | ok _ =>
      cases again : encounter.replay with
      | error error => exact .unreplayed first read (some error) reads unauthenticated rfl rfl
      | ok replay => exact .replayed first read replay met reads unauthenticated again rfl rfl
  · exact .settled first read met reads rfl rfl

theorem answered_cases (met : encounter.exchange = .ok response) (refreshed : Bool) :
    AttemptCase plan member encounter (answered plan member response refreshed encounter) := by
  simp only [answered]
  split
  next classified =>
    rw [Bool.and_eq_true] at classified
    split
    · exact .denied response (congrArg (fun sent => [sent]) met) rfl
    next harmless =>
      exact replayed_cases met (.rebuilt classified.2 (not_not.mp harmless)) refreshed
  next unclassified =>
    exact replayed_cases met (.passed fun claude => by simpa [claude] using unclassified) refreshed

theorem attempt_cases (plan : RelayPlan) (member : AccountMember) (encounter : Encounter) :
    AttemptCase plan member encounter (attempt plan member encounter) := by
  have sends : ∀ refreshed,
      AttemptCase plan member encounter (sent plan member refreshed encounter) := by
    intro refreshed
    simp only [sent]
    split
    · exact .unsent rfl rfl
    · cases encounter.target with
      | error message => exact .unsent rfl rfl
      | ok _ =>
        cases encounter.intercepted with
        | some status => exact .unsent rfl rfl
        | none =>
          cases met : encounter.exchange with
          | error error =>
            simp only
            split <;> exact .lost error rfl rfl
          | ok response => exact answered_cases met refreshed
  simp only [attempt]
  split
  · cases encounter.proactiveRefresh with
    | error error => exact .unsent rfl rfl
    | ok _ => exact sends true
  · exact sends false

structure Encounter.Replays (encounter : Encounter) (replay : Response) : Prop where
  unauthenticated : ∃ first, encounter.exchange = .ok first ∧ first.status = 401
  met : encounter.replay = .ok replay

/-- An account is sent the request at most twice: once, and once more after
its credential was refreshed. -/
theorem attempt_exchanges_le (plan : RelayPlan) (member : AccountMember)
    (encounter : Encounter) : (attempt plan member encounter).exchanges.length ≤ 2 := by
  cases attempt_cases plan member encounter with
  | unsent silent => simp [silent]
  | lost error sent => simp [sent]
  | denied first once => simp [once]
  | settled first read _ _ once => simp [once]
  | unreplayed first read later _ _ sent => cases later <;> simp [sent]
  | replayed first read replay _ _ _ _ twice => simp [twice]

/-- The answer names a limit of the account as spent: such an attempt is given
back. -/
def Response.NamesSpentLimit (plan : RelayPlan) (member : AccountMember) (response : Response) : Prop :=
  response.status = 429 ∧ failureIsLimitExhaustion (extractFailure response).body = true ∨
    response.status = 402 ∧ failureIsInsufficientCredits (extractFailure response).body = true ∧
      member.providerName = "cline" ∧ plan.model.isSome

/-- So does a stream that fails to start; a Claude permission error excludes
the account instead, and a broken Devin stream ends the walk. -/
def StreamError.NamesSpentLimit (member : AccountMember) (reason : String) (error : StreamError) : Prop :=
  (error.code = .resourceExhausted ∨ error.code = .permissionDenied ∧ member.kind ≠ .claude) ∧
    ¬ (member.kind = .devin ∧ (Text.contains "ended without EndStream" reason ∨
      Text.contains "truncated" reason ∨ Text.contains "ambiguous" reason))

/-- Nothing the account can answer names one of its limits as spent. -/
structure Encounter.Refundless (plan : RelayPlan) (member : AccountMember) (encounter : Encounter) : Prop where
  exchange : ∀ response, encounter.exchange = .ok response →
    ¬ response.NamesSpentLimit plan member
  replay : ∀ response, encounter.Replays response → ¬ response.NamesSpentLimit plan member
  finish : ∀ reason, encounter.finish = .error reason →
    ¬ (streamError reason).NamesSpentLimit member reason

theorem recordCooldown_failure (response : Response) (member : AccountMember) (model : Option String) (nowMs : Int) :
    (recordCooldown response member model nowMs).1 = extractFailure response := by
  simp only [recordCooldown]
  split
  · rfl
  · split <;> rfl

theorem settleRefusal_refunded (status : Nat) (failure : FinalFailure) :
    (settleRefusal plan member status failure).2.2.refunded = false := by
  simp only [settleRefusal]
  split
  · rfl
  · split
    · rfl
    · repeat' split
      all_goals rfl

theorem settleFailure_refunded {nowMs : Int}
    (refunded : (settleFailure plan member response nowMs).2.2.refunded = true) :
    response.NamesSpentLimit plan member := by
  simp only [settleFailure, recordCooldown_failure] at refunded
  split at refunded
  next limited =>
    split at refunded
    next spent => exact .inl ⟨limited, spent⟩
    · cases refunded
  · split at refunded
    next unpaid =>
      split at refunded
      next model found =>
        split at found
        next credits =>
          rw [Bool.and_eq_true, beq_iff_eq] at credits
          exact .inr ⟨unpaid, credits.1, credits.2, by simp [found]⟩
        · cases found
      · cases refunded
    · split at refunded
      · cases refunded
      · rw [settleRefusal_refunded] at refunded
        cases refunded

theorem streamVerdict_refunded {error : StreamError} {reason : String}
    (refunded : (streamVerdict member error reason).refunded = true) : error.NamesSpentLimit member reason := by
  simp only [streamVerdict] at refunded
  split at refunded
  · cases refunded
  next excluded =>
    split at refunded
    · cases refunded
    next started =>
      split at refunded
      next spent =>
        simp only [claudePermissionDenied, Bool.and_eq_true, decide_eq_true_eq, not_and] at excluded
        refine ⟨?_, by simpa [or_assoc] using started⟩
        rcases (by simpa using spent : _ ∨ _) with exhausted | denied
        · exact .inl exhausted
        · exact .inr ⟨denied, excluded denied⟩
      · cases refunded

theorem settle_refunded (refundless : encounter.Refundless plan member)
    (unnamed : ¬ response.NamesSpentLimit plan member) :
    (settle plan member response encounter).2.2.refunded = false := by
  rw [← Bool.not_eq_true]
  intro refunded
  simp only [settle] at refunded
  split at refunded
  · cases finish : encounter.finish with
    | ok _ => simp [finish, Verdict.refunded] at refunded
    | error reason =>
      simp only [finish, settleStreamError] at refunded
      split at refunded
      · cases refunded
      · exact refundless.finish reason finish (streamVerdict_refunded refunded)
  · exact unnamed (settleFailure_refunded refunded)

theorem contains_refused {status : Nat} :
    [400, 401, 403].contains status = true ↔ status = 400 ∨ status = 401 ∨ status = 403 := by
  simp

theorem rebuilt_unnamed (refused : [400, 401, 403].contains response.status = true) :
    ¬ (rebuildResponse (extractFailure response)).NamesSpentLimit plan member := by
  simp only [Response.NamesSpentLimit, rebuildResponse, extractFailure]
  cases response.body with
  | error message => simp
  | ok body => rcases contains_refused.mp refused with same | same | same <;> simp [same]

theorem Reads.status {first read : Response} (reads : Reads plan member first read)
    (unauthenticated : read.status = 401) : first.status = 401 := by
  cases reads with
  | passed => exact unauthenticated
  | rebuilt => exact rebuildResponse_status (by decide) unauthenticated

/-- An attempt is given back only where an answer names a spent limit. -/
theorem attempt_refunded (refundless : encounter.Refundless plan member) :
    (attempt plan member encounter).verdict.refunded = false := by
  cases attempt_cases plan member encounter with
  | unsent _ kept => exact kept
  | lost _ _ kept => exact kept
  | denied _ _ verdict => rw [verdict]; rfl
  | settled first read met reads _ verdict =>
    rw [verdict]
    refine settle_refunded refundless ?_
    cases reads with
    | passed => exact refundless.exchange first met
    | rebuilt refused => exact rebuilt_unnamed refused
  | unreplayed _ _ _ _ _ _ verdict => rw [verdict]; rfl
  | replayed first _ replay met reads unauthenticated again _ verdict =>
    rw [verdict]
    exact settle_refunded refundless (refundless.replay replay ⟨⟨first, met, reads.status unauthenticated⟩, again⟩)

end Mahoquot.Gateway
