import Mahoquot.Gateway.Attempt
import Mahoquot.Router.State

/-! The failover loop of one relayed request: its setup from pool, settings and durable
binding, and one turn of the loop. -/

set_option autoImplicit false

namespace Mahoquot.Gateway
open Library Registry

structure HierarchyContext where
  affinityScope : String
  preferredMember : Option String

structure RelaySettings where
  requestRetry : Int
  maxRetryCredentials : Nat
  maxRetryInterval : Int
  sessionAffinity : Option Bool
  sessionAffinityLcp : Bool
  maxFailover : Nat

/-- The request as the loop's setup reads it. -/
structure RelayRequest where
  plan : RelayPlan
  apiKeyBinding : Option ApiKeyBinding
  scopedKey : Option ScopedApiKey
  /-- Affinity key of the session as the client sent it. -/
  affinity : Option String
  /-- Router key of the session, scoped by caller, providers and model. -/
  scopedSession : Option String
  hierarchy : Option HierarchyContext
  durableDigest : Option Nat
  /-- Unexpired bindings of the durable store. -/
  claudeAffinity : Nat → Option String

/-- What stays fixed while the loop runs. -/
structure LoopContext where
  request : RelayRequest
  settings : RelaySettings
  initialEligible : List Nat
  maxAttempts : Nat
  retryLimit : Nat
  roundCredentialCap : Nat
  selectModel : Option String
  homeAuthoritative : Bool
  schedulerFailOpen : Bool
  hint : SessionHint
  durableKey : Option Nat
  durableBound : Option String

structure LoopState where
  pool : PoolSnapshot
  router : Router
  attempted : List Nat
  permissionDeniedAccounts : List Nat
  retryRound : Nat
  roundAttempts : Nat
  roundRetryable : Bool
  failoverBudget : Nat
  lastFailure : Option FinalFailure

inductive BoundMember where
  | eligible
  | shortCooldown (retryAfterSecs : Int)
  | unusable
deriving Repr, DecidableEq

def boundCooldownHoldMs : Int := 120000

def routeServesClaude (route : Option ResolvedRoute) : Bool :=
  route.all fun route => route.providerClasses.any fun provider =>
    provider.binding.providerId == ProviderId.claude

namespace PoolSnapshot

/-- The account would serve the request once its cooldown ends. -/
def heldForBinding (pool : PoolSnapshot) (route : Option ResolvedRoute) (request : RelayRequest)
    (state : AppState) (nowMs untilUnixMs : Int) (member : AccountMember) : Bool :=
  memberMatchesApiKeyBinding member request.apiKeyBinding &&
    memberMatchesScope member request.scopedKey && state.claudeMemberRoutable member &&
    !member.usage.isClaudeIncludedQuotaExhausted (nowMs.tdiv 1000) &&
    route.all fun route =>
      (route.providerClasses.any fun provider =>
        memberProviderId member == some provider.binding.providerId &&
          pool.accountDeclaresBindingModel member
            (request.plan.model.getD route.canonicalModel) route.canonicalModel provider) &&
        member.groupAvailable route.canonicalModel untilUnixMs

def boundMemberState (pool : PoolSnapshot) (route : Option ResolvedRoute) (request : RelayRequest)
    (boundId : String) (eligible : List Nat) (state : AppState) (nowMs : Int) : BoundMember :=
  match pool.members.findIdx? fun member => member.id == boundId with
  | none => .unusable
  | some index =>
    match pool.members[index]? with
    | none => .unusable
    | some member =>
      if !isClaudeOauth member then .unusable
      else if eligible.contains index then .eligible
      else
        match member.health with
        | .cooldown untilUnixMs =>
          let remainingMs := untilUnixMs - nowMs
          if remainingMs ≤ 0 || remainingMs > boundCooldownHoldMs then .unusable
          else if pool.heldForBinding route request state nowMs untilUnixMs member then
            .shortCooldown ((remainingMs + 999).tdiv 1000)
          else .unusable
        | _ => .unusable

def boundToFront (pool : PoolSnapshot) (boundId : String) (eligible : List Nat) : List Nat :=
  match eligible.findIdx? fun index => pool.memberIs (fun member => member.id == boundId) index with
  | none => eligible
  | some position =>
    match eligible[position]? with
    | none => eligible
    | some index => index :: eligible.eraseIdx position

end PoolSnapshot

variable (settings : RelaySettings)

def hintKey (request : RelayRequest) : Option String :=
  if settings.sessionAffinity = some false then none
  else
    match request.hierarchy with
    -- Only an established binding is passed on to the router.
    | some hierarchy => hierarchy.preferredMember.map fun _ => hierarchy.affinityScope
    | none => if settings.sessionAffinityLcp then none else request.scopedSession

/-- The durable key, where Claude subscriptions may serve the route. -/
def durableKey (state : AppState) (route : Option ResolvedRoute) (request : RelayRequest) : Option Nat :=
  if state.settings.claudeRouteMode ≠ .apiKeyOnly && routeServesClaude route then
    request.durableDigest
  else none

def durableBoundId (state : AppState) (route : Option ResolvedRoute) (request : RelayRequest) : Option String :=
  (durableKey state route request).bind request.claudeAffinity

variable (pool : PoolSnapshot)

def retryLimitOf (initialEligible : List Nat) (requestRetry : Int) : Nat :=
  ((initialEligible.filterMap fun index => pool.members[index]?).map fun member =>
    accountRetryLimit member requestRetry).max?.getD 0

/-- While Home is authoritative an empty local pool is no reason to refuse. -/
def maxAttempts (homeAuthoritative : Bool) (candidates : Nat) : Nat :=
  let budget := min candidates settings.maxFailover
  if budget = 0 && homeAuthoritative then 1 else budget

def roundCredentialCap (homeAuthoritative : Bool) (candidates : Nat) : Nat :=
  if homeAuthoritative then 1
  else if settings.maxRetryCredentials = 0 then candidates
  else min settings.maxRetryCredentials candidates

def enterLoop (router : Router) (route : Option ResolvedRoute) (request : RelayRequest) (settings : RelaySettings)
    (state : AppState) (homeAuthoritative : Bool) (initialEligible eligible : List Nat)
    (durableBound : Option String) : Except Reply (LoopContext × LoopState) :=
  if eligible.isEmpty && request.scopedKey.isSome then
    .error (.error 403 "no permitted accounts/providers available for this API key")
  else
    let maxAttempts := maxAttempts settings homeAuthoritative eligible.length
    if maxAttempts = 0 then
      if !pool.members.isEmpty && route.any fun route => route.providerClasses.isEmpty then
        .error (.error 400 ("unknown provider for model " ++ request.plan.model.getD ""))
      else .error .unavailable
    else
      .ok ({ request, settings, initialEligible, maxAttempts, homeAuthoritative, durableBound
             durableKey := durableKey state route request
             retryLimit := retryLimitOf pool initialEligible settings.requestRetry
             roundCredentialCap := roundCredentialCap settings homeAuthoritative eligible.length
             selectModel := (route.map (·.canonicalModel)).or request.plan.model
             schedulerFailOpen := state.scheduler.enabled && state.scheduler.failOpen
             hint := ⟨hintKey settings request⟩ },
           { pool
             router := match durableBound with
               | some boundId => router.selectForced boundId request.affinity
               | none => router
             attempted := []
             permissionDeniedAccounts := []
             retryRound := 0
             roundAttempts := 0
             roundRetryable := false
             failoverBudget := 0
             lastFailure := none })

def prepare (router : Router) (route : Option ResolvedRoute) (request : RelayRequest) (settings : RelaySettings)
    (state : AppState) (homeAuthoritative : Bool) (nowMs : Int) : Except Reply (LoopContext × LoopState) :=
  let initialEligible := pool.eligibleIndices route request.plan.model nowMs
    request.apiKeyBinding request.scopedKey state
  let enter := enterLoop pool router route request settings state homeAuthoritative
    initialEligible
  match durableBoundId state route request with
  | none => enter initialEligible none
  | some boundId =>
    match pool.boundMemberState route request boundId initialEligible state nowMs with
    | .eligible => enter (pool.boundToFront boundId initialEligible) (some boundId)
    | .shortCooldown retryAfterSecs => .error (.coolingDown retryAfterSecs)
    | .unusable => enter initialEligible none

inductive HomeView where
  /-- Home is not authoritative, or there is no client. -/
  | absent
  | fenced
  | granted (member : AccountMember)
  | failed (message : String)

/-- What the environment contributes to one turn of the loop. -/
structure Turn where
  /-- What concurrent requests and pollers did to each member since. -/
  interfere : Nat → AccountMember → AccountMember
  contend : Router → Router
  nowMs : Int
  selectNowMs : Int
  waitNowMs : Int
  creditCodexAccountIds : List String
  scheduler : SchedulerSnapshot
  home : HomeView
  encounter : Encounter

structure Dispatch where
  round : Nat
  index : Nat
  member : AccountMember
  encounter : Encounter
  nowMs : Int
  result : AttemptResult

inductive Flow where
  | next
  | stop
  | reply (reply : Reply)

structure TurnResult where
  state : LoopState
  dispatched : Option Dispatch
  flow : Flow

namespace LoopContext

def retains (context : LoopContext) (turn : Turn) (state : LoopState) (index : Nat) : Bool :=
  !state.permissionDeniedAccounts.contains index &&
    state.pool.memberIs (fun member =>
      (if member.kind ≠ .codex then true
        else if member.usage.isCodexHardLimitReached then false
        else turn.creditCodexAccountIds.contains member.id || context.schedulerFailOpen ||
          !member.usage.isCodexIncludedQuotaExhausted context.selectModel
            (turn.nowMs.tdiv 1000)) &&
      AppState.claudeQuotaAdmits member (turn.nowMs.tdiv 1000) &&
      (context.selectModel.all fun model => member.groupAvailable model turn.nowMs) &&
      member.health.isAvailable turn.nowMs &&
      retryRoundAllows member state.retryRound context.settings.requestRetry) index

def eligible (context : LoopContext) (turn : Turn) (state : LoopState) : List Nat :=
  context.initialEligible.filter (context.retains turn state)

def preferredIndex (context : LoopContext) (state : LoopState) (eligible : List Nat) (nowMs : Int) : Option Nat :=
  match context.request.hierarchy.bind (·.preferredMember) with
  | none => none
  | some preferred => eligible.find? fun index => !state.attempted.contains index &&
      state.pool.memberIs (fun member => member.id == preferred && member.health.isAvailable nowMs) index

end LoopContext

def boundMemberProvider (binding : Option String) (eligible exclude : List Nat) : Option ProviderId :=
  match binding with
  | none => none
  | some boundId =>
    match eligible.find? fun index => !exclude.contains index &&
        pool.memberIs (fun member => member.id == boundId) index with
    | none => none
    | some index => (pool.members[index]?).bind memberProviderId

def candidates (provider : Option ProviderId) (eligible exclude : List Nat) : List Nat :=
  (eligible.filter fun index => !exclude.contains index).filter fun index =>
    provider.all fun provider =>
      pool.memberIs (fun member => memberProviderId member == some provider) index

def selectIndex (router : Router) (hint : SessionHint)
    (eligible exclude : List Nat) (nowMs : Int) : Option Nat × Router :=
  -- A missing member ends the selection.
  if (eligible.filter fun index => !exclude.contains index).any
      fun index => (pool.members[index]?).isNone then (none, router)
  else
    let binding := hint.affinityKey.bind router.boundAffinityMember
    let origin := candidates pool (boundMemberProvider pool binding eligible exclude)
      eligible exclude
    let members := origin.filterMap fun index => (pool.members[index]?).map (·.poolMember)
    let selected := router.select members hint nowMs
    (selected.1.bind fun position => origin[position]?, selected.2)

def usizeMax : Nat := 2 ^ 64 - 1

namespace LoopContext
variable (context : LoopContext)

variable (turn : Turn)

def choose (state : LoopState) : Option Nat × Router :=
  if state.roundAttempts < context.roundCredentialCap then
    if context.homeAuthoritative then (some usizeMax, state.router)
    else
      match context.preferredIndex state (context.eligible turn state) turn.nowMs with
      | some index => (some index, state.router)
      | none => selectIndex state.pool state.router context.hint (context.eligible turn state)
          state.attempted turn.selectNowMs
  else (none, state.router)

def waitDeadline (member : AccountMember) : Option Int :=
  let group := (member.quotaGroupFor (context.selectModel.getD "")).bind fun group =>
    member.groupCooldowns[group]?
  let reset := (group.map fun deadline => saturatingMul (deadline.tdiv 1000) 1000).getD turn.nowMs
  match member.health with
  | .authFailed | .disabled => none
  | .cooldown untilUnixMs => some (max untilUnixMs reset)
  | .available => some (max turn.nowMs reset)

def waitDeadlines (state : LoopState) : List Int :=
  ((context.initialEligible.filter fun index =>
      !state.permissionDeniedAccounts.contains index).filterMap fun index =>
    state.pool.members[index]?).filterMap fun member =>
      if retryRoundAllows member (state.retryRound + 1) context.settings.requestRetry &&
          turn.scheduler.permits member.id then context.waitDeadline turn member
      else none

/-- No candidate is left in this round: stop, or wait and start the next. -/
def nextRound (state : LoopState) : TurnResult :=
  if !state.roundRetryable || state.retryRound ≥ context.retryLimit then ⟨state, none, .stop⟩
  else
    match retryRoundWaitMs (context.waitDeadlines turn state) turn.waitNowMs
        context.settings.maxRetryInterval with
    | none => ⟨state, none, .stop⟩
    | some _ =>
      ⟨{ state with
          retryRound := state.retryRound + 1
          roundAttempts := 0
          roundRetryable := false
          failoverBudget := 0
          attempted := [] }, none, .next⟩

def credential (state : LoopState) (index : Nat) : Except Flow AccountMember :=
  match turn.home with
  | .fenced => .error (.reply (.error 503 "Home dispatch is fenced"))
  | .failed message => .error (.reply (.error 503 ("Home dispatch error: " ++ message)))
  | .granted member => .ok member
  | .absent =>
    match state.pool.members[index]? with
    | some member => .ok member
    | none => .error .stop

/-- A pool account keeps what the attempt left on it; Home's credential is not
a pool account. -/
def writeBack (pool : PoolSnapshot) (index : Nat) (member : AccountMember) : PoolSnapshot :=
  match turn.home with
  | .absent => pool.updateMember index fun _ => member
  | _ => pool

def afterServed (router : Router) (member : AccountMember) : Router :=
  if isClaudeOauth member && context.durableKey.isSome then
    match context.durableBound with
    | some boundId => router.selectForced boundId context.request.affinity
    | none => router.selectForced member.id context.request.affinity
  else router

def account (tried : LoopState) (index : Nat) (member : AccountMember) : Verdict → LoopState × Flow
  | .reply (.served status) =>
    ({ tried with router := context.afterServed tried.router member }, .reply (.served status))
  | .reply reply => (tried, .reply reply)
  | .stop => (tried, .stop)
  | .again .budget retryable =>
    ({ tried with
        roundRetryable := retryable
        failoverBudget := tried.failoverBudget + 1 }, .next)
  | .again .refund retryable =>
    ({ tried with
        roundRetryable := retryable
        roundAttempts := tried.roundAttempts - 1 }, .next)
  | .again .denied retryable =>
    ({ tried with
        roundRetryable := retryable
        permissionDeniedAccounts := tried.permissionDeniedAccounts ++ [index]
        failoverBudget := tried.failoverBudget + 1 },
      if context.homeAuthoritative then .stop else .next)

def settleTurn (state : LoopState) (index : Nat) (member : AccountMember) : TurnResult :=
  let result := attempt context.request.plan member turn.encounter
  let tried := { state with
    pool := writeBack turn state.pool index result.member
    attempted := state.attempted ++ [index]
    roundAttempts := state.roundAttempts + 1
    roundRetryable := false
    lastFailure := result.lastFailure.or state.lastFailure }
  let settled := context.account tried index member result.verdict
  ⟨settled.1, some ⟨state.retryRound, index, member, turn.encounter, turn.nowMs, result⟩, settled.2⟩

def exhausted (state : LoopState) : Bool :=
  (context.retryLimit == 0 && decide (state.failoverBudget ≥ context.maxAttempts)) ||
    decide (state.permissionDeniedAccounts.length ≥ context.maxAttempts)

/-- Members and router as this turn finds them. -/
def observe (state : LoopState) : LoopState :=
  { state with
    pool := { state.pool with members := state.pool.members.mapIdx turn.interfere }
    router := turn.contend state.router }

def serve (state : LoopState) (index : Nat) : TurnResult :=
  match credential turn state index with
  | .error flow => ⟨state, none, flow⟩
  | .ok member => context.settleTurn turn state index member

def runTurn (state : LoopState) (turn : Turn) : TurnResult :=
  let state := observe turn state
  if context.exhausted state then ⟨state, none, .stop⟩
  else
    match context.choose turn state with
    | (none, router) => context.nextRound turn { state with router }
    | (some index, router) => context.serve turn { state with router } index

end LoopContext

def conclude (state : LoopState) : Reply :=
  match state.lastFailure with
  | some failure => if failureIsLimitExhaustion failure.body then .unavailable else .failure failure
  | none => .error 502 "all failover attempts failed"

def TurnResult.outcome (result : TurnResult) : Option Reply :=
  match result.flow with
  | .next => none
  | .stop => some (conclude result.state)
  | .reply reply => some reply

structure LoopRun where
  state : LoopState
  log : List Dispatch
  outcome : Option Reply

namespace LoopRun

def start (state : LoopState) : LoopRun := ⟨state, [], none⟩

def record (run : LoopRun) (result : TurnResult) : LoopRun :=
  ⟨result.state, run.log ++ result.dispatched.toList, result.outcome⟩

end LoopRun

namespace LoopContext

/-- One turn of the loop, unless the request is answered already. -/
def step (context : LoopContext) (run : LoopRun) (turn : Turn) : LoopRun :=
  match run.outcome with
  | some _ => run
  | none => run.record (context.runTurn run.state turn)

def run (context : LoopContext) (start : LoopState) (turns : List Turn) : LoopRun :=
  turns.foldl context.step (.start start)

end LoopContext
end Mahoquot.Gateway
