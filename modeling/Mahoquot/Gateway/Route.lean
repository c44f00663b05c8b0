import Mahoquot.Gateway.Account
import Mahoquot.Library.Slots
import Mathlib.Data.Prod.Lex

/-! Routing of a requested model name: lane prefix and canonical model, the provider classes
that may serve it, and the pool members eligible for it, which ranking and the two Claude
reorderings only permute. -/

set_option autoImplicit false

namespace Mahoquot.Gateway
open Library Registry

inductive ModelPrefix where
  | anthropic
  | nekos
deriving Repr, DecidableEq

def parseModelPrefix (model : String) : Option ModelPrefix × String :=
  match (Text.stripPrefix? "anthropic-" model).or (Text.stripPrefix? "anthropic/" model) with
  | some stripped => (some .anthropic, stripped)
  | none =>
    match (Text.stripPrefix? "nekos-" model).or (Text.stripPrefix? "nekos/" model) with
    | some stripped => (some .nekos, stripped)
    | none => (none, model)

/-- The registry id is `base` followed by a dash and an eight-digit date. -/
def isDatedForm (base id : String) : Bool :=
  match (Text.stripPrefix? base id).bind (Text.stripPrefix? "-") with
  | some date => date.toList.length == 8 && date.toList.all Text.isAsciiDigit
  | none => false

/-- An undated `claude-` name stands for its only dated registry id. -/
def undatedTarget (registry : RegistrySnapshot) (baseId : ModelId) (baseModel : String) : String :=
  if registry.models.contains baseId then baseModel
  else if Text.startsWith "claude-" baseModel then
    match registry.models.keys.filter (isDatedForm baseModel) with
    | [target] => target
    | _ => baseModel
  else baseModel

def claudePassthrough (canonicalId : ModelId) : ResolvedModel :=
  ⟨canonicalId, [.new .claude .closed .embeddedFallback], [], .embeddedFallback⟩

def resolveModel (registry : RegistrySnapshot) (requestedModel : String) : Except RegistryError ResolvedModel := do
  let baseModel := (parseModelPrefix requestedModel).2
  let baseId ← ModelId.new baseModel
  if registry.aliases.contains baseId then registry.resolve baseModel
  else
    let resolvedModelId := undatedTarget registry baseId baseModel
    let canonicalId ← ModelId.new resolvedModelId
    if registry.excludes canonicalId none then .error (.modelExcluded canonicalId)
    else if Text.startsWith "claude-" resolvedModelId && !registry.models.contains canonicalId then
      if registry.excludes canonicalId (some .claude) then .error (.unknownModel canonicalId)
      else .ok (claudePassthrough canonicalId)
    else registry.resolve resolvedModelId

structure ResolvedProviderClass where
  binding : ProviderBinding
  upstreamModel : String
deriving Repr, DecidableEq

structure ResolvedRoute where
  canonicalModel : String
  capabilities : List ModelCapability
  providerClasses : List ResolvedProviderClass
deriving Repr, DecidableEq

namespace PoolSnapshot
variable (pool : PoolSnapshot)

def loaded (providerId : ProviderId) : Bool :=
  pool.members.any fun member => memberProviderId member == some providerId

def routeOf (requiredCapability : Option ModelCapability) (resolved : ResolvedModel) : ResolvedRoute :=
  { canonicalModel := resolved.canonicalId
    capabilities := resolved.effectiveCapabilities
    providerClasses :=
      ((resolved.eligibleBindings.filter fun binding =>
          requiredCapability.all fun capability => binding.capabilities.contains capability).filter
        fun binding => pool.loaded binding.providerId).map fun binding =>
          ⟨binding, binding.effectiveUpstreamId resolved.canonicalId⟩ }

def resolveRoute (requestedModel : Option String) (requiredCapability : Option ModelCapability) :
    Except RegistryError (Option ResolvedRoute) :=
  match requestedModel with
  | none => .ok none
  | some model => (resolveModel pool.registry model).map fun resolved =>
    some (pool.routeOf requiredCapability resolved)

def accountDeclaresBindingModel (member : AccountMember)
    (requestedModel canonicalModel : String) (provider : ResolvedProviderClass) : Bool :=
  let named := fun model => model == requestedModel || model == canonicalModel ||
    model == provider.upstreamModel
  if member.unsupportedModels.any named then false
  else if member.kind = .devin then
    pool.isDevinModelEligible member.id requestedModel ||
      pool.isDevinModelEligible member.id canonicalModel ||
      pool.isDevinModelEligible member.id provider.upstreamModel
  else if member.kind = .antigravity then
    if (pool.permissions[member.id]?).any fun permissions =>
        permissions.antigravityModels.isNone then
      decide (provider.binding.source ≠ .discovered)
    else pool.isAntigravityModelEligible member.id provider.upstreamModel
  else
    match member.genericModels with
    | none => true
    | some (_, models) => models.isEmpty || models.any named

end PoolSnapshot

inductive ClaudeRouteMode where
  | oauthFirst
  | apiKeyFirst
  | apiKeyOnly
deriving Repr, DecidableEq

structure SchedulerSnapshot where
  enabled : Bool
  failOpen : Bool
  allowed : List String
  reserved : List String

def SchedulerSnapshot.permits (scheduler : SchedulerSnapshot) (account : String) : Bool :=
  !scheduler.reserved.contains account &&
    (scheduler.failOpen || scheduler.allowed.contains account)

structure ApiKeyBinding where
  account : Option String
  provider : Option String

structure ScopedApiKey where
  allowedProviders : List String
  allowedAccounts : List String
  allowedModels : List String

structure Settings where
  creditCodexAccountIds : List String
  claudeSuspectedAccounts : List String
  claudeApiKeyBudgets : Std.ExtTreeMap String Nat
  claudeRouteMode : ClaudeRouteMode

structure CachedRanks where
  validUntil : Int
  ranks : Std.ExtTreeMap String Nat

/-- The parts of the application state that eligibility reads. -/
structure AppState where
  scheduler : SchedulerSnapshot
  settings : Settings
  /-- Weighted usage per account; `none` while unknown. -/
  claudeBudgetUsage : Option (Std.ExtTreeMap String Nat)
  /-- Accounts whose egress client did not build. -/
  claudeEgressInvalid : List String
  claudeResetOrder : Option CachedRanks

def memberMatchesApiKeyBinding (member : AccountMember) (binding : Option ApiKeyBinding) : Bool :=
  binding.all fun binding =>
    (binding.account.all fun account => member.id == account) &&
      binding.provider.all fun provider => member.providerName == provider

def allowListAdmits (allowList : List String) (candidate : String) : Bool :=
  allowList.isEmpty || allowList.any fun allowed => allowed == "*" || allowed == candidate

def memberMatchesScope (member : AccountMember) (scopedKey : Option ScopedApiKey) : Bool :=
  match scopedKey with
  | none => true
  | some key =>
    if !allowListAdmits key.allowedProviders member.providerName then false
    else if key.allowedAccounts.isEmpty || key.allowedAccounts.contains "*" then true
    else key.allowedAccounts.any fun allowed =>
      allowed == member.id || member.identities.contains allowed ||
        member.email.any fun email => !email.isEmpty && allowed == email

namespace AppState
variable (state : AppState)

def isOver (account : String) : Bool :=
  match state.settings.claudeApiKeyBudgets[account]? with
  | none => false
  | some limit =>
    match state.claudeBudgetUsage with
    | some usage => decide (usage[account]?.getD 0 ≥ limit)
    | none => true

variable (member : AccountMember)

def claudeMemberRoutable : Bool :=
  if member.kind ≠ .claude || member.isNekosRelay then true
  else if state.settings.claudeSuspectedAccounts.contains member.id then false
  else if state.claudeEgressInvalid.contains member.id then false
  else if member.relayApiKey.isSome then !state.isOver member.id
  else decide (state.settings.claudeRouteMode ≠ .apiKeyOnly)

/-- Neither the hard limit nor, unless paid for, the included quota of a Codex
account is spent. -/
def codexQuotaAdmits (model : Option String) (nowUnix : Int) : Bool :=
  if member.kind ≠ .codex then true
  else if member.usage.isCodexHardLimitReached then false
  else state.settings.creditCodexAccountIds.contains member.id ||
    (state.scheduler.enabled && state.scheduler.failOpen) ||
    !member.usage.isCodexIncludedQuotaExhausted model nowUnix

def claudeQuotaAdmits (nowUnix : Int) : Bool :=
  !(decide (member.kind = .claude) && member.usage.isClaudeIncludedQuotaExhausted nowUnix)

def admitsAccount (model : Option String) (nowMs : Int)
    (apiKeyBinding : Option ApiKeyBinding) (scopedKey : Option ScopedApiKey) : Bool :=
  member.health.isAvailable nowMs && state.scheduler.permits member.id &&
    memberMatchesApiKeyBinding member apiKeyBinding && memberMatchesScope member scopedKey &&
    state.codexQuotaAdmits member model (nowMs.tdiv 1000) &&
    claudeQuotaAdmits member (nowMs.tdiv 1000) && state.claudeMemberRoutable member

end AppState

/-- A bare name is the subscription lane; the relay needs its own prefix. -/
def laneAdmits (lane : Option ModelPrefix) (member : AccountMember) : Bool :=
  match lane with
  | some .anthropic => decide (member.kind = .claude) && !member.isNekosRelay
  | some .nekos => decide (member.kind = .claude) && member.isNekosRelay
  | none => !(decide (member.kind = .claude) && member.isNekosRelay)

variable (member : AccountMember)

def isClaudeOauth : Bool :=
  decide (member.kind = .claude) && !member.isNekosRelay && member.relayApiKey.isNone

def isClaudeApiKey : Bool :=
  decide (member.kind = .claude) && !member.isNekosRelay && member.relayApiKey.isSome

def isClaudeSubscription : Bool :=
  decide (member.kind = .claude) && member.relayApiKey.isNone

def activeFiveHourReset (nowUnix : Int) : Option Int :=
  member.usage.primary.resetAtUnix.filter fun reset => decide (reset > nowUnix)

def rankByFiveHourReset (members : List AccountMember) (nowUnix : Int) : Std.ExtTreeMap String Nat :=
  let keyed := (members.filter isClaudeSubscription).insertionSort fun left right =>
    (activeFiveHourReset left nowUnix).getD i64Max ≤
      (activeFiveHourReset right nowUnix).getD i64Max
  keyed.zipIdx.foldl (fun ranks entry => ranks.insert entry.1.id entry.2) ∅

def AppState.ranks (state : AppState) (members : List AccountMember) (nowUnix : Int) : Std.ExtTreeMap String Nat :=
  match state.claudeResetOrder with
  | some cached => if nowUnix < cached.validUntil then cached.ranks else rankByFiveHourReset members nowUnix
  | none => rankByFiveHourReset members nowUnix

namespace PoolSnapshot
variable (pool : PoolSnapshot)

def memberIs (test : AccountMember → Bool) (index : Nat) : Bool :=
  (pool.members[index]?).any test

/-- Nearly spent subscriptions go last, the others in rank order. -/
def reorderClaudeSlots (ranks : Std.ExtTreeMap String Nat) (nowUnix : Int) (ordered : List Nat) : List Nat :=
  let nearlySpent := pool.memberIs fun member => member.usage.isNearlySpent nowUnix
  let rank : Nat → Nat := fun index => ((pool.members[index]?).bind fun member =>
    ranks[member.id]?).getD (2 ^ 64 - 1)
  sortSlots (pool.memberIs isClaudeSubscription)
    (fun left right => (!nearlySpent left && nearlySpent right) ||
      (nearlySpent left == nearlySpent right && decide (rank left ≤ rank right))) ordered

def preferClaudeApiKeys (ordered : List Nat) : List Nat :=
  sortSlots (pool.memberIs fun member => isClaudeOauth member || isClaudeApiKey member)
    (fun left right => pool.memberIs isClaudeApiKey left || !pool.memberIs isClaudeApiKey right)
    ordered

/-- The registry priority under which a member may serve the route. -/
def servingPriority (state : AppState) (route : ResolvedRoute)
    (requestedModel : String) (nowMs : Int) (apiKeyBinding : Option ApiKeyBinding)
    (scopedKey : Option ScopedApiKey) (member : AccountMember) : Option Int :=
  if state.admitsAccount member (some route.canonicalModel) nowMs apiKeyBinding scopedKey &&
      laneAdmits (parseModelPrefix requestedModel).1 member &&
      member.groupAvailable route.canonicalModel nowMs then
    match route.providerClasses.find? fun provider =>
        memberProviderId member == some provider.binding.providerId with
    | none => none
    | some provider =>
      if pool.accountDeclaresBindingModel member requestedModel route.canonicalModel provider
      then some provider.binding.priority else none
  else none

def ranked (state : AppState) (route : ResolvedRoute) (requestedModel : String) (nowMs : Int)
    (apiKeyBinding : Option ApiKeyBinding) (scopedKey : Option ScopedApiKey) : List (Nat × Int) :=
  pool.members.zipIdx.filterMap fun entry =>
    (pool.servingPriority state route requestedModel nowMs apiKeyBinding scopedKey
      entry.1).map fun priority => (entry.2, priority)

def eligibleIndices (route : Option ResolvedRoute) (requestedModel : Option String) (nowMs : Int)
    (apiKeyBinding : Option ApiKeyBinding) (scopedKey : Option ScopedApiKey) (state : AppState) : List Nat :=
  match route with
  | none =>
    (pool.members.zipIdx.filter fun entry =>
      state.admitsAccount entry.1 none nowMs apiKeyBinding scopedKey).map Prod.snd
  | some route =>
    let ranked := (pool.ranked state route (requestedModel.getD route.canonicalModel) nowMs
      apiKeyBinding scopedKey).insertionSort fun left right => right.2 ≤ left.2
    let ordered := pool.reorderClaudeSlots
      (state.ranks pool.members (nowMs.tdiv 1000)) (nowMs.tdiv 1000) (ranked.map Prod.fst)
    if state.settings.claudeRouteMode = .apiKeyFirst then pool.preferClaudeApiKeys ordered
    else ordered

variable {pool : PoolSnapshot} {state : AppState} {route : ResolvedRoute}
  {requested : Option String} {nowMs : Int} {apiKeyBinding : Option ApiKeyBinding}
  {scopedKey : Option ScopedApiKey}

theorem eligibleIndices_perm : (pool.eligibleIndices (some route) requested nowMs apiKeyBinding scopedKey state).Perm
      ((pool.ranked state route (requested.getD route.canonicalModel) nowMs apiKeyBinding scopedKey).map Prod.fst) := by
  have sorted := (List.perm_insertionSort (fun left right : Nat × Int => right.2 ≤ left.2)
    (pool.ranked state route (requested.getD route.canonicalModel) nowMs apiKeyBinding scopedKey)).map Prod.fst
  simp only [eligibleIndices]
  split
  · exact (sortSlots_perm ..).trans ((sortSlots_perm ..).trans sorted)
  · exact (sortSlots_perm ..).trans sorted

/-- Both reorderings sort the members that they classify, in the slots those have: by
whether they are nearly spent and by rank, or the API keys first. -/
theorem claude_slots_rearranged (pool : PoolSnapshot) (ordered : List Nat) :
    (∀ (ranks : Std.ExtTreeMap String Nat) (nowUnix : Int), Rearranged (pool.memberIs isClaudeSubscription)
        (fun index => toLex (pool.memberIs (·.usage.isNearlySpent nowUnix) index,
          ((pool.members[index]?).bind fun member => ranks[member.id]?).getD (2 ^ 64 - 1)))
        ordered (pool.reorderClaudeSlots ranks nowUnix ordered) ∧
      pool.reorderClaudeSlots ranks nowUnix (pool.reorderClaudeSlots ranks nowUnix ordered) =
        pool.reorderClaudeSlots ranks nowUnix ordered) ∧
    Rearranged (pool.memberIs fun member => isClaudeOauth member || isClaudeApiKey member)
        (fun index => !pool.memberIs isClaudeApiKey index) ordered (pool.preferClaudeApiKeys ordered) ∧
      pool.preferClaudeApiKeys (pool.preferClaudeApiKeys ordered) = pool.preferClaudeApiKeys ordered := by
  refine ⟨fun ranks nowUnix => sortSlots_rearranged _ _ fun left right => ?_, sortSlots_rearranged _ _ fun left right => ?_⟩
  · rw [Prod.Lex.toLex_le_toLex]
    cases pool.memberIs (·.usage.isNearlySpent nowUnix) left <;>
      cases pool.memberIs (·.usage.isNearlySpent nowUnix) right <;> simp
  · cases pool.memberIs isClaudeApiKey left <;> cases pool.memberIs isClaudeApiKey right <;> decide

def routeDeclares (pool : PoolSnapshot) (route : ResolvedRoute) (requestedModel : String)
    (member : AccountMember) : Bool :=
  (route.providerClasses.find? fun provider =>
    memberProviderId member == some provider.binding.providerId).any fun provider =>
      pool.accountDeclaresBindingModel member requestedModel route.canonicalModel provider

theorem servingPriority_isSome {requestedModel : String} {member : AccountMember} :
    (pool.servingPriority state route requestedModel nowMs apiKeyBinding scopedKey member).isSome ↔
      (state.admitsAccount member (some route.canonicalModel) nowMs apiKeyBinding scopedKey ∧
        laneAdmits (parseModelPrefix requestedModel).1 member ∧ member.groupAvailable route.canonicalModel nowMs) ∧
      pool.routeDeclares route requestedModel member := by
  simp only [servingPriority, routeDeclares]
  cases route.providerClasses.find? fun provider =>
      memberProviderId member == some provider.binding.providerId with
  | none => simp
  | some provider => split <;> simp_all

theorem mem_eligibleIndices_some {index : Nat} :
    index ∈ pool.eligibleIndices (some route) requested nowMs apiKeyBinding scopedKey state ↔
      ∃ member, pool.members[index]? = some member ∧
        (pool.servingPriority state route (requested.getD route.canonicalModel) nowMs
          apiKeyBinding scopedKey member).isSome := by
  rw [eligibleIndices_perm.mem_iff]
  simp only [ranked, List.mem_map, List.mem_filterMap, Option.map_eq_some_iff, Prod.exists,
    List.mem_zipIdx_iff_getElem?, Option.isSome_iff_exists]
  constructor
  · rintro ⟨_, priority, ⟨member, position, found, _, serves, rfl, rfl⟩, rfl⟩
    exact ⟨member, found, priority, serves⟩
  · rintro ⟨member, found, priority, serves⟩
    exact ⟨index, priority, ⟨member, index, found, priority, serves, rfl⟩, rfl⟩

end PoolSnapshot
open Registry

/-! Data for the concrete instances of later results. -/

def claudeOpus : ModelDescriptor :=
  { id := "claude-opus"
    ownedBy := "anthropic"
    displayName := none
    capabilities := []
    bindings := .ofList [("claude", ProviderBinding.new .claude .closed .embeddedFallback)] }

def claudeCatalog : RegistrySnapshot :=
  { source := .embeddedFallback
    models := .ofList [("claude-opus", claudeOpus)]
    providers := .ofList [("claude", ProviderPolicy.closed)]
    aliases := ∅
    exclusions := [] }

def idleState : AppState :=
  { scheduler := ⟨false, true, [], []⟩
    settings := ⟨[], [], ∅, .oauthFirst⟩
    claudeBudgetUsage := none
    claudeEgressInvalid := []
    claudeResetOrder := none }

end Mahoquot.Gateway
