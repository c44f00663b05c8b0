import Mathlib.Data.Rat.Defs
import Mathlib.Algebra.Order.Ring.Rat
import Mahoquot.Registry.Snapshot
import Mahoquot.Types

/-! Accounts of the pool: their quota observations, which provider they belong to, what
they may serve, and the benches a failed request leaves on them; and the published pool
snapshot. Percentages are exact rationals. -/

set_option autoImplicit false

namespace Mahoquot.Gateway
open Library Registry

structure QuotaWindow where
  usedPercent : Option Rat
  windowMinutes : Option Int
  resetAfterSeconds : Option Int
  resetAtUnix : Option Int
deriving DecidableEq, Inhabited

structure QuotaBucket where
  bucketId : Option String
  usedPercent : Option Rat
  resetAtUnix : Option Int
deriving DecidableEq, Inhabited

structure QuotaGroup where
  models : Option String
  buckets : List QuotaBucket
deriving DecidableEq, Inhabited

structure AccountUsage where
  primary : QuotaWindow
  secondary : QuotaWindow
  groups : List QuotaGroup
  overageLimitReached : Option Bool
  observedAtUnix : Option Int
  modelAvailability : Option (Std.ExtTreeMap String (Option Bool))

def QuotaWindow.empty : QuotaWindow := ⟨none, none, none, none⟩

def AccountUsage.default : AccountUsage := ⟨.empty, .empty, [], none, none, none⟩

def QuotaWindow.isEmpty (window : QuotaWindow) : Bool :=
  window.usedPercent.isNone && window.windowMinutes.isNone &&
    window.resetAfterSeconds.isNone && window.resetAtUnix.isNone

/-- A reading of at least 100% that is still inside its reset horizon, or was
observed within five minutes when no reset is known. -/
def readingExhausted (usedPercent : Option Rat) (resetAtUnix observedAtUnix : Option Int) (nowUnix : Int) : Bool :=
  match usedPercent with
  | none => false
  | some percent =>
    decide (percent ≥ 100) &&
      match resetAtUnix with
      | some resetAt => decide (resetAt > nowUnix)
      | none =>
        match observedAtUnix with
        | some observed => decide (nowUnix - observed ≤ 300)
        | none => false

namespace AccountUsage

def isCodexHardLimitReached (usage : AccountUsage) : Bool :=
  usage.overageLimitReached == some true

def flatWindowExhausted (usage : AccountUsage) (nowUnix : Int) : Bool :=
  [usage.primary, usage.secondary].any fun window => !window.isEmpty &&
    readingExhausted window.usedPercent window.resetAtUnix usage.observedAtUnix nowUnix

def isClaudeIncludedQuotaExhausted (usage : AccountUsage) (nowUnix : Int) : Bool :=
  usage.flatWindowExhausted nowUnix

end AccountUsage

def matchesCodexModel (groupModels bucketId : Option String) (requestedModel : String) : Bool :=
  let spark := requestedModel == "gpt-5.3-codex-spark" || requestedModel == "spark"
  (groupModels.any fun models =>
    models == requestedModel || (models == "bengalfox" && spark) ||
      ((models == "gpt-5.3-codex-spark" || models == "spark") && requestedModel == "bengalfox") ||
      (((Text.splitChars (fun char => char == ',' || char == ' ') models.toList).map
        String.ofList).any fun model => Text.trim model == requestedModel)) ||
    bucketId.any fun id => id == requestedModel ||
      ((Text.stripSuffix? "-primary" id).or (Text.stripSuffix? "-secondary" id)).any
        fun base => base == requestedModel || (base == "bengalfox" && spark)

def AccountUsage.isCodexIncludedQuotaExhausted (usage : AccountUsage)
    (requestedModel : Option String) (nowUnix : Int) : Bool :=
  usage.flatWindowExhausted nowUnix || requestedModel.any fun model =>
    usage.groups.any fun group => group.buckets.any fun bucket =>
      matchesCodexModel group.models bucket.bucketId model &&
        readingExhausted bucket.usedPercent bucket.resetAtUnix usage.observedAtUnix nowUnix

def newSessionMinRemainingPercent : Rat := 10

def AccountUsage.isNearlySpent (usage : AccountUsage) (nowUnix : Int) : Bool :=
  [usage.primary, usage.secondary].any fun window =>
    (window.resetAtUnix.all fun reset => decide (reset > nowUnix)) &&
      window.usedPercent.any fun used => decide (100 - used < newSessionMinRemainingPercent)

inductive ProviderKind where
  | codex
  | antigravity
  | claude
  | cursor
  | kiro
  | zcode
  | vertex
  | openCode
  | devin
  | generic
deriving Repr, DecidableEq, Inhabited

def ProviderKind.asStr : ProviderKind → String
  | .codex => "codex"
  | .antigravity => "antigravity"
  | .claude => "claude"
  | .cursor => "cursor"
  | .kiro => "kiro"
  | .zcode => "zcode"
  | .vertex => "google-vertex"
  | .openCode => "opencode"
  | .devin => "devin"
  | .generic => "generic"

/-- The credential behind an account, as far as routing reads it. -/
inductive ProviderAccount where
  | codex
  | antigravity
  | claude (apiKey : Option String)
  | cursor
  | kiro
  | zcode
  | vertex
  | openCode
  | devin
  | generic (provider : String) (models : List String)
deriving Repr, DecidableEq, Inhabited

def ProviderAccount.kind : ProviderAccount → ProviderKind
  | .codex => .codex
  | .antigravity => .antigravity
  | .claude _ => .claude
  | .cursor => .cursor
  | .kiro => .kiro
  | .zcode => .zcode
  | .vertex => .vertex
  | .openCode => .openCode
  | .devin => .devin
  | .generic .. => .generic

inductive BenchKind where
  | quotaExhausted
  | rateLimited
  | outOfCredit
deriving Repr, DecidableEq, Inhabited

def splitDateSuffix (model : String) : Option String :=
  match Text.rsplitOnce? '-' model with
  | none => none
  | some (base, suffix) =>
    if suffix.toList.length = 4 ∧ suffix.toList.all Text.isAsciiDigit then some base else none

/-- The bucket group a model bills against; `none` for providers that meter
the account as a single pool. -/
def modelQuotaGroup (provider model : String) : Option String :=
  if provider = "antigravity" then
    some (if Text.startsWith "gemini-" model then "gemini" else "3p")
  else if provider = "cline" then
    if Text.contains "deepseek-v4.1-flash" model then some "deepseek-v4.1-flash"
    else if Text.contains "gemini-3.8-flash" model then some "cline-free/gemini-3.8-flash"
    else
      match splitDateSuffix model with
      | some base => some base
      | none => some model
  else none

def accountBenchScope : String := "\x00account"

def modelBenchKey (model : String) : String := "\x00model:" ++ model

/-- The rolling window of one Cline model, as far as deadlines read it. -/
structure ClineDailyTracker where
  windowStartUnix : Int
  resetOverrideUnix : Int
deriving Repr, DecidableEq

def daySecs : Int := 86400

namespace ClineDailyTracker

def new : ClineDailyTracker := ⟨0, 0⟩

def estimatedResetUnix (tracker : ClineDailyTracker) : Int :=
  if tracker.resetOverrideUnix > 0 then tracker.resetOverrideUnix
  else if tracker.windowStartUnix > 0 then tracker.windowStartUnix + daySecs
  else 0

def onCap429 (tracker : ClineDailyTracker) (resetAtUnix nowUnix : Int) : ClineDailyTracker :=
  if resetAtUnix ≤ nowUnix then tracker
  else
    { resetOverrideUnix := resetAtUnix
      windowStartUnix :=
        if tracker.windowStartUnix = 0 then resetAtUnix - daySecs
        else tracker.windowStartUnix }

end ClineDailyTracker

def clineQuotaSlug (model : String) : String :=
  match Text.rsplitOnce? '/' model with
  | none => model
  | some (_, slug) => slug

structure DiscoveredDevinModel where
  modelUid : String
  publicId : String
deriving Repr, DecidableEq

structure DevinAccountCatalogState where
  hasSucceeded : Bool
  models : List DiscoveredDevinModel
deriving Repr, DecidableEq

structure AccountMember where
  id : String
  inner : ProviderAccount
  disabled : Bool
  /-- File name, file stem and account id a key scope may name. -/
  identities : List String
  email : Option String
  accessToken : String
  baseUrl : String
  upstreamOverride : Option String
  overrideHosts : List String
  requestRetryOverride : Option Int
  health : Health
  groupCooldowns : Std.ExtTreeMap String Int
  /-- Groups whose bench is owed to an empty credit balance, with its deadline. -/
  creditBenched : Std.ExtTreeMap String Int
  benchKinds : Std.ExtTreeMap String BenchKind
  unsupportedModels : List String
  usage : AccountUsage
  clineTrackers : Std.ExtTreeMap String ClineDailyTracker
  devinCatalog : Option DevinAccountCatalogState

namespace AccountMember

def new (id : String) (inner : ProviderAccount) : AccountMember :=
  { id, inner, disabled := false, identities := [], email := none, accessToken := "",
    baseUrl := "", upstreamOverride := none, overrideHosts := [], requestRetryOverride := none,
    health := .available, groupCooldowns := ∅, creditBenched := ∅, benchKinds := ∅,
    unsupportedModels := [], usage := .default, clineTrackers := ∅, devinCatalog := none }

def kind (member : AccountMember) : ProviderKind := member.inner.kind

variable (member : AccountMember)

def providerName : String :=
  match member.inner with
  | .generic provider _ => provider
  | account => account.kind.asStr

def genericModels : Option (String × List String) :=
  match member.inner with
  | .generic provider models => some (provider, models)
  | _ => none

def relayApiKey : Option String :=
  match member.inner with
  | .claude apiKey => apiKey
  | _ => none

def isNekosRelay : Bool :=
  member.relayApiKey.isSome && member.overrideHosts.any fun host =>
    (Text.split '.' host).any fun label => label == "nekos" || label == "ccapi"

def isManuallyDisabled : Bool :=
  member.health == .disabled || member.disabled

variable (model : String)

def quotaGroupFor : Option String :=
  modelQuotaGroup member.providerName model

def setHealth (health : Health) : AccountMember :=
  { member with health := health }

/-- Raise the deadline filed under `key`; a later deadline wins. -/
def raiseCooldown (key : String) (untilUnixMs : Int) : AccountMember :=
  { member with
    groupCooldowns := member.groupCooldowns.insert key
      (max (member.groupCooldowns[key]?.getD untilUnixMs) untilUnixMs) }

/-- Bench only the quota group of `model`; `none` without a group split. -/
def setGroupCooldown (untilUnixMs : Int) : Option AccountMember :=
  (member.quotaGroupFor model).map fun group => member.raiseCooldown group untilUnixMs

def groupAvailable (nowUnixMs : Int) : Bool :=
  if (member.groupCooldowns[modelBenchKey model]?).any fun deadline =>
      decide (deadline > nowUnixMs) then false
  else
    match member.quotaGroupFor model with
    | none => true
    | some group => (member.groupCooldowns[group]?).all fun deadline => decide (deadline ≤ nowUnixMs)

def setModelCooldown (untilUnixMs : Int) : AccountMember :=
  member.raiseCooldown (modelBenchKey model) untilUnixMs

/-- Mark the quota group of `model` as benched for credit; a later deadline wins. -/
def setGroupCreditBench (untilUnixMs : Int) : AccountMember :=
  match member.quotaGroupFor model with
  | none => member
  | some group =>
    { member with
      creditBenched := member.creditBenched.insert group
        (max (member.creditBenched[group]?.getD untilUnixMs) untilUnixMs) }

def groupCreditBenched (nowUnixMs : Int) : Bool :=
  match member.quotaGroupFor model with
  | none => false
  | some group => (member.creditBenched[group]?).any fun deadline => decide (deadline > nowUnixMs)

def setGroupBenchKind (kind : BenchKind) : AccountMember :=
  match member.quotaGroupFor model with
  | none => member
  | some group => { member with benchKinds := member.benchKinds.insert group kind }

def setAccountBenchKind (kind : BenchKind) : AccountMember :=
  { member with benchKinds := member.benchKinds.insert accountBenchScope kind }

def accountBenchKind (nowUnixMs : Int) : Option BenchKind :=
  match member.health with
  | .cooldown untilUnixMs => if untilUnixMs > nowUnixMs then member.benchKinds[accountBenchScope]? else none
  | _ => none

/-- Why the account cannot serve `model`: the cause of the group's bench while
that lasts, else the account's. -/
def benchKindForModel (nowUnixMs : Int) : Option BenchKind :=
  let activeGroup := (member.quotaGroupFor model).filter fun group =>
    (member.groupCooldowns[group]?).any fun deadline => decide (deadline > nowUnixMs)
  match activeGroup with
  | some group => member.benchKinds[group]?
  | none => member.accountBenchKind nowUnixMs

def markUnsupported : AccountMember :=
  if member.unsupportedModels.contains model then member
  else { member with unsupportedModels := member.unsupportedModels ++ [model] }

def devinDiscoveredModels : Option (List DiscoveredDevinModel) :=
  if member.kind ≠ .devin then none
  else if member.isManuallyDisabled then some []
  else (member.devinCatalog.filter (·.hasSucceeded)).map (·.models)

def devinModels : Option (List String) :=
  member.devinDiscoveredModels.map fun models => models.map (·.publicId)

def supportsDevinModel (requested canonical upstream : String) : Bool :=
  decide (member.kind = .devin) && !member.isManuallyDisabled &&
    !(member.unsupportedModels.any fun model =>
      model == requested || model == canonical || model == upstream) &&
    member.devinCatalog.any fun catalog => catalog.models.any fun model =>
      model.publicId == requested || model.publicId == canonical ||
        model.modelUid == upstream || model.modelUid == requested

def antigravityDiscoveredModels : Option (Std.ExtTreeMap String (Option Bool)) :=
  if member.kind ≠ .antigravity then none
  else if member.isManuallyDisabled then some ∅
  else member.usage.modelAvailability

def poolMember : PoolMember := ⟨member.id, member.health⟩

end AccountMember

def memberProviderId (member : AccountMember) : Option ProviderId :=
  match member.inner with
  | .codex => some .codex
  | .antigravity => some .antigravity
  | .claude _ => some .claude
  | .cursor => some .cursor
  | .kiro => some .kiro
  | .zcode => some .zcode
  | .vertex => some .vertex
  | .openCode => some .opencode
  | .devin => some .devin
  | .generic provider _ => (ProviderId.canonical provider).toOption

structure ModelEntry where
  id : String
  ownedBy : String
deriving Repr, DecidableEq

structure AccountSnapshotPermissions where
  providerKind : ProviderKind
  disabled : Bool
  devinModels : Option (List String)
  antigravityModels : Option (Std.ExtTreeMap String (Option Bool))
  unsupportedModels : List String

namespace AccountSnapshotPermissions

def ofMember (member : AccountMember) : AccountSnapshotPermissions :=
  ⟨member.kind, member.isManuallyDisabled, member.devinModels,
    member.antigravityDiscoveredModels, member.unsupportedModels⟩

variable (permissions : AccountSnapshotPermissions)

def refuses (kind : ProviderKind) (requested canonical upstream : String) : Bool :=
  decide (permissions.providerKind ≠ kind) || permissions.disabled ||
    permissions.unsupportedModels.any fun model =>
      model == requested || model == canonical || model == upstream

def supportsDevinModel (requested canonical upstream : String) : Bool :=
  if permissions.refuses .devin requested canonical upstream then false
  else
    match permissions.devinModels with
    | some models => models.any fun model =>
      model == requested || model == canonical || model == upstream ||
        (Text.stripPrefix? "devin/" model).getD model == upstream
    | none => false

/-- `fallback` is the embedded catalogue of the provider. -/
def supportsAntigravityModel (fallback : String → Bool) (requested canonical upstream : String) : Bool :=
  if permissions.refuses .antigravity requested canonical upstream then false
  else
    match permissions.antigravityModels with
    | some discovered => discovered[upstream]? == some (some true)
    | none => fallback upstream

end AccountSnapshotPermissions

structure PoolSnapshot where
  members : List AccountMember
  models : List ModelEntry
  registry : RegistrySnapshot
  permissions : Std.ExtTreeMap String AccountSnapshotPermissions
  /-- Models of the embedded catalogue that are bound to Antigravity. -/
  isAntigravityModel : String → Bool

namespace PoolSnapshot

def permissionsOf (members : List AccountMember) : Std.ExtTreeMap String AccountSnapshotPermissions :=
  members.foldl (fun permissions member => permissions.insert member.id (.ofMember member)) ∅

def new (members : List AccountMember) (models : List ModelEntry) (registry : RegistrySnapshot)
    (isAntigravityModel : String → Bool) : PoolSnapshot :=
  ⟨members, models, registry, permissionsOf members, isAntigravityModel⟩

def isDevinModelEligible (pool : PoolSnapshot) (id model : String) : Bool :=
  let canonical := if Text.startsWith "devin/" model then model else "devin/" ++ model
  let upstream := (Text.stripPrefix? "devin/" model).getD model
  (pool.permissions[id]?).any fun permissions =>
    permissions.supportsDevinModel model canonical upstream

def isAntigravityModelEligible (pool : PoolSnapshot) (id model : String) : Bool :=
  let stripped := (Text.stripPrefix? "antigravity/" model).getD model
  (pool.permissions[id]?).any fun permissions =>
    permissions.supportsAntigravityModel pool.isAntigravityModel model stripped stripped

/-- Interior mutation of one member; permissions stay as captured. -/
def updateMember (pool : PoolSnapshot) (index : Nat) (update : AccountMember → AccountMember) : PoolSnapshot :=
  { pool with members := pool.members.modify index update }

end PoolSnapshot

end Mahoquot.Gateway
