import Mahoquot.Library.Tables
import Mahoquot.Gateway.Attempt

/-! Rebuilding the pool from the credential files: a fresh member adopts the runtime state
of the one it replaces when both stand for the same credential. The deadlines of the groups
are copied, the causes and the credit marks of the benches are not. -/

set_option autoImplicit false

namespace Mahoquot.Gateway
open Library

/-- What a credential file determines of its account. -/
structure AccountFile where
  id : String
  inner : ProviderAccount
  disabled : Bool
  identities : List String
  email : Option String
  accessToken : String
  baseUrl : String
  upstreamOverride : Option String
  overrideHosts : List String
  requestRetryOverride : Option Int
deriving Repr, DecidableEq

namespace AccountMember

def load (file : AccountFile) : AccountMember :=
  { AccountMember.new file.id file.inner with
    disabled := file.disabled
    identities := file.identities
    email := file.email
    accessToken := file.accessToken
    baseUrl := file.baseUrl
    upstreamOverride := file.upstreamOverride
    overrideHosts := file.overrideHosts
    requestRetryOverride := file.requestRetryOverride
    health := if file.disabled then .disabled else .available }

def file (member : AccountMember) : AccountFile :=
  { id := member.id
    inner := member.inner
    disabled := member.disabled
    identities := member.identities
    email := member.email
    accessToken := member.accessToken
    baseUrl := member.baseUrl
    upstreamOverride := member.upstreamOverride
    overrideHosts := member.overrideHosts
    requestRetryOverride := member.requestRetryOverride }

@[simp] theorem file_load (file : AccountFile) : (load file).file = file := rfl

def effectiveBaseUrl (member : AccountMember) : String :=
  member.upstreamOverride.getD (match member.kind with
    | .devin | .generic => member.baseUrl
    | .cursor => "https://api2.cursor.sh"
    | .zcode => "https://api.z.ai"
    | .claude => "https://api.anthropic.com"
    | .codex => "https://api.openai.com"
    | .antigravity => "https://api.antigravity.dev"
    | .kiro => "https://api.kiro.dev"
    | .vertex => "https://api.vertex.dev"
    | .openCode => "https://opencode.ai/inference/openai")

def sameCredentialIdentity (member other : AccountMember) : Bool :=
  member.id == other.id && decide (member.kind = other.kind) &&
    member.accessToken == other.accessToken &&
    member.effectiveBaseUrl == other.effectiveBaseUrl

end AccountMember

/-- The runtime cells a fresh member takes over. -/
inductive RuntimeCell where
  | health
  | usage
  | unsupportedModels
  | groupCooldowns
  | devinCatalog
deriving Repr, DecidableEq

def runtimeCells : List RuntimeCell :=
  [.health, .usage, .unsupportedModels, .groupCooldowns, .devinCatalog]

/-- Copy one cell of `previous`; the health stays fresh where either is disabled. -/
def RuntimeCell.adopt (cell : RuntimeCell) (previous target : AccountMember) : AccountMember :=
  match cell with
  | .health =>
    if target.health ≠ .disabled ∧ previous.health ≠ .disabled then
      target.setHealth previous.health
    else target
  | .usage => { target with usage := previous.usage }
  | .unsupportedModels => { target with unsupportedModels := previous.unsupportedModels }
  | .groupCooldowns => { target with groupCooldowns := previous.groupCooldowns }
  | .devinCatalog =>
    if target.kind = .devin ∧ previous.kind = .devin then
      { target with devinCatalog := previous.devinCatalog }
    else target

def adoptRuntimeState (target previous : AccountMember) : AccountMember :=
  if target.sameCredentialIdentity previous then
    runtimeCells.foldl (fun target cell => cell.adopt previous target) target
  else target

def rescanned (pool : List AccountMember) (file : AccountFile) : AccountMember :=
  match (insertAll AccountMember.id ∅ pool)[file.id]? with
  | some previous => adoptRuntimeState (.load file) previous
  | none => .load file

open AccountMember
namespace RuntimeCell
variable (cell : RuntimeCell) (previous target : AccountMember)

@[simp] theorem file_adopt : (cell.adopt previous target).file = target.file := by
  cases cell <;> simp only [adopt] <;> (try split) <;> rfl

@[simp] theorem creditBenched_adopt : (cell.adopt previous target).creditBenched = target.creditBenched := by
  cases cell <;> simp only [adopt] <;> (try split) <;> rfl

@[simp] theorem benchKinds_adopt : (cell.adopt previous target).benchKinds = target.benchKinds := by
  cases cell <;> simp only [adopt] <;> (try split) <;> rfl

theorem groupCooldowns_adopt : (cell.adopt previous target).groupCooldowns =
    if cell = .groupCooldowns then previous.groupCooldowns else target.groupCooldowns := by
  cases cell <;> simp only [adopt, reduceCtorEq, ↓reduceIte] <;> (try split) <;> rfl

end RuntimeCell

namespace AccountMember
variable {member : AccountMember} {model : String} {nowMs : Int}

theorem quotaGroupFor_of_file {other : AccountMember} (same : member.file = other.file)
    (model : String) : member.quotaGroupFor model = other.quotaGroupFor model := by
  have inner : member.inner = other.inner := congrArg AccountFile.inner same
  simp only [quotaGroupFor, providerName, inner]

theorem sameCredentialIdentity_of_file {other : AccountMember} (same : member.file = other.file) :
    member.sameCredentialIdentity other = true := by
  have id : member.id = other.id := congrArg AccountFile.id same
  have inner : member.inner = other.inner := congrArg AccountFile.inner same
  have token : member.accessToken = other.accessToken := congrArg AccountFile.accessToken same
  have base : member.baseUrl = other.baseUrl := congrArg AccountFile.baseUrl same
  have upstream : member.upstreamOverride = other.upstreamOverride := congrArg AccountFile.upstreamOverride same
  simp [sameCredentialIdentity, effectiveBaseUrl, kind, id, inner, token, base, upstream]

/-- The group of `model` stays benched at least until the given time. -/
def Outlasts (member : AccountMember) (model : String) (untilUnixMs : Int) : Prop :=
  ∃ group deadline, member.quotaGroupFor model = some group ∧
    member.groupCooldowns[group]? = some deadline ∧ untilUnixMs ≤ deadline

/-- No bench of the account carries a credit mark or a cause that is in force. -/
structure Unmarked (member : AccountMember) : Prop where
  credit : ∀ model group, member.quotaGroupFor model = some group →
    member.creditBenched[group]? = none
  group : ∀ model group deadline, member.quotaGroupFor model = some group →
    member.groupCooldowns[group]? = some deadline → member.benchKinds[group]? = none
  account : ∀ untilUnixMs, member.health = .cooldown untilUnixMs →
    member.benchKinds[accountBenchScope]? = none ∨ ∀ model, member.Outlasts model untilUnixMs

theorem groupCreditBenched_iff : member.groupCreditBenched model nowMs = true ↔
      ∃ group deadline, member.quotaGroupFor model = some group ∧
        member.creditBenched[group]? = some deadline ∧ nowMs < deadline := by
  cases grouped : member.quotaGroupFor model <;>
    simp [groupCreditBenched, grouped, Option.any_eq_true]

/-- The cause of a bench is read from the group while that is benched, else
from the account. -/
theorem benchKindForModel_of_active {group : String} {deadline : Int}
    (grouped : member.quotaGroupFor model = some group)
    (filed : member.groupCooldowns[group]? = some deadline) (early : nowMs < deadline) :
    member.benchKindForModel model nowMs = member.benchKinds[group]? := by
  simp [benchKindForModel, grouped, filed, early, Option.filter_some]

theorem benchKindForModel_of_idle (idle : ¬ member.Outlasts model (nowMs + 1)) :
    member.benchKindForModel model nowMs = member.accountBenchKind nowMs := by
  cases grouped : member.quotaGroupFor model with
  | none => simp only [benchKindForModel, grouped, Option.filter_none]
  | some group =>
    cases filed : member.groupCooldowns[group]? with
    | none => simp [benchKindForModel, grouped, filed, Option.filter_some]
    | some deadline =>
      have late : ¬ deadline > nowMs := by
        intro early
        exact idle ⟨group, deadline, grouped, filed, by omega⟩
      simp [benchKindForModel, grouped, filed, late, Option.filter_some]

theorem Unmarked.groupCreditBenched (unmarked : member.Unmarked) (model : String) (nowMs : Int) :
    member.groupCreditBenched model nowMs = false := by
  rw [← Bool.not_eq_true, groupCreditBenched_iff]
  rintro ⟨group, deadline, grouped, marked, _⟩
  cases (unmarked.credit model group grouped).symm.trans marked

theorem Unmarked.benchKindForModel (unmarked : member.Unmarked) (model : String) (nowMs : Int) :
    member.benchKindForModel model nowMs = none := by
  by_cases active : member.Outlasts model (nowMs + 1)
  · obtain ⟨group, deadline, grouped, filed, later⟩ := active
    rw [benchKindForModel_of_active grouped filed (by omega)]
    exact unmarked.group model group deadline grouped filed
  · rw [benchKindForModel_of_idle active, accountBenchKind]
    split
    next untilUnixMs benched =>
      split
      next running =>
        rcases unmarked.account untilUnixMs benched with unlabelled | outlasted
        · exact unlabelled
        · obtain ⟨group, deadline, grouped, filed, later⟩ := outlasted model
          exact absurd ⟨group, deadline, grouped, filed, by omega⟩ active
      next => rfl
    next => rfl

/-- A mark that no question brings to light is not there: each one shows in the
instant before its bench ends. -/
theorem unmarked_of_silent (silent : ∀ model nowMs, member.groupCreditBenched model nowMs = false ∧
      member.benchKindForModel model nowMs = none) : member.Unmarked where
  credit model group grouped := by
    cases marked : member.creditBenched[group]? with
    | none => rfl
    | some deadline =>
      have credit : member.groupCreditBenched model (deadline - 1) = true :=
        groupCreditBenched_iff.mpr ⟨group, deadline, grouped, marked, by omega⟩
      cases (silent model (deadline - 1)).1.symm.trans credit
  group model group deadline grouped filed := by
    rw [← benchKindForModel_of_active grouped filed (show deadline - 1 < deadline by omega)]
    exact (silent model (deadline - 1)).2
  account untilUnixMs benched := by
    by_cases outlasted : ∀ model, member.Outlasts model untilUnixMs
    · exact .inr outlasted
    · obtain ⟨model, idle⟩ := not_forall.mp outlasted
      have before : untilUnixMs - 1 + 1 = untilUnixMs := by omega
      have read := (silent model (untilUnixMs - 1)).2
      rw [benchKindForModel_of_idle (by rwa [before]), accountBenchKind, benched] at read
      exact .inl (by simpa using read)

end AccountMember

section Rescan
variable {pool : List AccountMember} {old : AccountMember} {file : AccountFile}

theorem rescanned_of_found (found : lastWith AccountMember.id pool file.id = some old)
    (unchanged : old.file = file) : rescanned pool file =
      runtimeCells.foldl (fun target cell => cell.adopt old target) (.load file) := by
  have identity : (load file).sameCredentialIdentity old = true :=
    sameCredentialIdentity_of_file (by rw [file_load, unchanged])
  simp only [rescanned, getElem?_insertAll, found, Option.some_or, adoptRuntimeState, identity, ↓reduceIte]

/-- A rescan of an unchanged credential answers for its benches as the old
member did exactly when no mark or cause was in force to be lost. -/
theorem rescan_keeps_benches_iff (found : lastWith AccountMember.id pool file.id = some old)
    (unchanged : old.file = file) : (∀ model nowMs,
        (rescanned pool file).groupAvailable model nowMs = old.groupAvailable model nowMs ∧
        (rescanned pool file).groupCreditBenched model nowMs = old.groupCreditBenched model nowMs ∧
        (rescanned pool file).benchKindForModel model nowMs = old.benchKindForModel model nowMs) ↔ old.Unmarked := by
  have same : (rescanned pool file).file = old.file := by
    rw [rescanned_of_found found unchanged, unchanged]
    simp [runtimeCells]
  have cooldowns : (rescanned pool file).groupCooldowns = old.groupCooldowns := by
    rw [rescanned_of_found found unchanged]
    simp [runtimeCells, RuntimeCell.groupCooldowns_adopt]
  have credit : (rescanned pool file).creditBenched = ∅ := by
    rw [rescanned_of_found found unchanged]
    simp [runtimeCells, load, new]
  have kinds : (rescanned pool file).benchKinds = ∅ := by
    rw [rescanned_of_found found unchanged]
    simp [runtimeCells, load, new]
  have silent : (rescanned pool file).Unmarked := ⟨by simp [credit], by simp [kinds], by simp [kinds]⟩
  have available (model : String) (nowMs : Int) :
      (rescanned pool file).groupAvailable model nowMs = old.groupAvailable model nowMs := by
    simp only [groupAvailable, cooldowns, quotaGroupFor_of_file same]
  constructor
  · intro kept
    refine unmarked_of_silent fun model nowMs => ?_
    obtain ⟨_, credited, caused⟩ := kept model nowMs
    rw [← credited, ← caused]
    exact ⟨silent.groupCreditBenched model nowMs, silent.benchKindForModel model nowMs⟩
  · intro unmarked model nowMs
    exact ⟨available model nowMs, (silent.groupCreditBenched model nowMs).trans
        (unmarked.groupCreditBenched model nowMs).symm,
      (silent.benchKindForModel model nowMs).trans (unmarked.benchKindForModel model nowMs).symm⟩

end Rescan

def clineFile : AccountFile :=
  { id := "cline-a", inner := .generic "cline" ["kimi-k2"], disabled := false, identities := [],
    email := none, accessToken := "token", baseUrl := "https://api.cline.bot",
    upstreamOverride := none, overrideHosts := [], requestRetryOverride := none }

def warmedUp : AccountMember :=
  (load clineFile).after
    (.warmupLimited ⟨429, [("retry-after", "60")], .ok ⟨"", none⟩⟩ "kimi-k2" 0)

theorem rescan_keeps_warmup_bench : (rescanned [warmedUp] clineFile).groupAvailable "kimi-k2" 59999 = false ∧
      ∀ model nowMs, (rescanned [warmedUp] clineFile).benchKindForModel model nowMs =
        warmedUp.benchKindForModel model nowMs := by
  have credit : warmedUp.creditBenched = ∅ := by
    decide +kernel
  have kinds : warmedUp.benchKinds = ∅ := by
    decide +kernel
  have unmarked : warmedUp.Unmarked := ⟨by simp [credit], by simp [kinds], by simp [kinds]⟩
  have found : lastWith AccountMember.id [warmedUp] clineFile.id = some warmedUp := rfl
  have kept := (rescan_keeps_benches_iff found rfl).mpr unmarked
  exact ⟨by rw [(kept "kimi-k2" 59999).1]; decide +kernel, fun model nowMs =>
    (kept model nowMs).2.2⟩

def unpaidAccount : AccountMember :=
  (load clineFile).after
    (.unpaid ⟨"", some (.obj [("code", .str "insufficient_credits")])⟩ "kimi-k2" 0)

theorem rescan_loses_credit_mark : lastWith AccountMember.id [unpaidAccount] clineFile.id = some unpaidAccount ∧
      unpaidAccount.file = clineFile ∧ unpaidAccount.groupCreditBenched "kimi-k2" 0 = true ∧
      unpaidAccount.benchKindForModel "kimi-k2" 0 = some .outOfCredit ∧
      (rescanned [unpaidAccount] clineFile).groupAvailable "kimi-k2" 0 = false ∧
      (rescanned [unpaidAccount] clineFile).groupCreditBenched "kimi-k2" 0 = false ∧
      (rescanned [unpaidAccount] clineFile).benchKindForModel "kimi-k2" 0 = none := by
  exact ⟨rfl, by decide +kernel, by decide +kernel, by decide +kernel, by decide +kernel,
    by decide +kernel, by decide +kernel⟩

end Mahoquot.Gateway
