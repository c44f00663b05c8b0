import Mathlib.Data.List.Sort
import Mahoquot.Library.Text

/-! The runtime model registry: descriptors with provider bindings, alias rules
and exclusions, and how a requested name resolves to a canonical model. -/

set_option autoImplicit false

namespace Mahoquot.Registry
open Library

abbrev ProviderId := String
abbrev ModelId := String

def maxAliasDepth : Nat := 10

inductive RegistryError where
  | emptyProviderId
  | invalidProviderId (id reason : String)
  | emptyModelId
  | invalidModelId (id reason : String)
  | unknownModel (id : ModelId)
  | unknownProvider (id : ProviderId)
  | aliasCycle (aliasId : ModelId) (cycle : List ModelId)
  | aliasDepthExceeded (aliasId : ModelId) (depth maxDepth : Nat)
  | unknownAliasTarget (aliasId target : ModelId)
  | modelExcluded (modelId : ModelId)
  | noRoutableModels
  | duplicateAlias (aliasId : ModelId)
  | providerBlackout (providerId : ProviderId)
deriving Repr, DecidableEq

/-- Identifiers are nonempty and free of white space and control characters. -/
def checkId (empty : RegistryError) (invalid : String → String → RegistryError)
    (reason raw : String) : Except RegistryError String :=
  let trimmed := Text.trim raw
  if trimmed.isEmpty then .error empty
  else if raw.toList.any fun char => Text.isWhitespace char || Text.isControl char then
    .error (invalid raw reason)
  else .ok trimmed

theorem checkId_ok {empty : RegistryError} {invalid : String → String → RegistryError}
    {reason raw id : String} (checked : checkId empty invalid reason raw = .ok id) : id = raw := by
  simp only [checkId] at checked
  split at checked
  · cases checked
  · split at checked
    · cases checked
    · cases checked
      exact Text.trim_eq_self fun char member => by simp_all

namespace ProviderId

def new (raw : String) : Except RegistryError ProviderId :=
  checkId .emptyProviderId .invalidProviderId
    "provider id must not contain whitespace or control characters" raw

def canonical (raw : String) : Except RegistryError ProviderId :=
  let lower := Text.toAsciiLowercase (Text.trim raw)
  new (match lower with
    | "openai" => "codex"
    | "anthropic" => "claude"
    | "google-vertex" => "vertex"
    | _ => lower)

def codex : ProviderId := "codex"
def antigravity : ProviderId := "antigravity"
def claude : ProviderId := "claude"
def cursor : ProviderId := "cursor"
def devin : ProviderId := "devin"
def kiro : ProviderId := "kiro"
def opencode : ProviderId := "opencode"
def vertex : ProviderId := "vertex"
def zcode : ProviderId := "zcode"

end ProviderId

def ModelId.new (raw : String) : Except RegistryError ModelId :=
  checkId .emptyModelId .invalidModelId
    "model id must not contain whitespace or control characters" raw

inductive CatalogSource where
  | embeddedFallback
  | lkgCache
  | remoteSigned
  | discovered
  | localOverride
deriving Repr, DecidableEq, Inhabited

def CatalogSource.precedence : CatalogSource → Nat
  | .embeddedFallback => 1
  | .lkgCache => 2
  | .remoteSigned => 3
  | .discovered => 4
  | .localOverride => 5

inductive ProviderPolicy where
  | closed
  | discovered
  | «open»
deriving Repr, DecidableEq, Inhabited

inductive ModelCapability where
  | chat
  | image
  | video
  | realtime
  | countTokens
  | embedding
  | audio
  | tools
deriving Repr, DecidableEq, Inhabited

structure ProviderBinding where
  providerId : ProviderId
  policy : ProviderPolicy
  source : CatalogSource
  upstreamModelId : Option String
  capabilities : List ModelCapability
  priority : Int
deriving Repr, DecidableEq, Inhabited

def ProviderBinding.new (providerId : ProviderId) (policy : ProviderPolicy)
    (source : CatalogSource) : ProviderBinding :=
  ⟨providerId, policy, source, none, [], 0⟩

def ProviderBinding.effectiveUpstreamId (binding : ProviderBinding) (fallback : ModelId) : String :=
  binding.upstreamModelId.getD fallback

structure ModelDescriptor where
  id : ModelId
  ownedBy : String
  displayName : Option String
  capabilities : List ModelCapability
  bindings : Std.ExtTreeMap ProviderId ProviderBinding

def ModelDescriptor.new (id : ModelId) (ownedBy : String) : ModelDescriptor :=
  ⟨id, ownedBy, none, [], ∅⟩

def ModelDescriptor.effectiveCapabilities (descriptor : ModelDescriptor) : List ModelCapability :=
  descriptor.bindings.values.foldl (fun caps binding => caps ++ binding.capabilities)
    descriptor.capabilities

structure ModelAliasRule where
  aliasId : ModelId
  target : ModelId
  providerId : Option ProviderId
deriving Repr, DecidableEq

structure ModelExclusionRule where
  modelId : ModelId
  providerId : Option ProviderId
deriving Repr, DecidableEq

structure ResolvedModel where
  canonicalId : ModelId
  eligibleBindings : List ProviderBinding
  effectiveCapabilities : List ModelCapability
  source : CatalogSource
deriving Repr, DecidableEq

structure RegistrySnapshot where
  source : CatalogSource
  models : Std.ExtTreeMap ModelId ModelDescriptor
  providers : Std.ExtTreeMap ProviderId ProviderPolicy
  aliases : Std.ExtTreeMap ModelId ModelAliasRule
  exclusions : List ModelExclusionRule

/-- Higher priority first, then catalog precedence, then provider id. -/
def bindingBefore (first second : ProviderBinding) : Bool :=
  decide (second.priority < first.priority) ||
    decide (second.priority = first.priority) &&
      (decide (second.source.precedence < first.source.precedence) ||
        decide (second.source.precedence = first.source.precedence) &&
          decide (first.providerId ≤ second.providerId))

namespace RegistrySnapshot

/-- The alias loop from `current`; `fuel` is how many more hops are allowed. -/
def followAlias (registry : RegistrySnapshot) (requested : ModelId) :
    Nat → ModelId → List ModelId → Except RegistryError ModelId
  | fuel, current, visited =>
    match registry.aliases[current]? with
    | none => .ok current
    | some rule =>
      if visited.contains current then .error (.aliasCycle requested (visited ++ [current]))
      else
        match fuel with
        | 0 => .error (.aliasDepthExceeded requested (visited.length + 1) maxAliasDepth)
        | fuel + 1 => registry.followAlias requested fuel rule.target (visited ++ [current])

variable (registry : RegistrySnapshot)

def resolveAlias (requested : ModelId) : Except RegistryError ModelId :=
  registry.followAlias requested maxAliasDepth requested []

def excludes (modelId : ModelId) (providerId : Option ProviderId) : Bool :=
  registry.exclusions.contains ⟨modelId, providerId⟩

def openProviders (requested canonical : ModelId) : List ProviderId :=
  (registry.providers.toList.filter fun entry => decide (entry.2 = .open) &&
    [requested, canonical].all fun id =>
      match Text.splitOnce? '/' id with
      | none => true
      | some (owner, _) => owner == entry.1).map Prod.fst

def synthesizeOpen (canonical : ModelId) (providers : List ProviderId) : List ProviderBinding :=
  (providers.filter fun pid => !registry.excludes canonical (some pid)).map fun pid =>
    { ProviderBinding.new pid .open .embeddedFallback with capabilities := [.chat] }

/-- The bindings that serve a catalogued model: closed and discovered ones
claim it, open ones come second, open providers only without any binding. -/
def catalogBindings (requested canonical : ModelId) (descriptor : ModelDescriptor) : List ProviderBinding :=
  let allowed := descriptor.bindings.values.filter fun binding =>
    !registry.excludes canonical (some binding.providerId)
  let claimed := allowed.filter fun binding => decide (binding.policy ≠ .open)
  let unclaimed := allowed.filter fun binding => decide (binding.policy = .open)
  if !claimed.isEmpty then claimed.insertionSort (fun a b => bindingBefore a b = true)
  else if !unclaimed.isEmpty then unclaimed.insertionSort (fun a b => bindingBefore a b = true)
  else if descriptor.bindings.isEmpty then
    registry.synthesizeOpen canonical (registry.openProviders requested canonical)
  else []

def namespaceOwner (canonical : ModelId) : Option ProviderPolicy :=
  (registry.providers.toList.find? fun entry =>
    Text.startsWith (entry.1 ++ "/") canonical).map Prod.snd

def resolve (requested : String) : Except RegistryError ResolvedModel := do
  let reqId ← ModelId.new requested
  let canonicalId ← registry.resolveAlias reqId
  if registry.excludes canonicalId none then .error (.modelExcluded canonicalId)
  else
    match registry.models[canonicalId]? with
    | some descriptor =>
      match registry.catalogBindings reqId canonicalId descriptor with
      | [] => .error (.unknownModel canonicalId)
      | first :: rest => .ok ⟨canonicalId, first :: rest, descriptor.effectiveCapabilities, first.source⟩
    | none =>
      if (registry.openProviders reqId canonicalId).isEmpty then
        .error (.unknownModel canonicalId)
      else if (registry.namespaceOwner canonicalId).any fun policy =>
          decide (policy ≠ .open) then
        .error (.unknownModel canonicalId)
      else
        match registry.synthesizeOpen canonicalId
            (registry.openProviders reqId canonicalId) with
        | [] => .error (.unknownModel canonicalId)
        | first :: rest => .ok ⟨canonicalId, first :: rest, [.chat], .embeddedFallback⟩

def validateBinding (entry : ProviderId × ProviderBinding) : Except RegistryError Unit := do
  discard (ProviderId.new entry.1)
  if entry.1 ≠ entry.2.providerId then
    .error (.invalidProviderId entry.1 ("binding map key '" ++ entry.1 ++
      "' does not match binding provider_id '" ++ entry.2.providerId ++ "'"))
  else if !registry.providers.contains entry.1 then .error (.unknownProvider entry.1)
  else .ok ()

def validateModel (entry : ModelId × ModelDescriptor) : Except RegistryError Unit := do
  discard (ModelId.new entry.1)
  if entry.1 ≠ entry.2.id then
    .error (.invalidModelId entry.1 ("models map key '" ++ entry.1 ++
      "' does not match descriptor id '" ++ entry.2.id ++ "'"))
  else entry.2.bindings.toList.forM registry.validateBinding

def hasOpenProvider : Bool :=
  registry.providers.values.any fun policy => decide (policy = .open)

def validateAlias (entry : ModelId × ModelAliasRule) : Except RegistryError Unit := do
  discard (ModelId.new entry.1)
  discard (ModelId.new entry.2.target)
  discard (entry.2.providerId.mapM ProviderId.new)
  if entry.1 = entry.2.target then .error (.aliasCycle entry.1 [entry.1, entry.2.target])
  else
    let last ← registry.followAlias entry.1 (maxAliasDepth - 1) entry.2.target [entry.1]
    if !registry.models.contains last && !registry.hasOpenProvider then
      .error (.unknownAliasTarget entry.1 last)
    else .ok ()

def validate : Except RegistryError Unit := do
  registry.providers.keys.forM fun providerId => discard (ProviderId.new providerId)
  registry.models.toList.forM registry.validateModel
  registry.aliases.toList.forM registry.validateAlias
  if registry.models.isEmpty && !registry.hasOpenProvider then .error .noRoutableModels
  else .ok ()

end RegistrySnapshot
end Mahoquot.Registry
