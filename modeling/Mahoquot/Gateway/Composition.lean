import Mahoquot.Gateway.Account

/-! The published composition: the registry with what the accounts contribute
to it, and the model list projected from both. -/

set_option autoImplicit false

namespace Mahoquot.Gateway
open Library Registry

variable (registry : RegistrySnapshot)

def withContribution (fresh : ModelDescriptor) (binding : ProviderBinding) : RegistrySnapshot :=
  let descriptor := registry.models[fresh.id]?.getD fresh
  let bindings := descriptor.bindings.insertIfNew binding.providerId binding
  { registry with models := registry.models.insert fresh.id { descriptor with bindings } }

def withProvider (providerId : ProviderId) (policy : ProviderPolicy) : RegistrySnapshot :=
  { registry with providers := registry.providers.insertIfNew providerId policy }

/-- Discovery is republished from the accounts, so earlier results go first. -/
def dropDiscoveredAntigravity : RegistrySnapshot :=
  { registry with
    models := registry.models.filterMap fun _ descriptor =>
      if (descriptor.bindings[ProviderId.antigravity]?).any fun binding =>
          decide (binding.source = .discovered) then
        let bindings := descriptor.bindings.erase ProviderId.antigravity
        if bindings.isEmpty then none else some { descriptor with bindings }
      else some descriptor }

def contributeGeneric (member : AccountMember) : Except RegistryError RegistrySnapshot :=
  match member.genericModels with
  | none => .ok registry
  | some (providerName, models) =>
    if models.isEmpty then .ok registry
    else do
      let providerId ← ProviderId.canonical providerName
      -- A closed provider owns its catalog models; a declaration cannot extend them.
      if registry.providers[providerId]? = some .closed then .ok registry
      else
        models.foldlM (fun registry model => do
          let modelId ← ModelId.new model
          .ok (withContribution registry (.new modelId providerId) (.new providerId .discovered .discovered)))
          (withProvider registry providerId .discovered)

def contributeDevin (member : AccountMember) : Except RegistryError RegistrySnapshot :=
  if member.kind = .devin && !member.isManuallyDisabled then
    match member.devinDiscoveredModels with
    | none | some [] => .ok registry
    | some models =>
      models.foldlM (fun registry model => do
        let modelId ← ModelId.new model.publicId
        .ok (withContribution registry { ModelDescriptor.new modelId "devin" with capabilities := [.chat, .tools] }
          { ProviderBinding.new .devin .discovered .discovered with
            upstreamModelId := some model.modelUid, capabilities := [.chat, .tools] }))
        (withProvider registry .devin .discovered)
  else .ok registry

/-- Per-conversation counters share the availability map with the models. -/
def isConversationId (id : String) : Bool :=
  (Text.stripPrefix? "chat_" id).any fun rest =>
    !rest.isEmpty && rest.toList.all Text.isAsciiDigit

def contributeAntigravity (member : AccountMember) : RegistrySnapshot :=
  if member.kind = .antigravity && !member.isManuallyDisabled then
    match member.antigravityDiscoveredModels with
    | none => registry
    | some models =>
      if models.isEmpty then registry
      else
        models.toList.foldl (fun registry entry =>
          if !entry.2.getD true || isConversationId entry.1 then registry
          else
            match ModelId.new entry.1 with
            | .error _ => registry
            | .ok modelId => withContribution registry
                { ModelDescriptor.new modelId "google" with capabilities := [.chat, .tools] }
                { ProviderBinding.new .antigravity .discovered .discovered with
                  capabilities := [.chat, .tools], priority := 100 })
          (withProvider registry .antigravity .discovered)
  else registry

variable (members : List AccountMember)

def registryWithAccountContributions (registry : RegistrySnapshot) : Except RegistryError RegistrySnapshot := do
  let withGeneric ← members.foldlM contributeGeneric (dropDiscoveredAntigravity registry)
  let withDevin ← members.foldlM contributeDevin withGeneric
  let effective := members.foldl contributeAntigravity withDevin
  effective.validate
  .ok effective

def defaultModels : List String :=
  ["gpt-5.6-sol", "gpt-5.6-luna", "gpt-5.6-terra", "gpt-5.5", "gpt-5.4", "gpt-5.4-mini",
    "gpt-5.3-codex-spark", "gpt-6-astra", "gpt-daybreak-blue-latest"]

def modelIdsFromEnv (raw : Option String) : List String :=
  match raw.map fun text =>
      ((Text.split ',' text).map Text.trim).filter fun item => !item.isEmpty with
  | none | some [] => defaultModels
  | some parsed => parsed

def contributeEnv (modelsEnv : Option String) (registry : RegistrySnapshot) : Except RegistryError RegistrySnapshot :=
  match modelsEnv with
  | none => .ok registry
  | some raw =>
    if members.any fun member => decide (member.kind = .codex) && !member.isManuallyDisabled then
      (modelIdsFromEnv (some raw)).foldlM (fun registry id => do
        let modelId ← ModelId.new id
        .ok (withContribution registry (.new modelId "openai")
          { ProviderBinding.new .codex .open .localOverride with capabilities := [.chat] }))
        registry
    else .ok registry

def memberMatchesProviderBinding (member : AccountMember) (providerId : ProviderId)
    (binding : ProviderBinding) (modelId : ModelId) : Bool :=
  let upstream := binding.effectiveUpstreamId modelId
  if binding.policy = .open && decide (member.kind = .codex) then true
  else
    match member.inner with
    | .codex => providerId == "codex"
    | .claude _ => providerId == "claude"
    | .cursor => providerId == "cursor"
    | .kiro => providerId == "kiro"
    | .vertex => providerId == "vertex"
    | .zcode => providerId == "zcode"
    | .openCode => providerId == "opencode"
    | .generic provider models => provider == providerId &&
        (models.isEmpty || models.any fun model => model == modelId || model == upstream)
    | .devin => providerId == "devin" && member.supportsDevinModel modelId modelId upstream
    | .antigravity => providerId == "antigravity" &&
        match member.antigravityDiscoveredModels with
        | some models => models[upstream]? == some (some true)
        | none => decide (binding.source ≠ .discovered)

def ownedByOf (descriptor : ModelDescriptor) : String :=
  if !descriptor.ownedBy.isEmpty then descriptor.ownedBy
  else descriptor.bindings.keys.head?.getD "unknown"

def canServe (activeMembers : List AccountMember) (resolved : ResolvedModel) : Bool :=
  resolved.eligibleBindings.any fun binding => activeMembers.any fun member =>
    memberMatchesProviderBinding member binding.providerId binding resolved.canonicalId

def projectModelEntries (members : List AccountMember) : List ModelEntry :=
  let activeMembers := members.filter fun member => !member.isManuallyDisabled
  if activeMembers.isEmpty then []
  else
    registry.models.toList.filterMap fun entry =>
      match registry.resolve entry.1 with
      | .error _ => none
      | .ok resolved => if canServe activeMembers resolved then some ⟨entry.1, ownedByOf entry.2⟩ else none

def modelBoundToProvider (modelId : String) (providerId : ProviderId) : Bool :=
  match ModelId.new modelId with
  | .error _ => false
  | .ok id => (registry.models[id]?).any fun descriptor => descriptor.bindings.contains providerId

def hasClaudeLane (relay : Bool) : Bool :=
  members.any fun member => decide (member.kind = .claude) && member.isNekosRelay == relay &&
    !member.isManuallyDisabled

def prefixedModelAliases (entries : List ModelEntry) (members : List AccountMember)
    (registry : RegistrySnapshot) : List (String × String × String) :=
  entries.flatMap fun entry =>
    if modelBoundToProvider registry entry.id .claude then
      (if hasClaudeLane members false then
        [("anthropic/" ++ entry.id, entry.id, "anthropic"),
          ("anthropic-" ++ entry.id, entry.id, "anthropic")] else []) ++
      (if hasClaudeLane members true then
        [("nekos/" ++ entry.id, entry.id, "nekos"),
          ("nekos-" ++ entry.id, entry.id, "nekos")] else [])
    else []

def expandPrefixedModels (entries : List ModelEntry) (members : List AccountMember)
    (registry : RegistrySnapshot) : List ModelEntry :=
  entries ++ (prefixedModelAliases entries members registry).map fun pair => ⟨pair.1, pair.2.2⟩

/-- Publish a prefixed id as an alias unless it collides with a known id. -/
def addPrefixedAlias (pair : String × String × String) : RegistrySnapshot :=
  match ModelId.new pair.1, ModelId.new pair.2.1 with
  | .ok aliasId, .ok target =>
    if registry.models.contains aliasId || registry.aliases.contains aliasId then registry
    else { registry with aliases := registry.aliases.insert aliasId ⟨aliasId, target, none⟩ }
  | _, _ => registry

def computeCandidateComposition (registry : RegistrySnapshot)
    (modelsEnv : Option String) (isAntigravityModel : String → Bool) : Except RegistryError PoolSnapshot := do
  let contributed ← registryWithAccountContributions members registry
  let effective ← contributeEnv members modelsEnv contributed
  let published := (prefixedModelAliases (projectModelEntries effective members) members
    effective).foldl addPrefixedAlias effective
  published.validate
  .ok (.new members (expandPrefixedModels (projectModelEntries published members) members published)
    published isAntigravityModel)

end Mahoquot.Gateway
