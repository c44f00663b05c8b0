import Mahoquot.Library.Tables
import Mahoquot.Registry.Snapshot

/-! How snapshots come about: the builder that checks its tables once, and the composition of
a published snapshot with the local settings. What the two validators establish is stated as
properties of the tables. -/

set_option autoImplicit false

namespace Mahoquot.Registry
open Library

/-- The walk that every validator makes from an alias, its first hop taken. -/
def RegistrySnapshot.walkAlias (registry : RegistrySnapshot)
    (entry : ModelId × ModelAliasRule) : Except RegistryError ModelId :=
  if entry.1 = entry.2.target then .error (.aliasCycle entry.1 [entry.1, entry.2.target])
  else registry.followAlias entry.1 (maxAliasDepth - 1) entry.2.target [entry.1]

structure RegistryBuilder where
  source : CatalogSource
  providers : Std.ExtTreeMap ProviderId ProviderPolicy
  models : Std.ExtTreeMap ModelId ModelDescriptor
  aliases : Std.ExtTreeMap ModelId ModelAliasRule
  exclusions : List ModelExclusionRule

namespace RegistryBuilder

def new (source : CatalogSource) : RegistryBuilder := ⟨source, ∅, ∅, ∅, []⟩

variable (builder : RegistryBuilder)

def registerProvider (id : ProviderId) (policy : ProviderPolicy) : RegistryBuilder :=
  { builder with providers := builder.providers.insert id policy }

def addAlias (aliasId target : ModelId) (providerId : Option ProviderId) : RegistryBuilder :=
  { builder with aliases := builder.aliases.insert aliasId ⟨aliasId, target, providerId⟩ }

def snapshot : RegistrySnapshot :=
  ⟨builder.source, builder.models, builder.providers, builder.aliases, builder.exclusions⟩

def checkAlias (entry : ModelId × ModelAliasRule) : Except RegistryError Unit := do
  let last ← builder.snapshot.walkAlias entry
  if !builder.models.contains last && !builder.snapshot.hasOpenProvider then
    .error (.unknownAliasTarget entry.1 last)
  else .ok ()

def build : Except RegistryError RegistrySnapshot := do
  builder.aliases.toList.forM builder.checkAlias
  if builder.models.isEmpty && !builder.snapshot.hasOpenProvider then .error .noRoutableModels
  else .ok builder.snapshot

end RegistryBuilder

/-- What the settings document adds to a published snapshot. -/
structure LocalSettings where
  aliases : List ModelAliasRule
  exclusions : List ModelExclusionRule
  customModels : List ModelDescriptor
  allowedBlackouts : List ProviderId

namespace LocalSettings

def checkBinding (entry : ProviderId × ProviderBinding) : Except RegistryError Unit := do
  discard (ProviderId.new entry.1)
  if entry.1 ≠ entry.2.providerId then
    .error (.invalidProviderId entry.1 ("binding map key '" ++ entry.1 ++
      "' does not match binding provider_id '" ++ entry.2.providerId ++ "'"))
  else .ok ()

def checkModel (descriptor : ModelDescriptor) : Except RegistryError Unit := do
  discard (ModelId.new descriptor.id)
  descriptor.bindings.toList.forM checkBinding

/-- One alias of the settings; `seen` are those before it. -/
def checkAlias (seen : Std.ExtTreeMap ModelId ModelAliasRule) (rule : ModelAliasRule) :
    Except RegistryError (Std.ExtTreeMap ModelId ModelAliasRule) := do
  if seen[rule.aliasId]?.any fun previous => decide (previous ≠ rule) then
    .error (.duplicateAlias rule.aliasId)
  else
    discard (ModelId.new rule.aliasId)
    discard (ModelId.new rule.target)
    discard (rule.providerId.mapM ProviderId.new)
    .ok (seen.insert rule.aliasId rule)

def checkExclusion (rule : ModelExclusionRule) : Except RegistryError Unit := do
  discard (ModelId.new rule.modelId)
  discard (rule.providerId.mapM ProviderId.new)

def excludes (settings : LocalSettings) (providerId : ProviderId) (modelId : ModelId) : Bool :=
  (settings.exclusions.any fun rule => rule.providerId.isNone && rule.modelId == modelId) ||
    settings.exclusions.any fun rule =>
      rule.providerId == some providerId && rule.modelId == modelId

end LocalSettings

namespace RegistrySnapshot
variable (registry : RegistrySnapshot)

variable (settings : LocalSettings)

def allModels : Std.ExtTreeSet ModelId :=
  .ofList (registry.models.keys ++ settings.customModels.map ModelDescriptor.id)

/-- The registered providers and those that custom models bind. -/
def allProviders : Std.ExtTreeSet ProviderId :=
  .ofList (registry.providers.keys ++ settings.customModels.flatMap fun descriptor => descriptor.bindings.keys)

def withAliases : RegistrySnapshot :=
  { registry with
    aliases := insertAll ModelAliasRule.aliasId registry.aliases settings.aliases }

def checkCombinedAlias (entry : ModelId × ModelAliasRule) : Except RegistryError Unit := do
  let last ← (registry.withAliases settings).walkAlias entry
  if !(registry.allModels settings).contains last then
    .error (.unknownAliasTarget entry.1 last)
  else .ok ()

/-- The models that the blackout check counts for a provider. -/
def providerModels (providerId : ProviderId) : List ModelId :=
  ((registry.models.values ++ settings.customModels).filter fun descriptor =>
    descriptor.bindings.contains providerId).map ModelDescriptor.id

def checkBlackout (providerId : ProviderId) : Except RegistryError Unit :=
  if settings.allowedBlackouts.contains providerId then .ok ()
  else
    let models := registry.providerModels settings providerId
    if models.isEmpty then .ok ()
    else if models.all (settings.excludes providerId) then .error (.providerBlackout providerId)
    else .ok ()

def validateLocalComposition : Except RegistryError Unit := do
  settings.customModels.forM LocalSettings.checkModel
  discard (settings.aliases.foldlM LocalSettings.checkAlias ∅)
  (registry.withAliases settings).aliases.toList.forM (registry.checkCombinedAlias settings)
  settings.exclusions.forM LocalSettings.checkExclusion
  (registry.allProviders settings).toList.forM (registry.checkBlackout settings)

/-- The snapshot that `composeWithSettings` publishes when every check passes. -/
def composed : RegistrySnapshot where
  source := .localOverride
  models := insertAll ModelDescriptor.id registry.models settings.customModels
  providers := registry.providers
  aliases := insertAll ModelAliasRule.aliasId registry.aliases settings.aliases
  exclusions := registry.exclusions ++ settings.exclusions

def composeWithSettings : Except RegistryError RegistrySnapshot := do
  registry.validateLocalComposition settings
  .ok (registry.composed settings)

end RegistrySnapshot

def IsProviderId (id : ProviderId) : Prop := ∃ checked, ProviderId.new id = .ok checked

def IsModelId (id : ModelId) : Prop := ∃ checked, ModelId.new id = .ok checked

def ModelAliasRule.HasIds (rule : ModelAliasRule) : Prop :=
  IsModelId rule.target ∧ ∃ checked, rule.providerId.mapM ProviderId.new = .ok checked

/-- Every binding stands under the provider id that it names. -/
def ModelDescriptor.WellKeyed (descriptor : ModelDescriptor) : Prop :=
  ∀ providerId (binding : ProviderBinding), descriptor.bindings[providerId]? = some binding →
    IsProviderId providerId ∧ providerId = binding.providerId

def ModelDescriptor.BindsWithin (descriptor : ModelDescriptor)
    (providers : Std.ExtTreeMap ProviderId ProviderPolicy) : Prop :=
  ∀ providerId ∈ descriptor.bindings, providerId ∈ providers

namespace RegistrySnapshot

/-- What `validate` accepts. -/
structure Valid (registry : RegistrySnapshot) : Prop where
  providers : ∀ providerId ∈ registry.providers, IsProviderId providerId
  models : ∀ (modelId : ModelId) (descriptor : ModelDescriptor),
    registry.models[modelId]? = some descriptor →
      IsModelId modelId ∧ modelId = descriptor.id ∧ descriptor.WellKeyed
  registered : ∀ (modelId : ModelId) (descriptor : ModelDescriptor),
    registry.models[modelId]? = some descriptor → descriptor.BindsWithin registry.providers
  aliases : ∀ (aliasId : ModelId) (rule : ModelAliasRule),
    registry.aliases[aliasId]? = some rule → IsModelId aliasId ∧ rule.HasIds
  targets : ∀ (aliasId : ModelId) (rule : ModelAliasRule),
    registry.aliases[aliasId]? = some rule →
      ∃ last, registry.walkAlias (aliasId, rule) = .ok last ∧
        (last ∈ registry.models ∨ registry.hasOpenProvider)
  routable : registry.models.isEmpty = false ∨ registry.hasOpenProvider

variable {registry : RegistrySnapshot}

theorem validateBinding_eq_ok {entry : ProviderId × ProviderBinding} : registry.validateBinding entry = .ok () ↔
      (IsProviderId entry.1 ∧ entry.1 = entry.2.providerId) ∧ entry.1 ∈ registry.providers := by
  simp only [validateBinding, unit_bind_eq_ok, discard_eq_ok, IsProviderId]
  by_cases keyed : entry.1 = entry.2.providerId
  · simp [← keyed]
  · simp [keyed]

theorem validateModel_eq_ok {entry : ModelId × ModelDescriptor} : registry.validateModel entry = .ok () ↔
      (IsModelId entry.1 ∧ entry.1 = entry.2.id ∧ entry.2.WellKeyed) ∧ entry.2.BindsWithin registry.providers := by
  simp only [validateModel, unit_bind_eq_ok, discard_eq_ok, and_assoc]
  refine and_congr_right fun _ => ?_
  by_cases keyed : entry.1 = entry.2.id
  · simp only [← keyed, ne_eq, not_true_eq_false, if_false, true_and, forM_toList_eq_ok, validateBinding_eq_ok]
    constructor
    · intro bindings
      refine ⟨fun providerId binding found => (bindings providerId binding found).1, ?_⟩
      intro providerId bound
      exact (bindings providerId _ (Std.ExtTreeMap.getElem?_eq_some_getElem bound)).2
    · rintro ⟨wellKeyed, within⟩ providerId binding found
      exact ⟨wellKeyed providerId binding found, within providerId (mem_of_getElem? found)⟩
  · simp [keyed]

theorem validateAlias_eq_ok {entry : ModelId × ModelAliasRule} : registry.validateAlias entry = .ok () ↔
      (IsModelId entry.1 ∧ entry.2.HasIds) ∧ ∃ last, registry.walkAlias entry = .ok last ∧
          (last ∈ registry.models ∨ registry.hasOpenProvider) := by
  simp only [validateAlias, unit_bind_eq_ok, discard_eq_ok, ModelAliasRule.HasIds, and_assoc]
  refine and_congr_right fun _ => and_congr_right fun _ => and_congr_right fun _ => ?_
  rw [walkAlias]
  by_cases same : entry.1 = entry.2.target
  · simp [same]
  · simp only [same, if_false, bind_eq_ok]
    refine exists_congr fun last => and_congr_right fun _ => ?_
    by_cases listed : last ∈ registry.models
    · simp [listed]
    · cases registry.hasOpenProvider <;> simp [listed]

theorem validate_eq_ok : registry.validate = .ok () ↔ registry.Valid := by
  simp only [validate, unit_bind_eq_ok, forM_toList_eq_ok, validateModel_eq_ok, validateAlias_eq_ok]
  simp only [forM_eq_ok, discard_eq_ok]
  constructor
  · rintro ⟨providers, models, aliases, routable⟩
    refine ⟨?_, fun modelId descriptor listed => (models modelId descriptor listed).1,
      fun modelId descriptor listed => (models modelId descriptor listed).2,
      fun aliasId rule listed => (aliases aliasId rule listed).1,
      fun aliasId rule listed => (aliases aliasId rule listed).2, ?_⟩
    · intro providerId member
      exact providers providerId (Std.ExtTreeMap.mem_keys.mpr member)
    · cases empty : registry.models.isEmpty with
      | false => exact .inl rfl
      | true =>
        right
        by_contra closed
        simp [empty, closed] at routable
  · intro valid
    refine ⟨?_, fun modelId descriptor listed => ⟨valid.models modelId descriptor listed,
      valid.registered modelId descriptor listed⟩, fun aliasId rule listed =>
      ⟨valid.aliases aliasId rule listed, valid.targets aliasId rule listed⟩, ?_⟩
    · intro providerId member
      exact valid.providers providerId (Std.ExtTreeMap.mem_keys.mp member)
    · rcases valid.routable with filled | opened
      · simp [filled]
      · simp [opened]

/-- What the checks of the local settings accept. -/
structure LocallyValid (registry : RegistrySnapshot) (settings : LocalSettings) : Prop where
  models : ∀ descriptor ∈ settings.customModels, IsModelId descriptor.id ∧ descriptor.WellKeyed
  aliases : ∀ rule ∈ settings.aliases, IsModelId rule.aliasId ∧ rule.HasIds
  targets : ∀ (aliasId : ModelId) (rule : ModelAliasRule),
    (registry.withAliases settings).aliases[aliasId]? = some rule →
      ∃ last, (registry.withAliases settings).walkAlias (aliasId, rule) = .ok last ∧
        last ∈ registry.allModels settings
  routable : ∀ providerId ∈ registry.allProviders settings,
    providerId ∉ settings.allowedBlackouts →
      ∀ modelId ∈ registry.providerModels settings providerId,
        ∃ kept ∈ registry.providerModels settings providerId,
          settings.excludes providerId kept = false

end RegistrySnapshot

theorem LocalSettings.checkBinding_eq_ok {entry : ProviderId × ProviderBinding} :
    LocalSettings.checkBinding entry = .ok () ↔ IsProviderId entry.1 ∧ entry.1 = entry.2.providerId := by
  simp only [checkBinding, unit_bind_eq_ok, discard_eq_ok, IsProviderId]
  by_cases keyed : entry.1 = entry.2.providerId
  · simp [← keyed]
  · simp [keyed]

theorem LocalSettings.checkModel_eq_ok {descriptor : ModelDescriptor} :
    LocalSettings.checkModel descriptor = .ok () ↔ IsModelId descriptor.id ∧ descriptor.WellKeyed := by
  simp only [checkModel, unit_bind_eq_ok, discard_eq_ok, forM_toList_eq_ok, checkBinding_eq_ok]
  rfl

theorem LocalSettings.checkAlias_ok {seen after : Std.ExtTreeMap ModelId ModelAliasRule}
    {rule : ModelAliasRule} (accepted : LocalSettings.checkAlias seen rule = .ok after) :
    IsModelId rule.aliasId ∧ rule.HasIds := by
  rw [checkAlias] at accepted
  split at accepted
  · cases accepted
  · simp only [unit_bind_eq_ok, discard_eq_ok] at accepted
    obtain ⟨aliasId, target, providerId, _⟩ := accepted
    exact ⟨aliasId, target, providerId⟩

namespace RegistrySnapshot

theorem checkBlackout_ok {registry : RegistrySnapshot} {settings : LocalSettings}
    {providerId : ProviderId} (accepted : registry.checkBlackout settings providerId = .ok ())
    (forbidden : providerId ∉ settings.allowedBlackouts) {modelId : ModelId}
    (bound : modelId ∈ registry.providerModels settings providerId) :
    ∃ kept ∈ registry.providerModels settings providerId, settings.excludes providerId kept = false := by
  simp only [checkBlackout] at accepted
  split at accepted
  · rename_i allowed
    exact absurd (List.contains_iff_mem.mp allowed) forbidden
  · split at accepted
    · rename_i empty
      rw [List.isEmpty_iff.mp empty] at bound
      cases bound
    · split at accepted
      · cases accepted
      · rename_i kept
        simpa using kept

theorem locallyValid_of_compose {base registry : RegistrySnapshot} {settings : LocalSettings}
    (composed : base.composeWithSettings settings = .ok registry) :
    registry = base.composed settings ∧ base.LocallyValid settings := by
  rw [composeWithSettings, unit_bind_eq_ok] at composed
  obtain ⟨valid, composed⟩ := composed
  cases composed
  simp only [validateLocalComposition, unit_bind_eq_ok, forM_toList_eq_ok, discard_eq_ok] at valid
  obtain ⟨models, ⟨_, aliases⟩, targets, _, blackouts⟩ := valid
  refine ⟨rfl, ?_, ?_, ?_, ?_⟩
  · intro descriptor member
    exact LocalSettings.checkModel_eq_ok.mp (forM_eq_ok.mp models descriptor member)
  · intro rule member
    obtain ⟨_, _, accepted⟩ := step_ok_of_foldlM aliases rule member
    exact LocalSettings.checkAlias_ok accepted
  · intro aliasId rule listed
    have accepted := targets aliasId rule listed
    rw [checkCombinedAlias, bind_eq_ok] at accepted
    obtain ⟨last, walked, known⟩ := accepted
    split at known
    · cases known
    · rename_i present
      exact ⟨last, walked, by simpa using present⟩
  · intro providerId member forbidden modelId bound
    exact checkBlackout_ok (forM_eq_ok.mp blackouts providerId (Std.ExtTreeSet.mem_toList.mpr member)) forbidden bound

end RegistrySnapshot
end Mahoquot.Registry
