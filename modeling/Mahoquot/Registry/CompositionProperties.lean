import Mahoquot.Registry.AliasProperties

/-! When the composed snapshot passes validation again, and which providers it serves. -/

set_option autoImplicit false

namespace Mahoquot.Registry
open Library List

/-- The custom descriptor that a model id ends up with, if any. -/
def LocalSettings.customModel (settings : LocalSettings) (modelId : ModelId) : Option ModelDescriptor :=
  lastWith ModelDescriptor.id settings.customModels modelId

namespace RegistrySnapshot
variable {base registry : RegistrySnapshot} {settings : LocalSettings}

theorem getElem?_models_composed (base : RegistrySnapshot) (settings : LocalSettings) (modelId : ModelId) :
    (base.composed settings).models[modelId]? = (settings.customModel modelId).or base.models[modelId]? :=
  getElem?_insertAll ModelDescriptor.id base.models settings.customModels modelId

variable {modelId : ModelId} {providerId : ProviderId}

theorem getElem?_models_cases {descriptor : ModelDescriptor}
    (found : (base.composed settings).models[modelId]? = some descriptor) :
    settings.customModel modelId = some descriptor ∨ base.models[modelId]? = some descriptor := by
  rw [getElem?_models_composed, Option.or_eq_some_iff] at found
  exact found.imp id And.right

theorem getElem?_aliases_cases {aliasId : ModelId} {rule : ModelAliasRule}
    (found : (base.composed settings).aliases[aliasId]? = some rule) :
    (rule ∈ settings.aliases ∧ rule.aliasId = aliasId) ∨ base.aliases[aliasId]? = some rule := by
  have looked := getElem?_insertAll ModelAliasRule.aliasId base.aliases settings.aliases aliasId
  rw [composed, looked, Option.or_eq_some_iff] at found
  exact found.imp lastWith_some And.right

theorem mem_models_composed (known : modelId ∈ base.allModels settings) :
    modelId ∈ (base.composed settings).models := by
  rw [Std.ExtTreeMap.mem_iff_isSome_getElem?, getElem?_models_composed]
  simp only [allModels, Std.ExtTreeSet.mem_ofList, contains_iff_mem, mem_append, mem_map, Std.ExtTreeMap.mem_keys] at known
  rcases known with listed | ⟨descriptor, member, rfl⟩
  · simp [listed]
  · obtain ⟨last, found⟩ := exists_lastWith ModelDescriptor.id member
    simp [LocalSettings.customModel, found]

theorem models_composed_nonempty (filled : base.models.isEmpty = false) :
    (base.composed settings).models.isEmpty = false := by
  rw [Std.ExtTreeMap.isEmpty_eq_false_iff] at filled ⊢
  intro empty
  apply filled
  apply Std.ExtTreeMap.ext_getElem?
  intro modelId
  have absent := getElem?_models_composed base settings modelId
  rw [empty, Std.ExtTreeMap.getElem?_empty, eq_comm, Option.or_eq_none_iff] at absent
  simpa using absent.2

/-- Of all that the validation of snapshots asks for, the local checks leave
open only whether the providers of custom models are registered. -/
theorem valid_composed_iff (valid : base.Valid) (locallyValid : base.LocallyValid settings) :
    (base.composed settings).Valid ↔ ∀ modelId descriptor, settings.customModel modelId = some descriptor →
        descriptor.BindsWithin base.providers := by
  constructor
  · intro composedValid modelId descriptor custom
    refine composedValid.registered modelId descriptor ?_
    rw [getElem?_models_composed, custom, Option.some_or]
  · intro registered
    refine ⟨valid.providers, ?_, ?_, ?_, ?_, ?_⟩
    · intro modelId descriptor found
      rcases getElem?_models_cases found with custom | listed
      · obtain ⟨member, rfl⟩ := lastWith_some custom
        obtain ⟨isId, wellKeyed⟩ := locallyValid.models descriptor member
        exact ⟨isId, rfl, wellKeyed⟩
      · exact valid.models modelId descriptor listed
    · intro modelId descriptor found
      rcases getElem?_models_cases found with custom | listed
      · exact registered modelId descriptor custom
      · exact valid.registered modelId descriptor listed
    · intro aliasId rule found
      rcases getElem?_aliases_cases found with ⟨member, rfl⟩ | listed
      · exact locallyValid.aliases rule member
      · exact valid.aliases aliasId rule listed
    · intro aliasId rule found
      obtain ⟨last, walked, known⟩ := locallyValid.targets aliasId rule found
      have same : (base.withAliases settings).aliases = (base.composed settings).aliases := rfl
      exact ⟨last, walkAlias_congr same found walked, .inl (mem_models_composed known)⟩
    · exact valid.routable.imp models_composed_nonempty id

theorem compose_of_toBool (passed : (base.composeWithSettings settings).toBool = true) :
    base.composeWithSettings settings = .ok (base.composed settings) := by
  cases accepted : base.composeWithSettings settings with
  | error error => simp [accepted, Except.toBool] at passed
  | ok registry => rw [(locallyValid_of_compose accepted).1]

theorem composed_validates_iff (valid : base.validate = .ok ())
    (accepted : base.composeWithSettings settings = .ok registry) : registry.validate = .ok () ↔
      ∀ modelId descriptor, settings.customModel modelId = some descriptor →
        ∀ providerId ∈ descriptor.bindings, providerId ∈ base.providers := by
  obtain ⟨rfl, locallyValid⟩ := locallyValid_of_compose accepted
  rw [validate_eq_ok]
  exact valid_composed_iff (validate_eq_ok.mp valid) locallyValid

def boundModel (id : ModelId) (providerId : ProviderId) : ModelDescriptor :=
  { ModelDescriptor.new id providerId with
    bindings := (∅ : Std.ExtTreeMap ProviderId ProviderBinding).insert providerId
      (.new providerId .closed .embeddedFallback) }

def codexCatalog (models : List ModelDescriptor) (exclusions : List ModelExclusionRule) : RegistrySnapshot :=
  ⟨.embeddedFallback, insertAll ModelDescriptor.id ∅ models,
    (∅ : Std.ExtTreeMap ProviderId ProviderPolicy).insert .codex .closed, ∅, exclusions⟩

def addingModel (model : ModelDescriptor) : LocalSettings := ⟨[], [], [model], []⟩

theorem composed_validates_for_codex : (codexCatalog [boundModel "alpha" .codex] []).validate = .ok () ∧
      ((codexCatalog [boundModel "alpha" .codex] []).composed
        (addingModel (boundModel "beta" .codex))).validate = .ok () := by
  have valid : (codexCatalog [boundModel "alpha" .codex] []).validate = .ok () := by
    decide +kernel
  refine ⟨valid, (composed_validates_iff valid (compose_of_toBool (by decide +kernel))).mpr ?_⟩
  intro modelId descriptor custom
  obtain ⟨member, _⟩ := lastWith_some custom
  cases mem_singleton.mp member
  intro providerId bound
  have only : .codex = providerId := by simpa [boundModel] using bound
  rw [← only]
  decide +kernel

/-- The provider of a custom model need not be registered. -/
theorem composed_rejected : (codexCatalog [boundModel "alpha" .codex] []).validate = .ok () ∧
      (codexCatalog [boundModel "alpha" .codex] []).composeWithSettings (addingModel (boundModel "beta" .claude)) =
        .ok ((codexCatalog [boundModel "alpha" .codex] []).composed (addingModel (boundModel "beta" .claude))) ∧
      ((codexCatalog [boundModel "alpha" .codex] []).composed (addingModel (boundModel "beta" .claude))).validate =
          .error (.unknownProvider .claude) := by
  refine ⟨by decide +kernel, compose_of_toBool (by decide +kernel), by decide +kernel⟩

/-- The model is bound to the provider and excluded neither globally nor for it. -/
def Routable (registry : RegistrySnapshot) (providerId : ProviderId) (modelId : ModelId) : Prop :=
  (∃ descriptor, registry.models[modelId]? = some descriptor ∧ providerId ∈ descriptor.bindings) ∧
  registry.excludes modelId none = false ∧ registry.excludes modelId (some providerId) = false

/-- A model that the blackout check counts for the provider and finds not
excluded by the settings. -/
def Counted (base : RegistrySnapshot) (settings : LocalSettings) (providerId : ProviderId) (modelId : ModelId) : Prop :=
  modelId ∈ base.providerModels settings providerId ∧
    settings.excludes providerId modelId = false

/-- The check looks neither at what the base excludes nor at what a custom
model replaces. -/
def Overlooked (base : RegistrySnapshot) (settings : LocalSettings) (providerId : ProviderId)
    (modelId : ModelId) : Prop :=
  base.excludes modelId none = true ∨ base.excludes modelId (some providerId) = true ∨
    ∃ descriptor, settings.customModel modelId = some descriptor ∧
      providerId ∉ descriptor.bindings

theorem mem_providerModels : modelId ∈ base.providerModels settings providerId ↔
      ∃ descriptor : ModelDescriptor, (descriptor ∈ base.models.values ∨ descriptor ∈ settings.customModels) ∧
        providerId ∈ descriptor.bindings ∧ descriptor.id = modelId := by
  simp only [providerModels, mem_map, mem_filter, mem_append, Std.ExtTreeMap.contains_iff_mem, and_assoc]

theorem settings_excludes_eq_false : settings.excludes providerId modelId = false ↔
      settings.exclusions.contains ⟨modelId, none⟩ = false ∧
        settings.exclusions.contains ⟨modelId, some providerId⟩ = false := by
  have named (wanted : Option ProviderId) :
      (settings.exclusions.any fun rule => rule.providerId == wanted && rule.modelId == modelId) =
        settings.exclusions.contains ⟨modelId, wanted⟩ := by
    rw [contains_eq_any_beq]
    congr 1
    funext rule
    rw [Bool.eq_iff_iff, Bool.and_eq_true, beq_iff_eq, beq_iff_eq, beq_iff_eq]
    constructor
    · rintro ⟨rfl, rfl⟩
      rfl
    · rintro rfl
      exact ⟨rfl, rfl⟩
  have global : (settings.exclusions.any fun rule =>
      rule.providerId.isNone && rule.modelId == modelId) =
        settings.exclusions.contains ⟨modelId, none⟩ := by
    rw [← named]
    congr 1
    funext rule
    cases rule.providerId <;> rfl
  rw [LocalSettings.excludes, global, named, Bool.or_eq_false_iff]

theorem excludes_composed {providerId : Option ProviderId} :
    (base.composed settings).excludes modelId providerId = false ↔ base.excludes modelId providerId = false ∧
        settings.exclusions.contains ⟨modelId, providerId⟩ = false := by
  simp only [excludes, composed, contains_append, Bool.or_eq_false_iff]

theorem bound_composed_iff (valid : base.Valid) :
    (∃ descriptor, (base.composed settings).models[modelId]? = some descriptor ∧
      providerId ∈ descriptor.bindings) ↔ modelId ∈ base.providerModels settings providerId ∧
      ¬ ∃ descriptor, settings.customModel modelId = some descriptor ∧ providerId ∉ descriptor.bindings := by
  simp only [getElem?_models_composed, mem_providerModels, mem_values]
  cases custom : settings.customModel modelId with
  | some descriptor =>
    obtain ⟨member, keyed⟩ := lastWith_some custom
    constructor
    · rintro ⟨_, ⟨⟩, bound⟩
      refine ⟨⟨descriptor, .inr member, bound, keyed⟩, ?_⟩
      rintro ⟨_, ⟨⟩, unbound⟩
      exact unbound bound
    · rintro ⟨_, kept⟩
      refine ⟨descriptor, rfl, ?_⟩
      by_contra unbound
      exact kept ⟨descriptor, rfl, unbound⟩
  | none =>
    constructor
    · rintro ⟨descriptor, listed, bound⟩
      refine ⟨⟨descriptor, .inl ⟨modelId, listed⟩, bound, ?_⟩, ?_⟩
      · exact (valid.models modelId descriptor listed).2.1.symm
      · rintro ⟨_, ⟨⟩, _⟩
    · rintro ⟨⟨descriptor, ⟨key, listed⟩ | member, bound, rfl⟩, _⟩
      · refine ⟨descriptor, ?_, bound⟩
        rw [← (valid.models key descriptor listed).2.1]
        exact listed
      · obtain ⟨last, found⟩ := exists_lastWith ModelDescriptor.id member
        rw [LocalSettings.customModel, found] at custom
        cases custom

theorem routable_composed_iff (valid : base.Valid) : (base.composed settings).Routable providerId modelId ↔
      base.Counted settings providerId modelId ∧ ¬ base.Overlooked settings providerId modelId := by
  simp only [Routable, Counted, Overlooked, bound_composed_iff valid, excludes_composed,
    settings_excludes_eq_false, not_or, Bool.not_eq_true]
  constructor
  · rintro ⟨⟨counted, kept⟩, ⟨baseGlobal, global⟩, baseLocal, excluded⟩
    exact ⟨⟨counted, global, excluded⟩, baseGlobal, baseLocal, kept⟩
  · rintro ⟨⟨counted, global, excluded⟩, baseGlobal, baseLocal, kept⟩
    exact ⟨⟨counted, kept⟩, ⟨baseGlobal, global⟩, baseLocal, excluded⟩

/-- The provider has a model, in the base or among the custom models, that the
base does not exclude. -/
def Served (base : RegistrySnapshot) (settings : LocalSettings) (providerId : ProviderId) : Prop :=
  (∃ modelId, base.Routable providerId modelId) ∨
    ∃ descriptor ∈ settings.customModels, providerId ∈ descriptor.bindings ∧
      base.excludes descriptor.id none = false ∧
      base.excludes descriptor.id (some providerId) = false

theorem Served.bound (valid : base.Valid) (served : base.Served settings providerId) :
    providerId ∈ base.allProviders settings ∧ ∃ modelId, modelId ∈ base.providerModels settings providerId := by
  simp only [allProviders, Std.ExtTreeSet.mem_ofList, contains_iff_mem, mem_append,
    mem_flatMap, Std.ExtTreeMap.mem_keys, mem_providerModels, mem_values]
  rcases served with ⟨modelId, ⟨descriptor, listed, bound⟩, _⟩ | ⟨descriptor, member, bound, _⟩
  · exact ⟨.inl (valid.registered modelId descriptor listed providerId bound),
      descriptor.id, descriptor, .inl ⟨modelId, listed⟩, bound, rfl⟩
  · exact ⟨.inr ⟨descriptor, member, bound⟩, descriptor.id, descriptor, .inr member, bound, rfl⟩

theorem provider_routable_iff (valid : base.validate = .ok ())
    (accepted : base.composeWithSettings settings = .ok registry) {providerId : ProviderId}
    (forbidden : providerId ∉ settings.allowedBlackouts) (served : base.Served settings providerId) :
    (∃ modelId, base.Counted settings providerId modelId) ∧ ((∃ modelId, registry.Routable providerId modelId) ↔
        ∃ modelId, base.Counted settings providerId modelId ∧ ¬ base.Overlooked settings providerId modelId) := by
  obtain ⟨rfl, locallyValid⟩ := locallyValid_of_compose accepted
  have baseValid := validate_eq_ok.mp valid
  obtain ⟨known, modelId, bound⟩ := served.bound baseValid
  obtain ⟨kept, counted, unexcluded⟩ := locallyValid.routable providerId known forbidden modelId bound
  exact ⟨⟨kept, counted, unexcluded⟩, exists_congr fun modelId => routable_composed_iff baseValid⟩

def twoModels (exclusions : List ModelExclusionRule) : RegistrySnapshot :=
  codexCatalog [boundModel "alpha" .codex, boundModel "beta" .codex] exclusions

def hidingAlpha : LocalSettings := ⟨[], [⟨"alpha", none⟩], [], []⟩

theorem codex_routable_with_beta : (∃ modelId, (twoModels []).Counted hidingAlpha .codex modelId) ∧
      ∃ modelId, ((twoModels []).composed hidingAlpha).Routable .codex modelId := by
  have served : (twoModels []).Served hidingAlpha .codex :=
    .inl ⟨"alpha", ⟨_, Std.ExtTreeMap.getElem?_eq_some_getElem (by decide +kernel),
      by decide +kernel⟩, by decide +kernel, by decide +kernel⟩
  obtain ⟨counted, routable⟩ := provider_routable_iff (by decide +kernel)
    (compose_of_toBool (by decide +kernel)) (by decide +kernel) served
  refine ⟨counted, routable.mpr ⟨"beta", ⟨by decide +kernel, by decide +kernel⟩, ?_⟩⟩
  rintro (excluded | excluded | ⟨descriptor, custom, _⟩)
  · exact absurd excluded (by decide +kernel)
  · exact absurd excluded (by decide +kernel)
  · obtain ⟨member, _⟩ := lastWith_some custom
    cases member

/-- The only model left is one that the base excludes. -/
theorem codex_blacked_out_by_base : (twoModels [⟨"beta", none⟩]).validate = .ok () ∧
      (twoModels [⟨"beta", none⟩]).composeWithSettings hidingAlpha =
        .ok ((twoModels [⟨"beta", none⟩]).composed hidingAlpha) ∧ .codex ∉ hidingAlpha.allowedBlackouts ∧
      (twoModels [⟨"beta", none⟩]).Routable .codex "alpha" ∧
      ∀ modelId, ¬ ((twoModels [⟨"beta", none⟩]).composed hidingAlpha).Routable .codex modelId := by
  have valid : (twoModels [⟨"beta", none⟩]).validate = .ok () := by decide +kernel
  refine ⟨valid, compose_of_toBool (by decide +kernel), by decide +kernel,
    ⟨⟨_, Std.ExtTreeMap.getElem?_eq_some_getElem (by decide +kernel), by decide +kernel⟩,
      by decide +kernel, by decide +kernel⟩, ?_⟩
  intro modelId routable
  obtain ⟨⟨counted, kept⟩, seen⟩ := (routable_composed_iff (validate_eq_ok.mp valid)).mp routable
  have two : (twoModels [⟨"beta", none⟩]).providerModels hidingAlpha .codex = ["alpha", "beta"] := by decide +kernel
  simp only [two, mem_cons, not_mem_nil, or_false] at counted
  rcases counted with rfl | rfl
  · exact absurd kept (by decide +kernel)
  · exact seen (.inl (by decide +kernel))

end RegistrySnapshot
end Mahoquot.Registry
