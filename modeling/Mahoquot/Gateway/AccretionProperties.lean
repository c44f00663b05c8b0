import Mahoquot.Gateway.Composition
import Mahoquot.Library.Accretion

/-! Composition only adds to the registry it starts from, so a registry between the
catalog and what is composed over it gives the same composition. -/

set_option autoImplicit false

namespace Mahoquot.Registry
open Library

/-- The same model with at least the bindings. -/
structure ModelDescriptor.Below (first second : ModelDescriptor) : Prop where
  id : first.id = second.id
  ownedBy : first.ownedBy = second.ownedBy
  displayName : first.displayName = second.displayName
  capabilities : first.capabilities = second.capabilities
  bindings : SubTable first.bindings second.bindings

namespace ModelDescriptor.Below

theorem refl (descriptor : ModelDescriptor) : descriptor.Below descriptor :=
  ⟨rfl, rfl, rfl, rfl, SubTable.refl _⟩

theorem trans {first second third : ModelDescriptor} (below : first.Below second)
    (above : second.Below third) : first.Below third :=
  ⟨below.id.trans above.id, below.ownedBy.trans above.ownedBy,
    below.displayName.trans above.displayName, below.capabilities.trans above.capabilities,
    below.bindings.trans above.bindings⟩

theorem antisymm {first second : ModelDescriptor} (below : first.Below second)
    (above : second.Below first) : first = second := by
  have bindings := below.bindings.antisymm above.bindings
  obtain ⟨id, ownedBy, displayName, capabilities, _⟩ := below
  cases first
  simp_all

end ModelDescriptor.Below

/-- Every entry of the one stands in the other. -/
structure RegistrySnapshot.Below (first second : RegistrySnapshot) : Prop where
  source : first.source = second.source
  exclusions : first.exclusions = second.exclusions
  providers : SubTable first.providers second.providers
  models : Within ModelDescriptor.Below first.models second.models
  aliases : SubTable first.aliases second.aliases

instance : PartialOrder RegistrySnapshot where
  le := RegistrySnapshot.Below
  le_refl registry := ⟨rfl, rfl, SubTable.refl _, Within.refl ModelDescriptor.Below.refl _, SubTable.refl _⟩
  le_trans _ _ _ below above := ⟨below.source.trans above.source,
    below.exclusions.trans above.exclusions, below.providers.trans above.providers,
    Within.trans ModelDescriptor.Below (fun _ _ _ => .trans) below.models above.models,
    below.aliases.trans above.aliases⟩
  le_antisymm first second below above := by
    have providers := below.providers.antisymm above.providers
    have models := Within.antisymm ModelDescriptor.Below (fun _ _ => ModelDescriptor.Below.antisymm) below.models above.models
    have aliases := below.aliases.antisymm above.aliases
    obtain ⟨source, exclusions, _, _, _⟩ := below
    cases first
    cases second
    simp_all

end Mahoquot.Registry

namespace Mahoquot.Gateway
open Library Registry

/-- A step that grows a registry and keeps its aliases. -/
abbrev Contributes (step : RegistrySnapshot → Except RegistryError RegistrySnapshot) : Prop :=
  Accretes RegistrySnapshot.aliases step

variable (providerId : ProviderId)

theorem withProvider_accretes (policy : ProviderPolicy) : Contributes fun registry =>
      (.ok (withProvider registry providerId policy) : Except RegistryError RegistrySnapshot) := by
  apply Accretes.of_total
  · intro registry
    exact ⟨⟨rfl, rfl, subTable_insertIfNew _ _ _, (le_refl registry).models, SubTable.refl _⟩, rfl⟩
  · intro start between top below above within
    obtain ⟨lower, upper⟩ := insertIfNew_absorbs below.providers above.providers within.providers
    exact ⟨⟨below.source, below.exclusions, lower, below.models, below.aliases⟩,
      ⟨above.source, above.exclusions, upper, above.models, above.aliases⟩⟩

section Contribution
variable {fresh : ModelDescriptor} {binding : ProviderBinding}

def bound (descriptor : ModelDescriptor) (binding : ProviderBinding) : ModelDescriptor :=
  { descriptor with
    bindings := descriptor.bindings.insertIfNew binding.providerId binding }

theorem getElem?_withContribution (registry : RegistrySnapshot) (modelId : ModelId) :
    (withContribution registry fresh binding).models[modelId]? =
      if fresh.id = modelId then some (bound (registry.models[fresh.id]?.getD fresh) binding)
      else registry.models[modelId]? := by
  unfold withContribution bound
  rw [Std.ExtTreeMap.getElem?_insert]
  by_cases same : fresh.id = modelId
  · simp [same]
  · simp [same]

theorem below_bound (descriptor : ModelDescriptor) : descriptor.Below (bound descriptor binding) :=
  ⟨rfl, rfl, rfl, rfl, subTable_insertIfNew _ _ _⟩

theorem bound_absorbs {start between top : ModelDescriptor} (below : start.Below between)
    (above : between.Below top) (within : (bound start binding).Below top) :
    (bound start binding).Below (bound between binding) ∧ (bound between binding).Below top := by
  obtain ⟨lower, upper⟩ := insertIfNew_absorbs below.bindings above.bindings within.bindings
  exact ⟨⟨below.id, below.ownedBy, below.displayName, below.capabilities, lower⟩,
    ⟨above.id, above.ownedBy, above.displayName, above.capabilities, upper⟩⟩

theorem below_of_fresh {top : ModelDescriptor} (unbound : fresh.bindings = ∅) {between : ModelDescriptor}
    (above : between.Below top) (within : (bound fresh binding).Below top) : fresh.Below between := by
  refine ⟨within.id.trans above.id.symm, within.ownedBy.trans above.ownedBy.symm,
    within.displayName.trans above.displayName.symm,
    within.capabilities.trans above.capabilities.symm, ?_⟩
  rw [unbound]
  intro providerId binding found
  simp at found

theorem withContribution_accretes (unbound : fresh.bindings = ∅) : Contributes fun registry =>
      (.ok (withContribution registry fresh binding) : Except RegistryError RegistrySnapshot) := by
  apply Accretes.of_total
  · intro registry
    refine ⟨⟨rfl, rfl, SubTable.refl _, ?_, SubTable.refl _⟩, rfl⟩
    intro modelId descriptor found
    rw [getElem?_withContribution]
    by_cases same : fresh.id = modelId
    · rw [if_pos same, same, found]
      exact ⟨_, rfl, below_bound descriptor⟩
    · rw [if_neg same]
      exact ⟨descriptor, found, .refl descriptor⟩
  · intro start between top below above within
    -- At the model of the contribution the bindings absorb; elsewhere nothing changes.
    obtain ⟨final, foundFinal, finalWithin⟩ := within.models fresh.id
      (bound (start.models[fresh.id]?.getD fresh) binding)
      (by rw [getElem?_withContribution, if_pos rfl])
    have here : (bound (start.models[fresh.id]?.getD fresh) binding).Below
          (bound (between.models[fresh.id]?.getD fresh) binding) ∧
        (bound (between.models[fresh.id]?.getD fresh) binding).Below final := by
      cases held : between.models[fresh.id]? with
      | none =>
        cases heldStart : start.models[fresh.id]? with
        | none =>
          rw [heldStart] at finalWithin
          exact ⟨.refl _, finalWithin⟩
        | some descriptor =>
          obtain ⟨_, found, _⟩ := below.models _ _ heldStart
          rw [held] at found
          cases found
      | some descriptor =>
        obtain ⟨_, found, upper⟩ := above.models _ _ held
        cases foundFinal.symm.trans found
        cases heldStart : start.models[fresh.id]? with
        | none =>
          rw [heldStart] at finalWithin
          exact bound_absorbs (below_of_fresh unbound upper finalWithin) upper finalWithin
        | some earlier =>
          rw [heldStart] at finalWithin
          obtain ⟨_, found, lower⟩ := below.models _ _ heldStart
          cases held.symm.trans found
          exact bound_absorbs lower upper finalWithin
    refine ⟨⟨below.source, below.exclusions, below.providers, ?_, below.aliases⟩,
      ⟨above.source, above.exclusions, above.providers, ?_, above.aliases⟩⟩
    · intro modelId descriptor found
      rw [getElem?_withContribution] at found ⊢
      by_cases same : fresh.id = modelId
      · rw [if_pos same] at found ⊢
        cases found
        exact ⟨_, rfl, here.1⟩
      · rw [if_neg same] at found ⊢
        exact below.models modelId descriptor found
    · intro modelId descriptor found
      rw [getElem?_withContribution] at found
      by_cases same : fresh.id = modelId
      · rw [if_pos same] at found
        cases found
        exact ⟨final, same ▸ foundFinal, here.2⟩
      · rw [if_neg same] at found
        exact above.models modelId descriptor found

end Contribution

theorem named_contribution_accretes (raw : String) (descriptor : ModelId → ModelDescriptor)
    (unbound : ∀ modelId, (descriptor modelId).bindings = ∅) (binding : ProviderBinding) :
    Contributes (fun registry => do
      let modelId ← ModelId.new raw
      .ok (withContribution registry (descriptor modelId) binding)) := by
  cases ModelId.new raw with
  | error error => exact .never error
  | ok modelId => exact withContribution_accretes (unbound modelId)

/-- What a generic account declares, one model at a time. -/
def declareModel (registry : RegistrySnapshot) (model : String) : Except RegistryError RegistrySnapshot := do
  let modelId ← ModelId.new model
  .ok (withContribution registry (.new modelId providerId) (.new providerId .discovered .discovered))

theorem declareModel_accretes (model : String) : Contributes fun registry => declareModel providerId registry model :=
  named_contribution_accretes model (fun modelId => .new modelId providerId) (fun _ => rfl) _

variable {last registry : RegistrySnapshot} {members : List AccountMember}
  {modelsEnv : Option String}

variable {start : RegistrySnapshot}

theorem declareModel_keeps {providerId : ProviderId} {model : String}
    (declared : declareModel providerId start model = .ok last) : last.providers = start.providers := by
  obtain ⟨modelId, _, contributed⟩ := bind_eq_ok.mp declared
  cases contributed
  rfl

theorem declared_accretes (models : List String) : Contributes fun registry =>
      if registry.providers[providerId]? = some .closed then .ok registry
      else models.foldlM (declareModel providerId) (withProvider registry providerId .discovered) := by
  apply Accretes.skipWhere fun registry : RegistrySnapshot => registry.providers[providerId]? = some .closed
  · exact (Accretes.foldlM (declareModel_accretes providerId) models).after (withProvider_accretes providerId .discovered)
  · intro lower upper below closed
    exact below.providers.get closed
  · intro start last top unclosed stepped within closed
    -- The provider is registered as discovered unless it was known before.
    have registered : last.providers[providerId]? =
        (start.providers[providerId]?).or (some .discovered) := by
      rw [foldlM_keeps RegistrySnapshot.providers declareModel_keeps stepped, withProvider, getElem?_insertIfNew_eq, if_pos rfl]
    cases known : start.providers[providerId]? with
    | none =>
      rw [known] at registered
      rw [within.providers.get registered] at closed
      cases closed
    | some policy =>
      rw [known] at registered
      rw [within.providers.get registered] at closed
      exact unclosed (known.trans closed)

variable (member : AccountMember)

theorem contributeGeneric_accretes : Contributes fun registry => contributeGeneric registry member := by
  unfold contributeGeneric
  cases member.genericModels with
  | none => exact .pure
  | some declared =>
    obtain ⟨providerName, models⟩ := declared
    cases models with
    | nil => exact .pure
    | cons model models =>
      dsimp only
      cases ProviderId.canonical providerName with
      | error error => exact .never error
      | ok providerId => exact declared_accretes providerId (model :: models)

theorem contributeDevin_accretes : Contributes fun registry => contributeDevin registry member := by
  unfold contributeDevin
  split
  · cases member.devinDiscoveredModels with
    | none => exact .pure
    | some models =>
      cases models with
      | nil => exact .pure
      | cons model models =>
        refine (Accretes.foldlM ?_ _).after (withProvider_accretes .devin .discovered)
        intro model
        exact named_contribution_accretes model.publicId
          (fun modelId => { ModelDescriptor.new modelId "devin" with
            capabilities := [.chat, .tools] }) (fun _ => rfl) _
  · exact .pure

theorem contributeAntigravity_accretes : Contributes fun registry =>
      (.ok (contributeAntigravity registry member) : Except RegistryError RegistrySnapshot) := by
  unfold contributeAntigravity
  split
  · cases member.antigravityDiscoveredModels with
    | none => exact .pure
    | some models =>
      simp only
      split
      · exact .pure
      · refine (Accretes.foldl ?_ _).after (withProvider_accretes .antigravity .discovered)
        intro entry
        split
        · exact .pure
        · cases ModelId.new entry.1 with
          | error error => exact .pure
          | ok modelId => exact withContribution_accretes rfl
  · exact .pure

theorem contributeEnv_accretes (members : List AccountMember) (modelsEnv : Option String) :
    Contributes fun registry => contributeEnv members modelsEnv registry := by
  unfold contributeEnv
  cases modelsEnv with
  | none => exact .pure
  | some raw =>
    simp only
    split
    · apply Accretes.foldlM
      intro id
      exact named_contribution_accretes id (fun modelId => .new modelId "openai") (fun _ => rfl) _
    · exact .pure

def contributed (members : List AccountMember) (modelsEnv : Option String)
    (registry : RegistrySnapshot) : Except RegistryError RegistrySnapshot := do
  let withGeneric ← members.foldlM contributeGeneric registry
  let withDevin ← members.foldlM contributeDevin withGeneric
  contributeEnv members modelsEnv (members.foldl contributeAntigravity withDevin)

theorem contributed_accretes (members : List AccountMember) (modelsEnv : Option String) :
    Contributes (contributed members modelsEnv) := by
  refine (Accretes.foldlM contributeGeneric_accretes members).bind ?_
  refine (Accretes.foldlM contributeDevin_accretes members).bind ?_
  exact (contributeEnv_accretes members modelsEnv).after (Accretes.foldl contributeAntigravity_accretes members)

/-! ## Prefixed aliases -/

/-- `addPrefixedAlias` with the models held apart, which it never changes. -/
def aliasStep (models : Std.ExtTreeMap ModelId ModelDescriptor) (registry : RegistrySnapshot)
    (pair : String × String × String) : RegistrySnapshot :=
  match ModelId.new pair.1, ModelId.new pair.2.1 with
  | .ok aliasId, .ok target =>
    if models.contains aliasId then registry
    else { registry with
      aliases := registry.aliases.insertIfNew aliasId ⟨aliasId, target, none⟩ }
  | _, _ => registry

theorem addPrefixedAlias_eq (registry : RegistrySnapshot) (pair : String × String × String) :
    addPrefixedAlias registry pair = aliasStep registry.models registry pair := by
  unfold addPrefixedAlias aliasStep
  cases ModelId.new pair.1 with
  | error error => rfl
  | ok aliasId =>
    cases ModelId.new pair.2.1 with
    | error error => rfl
    | ok target =>
      simp only
      by_cases taken : registry.models.contains aliasId
      · simp [taken]
      · by_cases known : aliasId ∈ registry.aliases
        · rw [insertIfNew_of_mem _ known]
          simp [known]
        · rw [insertIfNew_of_notMem _ known]
          simp [known]

/-- Everything but the aliases, which are all that a prefix changes. -/
def unaliased (registry : RegistrySnapshot) : RegistrySnapshot :=
  { registry with aliases := ∅ }

theorem aliasStep_accretes (models : Std.ExtTreeMap ModelId ModelDescriptor) (pair : String × String × String) :
    Accretes unaliased fun registry =>
      (.ok (aliasStep models registry pair) : Except RegistryError RegistrySnapshot) := by
  unfold aliasStep
  cases ModelId.new pair.1 with
  | error error => exact .pure
  | ok aliasId =>
    cases ModelId.new pair.2.1 with
    | error error => exact .pure
    | ok target =>
      simp only
      split
      · exact .pure
      · apply Accretes.of_total
        · intro registry
          exact ⟨⟨rfl, rfl, SubTable.refl _, (le_refl registry).models, subTable_insertIfNew _ _ _⟩, rfl⟩
        · intro start between top below above within
          obtain ⟨lower, upper⟩ := insertIfNew_absorbs below.aliases above.aliases within.aliases
          exact ⟨⟨below.source, below.exclusions, below.providers, below.models, lower⟩,
            ⟨above.source, above.exclusions, above.providers, above.models, upper⟩⟩

theorem foldl_addPrefixedAlias (pairs : List (String × String × String)) (registry : RegistrySnapshot) :
    pairs.foldl addPrefixedAlias registry = pairs.foldl (aliasStep registry.models) registry := by
  induction pairs generalizing registry with
  | nil => rfl
  | cons pair pairs ih =>
    have kept := ((aliasStep_accretes registry.models pair).total registry).2
    simp only [unaliased, RegistrySnapshot.mk.injEq] at kept
    rw [List.foldl_cons, List.foldl_cons, ih, addPrefixedAlias_eq, kept.2.1]

/-- An alias that the prefixes add is not the id of a model. -/
theorem new_alias_not_model {models : Std.ExtTreeMap ModelId ModelDescriptor}
    {pairs : List (String × String × String)} {aliasId : ModelId}
    (added : aliasId ∈ (pairs.foldl (aliasStep models) registry).aliases)
    (fresh : aliasId ∉ registry.aliases) : aliasId ∉ models := by
  induction pairs generalizing registry with
  | nil => exact absurd added fresh
  | cons pair pairs ih =>
    by_cases kept : aliasId ∈ (aliasStep models registry pair).aliases
    · unfold aliasStep at kept
      split at kept
      · next id target _ _ =>
        split at kept
        · exact absurd kept fresh
        · next free =>
          rcases Std.ExtTreeMap.mem_insertIfNew.mp kept with same | old
          · have same : id = aliasId := by simpa using same
            rw [← same]
            exact free
          · exact absurd old fresh
      · exact absurd kept fresh
    · exact ih added kept

theorem followAlias_congr {aliases : Std.ExtTreeMap ModelId ModelAliasRule} {Shared : ModelId → Prop}
    (agree : ∀ id, Shared id → aliases[id]? = registry.aliases[id]?)
    (closed : ∀ (id : ModelId) (rule : ModelAliasRule), registry.aliases[id]? = some rule → Shared rule.target)
    (requested : ModelId) : ∀ (fuel : Nat) (current : ModelId) (visited : List ModelId), Shared current →
      ({ registry with aliases } : RegistrySnapshot).followAlias requested fuel current visited =
        registry.followAlias requested fuel current visited := by
  intro fuel
  induction fuel with
  | zero =>
    intro current visited shared
    unfold RegistrySnapshot.followAlias
    simp only [agree current shared]
  | succ fuel ih =>
    intro current visited shared
    unfold RegistrySnapshot.followAlias
    simp only [agree current shared]
    cases found : registry.aliases[current]? with
    | none => rfl
    | some rule =>
      simp only
      split
      · rfl
      · exact ih rule.target _ (closed current rule found)

theorem resolve_congr {aliases : Std.ExtTreeMap ModelId ModelAliasRule} {requested : ModelId}
    (walks : ({ registry with aliases } : RegistrySnapshot).resolveAlias requested =
      registry.resolveAlias requested) : ({ registry with aliases } : RegistrySnapshot).resolve requested =
      registry.resolve requested := by
  unfold RegistrySnapshot.resolve
  cases named : ModelId.new requested with
  | error error => rfl
  | ok id =>
    cases checkId_ok named
    simp only [bind, Except.bind, walks]
    rfl

/-! ## The whole composition -/

def publishedOver (members : List AccountMember) (effective : RegistrySnapshot) : RegistrySnapshot :=
  (prefixedModelAliases (projectModelEntries effective members) members effective).foldl
    addPrefixedAlias effective

theorem candidate_published {isAntigravityModel : String → Bool} {pool : PoolSnapshot}
    (composed : computeCandidateComposition members registry modelsEnv isAntigravityModel = .ok pool) :
    ∃ effective, contributed members modelsEnv (dropDiscoveredAntigravity registry) = .ok effective ∧
      pool = .new members (expandPrefixedModels (projectModelEntries (publishedOver members effective) members)
          members (publishedOver members effective)) (publishedOver members effective) isAntigravityModel := by
  obtain ⟨accounts, contributions, composed⟩ := bind_eq_ok.mp composed
  obtain ⟨effective, environment, composed⟩ := bind_eq_ok.mp composed
  obtain ⟨-, composed⟩ := unit_bind_eq_ok.mp composed
  cases composed
  obtain ⟨withGeneric, generic, contributions⟩ := bind_eq_ok.mp contributions
  obtain ⟨withDevin, devin, contributions⟩ := bind_eq_ok.mp contributions
  obtain ⟨-, contributions⟩ := unit_bind_eq_ok.mp contributions
  cases contributions
  refine ⟨effective, ?_, rfl⟩
  exact bind_eq_ok.mpr ⟨withGeneric, generic, bind_eq_ok.mpr ⟨withDevin, devin, environment⟩⟩

section Between
variable {members : List AccountMember} {modelsEnv : Option String}
  {isAntigravityModel : String → Bool} {catalog base : RegistrySnapshot} {fresh pool : PoolSnapshot}

variable (effective : RegistrySnapshot)

theorem publishedOver_eq_foldl : publishedOver members effective =
      (prefixedModelAliases (projectModelEntries effective members) members effective).foldl
        (aliasStep effective.models) effective :=
  foldl_addPrefixedAlias _ _

theorem le_publishedOver : effective ≤ publishedOver members effective := by
  rw [publishedOver_eq_foldl]
  exact ((Accretes.foldl (aliasStep_accretes effective.models) _).total effective).1

theorem publishedOver_eq : publishedOver members effective =
      { effective with aliases := (publishedOver members effective).aliases } := by
  have kept : unaliased (publishedOver members effective) = unaliased effective := by
    rw [publishedOver_eq_foldl]
    exact ((Accretes.foldl (aliasStep_accretes effective.models) _).total effective).2
  exact congrArg (fun registry : RegistrySnapshot =>
    { registry with aliases := (publishedOver members effective).aliases }) kept

/-- A registry between the contributions and what is published over them
differs from the contributions by its aliases alone. -/
theorem eq_withAliases {effective between : RegistrySnapshot} (below : effective ≤ between)
    (above : between ≤ publishedOver members effective) : between = { effective with aliases := between.aliases } := by
  rw [publishedOver_eq] at above
  have models : between.models = effective.models :=
    Within.antisymm ModelDescriptor.Below (fun _ _ => ModelDescriptor.Below.antisymm)
      above.models below.models
  have providers : between.providers = effective.providers := SubTable.antisymm above.providers below.providers
  have source := below.source
  have exclusions := below.exclusions
  cases between
  simp_all

section
variable {effective : RegistrySnapshot} {aliases : Std.ExtTreeMap ModelId ModelAliasRule}
  (lower : SubTable effective.aliases aliases) (upper : SubTable aliases (publishedOver members effective).aliases)
  (unchained : ∀ (id : ModelId) (rule : ModelAliasRule), effective.aliases[id]? = some rule →
    rule.target ∈ aliases → rule.target ∈ effective.aliases)
include lower upper unchained

/-- The aliases that `between` has on top do not matter to the names of models,
so the same models are projected and the same prefixes are added. -/
theorem projectModelEntries_withAliases :
    projectModelEntries { effective with aliases } members = projectModelEntries effective members := by
  have agree (id : ModelId) (shared : id ∈ aliases → id ∈ effective.aliases) :
      aliases[id]? = effective.aliases[id]? := by
    cases found : aliases[id]? with
    | none =>
      cases older : effective.aliases[id]? with
      | none => rfl
      | some rule => rw [← found, lower.get older]
    | some rule =>
      have known := shared (mem_of_getElem? found)
      rw [Std.ExtTreeMap.mem_iff_isSome_getElem?, Option.isSome_iff_exists] at known
      obtain ⟨older, known⟩ := known
      rw [← found, lower.get known, known]
  unfold projectModelEntries
  simp only
  split
  · rfl
  · apply List.filterMap_congr
    intro entry member
    have listed : entry.1 ∈ effective.models := mem_of_getElem? (Std.ExtTreeMap.mem_toList_iff_getElem?_eq_some.mp member)
    rw [resolve_congr]
    refine followAlias_congr agree (fun id rule found => unchained id rule found) _ _ _ _ ?_
    intro extra
    by_contra fresh
    rw [publishedOver_eq_foldl] at upper
    have added := mem_of_getElem? (upper.get (Std.ExtTreeMap.getElem?_eq_some_getElem extra))
    exact new_alias_not_model added fresh listed

theorem publishedOver_withAliases :
    publishedOver members { effective with aliases } = publishedOver members effective := by
  have below : effective ≤ { effective with aliases } := ⟨rfl, rfl, SubTable.refl _, (le_refl effective).models, lower⟩
  have above : { effective with aliases } ≤ publishedOver members effective := by
    rw [publishedOver_eq]
    exact ⟨rfl, rfl, SubTable.refl _, (le_refl effective).models, upper⟩
  have added := (Accretes.foldl (ε := RegistryError) (aliasStep_accretes effective.models)
    (prefixedModelAliases (projectModelEntries effective members) members effective))
  have reached := added.reaches (congrArg Except.ok (publishedOver_eq_foldl effective).symm) below above
  rw [publishedOver_eq_foldl { effective with aliases }, projectModelEntries_withAliases lower upper unchained]
  exact Except.ok.inj reached

end

theorem dropped_le_published
    (composed : computeCandidateComposition members base modelsEnv isAntigravityModel = .ok pool) :
    dropDiscoveredAntigravity base ≤ pool.registry := by
  obtain ⟨effective, contributions, rfl⟩ := candidate_published composed
  exact ((contributed_accretes members modelsEnv).extensive contributions).1.trans (le_publishedOver effective)

/-- A base that holds the catalog and no more than a fresh composition would
publish composes to that composition. -/
theorem candidate_eq_of_between
    (freshly : computeCandidateComposition members catalog modelsEnv isAntigravityModel = .ok fresh)
    (composed : computeCandidateComposition members base modelsEnv isAntigravityModel = .ok pool)
    (below : dropDiscoveredAntigravity catalog ≤ dropDiscoveredAntigravity base)
    (above : dropDiscoveredAntigravity base ≤ fresh.registry)
    (unchained : ∀ (id : ModelId) (rule : ModelAliasRule), catalog.aliases[id]? = some rule →
      rule.target ∈ base.aliases → rule.target ∈ catalog.aliases) : pool = fresh := by
  obtain ⟨effective, contributions, rfl⟩ := candidate_published freshly
  obtain ⟨reached, others, rfl⟩ := candidate_published composed
  obtain ⟨between, same, lower, upper⟩ := (contributed_accretes members modelsEnv).absorbs
    contributions below above (le_publishedOver effective)
  cases others.symm.trans same
  have aliases := ((contributed_accretes members modelsEnv).extensive contributions).2
  have aliases' := ((contributed_accretes members modelsEnv).extensive others).2
  have shape := eq_withAliases lower upper
  have published : publishedOver members reached = publishedOver members effective := by
    rw [shape]
    refine publishedOver_withAliases lower.aliases upper.aliases ?_
    rw [aliases, aliases']
    exact unchained
  rw [published]

end Between
end Mahoquot.Gateway
