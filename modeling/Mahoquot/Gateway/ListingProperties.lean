import Mahoquot.Gateway.Composition
import Mahoquot.Gateway.Cooldown
import Mahoquot.Library.Checks
import Mahoquot.Registry.ResolveProperties
import Mathlib.Data.List.Induction

/-! The advertised model list against routing. The list counts the accounts that match a
binding of the model. Routing asks each account for the binding of its own provider. -/

set_option autoImplicit false

namespace Mahoquot.Gateway
open Library Registry List
variable {id : String}

/-- A Devin id without its namespace. -/
def bareDevin (name : String) : String := (Text.stripPrefix? "devin/" name).getD name

/-- The listing counts the account for the binding. -/
def Counts (member : AccountMember) (binding : ProviderBinding) (resolved : ResolvedModel) : Prop :=
  memberMatchesProviderBinding member binding.providerId binding resolved.canonicalId = true

/-- The first binding of the account's own provider. -/
def ownBinding (member : AccountMember) (resolved : ResolvedModel) : Option ProviderBinding :=
  resolved.eligibleBindings.find? fun binding => memberProviderId member == some binding.providerId

/-- What an account discovered names the model as it is requested, as it is called or as the
upstream calls it: public Devin ids up to their namespace, Antigravity ids without theirs. -/
structure Published (member : AccountMember) (binding : ProviderBinding) (id canonical : String) : Prop where
  devin : member.kind = .devin → ∃ name ∈ [id, canonical, binding.effectiveUpstreamId canonical],
    ∃ listed ∈ member.devinModels.getD [], bareDevin listed = bareDevin name ∨ listed = bareDevin name
  antigravity : member.kind = .antigravity → ∀ models, member.antigravityDiscoveredModels = some models →
    models[(Text.stripPrefix? "antigravity/" (binding.effectiveUpstreamId canonical)).getD
      (binding.effectiveUpstreamId canonical)]? = some (some true)

namespace PoolSnapshot

/-- All accounts are healthy and unbenched, none is disabled or has refused a model, and no
two have the same id. -/
structure Unrestricted (pool : PoolSnapshot) (state : AppState) (nowMs : Int) : Prop where
  admitted : ∀ member ∈ pool.members, ∀ model,
    state.admitsAccount member model nowMs none none
  unbenched : ∀ member ∈ pool.members, ∀ key, ¬ member.Held key nowMs
  active : ∀ member ∈ pool.members, member.isManuallyDisabled = false
  supported : ∀ member ∈ pool.members, member.unsupportedModels = []
  distinct : (pool.members.map (·.id)).Nodup

theorem getElem?_permissionsOf {members : List AccountMember} {member : AccountMember}
    (distinct : (members.map (·.id)).Nodup) (loaded : member ∈ members) :
    (permissionsOf members)[member.id]? = some (.ofMember member) := by
  induction members using reverseRecOn with
  | nil => cases loaded
  | append_singleton members last ih =>
    rw [map_append, nodup_append] at distinct
    simp only [permissionsOf, foldl_append, foldl_cons, foldl_nil, Std.ExtTreeMap.getElem?_insert]
    rcases mem_append.mp loaded with earlier | final
    · have other : last.id ≠ member.id := fun same =>
        distinct.2.2 _ (mem_map_of_mem earlier) _ (by simp) same.symm
      simpa [other, permissionsOf] using ih distinct.1 earlier
    · cases mem_singleton.mp final
      simp

variable {pool : PoolSnapshot} {member : AccountMember} {binding : ProviderBinding} {resolved : ResolvedModel}

section Declares
variable (captured : pool.permissions[member.id]? = some (.ofMember member))
  (active : member.isManuallyDisabled = false) (supported : member.unsupportedModels = [])
include captured active supported

theorem isDevinModelEligible_iff (devin : member.kind = .devin) (name : String) :
    pool.isDevinModelEligible member.id name ↔ ∃ listed ∈ member.devinModels.getD [],
      bareDevin listed = bareDevin name ∨ listed = bareDevin name := by
  have namespaced : bareDevin (if Text.startsWith "devin/" name then name else "devin/" ++ name) = bareDevin name := by
    split
    · rfl
    next bare =>
      rw [Text.startsWith, Bool.not_eq_true, Option.isSome_eq_false_iff, Option.isNone_iff_eq_none] at bare
      rw [bareDevin, bareDevin, bare]
      simp [Text.stripPrefix?, Text.stripChars?]
  have lookup (listed : String) : (((listed = name ∨ listed = (if Text.startsWith "devin/" name then name else "devin/" ++ name)) ∨
      listed = bareDevin name) ∨ bareDevin listed = bareDevin name) ↔
        bareDevin listed = bareDevin name ∨ listed = bareDevin name := by
    constructor
    · rintro (((rfl | rfl) | bare) | bare)
      · exact .inl rfl
      · exact .inl namespaced
      · exact .inr bare
      · exact .inl bare
    · rintro (bare | bare) <;> simp [bare]
  cases models : member.devinModels with
  | none =>
    simp [isDevinModelEligible, captured, AccountSnapshotPermissions.supportsDevinModel,
      AccountSnapshotPermissions.ofMember, models]
  | some publics =>
    have listed := exists_congr fun listed => and_congr_right (a := listed ∈ publics) fun _ => lookup listed
    simpa [isDevinModelEligible, captured, AccountSnapshotPermissions.supportsDevinModel, bareDevin,
      AccountSnapshotPermissions.refuses, AccountSnapshotPermissions.ofMember, models, devin, active, supported] using listed

theorem isAntigravityModelEligible_iff (antigravity : member.kind = .antigravity)
    {models : Std.ExtTreeMap String (Option Bool)} (discovered : member.antigravityDiscoveredModels = some models) (name : String) :
    pool.isAntigravityModelEligible member.id name ↔
      models[(Text.stripPrefix? "antigravity/" name).getD name]? = some (some true) := by
  simp [isAntigravityModelEligible, captured, AccountSnapshotPermissions.supportsAntigravityModel,
    AccountSnapshotPermissions.refuses, AccountSnapshotPermissions.ofMember, antigravity, discovered, active, supported]

/-- An account that the listing counts declares the model if its discovery publishes it. -/
theorem declares_iff_published (counts : Counts member binding resolved) :
    pool.accountDeclaresBindingModel member id resolved.canonicalId
        ⟨binding, binding.effectiveUpstreamId resolved.canonicalId⟩ ↔
      Published member binding id resolved.canonicalId := by
  have kind : member.kind = member.inner.kind := rfl
  have plain (devin : member.kind ≠ .devin) (antigravity : member.kind ≠ .antigravity) :
      Published member binding id resolved.canonicalId :=
    ⟨fun same => absurd same devin, fun same => absurd same antigravity⟩
  simp only [accountDeclaresBindingModel, supported, any_nil, Bool.false_eq_true, if_false]
  cases account : member.inner with
  | devin =>
    replace kind : member.kind = .devin := by rw [kind, account]; rfl
    have named : Published member binding id resolved.canonicalId ↔
        ∃ name ∈ [id, resolved.canonicalId, binding.effectiveUpstreamId resolved.canonicalId],
          pool.isDevinModelEligible member.id name := by
      simp only [isDevinModelEligible_iff captured active supported kind]
      exact ⟨fun published => published.devin kind, fun named => ⟨fun _ => named, fun same => by simp [kind] at same⟩⟩
    simp [named, kind, or_assoc]
  | antigravity =>
    replace kind : member.kind = .antigravity := by rw [kind, account]; rfl
    have other : member.kind ≠ .devin := by simp [kind]
    cases discovered : member.antigravityDiscoveredModels with
    | none =>
      have foreign : binding.source ≠ .discovered := by
        simp only [Counts, memberMatchesProviderBinding, account, kind, discovered] at counts
        simp_all
      refine iff_of_true ?_ ⟨fun same => absurd same other, fun _ models same => ?_⟩
      · simp [kind, captured, AccountSnapshotPermissions.ofMember, discovered, foreign]
      · cases discovered.symm.trans same
    | some models =>
      have eligible := isAntigravityModelEligible_iff captured active supported kind discovered
      simp only [if_neg other, if_pos kind, captured, AccountSnapshotPermissions.ofMember, discovered, Option.any_some,
        Option.isNone_some, Bool.false_eq_true, if_false, eligible]
      refine ⟨fun known => ⟨fun same => absurd same other, fun _ found same => ?_⟩, fun published => ?_⟩
      · cases discovered.symm.trans same
        exact known
      · exact published.antigravity kind models discovered
  | generic provider models =>
    replace kind : member.kind = .generic := by rw [kind, account]; rfl
    simp only [Counts, memberMatchesProviderBinding, account, kind] at counts
    refine iff_of_true ?_ (plain (by simp [kind]) (by simp [kind]))
    simp only [kind, AccountMember.genericModels, account]
    grind
  | codex | claude | cursor | kiro | vertex | zcode | openCode =>
    rw [account] at kind
    refine iff_of_true ?_ (plain (by simp [kind, ProviderAccount.kind]) (by simp [kind, ProviderAccount.kind]))
    simp [kind, ProviderAccount.kind, AccountMember.genericModels, account]

end Declares

/-- Of most providers the listing counts every account with a binding of its own. -/
theorem counts_of_own (own : ownBinding member resolved = some binding)
    (plain : member.kind ∉ [.generic, .devin, .antigravity]) : Counts member binding resolved := by
  have same : memberProviderId member = some binding.providerId := by simpa using find?_some own
  have kind : member.kind = member.inner.kind := rfl
  cases account : member.inner with
  | devin | antigravity | generic => simp [kind, account, ProviderAccount.kind] at plain
  | codex | claude | cursor | kiro | vertex | zcode | openCode =>
    simp only [memberProviderId, account, Option.some.injEq] at same
    simpa [Counts, memberMatchesProviderBinding, account, ← same] using .inr rfl

theorem routeDeclares_routeOf (loaded : member ∈ pool.members) :
    pool.routeDeclares (pool.routeOf none resolved) id member ↔ ∃ binding, ownBinding member resolved = some binding ∧
      pool.accountDeclaresBindingModel member id resolved.canonicalId
        ⟨binding, binding.effectiveUpstreamId resolved.canonicalId⟩ := by
  have own (binding : ProviderBinding) : decide (pool.loaded binding.providerId = true ∧
      (memberProviderId member == some binding.providerId) = true) =
      (memberProviderId member == some binding.providerId) := by
    by_cases same : memberProviderId member = some binding.providerId
    · have present : pool.loaded binding.providerId := by
        simpa [PoolSnapshot.loaded] using ⟨member, loaded, same⟩
      simp [present, same]
    · simp [same]
  have classes : (pool.routeOf none resolved).providerClasses.find? (fun provider =>
      memberProviderId member == some provider.binding.providerId) =
      (ownBinding member resolved).map fun binding => ⟨binding, binding.effectiveUpstreamId resolved.canonicalId⟩ := by
    simp only [routeOf, ownBinding, Option.all_none, filter_true, find?_map, find?_filter, Function.comp_def, own]
  simp only [routeDeclares, classes]
  cases ownBinding member resolved with
  | none => simp
  | some binding => simp [routeOf]

section Eligible
variable {state : AppState} {nowMs : Int} {index : Nat} (unrestricted : pool.Unrestricted state nowMs)
  (found : pool.members[index]? = some member)
include unrestricted found

theorem mem_eligibleIndices_iff : index ∈ pool.eligibleIndices (some (pool.routeOf none resolved)) (some id) nowMs none none state ↔
    laneAdmits (parseModelPrefix id).1 member ∧ ∃ binding, ownBinding member resolved = some binding ∧
      pool.accountDeclaresBindingModel member id resolved.canonicalId
        ⟨binding, binding.effectiveUpstreamId resolved.canonicalId⟩ := by
  have loaded := mem_of_getElem? found
  have free : member.groupAvailable resolved.canonicalId nowMs :=
    AccountMember.groupAvailable_iff.mpr fun key _ => unrestricted.unbenched member loaded key
  have admitted : state.admitsAccount member (some (pool.routeOf none resolved).canonicalModel) nowMs none none :=
    unrestricted.admitted member loaded _
  rw [mem_eligibleIndices_some, ← routeDeclares_routeOf loaded]
  simp only [found, Option.some.injEq, exists_eq_left', servingPriority_isSome, admitted, true_and]
  exact and_congr_left fun _ => and_iff_left free

/-- An account that the listing counts for its own binding is eligible exactly in its lane, and
if its discovery publishes the model. -/
theorem eligible_iff_of_counts (captured : pool.permissions = permissionsOf pool.members)
    (own : ownBinding member resolved = some binding) (counts : Counts member binding resolved) :
    index ∈ pool.eligibleIndices (some (pool.routeOf none resolved)) (some id) nowMs none none state ↔
      laneAdmits (parseModelPrefix id).1 member ∧ Published member binding id resolved.canonicalId := by
  have loaded := mem_of_getElem? found
  have permissions : pool.permissions[member.id]? = some (.ofMember member) := by
    rw [captured]
    exact getElem?_permissionsOf unrestricted.distinct loaded
  rw [mem_eligibleIndices_iff unrestricted found, own, ← declares_iff_published permissions
    (unrestricted.active member loaded) (unrestricted.supported member loaded) counts]
  simp

end Eligible

def Routes (pool : PoolSnapshot) (state : AppState) (nowMs : Int) (id : String) : Prop :=
  ∃ route, pool.resolveRoute (some id) none = .ok (some route) ∧
    pool.eligibleIndices (some route) (some id) nowMs none none state ≠ []

instance (pool : PoolSnapshot) (state : AppState) (nowMs : Int) (id : String) :
    Decidable (pool.Routes state nowMs id) :=
  match found : pool.resolveRoute (some id) none with
  | .ok (some route) =>
    if served : pool.eligibleIndices (some route) (some id) nowMs none none state ≠ [] then
      .isTrue ⟨route, found, served⟩
    else .isFalse fun ⟨other, same, eligible⟩ => by
      cases found.symm.trans same
      exact served eligible
  | .ok none => .isFalse fun ⟨_, same, _⟩ => nomatch found.symm.trans same
  | .error _ => .isFalse fun ⟨_, same, _⟩ => nomatch found.symm.trans same

end PoolSnapshot

variable {registry : RegistrySnapshot} {members : List AccountMember} {entry : ModelEntry}

/-- A catalogued name that resolves is not taken for another. -/
theorem resolveModel_of_listed {resolved : ResolvedModel} (listed : registry.models.contains (parseModelPrefix id).2)
    (found : registry.resolve (parseModelPrefix id).2 = .ok resolved) : resolveModel registry id = .ok resolved := by
  obtain ⟨valid, aliased, admitted, -⟩ := RegistrySnapshot.resolve_ok found
  cases known : registry.aliases.contains (parseModelPrefix id).2 with
  | true => simpa [resolveModel, valid, known, bind, Except.bind] using found
  | false =>
    have absent : registry.aliases[(parseModelPrefix id).2]? = none :=
      Std.ExtTreeMap.getElem?_eq_none (by simp [Std.ExtTreeMap.mem_iff_contains, known])
    simp only [RegistrySnapshot.resolveAlias, RegistrySnapshot.followAlias, absent, Except.ok.injEq] at aliased
    rw [← aliased] at admitted
    simpa [resolveModel, undatedTarget, valid, known, listed, admitted, bind, Except.bind] using found

/-- The listing's reason: it resolves the id and counts an account for a binding. -/
theorem mem_projectModelEntries (listed : entry ∈ projectModelEntries registry members) :
    registry.models.contains entry.id ∧ ∃ resolved, registry.resolve entry.id = .ok resolved ∧
      ∃ member ∈ members, ∃ binding ∈ resolved.eligibleBindings, Counts member binding resolved := by
  simp only [projectModelEntries] at listed
  split at listed
  · cases listed
  · obtain ⟨⟨id, descriptor⟩, member, projected⟩ := mem_filterMap.mp listed
    split at projected
    · cases projected
    · rename_i resolved found
      split at projected
      next serves =>
        cases projected
        have present := Std.ExtTreeMap.mem_toList_iff_getElem?_eq_some.mp member
        simp only [canServe, any_eq_true] at serves
        obtain ⟨binding, eligible, member, active, counts⟩ := serves
        exact ⟨by simp [Std.ExtTreeMap.contains_eq_isSome_getElem?, present], resolved, found, member,
          (mem_filter.mp active).1, binding, eligible, counts⟩
      · cases projected

theorem parseModelPrefix_affixed {affix : String}
    (lane : affix ∈ ["anthropic/", "anthropic-", "nekos/", "nekos-"]) (id : String) :
    (parseModelPrefix (affix ++ id)).2 = id := by
  simp only [mem_cons, not_mem_nil, or_false] at lane
  rcases lane with rfl | rfl | rfl | rfl <;>
    simp [parseModelPrefix, Text.stripPrefix?, Text.stripChars?]

theorem parse_expanded {entries : List ModelEntry} {pair : String × String × String}
    (expanded : pair ∈ prefixedModelAliases entries members registry) :
    ∃ entry ∈ entries, (parseModelPrefix pair.1).2 = entry.id := by
  simp only [prefixedModelAliases, mem_flatMap] at expanded
  obtain ⟨entry, listed, made⟩ := expanded
  refine ⟨entry, listed, ?_⟩
  have affixed : ∃ affix ∈ ["anthropic/", "anthropic-", "nekos/", "nekos-"],
      pair.1 = affix ++ entry.id := by
    split at made
    · rcases mem_append.mp made with official | relay
      · split at official <;> simp at official
        rcases official with rfl | rfl <;> simp
      · split at relay <;> simp at relay
        rcases relay with rfl | rfl <;> simp
    · cases made
  obtain ⟨affix, lane, same⟩ := affixed
  rw [same, parseModelPrefix_affixed lane]

theorem computeCandidateComposition_ok {modelsEnv : Option String}
    {isAntigravityModel : String → Bool} {pool : PoolSnapshot}
    (composed : computeCandidateComposition members registry modelsEnv isAntigravityModel = .ok pool) :
    pool.members = members ∧ pool.permissions = PoolSnapshot.permissionsOf pool.members ∧
      pool.models = expandPrefixedModels (projectModelEntries pool.registry members) members pool.registry := by
  simp only [computeCandidateComposition, bind, Except.bind] at composed
  split at composed
  · cases composed
  · split at composed
    · cases composed
    · split at composed
      · cases composed
      · cases composed
        exact ⟨rfl, rfl, rfl⟩

theorem parseModelPrefix_of_laneless (laneless : (parseModelPrefix id).1 = none) :
    (parseModelPrefix id).2 = id := by
  simp only [parseModelPrefix] at laneless ⊢
  split at laneless
  · cases laneless
  · split at laneless
    · cases laneless
    · simp_all

/-- Every advertised id is a listed one behind its lane, registry ids that carry a lane
prefix themselves apart. -/
theorem listed_of_advertised (advertised : entry ∈ expandPrefixedModels
    (projectModelEntries registry members) members registry)
    (plain : registry.models.contains entry.id → (parseModelPrefix entry.id).1 = none) :
    ∃ base ∈ projectModelEntries registry members, (parseModelPrefix entry.id).2 = base.id := by
  rcases mem_append.mp advertised with listed | expanded
  · exact ⟨entry, listed, parseModelPrefix_of_laneless (plain (mem_projectModelEntries listed).1)⟩
  · obtain ⟨pair, made, rfl⟩ := mem_map.mp expanded
    exact parse_expanded made

def Fresh (member : AccountMember) : Prop :=
  member.groupCooldowns = ∅ ∧ member.isManuallyDisabled = false ∧ member.unsupportedModels = [] ∧
    ∀ model, idleState.admitsAccount member model 0 none none

theorem Fresh.unrestricted {member : AccountMember} {modelsEnv : Option String} {isAntigravityModel : String → Bool}
    {pool : PoolSnapshot} (fresh : Fresh member)
    (composed : computeCandidateComposition [member] registry modelsEnv isAntigravityModel = .ok pool) :
    pool.Unrestricted idleState 0 := by
  obtain ⟨unbenched, active, supported, admitted⟩ := fresh
  constructor <;> simp only [(computeCandidateComposition_ok composed).1, mem_singleton, forall_eq]
  · exact admitted
  · rintro key ⟨deadline, present, _⟩
    simp [unbenched] at present
  · exact active
  · exact supported
  · exact nodup_singleton _

def subscription : AccountMember := .new "subscription" (.claude none)

def relayKey : AccountMember :=
  { AccountMember.new "relay" (.claude (some "key")) with overrideHosts := ["claude.nekos.me"] }

def openCatalog : RegistrySnapshot :=
  { source := .embeddedFallback
    models := .ofList [("glm", { ModelDescriptor.new "glm" "z-ai" with
      bindings := .ofList
        [("openrouter", ProviderBinding.new "openrouter" .open .embeddedFallback)] })]
    providers := .ofList [("openrouter", ProviderPolicy.open)]
    aliases := ∅
    exclusions := [] }

/-- The composition advertises the id without an account that could serve it. -/
def AdvertisesUnserved (member : AccountMember) (registry : RegistrySnapshot) (id : String) : Prop :=
  ∃ pool, computeCandidateComposition [member] registry none (fun _ => false) = .ok pool ∧
    pool.Unrestricted idleState 0 ∧
    ∃ entry ∈ pool.models, entry.id = id ∧ ¬ pool.Routes idleState 0 entry.id

theorem advertisesUnserved_of_fresh {member : AccountMember} (fresh : Fresh member)
    (passes : (computeCandidateComposition [member] registry none fun _ => false).toOption.any
      fun pool => decide (∃ entry ∈ pool.models, entry.id = id ∧
        ¬ pool.Routes idleState 0 entry.id)) : AdvertisesUnserved member registry id := by
  obtain ⟨pool, composed, test⟩ := toOption_any passes
  exact ⟨pool, composed, fresh.unrestricted composed, of_decide_eq_true test⟩

end Mahoquot.Gateway
