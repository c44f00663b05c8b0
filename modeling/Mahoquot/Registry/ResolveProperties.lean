import Mathlib.Data.Prod.Lex
import Mathlib.Data.String.Basic
import Mahoquot.Library.Tables
import Mahoquot.Registry.Snapshot

/-! What a resolved model may be bound to: the bindings of its descriptor in
their order, and the open fallback within its namespaces. -/

set_option autoImplicit false

namespace Mahoquot.Registry
open Library List
variable {providerId : ProviderId}

/-- Priority descending, then catalog precedence descending, then provider id. -/
def bindingKey (binding : ProviderBinding) : Lex (Intᵒᵈ × Lex (Natᵒᵈ × String)) :=
  toLex (OrderDual.toDual binding.priority, toLex (OrderDual.toDual binding.source.precedence, binding.providerId))

theorem bindingBefore_iff {first second : ProviderBinding} :
    bindingBefore first second = true ↔ bindingKey first ≤ bindingKey second := by
  simp only [bindingBefore, bindingKey, Prod.Lex.toLex_le_toLex, Bool.or_eq_true,
    Bool.and_eq_true, decide_eq_true_eq, OrderDual.toDual_lt_toDual, OrderDual.toDual_inj]
  rw [eq_comm (a := second.priority), eq_comm (a := second.source.precedence)]

theorem sorted_insertionSort (bindings : List ProviderBinding) :
    (bindings.insertionSort fun first second => bindingBefore first second = true).Pairwise
      fun first second => bindingKey first ≤ bindingKey second := by
  have total : Std.Total fun first second => bindingBefore first second = true :=
    ⟨fun first second => by
      rw [bindingBefore_iff, bindingBefore_iff]
      exact le_total _ _⟩
  have transitive : IsTrans ProviderBinding fun first second => bindingBefore first second = true :=
    ⟨fun first second third before after => by
      rw [bindingBefore_iff] at before after ⊢
      exact before.trans after⟩
  exact (pairwise_insertionSort _ bindings).imp bindingBefore_iff.mp

/-- The id lies in the namespace of the provider. -/
def Under (providerId : ProviderId) (id : String) : Prop :=
  Text.startsWith (providerId ++ "/") id = true

instance (providerId : ProviderId) (id : String) : Decidable (Under providerId id) :=
  inferInstanceAs (Decidable (_ = true))

theorem under_iff {id : String} : Under providerId id ↔ providerId.toList ++ ['/'] <+: id.toList := by
  rw [Under, Text.startsWith_iff, String.toList_append]
  rfl

theorem Under.lt {nested : ProviderId} (under : Under providerId nested) : providerId < nested := by
  obtain ⟨rest, whole⟩ := under_iff.mp under
  have starts : providerId.toList <+: nested.toList := ⟨'/' :: rest, by simpa using whole⟩
  have ordered : providerId ≤ nested := starts.le
  refine lt_of_le_of_ne ordered ?_
  rintro rfl
  simpa using congrArg length whole

/-- How the resolver tests whether an id may go to an open provider. -/
theorem namespaced_iff {id : String} : (match Text.splitOnce? '/' id with
      | none => true
      | some (owner, _) => owner == providerId) = true ↔
      ('/' ∈ id.toList → '/' ∉ providerId.toList ∧ Under providerId id) := by
  split
  · rename_i unsplit
    simp [Text.splitOnce?_eq_none.mp unsplit]
  · rename_i owner rest split
    obtain ⟨clean, starts⟩ := Text.splitOnce?_eq_some split
    rw [beq_iff_eq]
    constructor
    · rintro rfl _
      exact ⟨clean, under_iff.mpr starts⟩
    · intro owned
      obtain ⟨cleanToo, under⟩ := owned (starts.subset (by simp))
      rcases Text.first_segment clean starts (under_iff.mp under) with same | longer
      · exact String.toList_inj.mp same.symm
      · exact absurd (longer.subset (by simp)) cleanToo

namespace RegistrySnapshot
variable {registry : RegistrySnapshot} {requested : String} {canonical : ModelId}

/-- Only open providers can serve the model: nothing binds it. -/
def isUnbound (registry : RegistrySnapshot) (canonical : ModelId) : Bool :=
  registry.models[canonical]?.all fun descriptor => descriptor.bindings.isEmpty

/-- The bindings that the resolution of an admitted model chooses from. -/
def candidates (registry : RegistrySnapshot) (requested canonical : ModelId) : List ProviderBinding :=
  match registry.models[canonical]? with
  | some descriptor => registry.catalogBindings requested canonical descriptor
  | none => registry.synthesizeOpen canonical (registry.openProviders requested canonical)

theorem resolve_ok {resolved : ResolvedModel} (found : registry.resolve requested = .ok resolved) :
    ModelId.new requested = .ok requested ∧ registry.resolveAlias requested = .ok resolved.canonicalId ∧
      registry.excludes resolved.canonicalId none = false ∧
      resolved.eligibleBindings = registry.candidates requested resolved.canonicalId ∧
      resolved.eligibleBindings ≠ [] := by
  rw [resolve, bind_eq_ok] at found
  obtain ⟨id, valid, found⟩ := found
  cases checkId_ok valid
  rw [bind_eq_ok] at found
  obtain ⟨canonicalId, aliased, found⟩ := found
  split at found
  · cases found
  · rename_i admitted
    split at found
    · rename_i descriptor listed
      split at found
      · cases found
      · rename_i first rest chosen
        cases found
        exact ⟨valid, aliased, by simpa using admitted, by simp [candidates, listed, chosen], cons_ne_nil _ _⟩
    · rename_i unlisted
      split at found
      · cases found
      · split at found
        · cases found
        · split at found
          · cases found
          · rename_i first rest chosen
            cases found
            exact ⟨valid, aliased, by simpa using admitted, by simp [candidates, unlisted, chosen], cons_ne_nil _ _⟩

theorem mem_openProviders : providerId ∈ registry.openProviders requested canonical ↔
      registry.providers[providerId]? = some .open ∧ ∀ id ∈ [requested, canonical], '/' ∈ id.toList →
          '/' ∉ providerId.toList ∧ Under providerId id := by
  simp only [openProviders, mem_map, mem_filter, Bool.and_eq_true, decide_eq_true_eq, all_eq_true]
  constructor
  · rintro ⟨⟨_, _⟩, ⟨member, rfl, owned⟩, rfl⟩
    exact ⟨Std.ExtTreeMap.mem_toList_iff_getElem?_eq_some.mp member, fun id among => namespaced_iff.mp (owned id among)⟩
  · rintro ⟨found, owned⟩
    exact ⟨(providerId, .open), ⟨Std.ExtTreeMap.mem_toList_iff_getElem?_eq_some.mpr found, rfl,
      fun id among => namespaced_iff.mpr (owned id among)⟩, rfl⟩

theorem openProviders_sorted : (registry.openProviders requested canonical).Pairwise (· < ·) := by
  rw [openProviders, pairwise_map]
  refine Pairwise.filter _ ?_
  exact Std.ExtTreeMap.ordered_keys_toList.imp compare_lt_iff_lt.mp

variable {owner : ProviderId} {binding : ProviderBinding} {descriptor : ModelDescriptor}

/-- The search for the namespace's owner meets the open provider before any
provider nested below it. -/
theorem namespaceOwner_open {policy : ProviderPolicy} (served : owner ∈ registry.openProviders requested canonical)
    (owned : registry.namespaceOwner canonical = some policy) : policy = .open := by
  obtain ⟨isOpen, within⟩ := mem_openProviders.mp served
  obtain ⟨⟨found, foundPolicy⟩, first, rfl⟩ := Option.map_eq_some_iff.mp owned
  obtain ⟨starts, before, after, whole, earlier⟩ := find?_eq_some_iff_append.mp first
  have under : Under found canonical := starts
  obtain ⟨clean, ownerUnder⟩ := within canonical (by simp) ((under_iff.mp under).subset (by simp))
  have listed : registry.providers[found]? = some foundPolicy :=
    Std.ExtTreeMap.mem_toList_iff_getElem?_eq_some.mp (by simp [whole])
  rcases Text.first_segment clean (under_iff.mp ownerUnder) (under_iff.mp under) with same | longer
  · cases String.toList_inj.mp same
    rw [isOpen] at listed
    cases listed
    rfl
  · have nested : owner < found := Under.lt (under_iff.mpr longer)
    have owning := Std.ExtTreeMap.mem_toList_iff_getElem?_eq_some.mpr isOpen
    have ordered := registry.providers.ordered_keys_toList
    rw [whole] at owning ordered
    have sorted := (pairwise_append.mp ordered).2.1
    rcases mem_append.mp owning with sooner | later
    · exact absurd ownerUnder (by simpa [Under] using earlier _ sooner)
    · rcases mem_cons.mp later with same | later
      · cases same
        exact absurd nested (lt_irrefl _)
      · have reversed := compare_lt_iff_lt.mp (rel_of_pairwise_cons sorted later)
        exact absurd nested reversed.not_gt

theorem mem_synthesizeOpen {providers : List ProviderId} : binding ∈ registry.synthesizeOpen canonical providers ↔
      ∃ providerId ∈ providers, registry.excludes canonical (some providerId) = false ∧
        { ProviderBinding.new providerId .open .embeddedFallback with capabilities := [.chat] } = binding := by
  simp [synthesizeOpen, and_assoc]

theorem synthesizeOpen_sorted {providers : List ProviderId} (ordered : providers.Pairwise (· < ·)) :
    (registry.synthesizeOpen canonical providers).Pairwise
      fun first second => bindingKey first ≤ bindingKey second := by
  rw [synthesizeOpen, pairwise_map]
  refine (ordered.filter _).imp fun before => ?_
  simp only [bindingKey, ProviderBinding.new, Prod.Lex.toLex_le_toLex, lt_self_iff_false, true_and, false_or]
  exact before.le

theorem values_eq_nil (empty : descriptor.bindings.isEmpty = true) : descriptor.bindings.values = [] := by
  rw [values_eq_map_toList, List.map_eq_nil_iff, ← List.isEmpty_iff, Std.ExtTreeMap.isEmpty_toList, empty]

/-- The catalogued bindings are sorted, or all synthesized. -/
theorem catalogBindings_sorted : (registry.catalogBindings requested canonical descriptor).Pairwise
      fun first second => bindingKey first ≤ bindingKey second := by
  simp only [catalogBindings]
  split
  · exact sorted_insertionSort _
  · split
    · exact sorted_insertionSort _
    · split
      · exact synthesizeOpen_sorted openProviders_sorted
      · exact .nil

theorem mem_catalogBindings (member : binding ∈ registry.catalogBindings requested canonical descriptor) :
    registry.excludes canonical (some binding.providerId) = false ∧
      (binding.policy = .open → ∀ other ∈ descriptor.bindings.values, other.policy ≠ .open →
        registry.excludes canonical (some other.providerId) = true) := by
  simp only [catalogBindings] at member
  split at member
  · simp only [mem_insertionSort, mem_filter, decide_eq_true_eq] at member
    obtain ⟨⟨_, admitted⟩, closed⟩ := member
    exact ⟨by simpa using admitted, fun isOpen => absurd isOpen closed⟩
  · rename_i unclaimed
    split at member
    · simp only [mem_insertionSort, mem_filter] at member
      obtain ⟨⟨_, admitted⟩, _⟩ := member
      refine ⟨by simpa using admitted, fun _ other bound closed => ?_⟩
      by_contra kept
      simp only [Bool.not_eq_true, Bool.not_eq_false', List.isEmpty_iff, List.filter_eq_nil_iff, List.mem_filter] at unclaimed
      have claimed := unclaimed other ⟨bound, by simpa using kept⟩
      simp [closed] at claimed
    · split at member
      · rename_i empty
        obtain ⟨providerId, _, admitted, rfl⟩ := mem_synthesizeOpen.mp member
        refine ⟨admitted, fun _ other bound => ?_⟩
        rw [values_eq_nil empty] at bound
        cases bound
      · cases member

/-- What a resolution has to guarantee. -/
structure Sound (registry : RegistrySnapshot) (requested : String) (resolved : ResolvedModel) : Prop where
  nonempty : resolved.eligibleBindings ≠ []
  admitted : registry.excludes resolved.canonicalId none = false ∧
    ∀ binding ∈ resolved.eligibleBindings,
      registry.excludes resolved.canonicalId (some binding.providerId) = false
  sorted : resolved.eligibleBindings.Pairwise
    fun first second => bindingKey first ≤ bindingKey second
  unclaimed : ∀ binding ∈ resolved.eligibleBindings, binding.policy = .open →
    ∀ descriptor : ModelDescriptor, registry.models[resolved.canonicalId]? = some descriptor →
      ∀ other ∈ descriptor.bindings.values, other.policy ≠ .open →
        registry.excludes resolved.canonicalId (some other.providerId) = true
  unowned : registry.isUnbound resolved.canonicalId = true →
    ∀ providerId policy, registry.providers[providerId]? = some policy → policy ≠ .open →
      ¬ Under providerId requested ∧ ¬ Under providerId resolved.canonicalId

/-- An open provider that would serve the id although it lies in the namespace
of a provider nested below the open one. -/
structure Intrudes (registry : RegistrySnapshot) (requested canonical : ModelId)
    (owner nested : ProviderId) : Prop where
  serving : owner ∈ registry.openProviders requested canonical ∧
    registry.excludes canonical (some owner) = false
  below : Under owner nested
  closed : ∃ policy, registry.providers[nested]? = some policy ∧ policy ≠ .open
  within : Under nested requested ∨ Under nested canonical

theorem candidates_sorted : (registry.candidates requested canonical).Pairwise
      fun first second => bindingKey first ≤ bindingKey second := by
  rw [candidates]
  split
  · exact catalogBindings_sorted
  · exact synthesizeOpen_sorted openProviders_sorted

theorem mem_candidates (member : binding ∈ registry.candidates requested canonical) :
    registry.excludes canonical (some binding.providerId) = false ∧
      (binding.policy = .open → ∀ descriptor : ModelDescriptor, registry.models[canonical]? = some descriptor →
        ∀ other ∈ descriptor.bindings.values, other.policy ≠ .open →
          registry.excludes canonical (some other.providerId) = true) := by
  rw [candidates] at member
  split at member
  · rename_i descriptor listed
    obtain ⟨admitted, unclaimed⟩ := mem_catalogBindings member
    refine ⟨admitted, fun isOpen other same => ?_⟩
    rw [listed] at same
    cases same
    exact unclaimed isOpen
  · rename_i unlisted
    obtain ⟨providerId, _, admitted, rfl⟩ := mem_synthesizeOpen.mp member
    refine ⟨admitted, fun _ descriptor listed => ?_⟩
    rw [unlisted] at listed
    cases listed

theorem candidates_of_unbound (unbound : registry.isUnbound canonical = true) :
    registry.candidates requested canonical =
      registry.synthesizeOpen canonical (registry.openProviders requested canonical) := by
  rw [candidates]
  split
  · rename_i descriptor listed
    have empty : descriptor.bindings.isEmpty = true := by
      simpa [isUnbound, listed] using unbound
    simp [catalogBindings, values_eq_nil empty, empty]
  · rfl

/-- A closed provider whose namespace an open one reaches into is nested below it. -/
theorem under_of_served {nested : ProviderId} {id : ModelId} {policy : ProviderPolicy}
    (served : owner ∈ registry.openProviders requested canonical)
    (among : id ∈ [requested, canonical]) (closed : registry.providers[nested]? = some policy)
    (notOpen : policy ≠ .open) (under : Under nested id) : Under owner nested := by
  obtain ⟨isOpen, within⟩ := mem_openProviders.mp served
  obtain ⟨clean, ownerUnder⟩ := within id among ((under_iff.mp under).subset (by simp))
  rcases Text.first_segment clean (under_iff.mp ownerUnder) (under_iff.mp under) with same | longer
  · cases String.toList_inj.mp same
    rw [isOpen] at closed
    cases closed
    exact absurd rfl notOpen
  · exact under_iff.mpr longer

theorem resolve_of_served (valid : ModelId.new requested = .ok requested)
    (aliased : registry.resolveAlias requested = .ok canonical)
    (admitted : registry.excludes canonical none = false) (unbound : registry.isUnbound canonical = true)
    (served : owner ∈ registry.openProviders requested canonical)
    (kept : registry.excludes canonical (some owner) = false) :
    ∃ resolved, registry.resolve requested = .ok resolved ∧ resolved.canonicalId = canonical := by
  have offered := ne_nil_of_mem (mem_synthesizeOpen.mpr ⟨owner, served, kept, rfl⟩)
  obtain ⟨first, rest, synthesized⟩ := exists_cons_of_ne_nil offered
  have chosen : registry.candidates requested canonical = first :: rest := (candidates_of_unbound unbound).trans synthesized
  rw [candidates] at chosen
  cases listed : registry.models[canonical]? with
  | some descriptor =>
    rw [listed] at chosen
    simp only [resolve, valid, aliased, bind, Except.bind, admitted, listed]
    simp [chosen]
  | none =>
    have filled : (registry.openProviders requested canonical).isEmpty = false := by
      rw [isEmpty_eq_false_iff]
      exact ne_nil_of_mem served
    have unowned : (registry.namespaceOwner canonical).any
        (fun policy => decide (policy ≠ .open)) = false := by
      cases owned : registry.namespaceOwner canonical with
      | none => rfl
      | some policy => simp [namespaceOwner_open served owned]
    simp only [resolve, valid, aliased, bind, Except.bind, admitted, listed, filled, unowned]
    simp [synthesized]

theorem resolve_sound_iff (registry : RegistrySnapshot) (requested : String) :
    (∀ resolved, registry.resolve requested = .ok resolved → registry.Sound requested resolved) ↔
      ∀ canonical, ModelId.new requested = .ok requested → registry.resolveAlias requested = .ok canonical →
        registry.excludes canonical none = false → registry.isUnbound canonical = true →
        ∀ owner nested, ¬ registry.Intrudes requested canonical owner nested := by
  constructor
  · rintro sound canonical valid aliased admitted unbound owner nested
      ⟨⟨served, kept⟩, _, ⟨policy, closed, notOpen⟩, within⟩
    obtain ⟨resolved, found, rfl⟩ := resolve_of_served valid aliased admitted unbound served kept
    obtain ⟨notRequested, notCanonical⟩ := (sound resolved found).unowned unbound nested policy closed notOpen
    exact within.elim notRequested notCanonical
  · intro unintruded resolved found
    obtain ⟨valid, aliased, admitted, chosen, nonempty⟩ := resolve_ok found
    refine ⟨nonempty, ⟨admitted, fun binding member => ?_⟩, ?_, fun binding member => ?_, ?_⟩
    · exact (mem_candidates (chosen ▸ member)).1
    · exact chosen ▸ candidates_sorted
    · exact (mem_candidates (chosen ▸ member)).2
    · intro unbound providerId policy closed notOpen
      rw [chosen, candidates_of_unbound unbound] at nonempty
      obtain ⟨binding, member⟩ := exists_mem_of_ne_nil _ nonempty
      obtain ⟨owner, served, kept, _⟩ := mem_synthesizeOpen.mp member
      -- whoever serves the fallback would intrude on a provider above either id
      have apart : ∀ id ∈ [requested, resolved.canonicalId], ¬ Under providerId id := by
        intro id among under
        refine unintruded resolved.canonicalId valid aliased admitted unbound owner providerId
          ⟨⟨served, kept⟩, under_of_served served among closed notOpen under, ⟨policy, closed, notOpen⟩, ?_⟩
        simp only [mem_cons, not_mem_nil, or_false] at among
        rcases among with rfl | rfl
        · exact .inl under
        · exact .inr under
      exact ⟨apart requested (by simp), apart resolved.canonicalId (by simp)⟩

def nestedProviders : RegistrySnapshot :=
  ⟨.embeddedFallback, ∅, ((∅ : Std.ExtTreeMap ProviderId ProviderPolicy).insert "relay" .open).insert
    "relay/team" .closed, ∅, []⟩

def relayFallback (id : ModelId) : ResolvedModel :=
  ⟨id, [{ ProviderBinding.new "relay" .open .embeddedFallback with capabilities := [.chat] }],
    [.chat], .embeddedFallback⟩

theorem resolve_sound_outside_nested : nestedProviders.resolve "relay/m" = .ok (relayFallback "relay/m") ∧
      nestedProviders.Sound "relay/m" (relayFallback "relay/m") := by
  have found : nestedProviders.resolve "relay/m" = .ok (relayFallback "relay/m") := by
    decide +kernel
  refine ⟨found, (resolve_sound_iff nestedProviders "relay/m").mpr ?_ _ found⟩
  rintro canonical _ aliased _ _ owner nested ⟨_, _, ⟨policy, closed, notOpen⟩, within⟩
  cases aliased
  have only : "relay/team" = nested := by
    by_contra other
    simp only [nestedProviders, Std.ExtTreeMap.getElem?_insert, compare_eq_iff_eq, other, if_false] at closed
    split at closed
    · exact notOpen (Option.some.inj closed).symm
    · cases closed
  rw [← only] at within
  exact absurd within (by decide +kernel)

theorem resolve_unsound_inside_nested : nestedProviders.validate = .ok () ∧
      nestedProviders.resolve "relay/team/m" = .ok (relayFallback "relay/team/m") ∧
      ¬ nestedProviders.Sound "relay/team/m" (relayFallback "relay/team/m") := by
  refine ⟨by decide +kernel, by decide +kernel, fun sound => ?_⟩
  obtain ⟨outside, _⟩ := sound.unowned (by decide +kernel) "relay/team" .closed (by decide +kernel) (by decide)
  exact outside (by decide +kernel)

end RegistrySnapshot
end Mahoquot.Registry
