import Mahoquot.Library.Chain
import Mahoquot.Registry.Composition

/-! Alias resolution on checked snapshots: the resolver and the validators walk the chain
of alias targets and accept the same chains. -/

set_option autoImplicit false

namespace Mahoquot.Registry
open Library Library.Chain
variable {registry : RegistrySnapshot} {last : ModelId}
namespace RegistrySnapshot

def aliasTarget (registry : RegistrySnapshot) (id : ModelId) : Option ModelId :=
  registry.aliases[id]?.map ModelAliasRule.target

theorem aliasTarget_eq_none {id : ModelId} : registry.aliasTarget id = none ↔ registry.aliases[id]? = none := by
  simp [aliasTarget]

theorem toOption_followAlias (registry : RegistrySnapshot) (requested : ModelId) (fuel : Nat)
    (current : ModelId) (visited : List ModelId) : (registry.followAlias requested fuel current visited).toOption =
      walk registry.aliasTarget fuel current visited := by
  induction fuel generalizing current visited with
  | zero =>
    rw [followAlias, walk, aliasTarget]
    cases registry.aliases[current]? with
    | none => rfl
    | some rule =>
      simp only [Option.map_some]
      split <;> rfl
  | succ fuel ih =>
    rw [followAlias, walk, aliasTarget]
    cases registry.aliases[current]? with
    | none => rfl
    | some rule =>
      simp only [Option.map_some]
      split
      · rfl
      · exact ih rule.target (visited ++ [current])

theorem followAlias_eq_ok {requested current : ModelId} {fuel : Nat} {visited : List ModelId}
    (trail : Trail registry.aliasTarget visited current) :
    registry.followAlias requested fuel current visited = .ok last ↔
      ∃ hops ≤ fuel, Leads registry.aliasTarget hops current last := by
  rw [← walk_eq_some_iff trail, ← toOption_followAlias registry requested]
  cases registry.followAlias requested fuel current visited with
  | error error => simp [Except.toOption]
  | ok found => simp [Except.toOption]

theorem resolveAlias_eq_ok {requested : ModelId} : registry.resolveAlias requested = .ok last ↔
      ∃ hops ≤ maxAliasDepth, Leads registry.aliasTarget hops requested last :=
  followAlias_eq_ok fun _ member => nomatch member

/-- The validators start one hop later with one node visited, which comes to
the same bound. -/
theorem walkAlias_eq_ok {aliasId : ModelId} {rule : ModelAliasRule}
    (listed : registry.aliases[aliasId]? = some rule) : registry.walkAlias (aliasId, rule) = .ok last ↔
      ∃ hops ≤ maxAliasDepth, Leads registry.aliasTarget hops aliasId last := by
  have step : registry.aliasTarget aliasId = some rule.target := by simp [aliasTarget, listed]
  have first : Path registry.aliasTarget 1 aliasId rule.target := ⟨rule.target, step, rfl⟩
  rw [walkAlias]
  split
  · rename_i same
    constructor
    · intro accepted
      cases accepted
    · rintro ⟨hops, _, leads⟩
      rw [← same] at first
      exact (leads.acyclic first).elim
  · have trail : Trail registry.aliasTarget [aliasId] rule.target := List.forall_mem_singleton.mpr ⟨0, first⟩
    rw [followAlias_eq_ok trail]
    constructor
    · rintro ⟨hops, bounded, leads⟩
      exact ⟨hops + 1, Nat.add_le_of_le_sub (by decide) bounded, (leads_cons step).mpr leads⟩
    · rintro ⟨hops, bounded, leads⟩
      cases hops with
      | zero => exact absurd leads (not_leads_zero step)
      | succ hops => exact ⟨hops, Nat.le_sub_of_add_le bounded, (leads_cons step).mp leads⟩

/-- Every alias walk of a validator ends. -/
def WalksEnd (registry : RegistrySnapshot) : Prop :=
  ∀ aliasId rule, registry.aliases[aliasId]? = some rule →
    ∃ last, registry.walkAlias (aliasId, rule) = .ok last

theorem WalksEnd.resolveAlias (ends : registry.WalksEnd) (requested : ModelId) :
    ∃ canonical, registry.resolveAlias requested = .ok canonical ∧ registry.aliases[canonical]? = none := by
  have leads : ∃ hops ≤ maxAliasDepth, ∃ canonical,
      Leads registry.aliasTarget hops requested canonical := by
    cases listed : registry.aliases[requested]? with
    | none => exact ⟨0, Nat.zero_le _, requested, leads_zero (aliasTarget_eq_none.mpr listed)⟩
    | some rule =>
      obtain ⟨last, walked⟩ := ends requested rule listed
      obtain ⟨hops, bounded, leads⟩ := (walkAlias_eq_ok listed).mp walked
      exact ⟨hops, bounded, last, leads⟩
  obtain ⟨hops, bounded, canonical, leads⟩ := leads
  exact ⟨canonical, resolveAlias_eq_ok.mpr ⟨hops, bounded, leads⟩, aliasTarget_eq_none.mp leads.2⟩

end RegistrySnapshot

namespace RegistryBuilder
variable {builder : RegistryBuilder}

theorem build_eq_ok (built : builder.build = .ok registry) :
    registry = builder.snapshot ∧ ∀ aliasId rule, builder.aliases[aliasId]? = some rule →
        builder.checkAlias (aliasId, rule) = .ok () := by
  rw [build, unit_bind_eq_ok] at built
  obtain ⟨checked, built⟩ := built
  split at built
  · cases built
  · cases built
    exact ⟨rfl, forM_toList_eq_ok.mp checked⟩

theorem build_of_toBool (passed : builder.build.toBool = true) : builder.build = .ok builder.snapshot := by
  cases built : builder.build with
  | error error => simp [built, Except.toBool] at passed
  | ok registry => rw [(build_eq_ok built).1]

theorem walksEnd_of_build (built : builder.build = .ok registry) : registry.WalksEnd := by
  obtain ⟨rfl, checked⟩ := build_eq_ok built
  intro aliasId rule listed
  have accepted := checked aliasId rule listed
  rw [checkAlias, bind_eq_ok] at accepted
  obtain ⟨last, walked, _⟩ := accepted
  exact ⟨last, walked⟩

end RegistryBuilder

namespace RegistrySnapshot

theorem walksEnd_of_validate (valid : registry.validate = .ok ()) : registry.WalksEnd := by
  intro aliasId rule listed
  obtain ⟨last, walked, _⟩ := (validate_eq_ok.mp valid).targets aliasId rule listed
  exact ⟨last, walked⟩

theorem walkAlias_congr {first second : RegistrySnapshot} (same : first.aliases = second.aliases)
    {aliasId : ModelId} {rule : ModelAliasRule} (listed : second.aliases[aliasId]? = some rule)
    (walked : first.walkAlias (aliasId, rule) = .ok last) : second.walkAlias (aliasId, rule) = .ok last := by
  have targets : first.aliasTarget = second.aliasTarget := by
    unfold aliasTarget
    rw [same]
  rw [walkAlias_eq_ok listed, ← targets]
  rwa [walkAlias_eq_ok (by rw [same]; exact listed)] at walked

theorem walksEnd_of_compose {base : RegistrySnapshot} {settings : LocalSettings}
    (composed : base.composeWithSettings settings = .ok registry) : registry.WalksEnd := by
  obtain ⟨rfl, valid⟩ := locallyValid_of_compose composed
  intro aliasId rule listed
  obtain ⟨last, walked, _⟩ := valid.targets aliasId rule listed
  have same : (base.withAliases settings).aliases = (base.composed settings).aliases := rfl
  exact ⟨last, walkAlias_congr same listed walked⟩

/-- The snapshot went through one of the three validators. -/
inductive Accepted (registry : RegistrySnapshot) : Prop where
  | built {builder : RegistryBuilder} (built : builder.build = .ok registry)
  | composed {base : RegistrySnapshot} {settings : LocalSettings}
      (composed : base.composeWithSettings settings = .ok registry)
  | validated (valid : registry.validate = .ok ())

theorem Accepted.walksEnd (accepted : registry.Accepted) : registry.WalksEnd := by
  cases accepted with
  | built built => exact RegistryBuilder.walksEnd_of_build built
  | composed composed => exact walksEnd_of_compose composed
  | validated valid => exact walksEnd_of_validate valid

theorem resolveAlias_total (registry : RegistrySnapshot) : (registry.Accepted → ∀ requested, ∃ canonical,
      registry.resolveAlias requested = .ok canonical ∧ registry.aliases[canonical]? = none) ∧
    ∀ aliasId rule hops last, registry.aliases[aliasId]? = some rule → Leads registry.aliasTarget hops aliasId last →
      (hops ≤ maxAliasDepth → registry.walkAlias (aliasId, rule) = .ok last ∧
        registry.resolveAlias aliasId = .ok last) ∧ (maxAliasDepth < hops → ¬ registry.Accepted ∧
        (∀ other, registry.walkAlias (aliasId, rule) ≠ .ok other) ∧
        ∀ other, registry.resolveAlias aliasId ≠ .ok other) := by
  constructor
  · intro accepted requested
    exact accepted.walksEnd.resolveAlias requested
  · intro aliasId rule hops last listed leads
    have unresolved : maxAliasDepth < hops → ∀ other, registry.resolveAlias aliasId ≠ .ok other := by
      intro long other resolved
      obtain ⟨others, bounded, again⟩ := resolveAlias_eq_ok.mp resolved
      obtain ⟨same, _⟩ := leads.unique again
      omega
    have unwalked : maxAliasDepth < hops →
        ∀ other, registry.walkAlias (aliasId, rule) ≠ .ok other := by
      intro long other walked
      exact unresolved long other (resolveAlias_eq_ok.mpr ((walkAlias_eq_ok listed).mp walked))
    refine ⟨fun short => ?_, fun long => ⟨fun accepted => ?_, unwalked long, unresolved long⟩⟩
    · exact ⟨(walkAlias_eq_ok listed).mpr ⟨hops, short, leads⟩, resolveAlias_eq_ok.mpr ⟨hops, short, leads⟩⟩
    · obtain ⟨other, walked⟩ := accepted.walksEnd aliasId rule listed
      exact unwalked long other walked

end RegistrySnapshot

def aliasChain (hops : Nat) : RegistryBuilder :=
  (List.range hops).foldl
    (fun builder hop => builder.addAlias (String.ofList (List.replicate (hop + 1) 'm'))
      (String.ofList (List.replicate (hop + 2) 'm')) none)
    ((RegistryBuilder.new .embeddedFallback).registerProvider .codex .open)

theorem resolveAlias_total_at_limit : (aliasChain 10).build = .ok (aliasChain 10).snapshot ∧
      (∃ canonical, (aliasChain 10).snapshot.resolveAlias "m" = .ok canonical ∧
        (aliasChain 10).snapshot.aliases[canonical]? = none) ∧
      (aliasChain 10).snapshot.resolveAlias "m" = .ok "mmmmmmmmmmm" ∧ ¬ (aliasChain 11).snapshot.Accepted := by
  have built : (aliasChain 10).build = .ok (aliasChain 10).snapshot := RegistryBuilder.build_of_toBool (by decide +kernel)
  refine ⟨built, ?_, ?_, ?_⟩
  · exact (RegistrySnapshot.resolveAlias_total _).1 (.built built) "m"
  · exact (((RegistrySnapshot.resolveAlias_total (aliasChain 10).snapshot).2 "m" ⟨"m", "mm", none⟩
      10 "mmmmmmmmmmm" (by decide +kernel) (by decide +kernel)).1 le_rfl).2
  · exact (((RegistrySnapshot.resolveAlias_total (aliasChain 11).snapshot).2 "m" ⟨"m", "mm", none⟩
      11 "mmmmmmmmmmmm" (by decide +kernel) (by decide +kernel)).2 (by decide)).1

end Mahoquot.Registry
