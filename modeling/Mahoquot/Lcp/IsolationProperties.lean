import Mahoquot.Lcp.Matcher

/-! Namespace isolation of the matcher: what one namespace sees of `resolve` is
a function of that namespace's own groups. -/

set_option autoImplicit false

namespace Mahoquot.Lcp
open Library List

/-- Matchers built by the module's own calls, the access counter not wrapping. -/
inductive Matcher.Reachable : Matcher → Prop where
  | default : Reachable .default
  | resolve {matcher} (namespaceId prepared bounds now sessionId) :
      Reachable matcher →
      Reachable (matcher.resolve namespaceId prepared bounds now sessionId).2
  | bind {matcher} (namespaceId prepared binding bounds now) :
      Reachable matcher → matcher.access + 1 < 2 ^ 64 →
      Reachable (matcher.bind namespaceId prepared binding bounds now)
  | retainMembers {matcher} (active) :
      Reachable matcher → Reachable (matcher.retainMembers active)

/-- What a group is known by; renewal leaves it. -/
structure Trace where
  namespaceId : String
  turns : List String
  access : Nat

def Group.trace (group : Group) : Trace := ⟨group.namespaceId, group.prepared.turns, group.access⟩

/-- Trajectories in the order of their stamps, no two of them the same. -/
structure Traced (access : Nat) (traces : List Trace) : Prop where
  issued : ∀ trace ∈ traces, trace.access ≤ access
  ordered : traces.Pairwise fun first second => first.access < second.access
  apart : traces.Pairwise fun first second =>
    ¬ (first.namespaceId = second.namespaceId ∧ first.turns = second.turns)

def Matcher.Traced (matcher : Matcher) : Prop :=
  Lcp.Traced matcher.access (matcher.groups.map Group.trace)

/-- A request that `bind` does not take. -/
def declines (bounds : Bounds) (prepared : Prepared) : Bool :=
  prepared.minPrefix == 0 || decide (prepared.turns.length > bounds.maxTurns) ||
    decide (prepared.turns.length > bounds.maxPrefixes)

/-- The groups neither expired nor replaced by the one that is bound, and that one. -/
def candidates (matcher : Matcher) (bound : Group) (now : Int) : List Group :=
  (matcher.groups.filter fun group => decide (now < group.expires) &&
    !(group.namespaceId == bound.namespaceId && group.prepared.turns == bound.prepared.turns)) ++ [bound]

variable {groups : List Group} {access : Nat} {matcher : Matcher} {bounds : Bounds}
  {namespaceId : String} {prepared : Prepared} {binding : Binding} {now : Int}

theorem bind_declined (declined : declines bounds prepared = true) :
    matcher.bind namespaceId prepared binding bounds now = matcher :=
  if_pos declined

theorem bind_taken (taken : declines bounds prepared = false) (noWrap : matcher.access + 1 < 2 ^ 64) :
    matcher.bind namespaceId prepared binding bounds now = ⟨evict bounds (candidates matcher
        ⟨namespaceId, prepared, binding, expiry bounds now, matcher.access + 1⟩ now), matcher.access + 1⟩ := by
  unfold Matcher.bind
  rw [wrappingAdd_of_lt noWrap]
  exact if_neg (Bool.eq_false_iff.1 taken)

theorem Traced.sublist {traces fewer : List Trace} (traced : Traced access traces)
    (sublist : fewer.Sublist traces) : Traced access fewer where
  issued trace member := traced.issued trace (sublist.subset member)
  ordered := traced.ordered.sublist sublist
  apart := traced.apart.sublist sublist

theorem Traced.push {traces : List Trace} {trace : Trace} (traced : Traced access traces)
    (fresh : trace.access = access + 1)
    (unlike : ∀ other ∈ traces, ¬ (other.namespaceId = trace.namespaceId ∧ other.turns = trace.turns)) :
    Traced (access + 1) (traces ++ [trace]) where
  issued := forall_mem_append.2 ⟨fun other member => Nat.le_succ_of_le (traced.issued other member),
    forall_mem_singleton.2 fresh.le⟩
  ordered := pairwise_append.2 ⟨traced.ordered, pairwise_singleton _ _, fun other member =>
    forall_mem_singleton.2 (fresh ▸ Nat.lt_succ_of_le (traced.issued other member))⟩
  apart := pairwise_append.2 ⟨traced.apart, pairwise_singleton _ _, fun other member =>
    forall_mem_singleton.2 (unlike other member)⟩

theorem traced_candidates (traced : matcher.Traced) {bound : Group}
    (fresh : bound.access = matcher.access + 1) (now : Int) :
    Traced (matcher.access + 1) ((candidates matcher bound now).map Group.trace) := by
  rw [candidates, map_append]
  refine (traced.sublist (filter_sublist.map _)).push fresh fun trace member same => ?_
  obtain ⟨group, found, rfl⟩ := mem_map.1 member
  have unlike := (mem_filter.1 found).2
  simp only [Group.trace] at same
  simp [same] at unlike

theorem traced_bind (traced : matcher.Traced) (noWrap : matcher.access + 1 < 2 ^ 64) :
    (matcher.bind namespaceId prepared binding bounds now).Traced := by
  cases taken : declines bounds prepared with
  | true => rwa [bind_declined taken]
  | false =>
    rw [bind_taken taken noWrap]
    exact (traced_candidates traced rfl now).sublist ((evict_sublist _ _).map _)

theorem traced_resolve (traced : matcher.Traced) (sessionId : SessionId) :
    (matcher.resolve namespaceId prepared bounds now sessionId).2.Traced := by
  have live := traced.sublist (((evict_sublist bounds _).trans
    (filter_sublist (p := fun group : Group => decide (now < group.expires)))).map Group.trace)
  unfold Matcher.resolve Matcher.Traced
  dsimp only
  split
  · exact live
  · split
    · rw [map_refresh fun _ _ => rfl]
      exact live
    · exact live

theorem Matcher.Reachable.traced (reached : matcher.Reachable) : matcher.Traced := by
  induction reached with
  | default => exact ⟨nofun, .nil, .nil⟩
  | resolve namespaceId prepared bounds now sessionId _ ih => exact traced_resolve ih sessionId
  | bind namespaceId prepared binding bounds now _ noWrap ih => exact traced_bind ih noWrap
  | retainMembers active _ ih => exact ih.sublist (filter_sublist.map _)

theorem Matcher.Reachable.distinct (reached : matcher.Reachable) (keeps : Group → Bool) :
    ((matcher.groups.filter keeps).map Group.access).Nodup :=
  pairwise_map.2 (((pairwise_map.1 reached.traced.ordered).imp Nat.ne_of_lt).sublist filter_sublist)

/-- With distinct stamps renewal touches exactly the group that carries the
stamp, wherever it stands. -/
theorem refresh_eq_map (distinct : (groups.map Group.access).Nodup) (access : Nat) (expires : Int) :
    refresh access expires groups = groups.map fun group =>
      if group.access = access then { group with expires := expires } else group := by
  induction groups with
  | nil => rfl
  | cons head groups ih =>
    rw [map_cons, nodup_cons] at distinct
    have tail := ih distinct.2
    unfold refresh at tail ⊢
    rw [findIdx?_cons]
    by_cases hit : head.access = access
    · have others : ∀ group ∈ groups, group.access ≠ access := by
        intro group member same
        exact distinct.1 (hit ▸ same ▸ mem_map_of_mem member)
      simp only [hit, beq_self_eq_true, if_true, modify_zero_cons, map_cons, cons.injEq, true_and]
      conv_lhs => rw [← map_id groups]
      exact map_congr_left fun group member => by simp [others group member]
    · cases found : groups.findIdx? (fun group => group.access == access) with
      | none | some => simpa [hit, found] using tail

def ofNamespace (namespaceId : String) (groups : List Group) : List Group :=
  groups.filter fun group => group.namespaceId == namespaceId

theorem ofNamespace_filter (namespaceId : String) (keep : Group → Bool) (groups : List Group) :
    ofNamespace namespaceId (groups.filter keep) = (ofNamespace namespaceId groups).filter keep := by
  simp only [ofNamespace, filter_filter, Bool.and_comm]

theorem ofNamespace_refresh (distinct : (groups.map Group.access).Nodup) (namespaceId : String)
    (access : Nat) (expires : Int) : ofNamespace namespaceId (refresh access expires groups) =
      (ofNamespace namespaceId groups).map fun group =>
        if group.access = access then { group with expires := expires } else group := by
  rw [refresh_eq_map distinct, ofNamespace, filter_map]
  congr 1
  refine filter_congr fun group _ => ?_
  simp only [Function.comp_apply]
  split <;> rfl

variable {namespaceId : String} {prepared : Prepared}

theorem bestMatch_congr {first second : List Group}
    (same : ofNamespace namespaceId first = ofNamespace namespaceId second) :
    bestMatch namespaceId prepared first = bestMatch namespaceId prepared second := by
  simp only [ofNamespace] at same
  simp only [bestMatch, prefixMatches, same]

theorem compact_congr {first second : List Group} (sessionId : SessionId)
    (same : ofNamespace namespaceId first = ofNamespace namespaceId second) :
    compact sessionId namespaceId prepared first = compact sessionId namespaceId prepared second := by
  have candidates : compactionCandidates namespaceId prepared first =
      compactionCandidates namespaceId prepared second := by
    have narrowed := congrArg (filter fun group : Group =>
      group.prepared.environment == prepared.environment) same
    simp only [ofNamespace, filter_filter] at narrowed
    simp only [compactionCandidates, Bool.and_comm (_ == namespaceId), narrowed]
  simp only [compact, candidates]

/-- Whom `resolve` returns: nobody, or the member of a live group of the
namespace. -/
theorem resolve_member {sessionId : SessionId}
    (resolved : (matcher.resolve namespaceId prepared bounds now sessionId).1 = some binding) :
    binding.member = "" ∨ ∃ group ∈ matcher.groups, group.namespaceId = namespaceId ∧
      now < group.expires ∧ group.binding.member = binding.member := by
  have unexpired : ∀ group ∈ evict bounds (matcher.groups.filter fun group =>
      decide (now < group.expires)), group ∈ matcher.groups ∧ now < group.expires := by
    intro group member
    simpa using (evict_sublist _ _).subset member
  unfold Matcher.resolve at resolved
  dsimp only at resolved
  split at resolved
  · cases resolved
  · split at resolved
    case h_1 best common selected =>
      obtain ⟨member, sameNamespace, _⟩ := bestMatch_some selected
      obtain ⟨found, live⟩ := unexpired best member
      refine .inr ⟨best, found, sameNamespace, live, ?_⟩
      rw [← Option.some.inj resolved, inherit]
      split <;> rfl
    case h_2 =>
      rw [← Option.some.inj resolved]
      rcases compact_cases sessionId namespaceId prepared _ with isCold | ⟨parent, member, sameNamespace, inherited⟩
      · exact .inl (by rw [isCold]; rfl)
      · obtain ⟨found, live⟩ := unexpired parent member
        exact .inr ⟨parent, found, sameNamespace, live, by rw [inherited]⟩

/-- Two matchers within the bounds that agree on the groups of a namespace
answer its requests alike and still agree on its groups afterwards; the member
returned, if any, comes from an unexpired group of that namespace. -/
theorem resolve_namespace_isolated {first second : Matcher} (firstReached : first.Reachable)
    (secondReached : second.Reachable) (namespaceId : String) (prepared : Prepared)
    (bounds : Bounds) (now : Int) (sessionId : SessionId) (firstWithin : overBounds bounds first.groups = false)
    (secondWithin : overBounds bounds second.groups = false)
    (same : ofNamespace namespaceId first.groups = ofNamespace namespaceId second.groups) :
    (first.resolve namespaceId prepared bounds now sessionId).1 =
        (second.resolve namespaceId prepared bounds now sessionId).1 ∧ ofNamespace namespaceId
          (first.resolve namespaceId prepared bounds now sessionId).2.groups = ofNamespace namespaceId
          (second.resolve namespaceId prepared bounds now sessionId).2.groups ∧ ∀ binding,
        (first.resolve namespaceId prepared bounds now sessionId).1 = some binding →
        binding.member = "" ∨ ∃ group ∈ first.groups, group.namespaceId = namespaceId ∧
          now < group.expires ∧ group.binding.member = binding.member := by
  have live := congrArg (filter fun group : Group => decide (now < group.expires)) same
  rw [← ofNamespace_filter, ← ofNamespace_filter] at live
  have firstDistinct := firstReached.distinct fun group => decide (now < group.expires)
  have secondDistinct := secondReached.distinct fun group => decide (now < group.expires)
  refine ⟨?_, ?_, fun binding => resolve_member⟩
  · simp only [Matcher.resolve, live_of_within firstWithin, live_of_within secondWithin,
      bestMatch_congr live, compact_congr sessionId live]
    split
    · rfl
    · split <;> rfl
  · simp only [Matcher.resolve, live_of_within firstWithin, live_of_within secondWithin, bestMatch_congr live]
    split
    · exact live
    · split
      · simp only [ofNamespace_refresh firstDistinct, ofNamespace_refresh secondDistinct, live]
      · exact live

theorem resolve_ignores_foreign_group : let request : Prepared := ⟨["s", "u"], ["s", "u"], "system", 2⟩
    let sessionId : SessionId := fun turns parent =>
      parent.getD "root" ++ ":" ++ "/".intercalate turns
    let own := Matcher.default.bind "n" request ⟨"root:s/u", none, "second"⟩ .default 0
    let shared := own.bind "other" request ⟨"foreign", none, "third"⟩ .default 0
    (own.resolve "n" request .default 1 sessionId).1 =
      (shared.resolve "n" request .default 1 sessionId).1 := by
  intro request sessionId own shared
  have ownReached : own.Reachable := .bind _ _ _ _ _ .default (by decide)
  exact (resolve_namespace_isolated ownReached (.bind _ _ _ _ _ ownReached (by decide))
    "n" request .default 1 sessionId (by decide) (by decide) (by decide)).1

end Mahoquot.Lcp
