import Mahoquot.Lcp.IsolationProperties

/-! What a matcher holds when every call has the same bounds. -/

set_option autoImplicit false

namespace Mahoquot.Lcp
open List

/-- Matchers built by calls with these bounds, the access counter not wrapping. -/
inductive Matcher.Served (bounds : Bounds) : Matcher → Prop where
  | default : Served bounds .default
  | resolve {matcher} (namespaceId prepared now sessionId) : Served bounds matcher →
      Served bounds (matcher.resolve namespaceId prepared bounds now sessionId).2
  | bind {matcher} (namespaceId prepared binding now) : Served bounds matcher →
      matcher.access + 1 < 2 ^ 64 →
      Served bounds (matcher.bind namespaceId prepared binding bounds now)
  | retainMembers {matcher} (active) : Served bounds matcher →
      Served bounds (matcher.retainMembers active)

structure Capped (bounds : Bounds) (groups : List Group) : Prop where
  few : groups.length ≤ bounds.maxGroups
  light : (groups.map fun group => group.prepared.turns.length).sum ≤ bounds.maxPrefixes

def Short (bounds : Bounds) (groups : List Group) : Prop :=
  ∀ group ∈ groups, group.prepared.turns.length ≤ bounds.maxTurns

def LongestSuffix {α : Type} (holds : List α → Prop) (items kept : List α) : Prop :=
  kept <:+ items ∧ holds kept ∧ ∀ other, other <:+ items → holds other → other <:+ kept

variable {bounds : Bounds} {matcher : Matcher} {groups : List Group}

theorem overBounds_eq_false : overBounds bounds groups = false ↔ Capped bounds groups := by
  simp only [overBounds, Bool.or_eq_false_iff, decide_eq_false_iff_not, not_lt]
  exact ⟨fun both => ⟨both.1, both.2⟩, fun capped => ⟨capped.1, capped.2⟩⟩

theorem oldestIndex_cons {group : Group}
    (ordered : (group :: groups).Pairwise fun first second => first.access < second.access) :
    oldestIndex (group :: groups) = some 0 := by
  unfold oldestIndex
  rw [zipIdx_cons, argmin_cons]
  cases least : (groups.zipIdx (0 + 1)).argmin fun entry => entry.1.access with
  | none => rfl
  | some entry =>
    have member : entry.1 ∈ groups := fst_mem_of_mem_zipIdx (argmin_mem least)
    have later := (pairwise_cons.1 ordered).1 entry.1 member
    dsimp only
    rw [if_neg (Nat.lt_asymm later)]
    rfl

/-- The loop drops the oldest groups, and stops at the first suffix within the bounds. -/
theorem evictLoop_longest (fuel : Nat) (ordered : groups.Pairwise fun first second => first.access < second.access) :
    evictLoop bounds fuel groups <:+ groups ∧
      ∀ other, other <:+ groups → Capped bounds other → other <:+ evictLoop bounds fuel groups := by
  induction fuel generalizing groups with
  | zero => exact ⟨suffix_refl _, fun other below _ => below⟩
  | succ fuel ih =>
    rw [evictLoop]
    split
    next exceeded =>
      cases groups with
      | nil => exact ⟨suffix_refl _, fun other below _ => below⟩
      | cons group groups =>
        obtain ⟨suffix, longest⟩ := ih (pairwise_cons.1 ordered).2
        rewrite [oldestIndex_cons ordered]
        refine ⟨suffix.trans (suffix_cons _ _), fun other below capped => ?_⟩
        obtain rfl | below := suffix_cons_iff.1 below
        · rw [overBounds_eq_false.2 capped] at exceeded
          cases exceeded
        · exact longest other below capped
    next => exact ⟨suffix_refl _, fun other below _ => below⟩

variable {namespaceId : String} {prepared : Prepared} {binding : Binding} {now : Int}

theorem turns_of_taken (taken : declines bounds prepared = false) :
    prepared.turns.length ≤ bounds.maxTurns ∧ prepared.turns.length ≤ bounds.maxPrefixes := by
  simp only [declines, Bool.or_eq_false_iff, decide_eq_false_iff_not, not_lt] at taken
  exact ⟨taken.1.2, taken.2⟩

theorem holds_bind (holds : Capped bounds matcher.groups ∧ Short bounds matcher.groups)
    (noWrap : matcher.access + 1 < 2 ^ 64) :
    Capped bounds (matcher.bind namespaceId prepared binding bounds now).groups ∧
      Short bounds (matcher.bind namespaceId prepared binding bounds now).groups := by
  cases taken : declines bounds prepared with
  | true => rwa [bind_declined taken]
  | false =>
    rw [bind_taken taken noWrap]
    refine ⟨overBounds_eq_false.1 (evict_within _ _), fun group member => ?_⟩
    obtain old | new := mem_append.1 ((evict_sublist _ _).subset member)
    · exact holds.2 group (mem_of_mem_filter old)
    · exact mem_singleton.1 new ▸ (turns_of_taken taken).1

theorem Matcher.Served.holds (served : matcher.Served bounds) :
    matcher.Reachable ∧ Capped bounds matcher.groups ∧ Short bounds matcher.groups := by
  induction served with
  | default => exact ⟨.default, ⟨Nat.zero_le _, Nat.zero_le _⟩, nofun⟩
  | resolve namespaceId prepared now sessionId served ih =>
    refine ⟨.resolve _ _ _ _ _ ih.1, overBounds_eq_false.1 (overBounds_resolve ..), fun group member => ?_⟩
    obtain ⟨original, found, same⟩ := mem_resolve_groups member
    rw [same]
    exact ih.2.2 original (mem_of_mem_filter found)
  | bind namespaceId prepared binding now served noWrap ih =>
    exact ⟨.bind _ _ _ _ _ ih.1 noWrap, holds_bind ih.2 noWrap⟩
  | retainMembers active served ih =>
    exact ⟨.retainMembers _ ih.1, overBounds_eq_false.1 (overBounds_of_sublist filter_sublist
      (overBounds_eq_false.2 ih.2.1)), fun group member => ih.2.2 group (mem_of_mem_filter member)⟩

/-- After every `bind` the groups have different stamps and trajectories, and are the
longest suffix within the bounds of those neither expired nor replaced. The group that was
bound is among them if there may be one at all. -/
theorem bind_keeps_longest_recent (served : matcher.Served bounds) (noWrap : matcher.access + 1 < 2 ^ 64)
    (namespaceId : String) (prepared : Prepared) (binding : Binding) (now : Int) :
    let after := matcher.bind namespaceId prepared binding bounds now
    let bound : Group := ⟨namespaceId, prepared, binding, expiry bounds now, matcher.access + 1⟩
    Capped bounds after.groups ∧ Short bounds after.groups ∧ after.Traced ∧
      (declines bounds prepared = true → after = matcher) ∧
      (declines bounds prepared = false →
        (candidates matcher bound now).Pairwise (fun first second => first.access < second.access) ∧
          LongestSuffix (Capped bounds) (candidates matcher bound now) after.groups ∧
          (1 ≤ bounds.maxGroups → bound ∈ after.groups)) := by
  intro after bound
  obtain ⟨reached, holds⟩ := served.holds
  obtain ⟨capped, short⟩ := holds_bind holds noWrap
  refine ⟨capped, short, traced_bind reached.traced noWrap, bind_declined, fun taken => ?_⟩
  have ordered := pairwise_map.1 (traced_candidates reached.traced (rfl : bound.access = _) now).ordered
  have kept : after.groups = evict bounds (candidates matcher bound now) := congrArg Matcher.groups (bind_taken taken noWrap)
  obtain ⟨suffix, longest⟩ := evictLoop_longest (candidates matcher bound now).length ordered
  rw [← evict, ← kept] at suffix longest
  refine ⟨ordered, ⟨suffix, capped, longest⟩, fun room => ?_⟩
  have alone : Capped bounds [bound] := ⟨room, by simpa using (turns_of_taken taken).2⟩
  exact (longest [bound] (suffix_append _ _) alone).subset mem_cons_self

namespace CapacitySample

def narrow : Bounds := ⟨4, 2, 8, 1000⟩

def request (turn : String) : Prepared := ⟨[turn], [], "", 1⟩

def answer : Binding := ⟨"s", none, "m"⟩

def full : Matcher :=
  (Matcher.default.bind "n" (request "a") answer narrow 0).bind "n" (request "b") answer narrow 1

/-- A third trajectory takes the place of the first. -/
theorem third_bound_evicts_first :
    full.Served narrow ∧ full.access + 1 < 2 ^ 64 ∧ declines narrow (request "c") = false ∧
      (full.bind "n" (request "c") answer narrow 2).groups.map Group.access = [2, 3] ∧
      ⟨"n", request "c", answer, expiry narrow 2, full.access + 1⟩ ∈
        (full.bind "n" (request "c") answer narrow 2).groups := by
  have served : full.Served narrow := .bind _ _ _ _ (.bind _ _ _ _ .default (by decide)) (by decide)
  have kept := (bind_keeps_longest_recent served (by decide) "n" (request "c") answer 2).2.2.2.2 rfl
  exact ⟨served, by decide, rfl, by decide, kept.2.2 (by decide)⟩

end CapacitySample
end Mahoquot.Lcp
