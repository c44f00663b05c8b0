import Mathlib.Data.List.Dedup
import Mathlib.Data.Nat.Basic
import Mathlib.Data.Prod.Lex
import Mahoquot.Library.CommonPrefix
import Mahoquot.Library.Selection
import Mahoquot.Types
import Mathlib.Algebra.Order.BigOperators.Group.List
import Mathlib.Algebra.Order.Group.Nat

/-! Bounded, namespace-scoped conversation trajectories: the longest-common-prefix matcher
that decides which session a request continues. Eviction and renewal keep trajectories, and
the best match dominates its namespace. -/

set_option autoImplicit false

namespace Mahoquot.Lcp
open Library

structure Prepared where
  turns : List String
  tail : List String
  environment : String
  minPrefix : Nat
deriving Repr, DecidableEq, Inhabited

structure Bounds where
  maxTurns : Nat
  maxGroups : Nat
  maxPrefixes : Nat
  ttlMs : Int
deriving Repr, DecidableEq

def Bounds.default : Bounds := ⟨1024, 4096, 262144, 3600000⟩

structure Binding where
  session : String
  parent : Option String
  member : String
deriving Repr, DecidableEq, Inhabited

structure Group where
  namespaceId : String
  prepared : Prepared
  binding : Binding
  expires : Int
  access : Nat
deriving Repr, DecidableEq, Inhabited

structure Matcher where
  groups : List Group
  access : Nat
deriving Repr, DecidableEq

def Matcher.default : Matcher := ⟨[], 0⟩

/-- The digest of the turns a session starts at and of its parent session. -/
abbrev SessionId := List String → Option String → String

variable (bounds : Bounds)

def expiry (now : Int) : Int := saturatingAdd now (max bounds.ttlMs 0)

def overBounds (groups : List Group) : Bool :=
  decide (groups.length > bounds.maxGroups) ||
    decide ((groups.map fun group => group.prepared.turns.length).sum > bounds.maxPrefixes)

def oldestIndex (groups : List Group) : Option Nat :=
  (groups.zipIdx.argmin fun entry => entry.1.access).map Prod.snd

def evictLoop (bounds : Bounds) : Nat → List Group → List Group
  | 0, groups => groups
  | fuel + 1, groups =>
    if overBounds bounds groups then
      match oldestIndex groups with
      | none => groups
      | some index => evictLoop bounds fuel (groups.eraseIdx index)
    else groups

def evict (groups : List Group) : List Group :=
  evictLoop bounds groups.length groups

def refuses (prepared : Prepared) : Bool :=
  prepared.minPrefix == 0 || decide (prepared.turns.length < prepared.minPrefix) ||
    decide (prepared.turns.length > bounds.maxTurns) ||
    decide (prepared.turns.length > bounds.maxPrefixes)

def cold (sessionId : SessionId) (prepared : Prepared) : Binding :=
  ⟨sessionId (prepared.turns.take prepared.minPrefix) none, none, ""⟩

/-- Groups of the namespace that share enough leading turns, with how many. -/
def prefixMatches (namespaceId : String) (prepared : Prepared) (groups : List Group) : List (Group × Nat) :=
  (groups.filter fun group => group.namespaceId == namespaceId).filterMap fun group =>
    let common := commonPrefixLength group.prepared.turns prepared.turns
    if common ≥ max prepared.minPrefix group.prepared.minPrefix then some (group, common)
    else none

/-- Longest common prefix first, then the longest trajectory, then recency. -/
def matchKey (candidate : Group × Nat) : Nat ×ₗ Nat ×ₗ Nat :=
  toLex (candidate.2, toLex (candidate.1.prepared.turns.length, candidate.1.access))

def bestMatch (namespaceId : String) (prepared : Prepared) (groups : List Group) : Option (Group × Nat) :=
  maxByKey? matchKey (prefixMatches namespaceId prepared groups)

def refresh (access : Nat) (expires : Int) (groups : List Group) : List Group :=
  match groups.findIdx? fun group => group.access == access with
  | none => groups
  | some index => groups.modify index fun group => { group with expires := expires }

/-- A request that leaves the matched trajectory before its end starts a
session of its own; one that continues or truncates it keeps its session. -/
def inherit (sessionId : SessionId) (prepared : Prepared) (group : Group) (common : Nat) : Binding :=
  if common < group.prepared.turns.length ∧ common < prepared.turns.length then
    { session := sessionId (prepared.turns.take (common + 1)) none
      parent := some (sessionId (prepared.turns.take common) none)
      member := group.binding.member }
  else group.binding

variable (prepared : Prepared)

/-- Turns shared, going backwards, by the request's tail up to `last` and the
group's tail. -/
def tailMatch (group : Group) (last : Nat) : Nat :=
  commonPrefixLength (prepared.tail.take (last + 1)).reverse group.prepared.tail.reverse

def overlapAt (group : Group) (overlap last : Nat) : Nat :=
  let count := tailMatch prepared group last
  let candidateStart := prepared.turns.length - prepared.tail.length + last + 1 - count
  let parentStart := group.prepared.turns.length - count
  if count ≥ 2 ∧ candidateStart ≤ prepared.minPrefix ∧
      (candidateStart > 0 ∨ parentStart > 0) then max overlap count
  else overlap

def overlap (group : Group) : Nat :=
  (List.range' 1 (prepared.tail.length - 1)).foldl (overlapAt prepared group) 0

/-- One iteration of the compaction scan: the candidates with the best overlap
so far. -/
def scanGroup (scan : List Group × Nat) (group : Group) : List Group × Nat :=
  let found := overlap prepared group
  let scan := if found > scan.2 then ([], found) else scan
  if found ≥ 2 ∧ found = scan.2 then (scan.1 ++ [group], scan.2) else scan

def compactionCandidates (namespaceId : String) (prepared : Prepared) (groups : List Group) : List Group :=
  ((groups.filter fun group => group.namespaceId == namespaceId &&
    group.prepared.environment == prepared.environment).foldl (scanGroup prepared) ([], 0)).1

/-- Inherit only an unambiguous trailing overlap; otherwise start cold. -/
def compact (sessionId : SessionId) (namespaceId : String) (prepared : Prepared) (groups : List Group) : Binding :=
  let candidates := compactionCandidates namespaceId prepared groups
  if candidates.length > 16 then cold sessionId prepared
  else if (candidates.map fun group => group.binding.session).dedup.length = 1 then
    match candidates with
    | [] => cold sessionId prepared
    | group :: _ =>
      { session := sessionId prepared.turns (some group.binding.session)
        parent := some group.binding.session
        member := group.binding.member }
  else cold sessionId prepared

namespace Matcher

def resolve (matcher : Matcher) (namespaceId : String) (prepared : Prepared) (bounds : Bounds)
    (now : Int) (sessionId : SessionId) : Option Binding × Matcher :=
  let live := evict bounds (matcher.groups.filter fun group => decide (now < group.expires))
  if refuses bounds prepared then (none, { matcher with groups := live })
  else
    match bestMatch namespaceId prepared live with
    | some (group, common) =>
      (some (inherit sessionId prepared group common),
        { matcher with groups := refresh group.access (expiry bounds now) live })
    | none => (some (compact sessionId namespaceId prepared live), { matcher with groups := live })

def bind (matcher : Matcher) (namespaceId : String) (prepared : Prepared) (binding : Binding)
    (bounds : Bounds) (now : Int) : Matcher :=
  if prepared.minPrefix == 0 || decide (prepared.turns.length > bounds.maxTurns) ||
      decide (prepared.turns.length > bounds.maxPrefixes) then matcher
  else
    let kept := matcher.groups.filter fun group => decide (now < group.expires) &&
      !(group.namespaceId == namespaceId && group.prepared.turns == prepared.turns)
    let access := wrappingAdd matcher.access 1
    let group : Group := ⟨namespaceId, prepared, binding, expiry bounds now, access⟩
    ⟨evict bounds (kept ++ [group]), access⟩

def retainMembers (matcher : Matcher) (active : Std.ExtTreeSet String) : Matcher :=
  { matcher with
    groups := matcher.groups.filter fun group => active.contains group.binding.member }

end Matcher

open List

theorem evictLoop_sublist (bounds : Bounds) (fuel : Nat) (groups : List Group) :
    (evictLoop bounds fuel groups).Sublist groups := by
  induction fuel generalizing groups with
  | zero => exact Sublist.refl _
  | succ fuel ih =>
    unfold evictLoop
    split
    case isFalse => exact Sublist.refl _
    case isTrue =>
      split
      · exact Sublist.refl _
      · exact (ih _).trans (eraseIdx_sublist _ _)

theorem evict_sublist (bounds : Bounds) (groups : List Group) : (evict bounds groups).Sublist groups :=
  evictLoop_sublist bounds groups.length groups

variable {groups : List Group} {group : Group} {bounds : Bounds} {prepared : Prepared}
  {namespaceId : String}

theorem evict_of_within (within : overBounds bounds groups = false) : evict bounds groups = groups := by
  unfold evict
  cases groups with
  | nil => rfl
  | cons group groups => simp [evictLoop, within]

theorem oldestIndex_lt {index : Nat} (oldest : oldestIndex groups = some index) : index < groups.length := by
  obtain ⟨⟨group, position⟩, least, rfl⟩ := Option.map_eq_some_iff.mp oldest
  have located := mem_zipIdx_iff_getElem?.mp (argmin_mem least)
  exact (List.getElem?_eq_some_iff.mp located).1

private theorem evictLoop_within {fuel : Nat} (enough : groups.length ≤ fuel) :
    overBounds bounds (evictLoop bounds fuel groups) = false := by
  induction fuel generalizing groups with
  | zero =>
    obtain rfl := eq_nil_of_length_eq_zero (Nat.le_zero.mp enough)
    simp [evictLoop, overBounds]
  | succ fuel ih =>
    unfold evictLoop
    split
    case isFalse within => simpa using within
    case isTrue exceeded =>
      split
      case h_1 none =>
        rw [oldestIndex, Option.map_eq_none_iff, argmin_eq_none, zipIdx_eq_nil_iff] at none
        subst none
        simp [overBounds] at exceeded
      case h_2 index oldest =>
        have inRange := oldestIndex_lt oldest
        apply ih
        rw [length_eraseIdx_of_lt inRange]
        omega

theorem evict_within (bounds : Bounds) (groups : List Group) : overBounds bounds (evict bounds groups) = false :=
  evictLoop_within (Nat.le_refl _)

theorem overBounds_of_sublist {fewer : List Group} (sublist : fewer.Sublist groups)
    (within : overBounds bounds groups = false) : overBounds bounds fewer = false := by
  simp only [overBounds, Bool.or_eq_false_iff, decide_eq_false_iff_not, not_lt] at within ⊢
  have lengths := sublist.length_le
  have turns := (sublist.map fun group => group.prepared.turns.length).sum_le_sum (fun _ _ => Nat.zero_le _)
  exact ⟨lengths.trans within.1, turns.trans within.2⟩

theorem live_of_within (within : overBounds bounds groups = false) (now : Int) :
    evict bounds (groups.filter fun group => decide (now < group.expires)) =
      groups.filter fun group => decide (now < group.expires) :=
  evict_of_within (overBounds_of_sublist filter_sublist within)

theorem mem_refresh {access : Nat} {expires : Int} (member : group ∈ refresh access expires groups) :
    ∃ original ∈ groups, group = { original with expires := group.expires } := by
  unfold refresh at member
  split at member
  · exact ⟨group, member, rfl⟩
  · obtain ⟨position, located⟩ := getElem?_of_mem member
    rw [getElem?_modify] at located
    obtain ⟨original, found, same⟩ := Option.map_eq_some_iff.mp located
    refine ⟨original, mem_of_getElem? found, ?_⟩
    subst same
    split <;> rfl

theorem map_refresh {β : Type} {view : Group → β}
    (blind : ∀ group expires, view { group with expires := expires } = view group) (access : Nat)
    (expires : Int) (groups : List Group) : (refresh access expires groups).map view = groups.map view := by
  unfold refresh
  split
  · rfl
  · apply ext_getElem?
    intro position
    rw [getElem?_map, getElem?_map, getElem?_modify, Option.map_eq_map, Option.map_map]
    congr 1
    funext group
    split
    · exact blind group expires
    · rfl

theorem overBounds_congr {first second : List Group} (same : first.map Group.prepared = second.map Group.prepared) :
    overBounds bounds first = overBounds bounds second := by
  have lengths := congrArg length same
  have turns := congrArg (map fun prepared : Prepared => prepared.turns.length) same
  simp only [length_map] at lengths
  simp only [map_map, Function.comp_def] at turns
  simp only [overBounds, lengths, turns]

theorem mem_resolve_groups {matcher : Matcher} {now : Int} {sessionId : SessionId}
    (member : group ∈ (matcher.resolve namespaceId prepared bounds now sessionId).2.groups) :
    ∃ original ∈ matcher.groups.filter fun group => decide (now < group.expires),
      group = { original with expires := group.expires } := by
  have kept := (evict_sublist bounds (matcher.groups.filter fun group =>
    decide (now < group.expires))).subset
  unfold Matcher.resolve at member
  dsimp only at member
  split at member
  · exact ⟨group, kept member, rfl⟩
  · split at member
    · obtain ⟨original, found, same⟩ := mem_refresh member
      exact ⟨original, kept found, same⟩
    · exact ⟨group, kept member, rfl⟩

theorem overBounds_resolve (matcher : Matcher) (namespaceId : String) (prepared : Prepared)
    (bounds : Bounds) (now : Int) (sessionId : SessionId) : overBounds bounds
      (matcher.resolve namespaceId prepared bounds now sessionId).2.groups = false := by
  unfold Matcher.resolve
  dsimp only
  split
  · exact evict_within _ _
  · split
    · rw [overBounds_congr (map_refresh (fun _ _ => rfl) _ _ _)]
      exact evict_within _ _
    · exact evict_within _ _

theorem mem_prefixMatches {common : Nat} : (group, common) ∈ prefixMatches namespaceId prepared groups ↔
      group ∈ groups ∧ group.namespaceId = namespaceId ∧
        common = commonPrefixLength group.prepared.turns prepared.turns ∧
        max prepared.minPrefix group.prepared.minPrefix ≤ common := by
  simp only [prefixMatches, mem_filterMap, mem_filter, beq_iff_eq]
  constructor
  · rintro ⟨found, ⟨member, sameNamespace⟩, selected⟩
    split at selected
    · obtain ⟨rfl, rfl⟩ := Prod.mk.injEq .. ▸ Option.some.inj selected
      exact ⟨member, sameNamespace, rfl, by assumption⟩
    · cases selected
  · rintro ⟨member, sameNamespace, rfl, enough⟩
    exact ⟨group, ⟨member, sameNamespace⟩, by rw [if_pos enough]⟩

/-- The best match is a group of the namespace; no other match shares more
turns, and none that shares as many is longer. -/
theorem bestMatch_some {best : Group} {common : Nat}
    (selected : bestMatch namespaceId prepared groups = some (best, common)) :
    best ∈ groups ∧ best.namespaceId = namespaceId ∧ common = commonPrefixLength best.prepared.turns prepared.turns ∧
      max prepared.minPrefix best.prepared.minPrefix ≤ common ∧ ∀ group ∈ groups, group.namespaceId = namespaceId →
        max prepared.minPrefix group.prepared.minPrefix ≤ commonPrefixLength group.prepared.turns prepared.turns →
        commonPrefixLength group.prepared.turns prepared.turns < common ∨
          commonPrefixLength group.prepared.turns prepared.turns = common ∧
            group.prepared.turns.length ≤ best.prepared.turns.length := by
  obtain ⟨member, sameNamespace, commonEq, enough⟩ := mem_prefixMatches.mp (maxByKey?_mem selected)
  refine ⟨member, sameNamespace, commonEq, enough, ?_⟩
  intro group found inNamespace matching
  have listed := mem_prefixMatches.mpr ⟨found, inNamespace, rfl, matching⟩
  have dominated := le_maxByKey? selected listed
  simp only [matchKey, Prod.Lex.toLex_le_toLex] at dominated
  omega

theorem bestMatch_none (unmatched : bestMatch namespaceId prepared groups = none)
    (member : group ∈ groups) (sameNamespace : group.namespaceId = namespaceId) :
    commonPrefixLength group.prepared.turns prepared.turns < max prepared.minPrefix group.prepared.minPrefix := by
  by_contra matching
  have listed := mem_prefixMatches.mpr ⟨member, sameNamespace, rfl, not_lt.mp matching⟩
  rw [maxByKey?_eq_none_iff.mp unmatched] at listed
  cases listed

theorem mem_scanGroup {scan : List Group × Nat} {head : Group}
    (member : group ∈ (scanGroup prepared scan head).1) : group ∈ scan.1 ∨ group = head := by
  unfold scanGroup at member
  by_cases better : overlap prepared head > scan.2
  · by_cases enough : overlap prepared head ≥ 2
    · simp only [better, enough, if_true, and_self, nil_append, mem_singleton] at member
      exact .inr member
    · simp [better, enough] at member
  · simp only [better, if_false] at member
    split at member
    · rcases mem_append.mp member with earlier | final
      · exact .inl earlier
      · exact .inr (mem_singleton.mp final)
    · exact .inl member

theorem scan_subset (prepared : Prepared) (groups : List Group) (scan : List Group × Nat)
    (member : group ∈ (groups.foldl (scanGroup prepared) scan).1) : group ∈ scan.1 ∨ group ∈ groups := by
  induction groups generalizing scan with
  | nil => exact .inl member
  | cons head groups ih =>
    rcases ih _ member with scanned | later
    · rcases mem_scanGroup scanned with earlier | rfl
      · exact .inl earlier
      · exact .inr mem_cons_self
    · exact .inr (mem_cons_of_mem _ later)

theorem mem_compactionCandidates (member : group ∈ compactionCandidates namespaceId prepared groups) :
    group ∈ groups ∧ group.namespaceId = namespaceId := by
  rcases scan_subset _ _ _ member with scanned | listed
  · cases scanned
  · obtain ⟨found, matched⟩ := mem_filter.mp listed
    simp only [Bool.and_eq_true, beq_iff_eq] at matched
    exact ⟨found, matched.1⟩

/-- Without a prefix match the session is the cold one, or one issued for the
whole request under a parent of the same namespace. -/
theorem compact_cases (sessionId : SessionId) (namespaceId : String) (prepared : Prepared) (groups : List Group) :
    compact sessionId namespaceId prepared groups = cold sessionId prepared ∨
      ∃ parent ∈ groups, parent.namespaceId = namespaceId ∧ compact sessionId namespaceId prepared groups =
          ⟨sessionId prepared.turns (some parent.binding.session),
            some parent.binding.session, parent.binding.member⟩ := by
  have candidates : ∀ group ∈ compactionCandidates namespaceId prepared groups,
      group ∈ groups ∧ group.namespaceId = namespaceId :=
    fun _ => mem_compactionCandidates
  unfold compact
  generalize compactionCandidates namespaceId prepared groups = found at candidates
  dsimp only
  split
  · exact .inl rfl
  · split
    · cases found with
      | nil => exact .inl rfl
      | cons parent _ =>
        obtain ⟨member, sameNamespace⟩ := candidates parent mem_cons_self
        exact .inr ⟨parent, member, sameNamespace, rfl⟩
    · exact .inl rfl

end Mahoquot.Lcp
