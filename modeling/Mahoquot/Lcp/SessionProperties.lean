import Mahoquot.Library.Runs
import Mahoquot.Lcp.Matcher

/-! Request traffic over one matcher: a request is first resolved and, once it was served,
bound with the session that `resolve` returned; requests interleave freely. A session is
issued for a list of turns, and in orderly traffic every trajectory with it extends them. -/

set_option autoImplicit false

namespace Mahoquot.Lcp
open Library
variable {fewer groups : List Group}

structure Answered where
  namespaceId : String
  prepared : Prepared
  binding : Binding
  boundSince : List (List String)

structure Traffic where
  matcher : Matcher
  answered : List Answered

namespace Traffic

def empty : Traffic := ⟨.default, []⟩

inductive Op where
  | resolve (namespaceId : String) (prepared : Prepared) (now : Int)
  | bind (request : Nat) (member : String) (now : Int)
  | retainMembers (active : Std.ExtTreeSet String)

def noteBound (bound : Answered) (answered : Answered) : Answered :=
  if answered.namespaceId = bound.namespaceId then
    { answered with boundSince := bound.prepared.turns :: answered.boundSince }
  else answered

def step (sessionId : SessionId) (bounds : Bounds) (traffic : Traffic) : Op → Traffic
  | .resolve namespaceId prepared now =>
    match traffic.matcher.resolve namespaceId prepared bounds now sessionId with
    | (none, matcher) => { traffic with matcher := matcher }
    | (some binding, matcher) => ⟨matcher, traffic.answered ++ [⟨namespaceId, prepared, binding, []⟩]⟩
  | .bind request member now =>
    match traffic.answered[request]? with
    | none => traffic
    | some bound =>
      ⟨traffic.matcher.bind bound.namespaceId bound.prepared { bound.binding with member := member } bounds now,
        traffic.answered.map (noteBound bound)⟩
  | .retainMembers active => { traffic with matcher := traffic.matcher.retainMembers active }

def Coherent (groups : List Group) : Prop :=
  ∀ first ∈ groups, ∀ second ∈ groups, first.namespaceId = second.namespaceId →
    first.binding.session = second.binding.session →
    Comparable first.prepared.turns second.prepared.turns

/-- A request that cuts a live trajectory short (the longest one it cuts) still
holds all the turns that trajectory's session was issued for. -/
def KeepsIssuedTurns (sessionId : SessionId) (groups : List Group) (namespaceId : String)
    (turns : List String) (now : Int) : Prop :=
  ∀ group ∈ groups, group.namespaceId = namespaceId → now < group.expires →
    turns <+: group.prepared.turns → turns ≠ group.prepared.turns →
    (∀ other ∈ groups, other.namespaceId = namespaceId → now < other.expires → turns <+: other.prepared.turns →
      other.prepared.turns.length ≤ group.prepared.turns.length) →
    ∀ issued parent, group.binding.session = sessionId issued parent → issued <+: turns

/-- No live group that was bound since the request was resolved, and starts
with the same `minPrefix` turns, diverges from it. -/
def NoRivalBoundSince (minPrefix : Nat) (groups : List Group) (request : Answered) : Prop :=
  ∀ group ∈ groups, group.namespaceId = request.namespaceId →
    group.prepared.turns ∈ request.boundSince →
    group.prepared.turns.take minPrefix = request.prepared.turns.take minPrefix →
    Comparable group.prepared.turns request.prepared.turns

def Orderly (sessionId : SessionId) (minPrefix : Nat) (traffic : Traffic) : Op → Prop
  | .resolve namespaceId prepared now =>
    KeepsIssuedTurns sessionId traffic.matcher.groups namespaceId prepared.turns now
  | .bind request _ _ =>
    ∀ bound, traffic.answered[request]? = some bound →
      NoRivalBoundSince minPrefix traffic.matcher.groups bound
  | .retainMembers _ => True

def Op.HasMinPrefix (minPrefix : Nat) : Op → Prop
  | .resolve _ prepared _ => prepared.minPrefix = minPrefix
  | .bind .. | .retainMembers _ => True

end Traffic

open List

def SessionId.Injective (sessionId : SessionId) : Prop :=
  ∀ turns parent otherTurns otherParent,
    sessionId turns parent = sessionId otherTurns otherParent →
    turns = otherTurns ∧ parent = otherParent

def Rooted (sessionId : SessionId) (minPrefix : Nat) (turns : List String) (session : String) : Prop :=
  ∃ issued parent, session = sessionId issued parent ∧ issued <+: turns ∧
    minPrefix ≤ issued.length

variable {sessionId : SessionId} {minPrefix : Nat}

theorem Rooted.extend {turns longer : List String} {session : String}
    (rooted : Rooted sessionId minPrefix turns session) (grown : turns <+: longer) :
    Rooted sessionId minPrefix longer session := by
  obtain ⟨issued, parent, named, held, enough⟩ := rooted
  exact ⟨issued, parent, named, held.trans grown, enough⟩

theorem Rooted.issued_prefix {turns issued : List String} {parent : Option String}
    (rooted : Rooted sessionId minPrefix turns (sessionId issued parent))
    (injective : sessionId.Injective) : issued <+: turns := by
  obtain ⟨other, otherParent, named, held, _⟩ := rooted
  obtain ⟨rfl, _⟩ := injective _ _ _ _ named
  exact held

theorem Rooted.take_eq {first second : List String} {session : String}
    (firstRooted : Rooted sessionId minPrefix first session)
    (secondRooted : Rooted sessionId minPrefix second session) (injective : sessionId.Injective) :
    first.take minPrefix = second.take minPrefix := by
  obtain ⟨issued, parent, rfl, held, enough⟩ := firstRooted
  have other := secondRooted.issued_prefix injective
  have firstTake : first.take minPrefix = issued.take minPrefix := by
    obtain ⟨rest, rfl⟩ := held
    rw [take_append_of_le_length enough]
  have secondTake : second.take minPrefix = issued.take minPrefix := by
    obtain ⟨rest, rfl⟩ := other
    rw [take_append_of_le_length enough]
  rw [firstTake, secondTake]

/-- The groups a resolve matches against: uniform `minPrefix`, rooted sessions,
one trajectory per session. -/
structure GroupsValid (sessionId : SessionId) (minPrefix : Nat) (groups : List Group) : Prop where
  uniform : ∀ group ∈ groups, group.prepared.minPrefix = minPrefix
  rooted : ∀ group ∈ groups,
    Rooted sessionId minPrefix group.prepared.turns group.binding.session
  coherent : Traffic.Coherent groups

theorem GroupsValid.subset
    (valid : GroupsValid sessionId minPrefix groups) (subset : fewer ⊆ groups) :
    GroupsValid sessionId minPrefix fewer where
  uniform group member := valid.uniform group (subset member)
  rooted group member := valid.rooted group (subset member)
  coherent first firstMember second secondMember :=
    valid.coherent first (subset firstMember) second (subset secondMember)

theorem GroupsValid.push (valid : GroupsValid sessionId minPrefix groups)
    (group : Group) (uniform : group.prepared.minPrefix = minPrefix)
    (rooted : Rooted sessionId minPrefix group.prepared.turns group.binding.session)
    (comparable : ∀ other ∈ groups, other.namespaceId = group.namespaceId →
      other.binding.session = group.binding.session → Comparable other.prepared.turns group.prepared.turns) :
    GroupsValid sessionId minPrefix (groups ++ [group]) := by
  constructor
  · exact forall_mem_append.mpr ⟨valid.uniform, forall_mem_singleton.mpr uniform⟩
  · exact forall_mem_append.mpr ⟨valid.rooted, forall_mem_singleton.mpr rooted⟩
  · intro first firstMember second secondMember sameNamespace sameSession
    rcases mem_append.mp firstMember with firstOld | firstNew <;>
      rcases mem_append.mp secondMember with secondOld | secondNew
    · exact valid.coherent first firstOld second secondOld sameNamespace sameSession
    · obtain rfl := mem_singleton.mp secondNew
      exact comparable first firstOld sameNamespace sameSession
    · obtain rfl := mem_singleton.mp firstNew
      exact (comparable second secondOld sameNamespace.symm sameSession.symm).symm
    · obtain rfl := mem_singleton.mp firstNew
      obtain rfl := mem_singleton.mp secondNew
      exact .refl _

section Resolve
variable {groups : List Group} {namespaceId : String} {prepared : Prepared}

def Fits (sessionId : SessionId) (groups : List Group) (namespaceId : String) (prepared : Prepared)
    (session : String) : Prop :=
  Rooted sessionId prepared.minPrefix prepared.turns session ∧
    ∀ group ∈ groups, group.namespaceId = namespaceId → group.binding.session = session →
      Comparable group.prepared.turns prepared.turns

section
variable (valid : GroupsValid sessionId prepared.minPrefix groups)
include valid

/-- A session issued for turns no live group has in common with the request is
new to the namespace. -/
theorem fits_of_issued (injective : sessionId.Injective) {issued : List String}
    {parent : Option String} (held : issued <+: prepared.turns) (enough : prepared.minPrefix ≤ issued.length)
    (unshared : ∀ group ∈ groups, group.namespaceId = namespaceId →
      ¬ issued.length ≤ commonPrefixLength group.prepared.turns prepared.turns) :
    Fits sessionId groups namespaceId prepared (sessionId issued parent) := by
  refine ⟨⟨issued, parent, rfl, held, enough⟩, ?_⟩
  intro group member sameNamespace carries
  have rooted := valid.rooted group member
  rw [carries] at rooted
  exact absurd (length_le_commonPrefixLength (rooted.issued_prefix injective) held) (unshared group member sameNamespace)

theorem fits_inherit_fork (injective : sessionId.Injective) {best : Group} {common : Nat}
    (selected : bestMatch namespaceId prepared groups = some (best, common))
    (diverges : common < best.prepared.turns.length ∧ common < prepared.turns.length) :
    Fits sessionId groups namespaceId prepared (inherit sessionId prepared best common).session := by
  obtain ⟨_, _, _, enough, dominates⟩ := bestMatch_some selected
  have length : (prepared.turns.take (common + 1)).length = common + 1 := by
    rw [length_take]
    omega
  simp only [inherit, if_pos diverges]
  refine fits_of_issued valid injective ( take_prefix _ _) (by omega) ?_
  intro group member sameNamespace shared
  have uniform := valid.uniform group member
  have dominated := dominates group member sameNamespace (by omega)
  omega

theorem fits_inherit_keep {best : Group} {common : Nat}
    (selected : bestMatch namespaceId prepared groups = some (best, common))
    (continues : ¬ (common < best.prepared.turns.length ∧ common < prepared.turns.length))
    (issuedKept : ∀ issued parent, prepared.turns <+: best.prepared.turns → prepared.turns ≠ best.prepared.turns →
      best.binding.session = sessionId issued parent → issued <+: prepared.turns) :
    Fits sessionId groups namespaceId prepared (inherit sessionId prepared best common).session := by
  obtain ⟨member, sameNamespace, commonEq, enough, dominates⟩ := bestMatch_some selected
  have leBest := commonPrefixLength_le_left best.prepared.turns prepared.turns
  have leRequest := commonPrefixLength_le_right best.prepared.turns prepared.turns
  simp only [inherit, if_neg continues]
  rcases Nat.lt_or_ge common best.prepared.turns.length with shorter | whole
  · -- The request ends inside the matched trajectory.
    have cut : prepared.turns <+: best.prepared.turns := prefix_of_commonPrefixLength_eq_right (by omega)
    constructor
    · by_cases same : prepared.turns = best.prepared.turns
      · rw [same]
        exact valid.uniform best member ▸ valid.rooted best member
      · obtain ⟨issued, parent, named, held, issuedEnough⟩ := valid.rooted best member
        exact ⟨issued, parent, named, issuedKept issued parent cut same named, issuedEnough⟩
    · intro group found inNamespace carries
      rcases valid.coherent group found best member (inNamespace.trans sameNamespace.symm)
        carries with below | above
      · exact comparable_of_prefix_of_prefix below cut
      · exact .inr (cut.trans above)
  · -- The request continues the matched trajectory to its end and beyond.
    have grown : best.prepared.turns <+: prepared.turns := prefix_of_commonPrefixLength_eq (by omega)
    refine ⟨(valid.rooted best member).extend grown, ?_⟩
    intro group found inNamespace carries
    rcases valid.coherent group found best member (inNamespace.trans sameNamespace.symm)
      carries with below | above
    · exact .inl (below.trans grown)
    · have shared := length_le_commonPrefixLength above grown
      have uniform := valid.uniform group found
      have dominated := dominates group found inNamespace (by omega)
      have sameTurns := above.eq_of_length_le (by omega)
      exact .inl (sameTurns ▸ grown)

theorem fits_compact (injective : sessionId.Injective) (accepted : prepared.minPrefix ≤ prepared.turns.length)
    (unmatched : bestMatch namespaceId prepared groups = none) : Fits sessionId groups namespaceId prepared
      (compact sessionId namespaceId prepared groups).session := by
  have unshared : ∀ group ∈ groups, group.namespaceId = namespaceId →
      commonPrefixLength group.prepared.turns prepared.turns < prepared.minPrefix := by
    intro group member sameNamespace
    have few := bestMatch_none unmatched member sameNamespace
    rwa [valid.uniform group member, max_self] at few
  rcases compact_cases sessionId namespaceId prepared groups with isCold | ⟨parent, _, _, inherited⟩
  · rw [isCold]
    have length : (prepared.turns.take prepared.minPrefix).length = prepared.minPrefix := by
      rw [length_take]
      omega
    refine fits_of_issued valid injective ( take_prefix _ _) (by omega) ?_
    intro group member sameNamespace
    have few := unshared group member sameNamespace
    omega
  · rw [inherited]
    refine fits_of_issued valid injective (prefix_refl _) accepted ?_
    intro group member sameNamespace
    have few := unshared group member sameNamespace
    omega

end

/-- The session `resolve` returns fits the groups it was matched against. -/
theorem fits_resolve {matcher : Matcher} {bounds : Bounds} {now : Int} {binding : Binding}
    (valid : GroupsValid sessionId prepared.minPrefix matcher.groups)
    (injective : sessionId.Injective) (within : overBounds bounds matcher.groups = false)
    (kept : Traffic.KeepsIssuedTurns sessionId matcher.groups namespaceId prepared.turns now)
    (resolved : (matcher.resolve namespaceId prepared bounds now sessionId).1 = some binding) :
    Fits sessionId (matcher.groups.filter fun group => decide (now < group.expires))
      namespaceId prepared binding.session := by
  have live : GroupsValid sessionId prepared.minPrefix
      (matcher.groups.filter fun group => decide (now < group.expires)) :=
    valid.subset filter_sublist.subset
  simp only [Matcher.resolve, live_of_within within] at resolved
  split at resolved
  case isTrue => cases resolved
  case isFalse accepted =>
    simp only [refuses, Bool.or_eq_true, decide_eq_true_eq, not_or, not_lt] at accepted
    split at resolved
    case h_1 best common selected =>
      rw [← Option.some.inj resolved]
      by_cases diverges : common < best.prepared.turns.length ∧
          common < prepared.turns.length
      · exact fits_inherit_fork live injective selected diverges
      · refine fits_inherit_keep live selected diverges ?_
        obtain ⟨member, sameNamespace, commonEq, _, dominates⟩ := bestMatch_some selected
        obtain ⟨found, unexpired⟩ := mem_filter.mp member
        intro issued parent cut strict
        refine kept best found sameNamespace (by simpa using unexpired) cut strict ?_ issued parent
        intro other otherFound otherNamespace otherLive otherCut
        have otherMember : other ∈ matcher.groups.filter fun group =>
            decide (now < group.expires) :=
          mem_filter.mpr ⟨otherFound, by simpa using otherLive⟩
        have uniform := live.uniform other otherMember
        have shared := length_le_commonPrefixLength otherCut (prefix_refl prepared.turns)
        have bound := commonPrefixLength_le_right best.prepared.turns prepared.turns
        have dominated := dominates other otherMember otherNamespace (by omega)
        omega
    case h_2 unmatched =>
      rw [← Option.some.inj resolved]
      exact fits_compact live injective accepted.1.1.2 unmatched

end Resolve

namespace Traffic

/-- The invariant of orderly traffic. A live group that carries the session of
an answered request is on its trajectory, unless it was bound since. -/
structure Invariant (sessionId : SessionId) (bounds : Bounds) (minPrefix : Nat) (traffic : Traffic) : Prop where
  within : overBounds bounds traffic.matcher.groups = false
  groups : GroupsValid sessionId minPrefix traffic.matcher.groups
  uniform : ∀ request ∈ traffic.answered, request.prepared.minPrefix = minPrefix
  rooted : ∀ request ∈ traffic.answered,
    Rooted sessionId minPrefix request.prepared.turns request.binding.session
  onTrajectory : ∀ request ∈ traffic.answered, ∀ group ∈ traffic.matcher.groups,
    group.namespaceId = request.namespaceId →
    group.binding.session = request.binding.session →
    Comparable group.prepared.turns request.prepared.turns ∨
      group.prepared.turns ∈ request.boundSince

def Restricts (fewer groups : List Group) : Prop :=
  ∀ group ∈ fewer, ∃ original ∈ groups, group = { original with expires := group.expires }

theorem restricts_of_sublist (sublist : fewer.Sublist groups) : Restricts fewer groups :=
  fun group member => ⟨group, sublist.subset member, rfl⟩

theorem Restricts.groupsValid
    (restricts : Restricts fewer groups) (valid : GroupsValid sessionId minPrefix groups) :
    GroupsValid sessionId minPrefix fewer := by
  constructor
  · intro group member
    obtain ⟨original, found, same⟩ := restricts group member
    rw [same]
    exact valid.uniform original found
  · intro group member
    obtain ⟨original, found, same⟩ := restricts group member
    rw [same]
    exact valid.rooted original found
  · intro first firstMember second secondMember
    obtain ⟨firstOriginal, firstFound, firstSame⟩ := restricts first firstMember
    obtain ⟨secondOriginal, secondFound, secondSame⟩ := restricts second secondMember
    rw [firstSame, secondSame]
    exact valid.coherent firstOriginal firstFound secondOriginal secondFound

theorem Invariant.restrict {bounds : Bounds}
    {traffic : Traffic} (invariant : Invariant sessionId bounds minPrefix traffic)
    (matcher : Matcher) (restricts : Restricts matcher.groups traffic.matcher.groups)
    (within : overBounds bounds matcher.groups = false) :
    Invariant sessionId bounds minPrefix { traffic with matcher := matcher } where
  within := within
  groups := restricts.groupsValid invariant.groups
  uniform := invariant.uniform
  rooted := invariant.rooted
  onTrajectory := by
    intro request answered group member
    obtain ⟨original, found, same⟩ := restricts group member
    rw [same]
    exact invariant.onTrajectory request answered original found

section Steps
variable {bounds : Bounds} {traffic : Traffic}

theorem Invariant.resolve (invariant : Invariant sessionId bounds minPrefix traffic)
    (injective : sessionId.Injective) {namespaceId : String} {prepared : Prepared} {now : Int}
    (uniform : prepared.minPrefix = minPrefix)
    (kept : KeepsIssuedTurns sessionId traffic.matcher.groups namespaceId prepared.turns now) :
    Invariant sessionId bounds minPrefix (traffic.step sessionId bounds (.resolve namespaceId prepared now)) := by
  subst uniform
  have within := overBounds_resolve traffic.matcher namespaceId prepared bounds now sessionId
  have live : Restricts
      (traffic.matcher.resolve namespaceId prepared bounds now sessionId).2.groups
      (traffic.matcher.groups.filter fun group => decide (now < group.expires)) :=
    fun group => mem_resolve_groups
  have restricted := invariant.restrict
    (traffic.matcher.resolve namespaceId prepared bounds now sessionId).2
    (fun group member => by
      obtain ⟨original, found, same⟩ := live group member
      exact ⟨original, (mem_filter.mp found).1, same⟩) within
  cases answer : traffic.matcher.resolve namespaceId prepared bounds now sessionId with
  | mk result matcher =>
    rw [answer] at restricted live
    cases result with
    | none => simpa only [step, answer] using restricted
    | some binding =>
      have fits := fits_resolve invariant.groups injective invariant.within kept (by rw [answer])
      simp only [step, answer]
      refine ⟨restricted.within, restricted.groups, ?_, ?_, ?_⟩
      · exact forall_mem_append.mpr ⟨restricted.uniform, forall_mem_singleton.mpr rfl⟩
      · exact forall_mem_append.mpr ⟨restricted.rooted, forall_mem_singleton.mpr fits.1⟩
      · refine forall_mem_append.mpr ⟨restricted.onTrajectory, forall_mem_singleton.mpr ?_⟩
        intro group found sameNamespace carries
        obtain ⟨original, liveOriginal, same⟩ := live group found
        rw [same] at sameNamespace carries ⊢
        exact .inl (fits.2 original liveOriginal sameNamespace carries)

theorem noteBound_cases (bound request : Answered) : (noteBound bound request).namespaceId = request.namespaceId ∧
      (noteBound bound request).prepared = request.prepared ∧ (noteBound bound request).binding = request.binding ∧
      request.boundSince ⊆ (noteBound bound request).boundSince ∧ (request.namespaceId = bound.namespaceId →
        bound.prepared.turns ∈ (noteBound bound request).boundSince) := by
  unfold noteBound
  split
  case isTrue same => exact ⟨rfl, rfl, rfl, subset_cons_self _ _, fun _ => by simp⟩
  case isFalse other =>
    exact ⟨rfl, rfl, rfl, Subset.refl _, fun same => absurd same other⟩

section
variable (invariant : Invariant sessionId bounds minPrefix traffic)
include invariant

/-- Noting a bind on the answered requests keeps the invariant, and makes room
for a group on the bound trajectory. -/
theorem Invariant.note (bound : Answered) {matcher : Matcher} (within : overBounds bounds matcher.groups = false)
    (groups : GroupsValid sessionId minPrefix matcher.groups)
    (origin : ∀ group ∈ matcher.groups, group ∈ traffic.matcher.groups ∨ group.namespaceId = bound.namespaceId ∧
        group.prepared.turns = bound.prepared.turns) : Invariant sessionId bounds minPrefix
      ⟨matcher, traffic.answered.map (noteBound bound)⟩ := by
  refine ⟨within, groups, ?_, ?_, ?_⟩
  · intro request member
    obtain ⟨original, found, rfl⟩ := mem_map.mp member
    rw [(noteBound_cases bound original).2.1]
    exact invariant.uniform original found
  · intro request member
    obtain ⟨original, found, rfl⟩ := mem_map.mp member
    obtain ⟨_, samePrepared, sameBinding, _⟩ := noteBound_cases bound original
    rw [samePrepared, sameBinding]
    exact invariant.rooted original found
  · intro request member group groupMember sameNamespace carries
    obtain ⟨original, found, rfl⟩ := mem_map.mp member
    obtain ⟨sameNs, samePrepared, sameBinding, grown, noted⟩ := noteBound_cases bound original
    rw [sameNs] at sameNamespace
    rw [sameBinding] at carries
    rw [samePrepared]
    rcases origin group groupMember with old | ⟨boundNamespace, boundTurns⟩
    · rcases invariant.onTrajectory original found group old sameNamespace carries with
        comparable | since
      · exact .inl comparable
      · exact .inr (grown since)
    · rw [boundTurns]
      exact .inr (noted (sameNamespace.symm.trans boundNamespace))

theorem Invariant.bind (injective : sessionId.Injective) {bound : Answered} {request : Nat}
    (member : String) (now : Int) (found : traffic.answered[request]? = some bound)
    (noRival : NoRivalBoundSince minPrefix traffic.matcher.groups bound) : Invariant sessionId bounds minPrefix
      (traffic.step sessionId bounds (.bind request member now)) := by
  have answered := mem_of_getElem? found
  simp only [step, found]
  unfold Matcher.bind
  split
  · exact invariant.note bound invariant.within invariant.groups fun group => .inl
  · have kept : (traffic.matcher.groups.filter fun group =>
        decide (now < group.expires) && !(group.namespaceId == bound.namespaceId &&
          group.prepared.turns == bound.prepared.turns)) ⊆ traffic.matcher.groups :=
      filter_sublist.subset
    -- A rival carrying the same session would share the first turns of its root.
    have comparable : ∀ other ∈ traffic.matcher.groups,
        other.namespaceId = bound.namespaceId →
        other.binding.session = bound.binding.session →
        Comparable other.prepared.turns bound.prepared.turns := by
      intro other otherMember sameNamespace carries
      rcases invariant.onTrajectory bound answered other otherMember sameNamespace carries
        with comparable | since
      · exact comparable
      · have rooted := invariant.groups.rooted other otherMember
        rw [carries] at rooted
        exact noRival other otherMember sameNamespace since (rooted.take_eq (invariant.rooted bound answered) injective)
    have pushed := (invariant.groups.subset kept).push
      ⟨bound.namespaceId, bound.prepared, { bound.binding with member := member },
        expiry bounds now, wrappingAdd traffic.matcher.access 1⟩
      (invariant.uniform bound answered) (invariant.rooted bound answered)
      fun other otherMember => comparable other (kept otherMember)
    refine invariant.note bound (evict_within _ _) (pushed.subset (evict_sublist _ _).subset) fun group groupMember => ?_
    rcases mem_append.mp ((evict_sublist _ _).subset groupMember) with old | new
    · exact .inl (kept old)
    · obtain rfl := mem_singleton.mp new
      exact .inr ⟨rfl, rfl⟩

theorem Invariant.step (injective : sessionId.Injective) {op : Op}
    (uniform : op.HasMinPrefix minPrefix) (orderly : Orderly sessionId minPrefix traffic op) :
    Invariant sessionId bounds minPrefix (traffic.step sessionId bounds op) := by
  cases op with
  | resolve namespaceId prepared now => exact invariant.resolve injective uniform orderly
  | bind request member now =>
    cases found : traffic.answered[request]? with
    | none => simpa only [Traffic.step, found] using invariant
    | some bound => exact invariant.bind injective member now found (orderly bound found)
  | retainMembers active =>
    have kept : (traffic.matcher.retainMembers active).groups.Sublist traffic.matcher.groups := filter_sublist
    exact invariant.restrict _ (restricts_of_sublist kept) (overBounds_of_sublist kept invariant.within)

end

theorem empty_invariant (sessionId : SessionId) (bounds : Bounds) (minPrefix : Nat) :
    Invariant sessionId bounds minPrefix empty := by
  constructor <;> simp [empty, Matcher.default, overBounds]
  constructor <;> simp [Coherent]

end Steps

/-- In every run whose resolves keep issued turns and whose binds have no rival,
the live groups of a namespace that carry one session lie on one trajectory. -/
theorem session_on_one_trajectory (sessionId : SessionId) (injective : sessionId.Injective)
    (bounds : Bounds) (minPrefix : Nat) (ops : List Op) (uniform : ∀ op ∈ ops, op.HasMinPrefix minPrefix)
    (orderly : ∀ position op, ops[position]? = some op →
      Orderly sessionId minPrefix (stateAt (step sessionId bounds) empty ops position) op) (position : Nat) :
    Coherent (stateAt (step sessionId bounds) empty ops position).matcher.groups := by
  have invariant := stateAt_stretch (Invariant sessionId bounds minPrefix) (Nat.zero_le position)
      (empty_invariant sessionId bounds minPrefix) fun earlier op _ _ found before =>
        before.step injective (uniform op (mem_of_getElem? found))
          (orderly earlier op found)
  exact invariant.groups.coherent

instance (groups : List Group) : Decidable (Coherent groups) :=
  inferInstanceAs (Decidable (∀ _ ∈ groups, _))

end Traffic

/-- A session name that spells its turns and parent, each text as marked
characters up to a stop. -/
def spelledSessionId : SessionId := fun turns parent =>
  String.ofList ((match parent with
    | none => ['-']
    | some session => '+' :: spell session) ++ turns.flatMap spell)
where
  spell (text : String) : List Char := text.toList.flatMap (fun char => ['.', char]) ++ ['|']

open spelledSessionId (spell)

private theorem spell_append_inj {first second : List Char} {rest otherRest : List Char}
    (same : (first.flatMap fun char => ['.', char]) ++ ['|'] ++ rest =
    (second.flatMap fun char => ['.', char]) ++ ['|'] ++ otherRest) : first = second ∧ rest = otherRest := by
  induction first generalizing second with
  | nil => cases second <;> simp_all
  | cons char first ih =>
    cases second with
    | nil => simp at same
    | cons other second =>
      simp only [flatMap_cons, cons_append, cons.injEq, true_and] at same
      obtain ⟨rfl, tail⟩ := same
      obtain ⟨rfl, rest⟩ := ih tail
      exact ⟨rfl, rest⟩

theorem spell_append_injective {first second : String} {rest otherRest : List Char}
    (same : spell first ++ rest = spell second ++ otherRest) : first = second ∧ rest = otherRest := by
  obtain ⟨chars, rests⟩ := spell_append_inj same
  exact ⟨String.toList_injective chars, rests⟩

private theorem flatMap_spell_injective {first second : List String}
    (same : first.flatMap spell = second.flatMap spell) : first = second := by
  induction first generalizing second with
  | nil => cases second <;> simp_all [spell]
  | cons head first ih =>
    cases second with
    | nil => simp [spell] at same
    | cons other second =>
      obtain ⟨rfl, tail⟩ := spell_append_injective same
      rw [ih tail]

theorem spelledSessionId_injective : spelledSessionId.Injective := by
  intro turns parent otherTurns otherParent same
  have chars := String.ofList_injective same
  cases parent with
  | none =>
    cases otherParent with
    | none => exact ⟨flatMap_spell_injective (by simpa using chars), rfl⟩
    | some session => simp at chars
  | some session =>
    cases otherParent with
    | none => simp at chars
    | some otherSession =>
      simp only [cons_append, cons.injEq, true_and] at chars
      obtain ⟨rfl, rest⟩ := spell_append_injective chars
      exact ⟨flatMap_spell_injective rest, rfl⟩

namespace Traffic

def request (turns : List String) : Prepared := ⟨turns, turns.drop 1, "system", 1⟩

def interleavedRun : List Op :=
  [.resolve "n" (request ["s", "left"]) 0, .resolve "n" (request ["s", "right"]) 0, .bind 0 "m" 1, .bind 1 "m" 1]

/-- Strictly sequential requests: a fork, a request that truncates the fork,
the fork's member removed, then two requests that grow the truncated group. -/
def truncatingRun : List Op :=
  [.resolve "n" (request ["s", "y"]) 0, .bind 0 "old" 0, .resolve "n" (request ["s", "x", "z"]) 1, .bind 1 "old" 1,
    .resolve "n" (request ["s"]) 2, .bind 2 "new" 2,
    .retainMembers (.ofList ["new"]),
    .resolve "n" (request ["s", "w"]) 3, .bind 3 "new" 3,
    .resolve "n" (request ["s", "x", "q"]) 4, .bind 4 "new" 4]

/-- With an injective session name, either run ends with one session on two
diverging trajectories. -/
theorem session_on_diverging_trajectories : spelledSessionId.Injective ∧
    (∀ op ∈ interleavedRun ++ truncatingRun, op.HasMinPrefix 1) ∧
    ¬ Coherent (interleavedRun.foldl (step spelledSessionId .default) empty).matcher.groups ∧
    ¬ Coherent (truncatingRun.foldl (step spelledSessionId .default) empty).matcher.groups := by
  refine ⟨spelledSessionId_injective, ?_, by decide +kernel, by decide +kernel⟩
  simp [interleavedRun, truncatingRun, Op.HasMinPrefix, request]

def growingRun : List Op :=
  [.resolve "n" (request ["s", "left"]) 0, .bind 0 "m" 0, .resolve "n" (request ["s", "left", "next"]) 1, .bind 1 "m" 1]

theorem session_on_one_trajectory_growing :
    Coherent (stateAt (step spelledSessionId .default) empty growingRun 4).matcher.groups := by
  refine session_on_one_trajectory spelledSessionId spelledSessionId_injective .default 1 _
    (by simp [growingRun, Op.HasMinPrefix, request]) ?_ 4
  intro position op found
  rcases position with _ | _ | _ | _ | position
  · cases found
    exact fun group member => absurd member not_mem_nil
  · cases found
    exact fun bound answered group _ _ since => by
      cases answered
      exact absurd since not_mem_nil
  · cases found
    intro group member _ _ cut
    have groups : (stateAt (step spelledSessionId .default) empty growingRun 2).matcher.groups =
        [⟨"n", request ["s", "left"], ⟨spelledSessionId ["s"] none, none, "m"⟩,
          expiry .default 0, 1⟩] := by decide +kernel
    rw [groups, mem_singleton] at member
    subst member
    exact absurd cut (by decide)
  · cases found
    exact fun bound answered group _ _ since => by
      cases answered
      exact absurd since not_mem_nil
  · simp [growingRun] at found

end Traffic
end Mahoquot.Lcp
