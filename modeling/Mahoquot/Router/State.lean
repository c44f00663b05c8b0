import Mahoquot.Types
import Mathlib.Data.Nat.Basic
import Mahoquot.Library.Selection

/-! The router: member-keyed service stamps, scoped session affinity and the live-member
allowlist behind `select`, and what one call can do. `u64` counters are naturals kept below
`2 ^ 64` by `wrappingAdd`. -/

set_option autoImplicit false

namespace Mahoquot

def strategyStrictRoundRobin : UInt8 := 0
def strategyFillFirst : UInt8 := 1

def strategyToU8 : Strategy → UInt8
  | .strictRoundRobin => strategyStrictRoundRobin
  | .fillFirst => strategyFillFirst

def u8ToStrategy (val : UInt8) : Strategy :=
  if val = strategyFillFirst then .fillFirst else .strictRoundRobin

def affinityMaxIdle : Nat := 10000

def affinityMaxEntries : Nat := 1024

structure RouterState where
  /-- Live pool member ids; `none` until `retainMembers` activates the allowlist. -/
  active : Option (Std.ExtTreeSet String)
  lastServed : Std.ExtTreeMap String Nat
  seq : Nat
  /-- Scoped affinity key to member id and the sequence number of its last use. -/
  affinity : Std.ExtTreeMap String (String × Nat)

namespace RouterState

def default : RouterState := ⟨none, ∅, 0, ∅⟩

variable (state : RouterState)

def admits (id : String) : Bool :=
  match state.active with
  | none => true
  | some active => active.contains id

def lastSeq (id : String) : Nat :=
  state.lastServed[id]?.getD 0

def advance : RouterState :=
  { state with seq := wrappingAdd state.seq 1 }

def stampMember (id : String) : RouterState :=
  { state with lastServed := state.lastServed.insert id state.seq }

def bindAffinity (key id : String) : RouterState :=
  { state with affinity := state.affinity.insert key (id, state.seq) }

/-- Drop idle scopes once the map is over its size limit. -/
def evictIdle : RouterState :=
  if state.affinity.size > affinityMaxEntries then
    let cutoff := state.seq - affinityMaxIdle
    { state with
      affinity := state.affinity.filter fun _ binding => decide (binding.2 ≥ cutoff) }
  else state

/-- The usable affinity binding of the hint: its key, the bound member and
that member's index in the pool. -/
def boundIndex (members : List PoolMember) (hint : SessionHint) (nowUnixMs : Int) : Option (String × String × Nat) :=
  match hint.affinityKey with
  | none => none
  | some key =>
    match state.affinity[key]? with
    | none => none
    | some (boundId, _) =>
      if state.admits boundId then
        (members.findIdx? fun member =>
          member.id == boundId && member.health.isAvailable nowUnixMs).map
            fun idx => (key, boundId, idx)
      else none

def firstAvailable (members : List PoolMember) (nowUnixMs : Int) : Option Nat :=
  members.findIdx? fun member => member.health.isAvailable nowUnixMs

/-- One iteration of the `StrictRoundRobin` scan; `best` is the index and stamp
of the member to serve so far. -/
def scanMember (nowUnixMs : Int) (best : Option (Nat × Nat)) (entry : PoolMember × Nat) : Option (Nat × Nat) :=
  if !entry.1.health.isAvailable nowUnixMs then best
  else
    let lastSeq := state.lastSeq entry.1.id
    match best with
    | none => some (entry.2, lastSeq)
    | some (_, minSeq) => if lastSeq < minSeq then some (entry.2, lastSeq) else best

def leastServed (members : List PoolMember) (nowUnixMs : Int) : Option Nat :=
  (members.zipIdx.foldl (state.scanMember nowUnixMs) none).map Prod.fst

/-- Bookkeeping for a member chosen by strategy: a member outside the
allowlist only advances the counter. -/
def recordChosen (chosenId : String) (hint : SessionHint) : RouterState :=
  let state := state.advance
  if state.admits chosenId then
    let state := state.stampMember chosenId
    match hint.affinityKey with
    | some key => (state.bindAffinity key chosenId).evictIdle
    | none => state
  else state

end RouterState

structure Router where
  strategyCode : UInt8
  state : RouterState

namespace Router

def new (strategy : Strategy) : Router := ⟨strategyToU8 strategy, RouterState.default⟩

variable (router : Router)

def strategy : Strategy := u8ToStrategy router.strategyCode

def setStrategy (strategy : Strategy) : Router :=
  { router with strategyCode := strategyToU8 strategy }

/-- Record that `memberId` serves the session `affinityKey`, overriding any
in-memory binding. -/
def selectForced (memberId : String) (affinityKey : Option String) : Router :=
  if !router.state.admits memberId then router
  else
    let state := router.state.advance.stampMember memberId
    match affinityKey with
    | some key => { router with state := state.bindAffinity key memberId }
    | none => { router with state := state }

def strategyIndex (members : List PoolMember) (nowUnixMs : Int) : Option Nat :=
  match router.strategy with
  | .fillFirst => RouterState.firstAvailable members nowUnixMs
  | .strictRoundRobin => router.state.leastServed members nowUnixMs

/-- Index into `members` of the next member to serve, or `none` if none is
available, with the router after the selection. -/
def select (members : List PoolMember) (hint : SessionHint) (nowUnixMs : Int) : Option Nat × Router :=
  match router.state.boundIndex members hint nowUnixMs with
  | some (key, boundId, idx) =>
    (some idx, { router with
      state := (router.state.advance.stampMember boundId).bindAffinity key boundId })
  | none =>
    match router.strategyIndex members nowUnixMs with
    | none => (none, router)
    | some idx =>
      match members[idx]? with
      -- `members[chosen_idx]` cannot miss: the index was found in `members`.
      | none => (none, router)
      | some chosen => (some idx, { router with state := router.state.recordChosen chosen.id hint })

def boundAffinityMember (key : String) : Option String :=
  router.state.affinity[key]?.map Prod.fst

/-- Prune bookkeeping of members no longer present and activate the allowlist;
returns how many rotation entries went. -/
def retainMembers (active : Std.ExtTreeSet String) : Nat × Router :=
  let lastServed := router.state.lastServed.filter fun id _ => active.contains id
  (router.state.lastServed.size - lastServed.size,
    { router with state := { router.state with
        active := some active
        lastServed := lastServed
        affinity := router.state.affinity.filter fun _ binding =>
          active.contains binding.1 } })

inductive Op where
  | select (members : List PoolMember) (hint : SessionHint) (nowUnixMs : Int)
  | selectForced (memberId : String) (affinityKey : Option String)
  | setStrategy (strategy : Strategy)
  | retainMembers (active : Std.ExtTreeSet String)

def step : Op → Router
  | .select members hint nowUnixMs => (router.select members hint nowUnixMs).2
  | .selectForced memberId affinityKey => router.selectForced memberId affinityKey
  | .setStrategy strategy => router.setStrategy strategy
  | .retainMembers active => (router.retainMembers active).2

def served : Op → Option String
  | .select members hint nowUnixMs =>
    (router.select members hint nowUnixMs).1.bind fun idx =>
      members[idx]?.map PoolMember.id
  | .selectForced memberId _ => if router.state.admits memberId then some memberId else none
  | .setStrategy _ | .retainMembers _ => none

/-- Sequence numbers a call assigns: one per service. -/
def increments (op : Op) : Nat :=
  if (router.served op).isSome then 1 else 0

def Op.key? : Op → Option String
  | .select _ hint _ => hint.affinityKey
  | .selectForced _ affinityKey => affinityKey
  | .setStrategy _ | .retainMembers _ => none

def Op.retains : Op → Bool
  | .retainMembers _ => true
  | .select .. | .selectForced .. | .setStrategy _ => false

end Router

open Library List
namespace RouterState
variable {state : RouterState} {members : List PoolMember} {hint : SessionHint}
    {nowUnixMs : Int}

private theorem scan_eq_argmin (state : RouterState) (nowUnixMs : Int) (entries : List (PoolMember × Nat)) :
    entries.foldl (state.scanMember nowUnixMs) none =
      ((entries.filter fun entry => entry.1.health.isAvailable nowUnixMs).argmin
        fun entry => state.lastSeq entry.1.id).map fun entry => (entry.2, state.lastSeq entry.1.id) := by
  induction entries using reverseRecOn with
  | nil => rfl
  | append_singleton entries entry ih =>
    rw [foldl_append, filter_append, ih]
    cases available : entry.1.health.isAvailable nowUnixMs with
    | false => simp [scanMember, available]
    | true =>
      have kept : [entry].filter (fun entry => entry.1.health.isAvailable nowUnixMs) = [entry] := by simp [available]
      rw [kept, argmin_concat]
      cases (entries.filter fun entry => entry.1.health.isAvailable nowUnixMs).argmin
          fun entry => state.lastSeq entry.1.id with
      | none => simp [scanMember, available]
      | some held =>
        by_cases smaller : state.lastSeq entry.1.id < state.lastSeq held.1.id <;>
          simp [scanMember, available, smaller]

theorem leastServed_eq_argmin (state : RouterState) (members : List PoolMember) (nowUnixMs : Int) :
    state.leastServed members nowUnixMs =
      ((members.zipIdx.filter fun entry => entry.1.health.isAvailable nowUnixMs).argmin
        fun entry => state.lastSeq entry.1.id).map Prod.snd := by
  rw [leastServed, scan_eq_argmin, Option.map_map]
  rfl

theorem leastServed_some {idx : Nat} (selected : state.leastServed members nowUnixMs = some idx) :
    ∃ chosen, members[idx]? = some chosen ∧ chosen.health.isAvailable nowUnixMs = true ∧
      ∀ member ∈ members, member.health.isAvailable nowUnixMs = true →
        state.lastSeq chosen.id ≤ state.lastSeq member.id := by
  rw [leastServed_eq_argmin] at selected
  obtain ⟨⟨chosen, position⟩, least, rfl⟩ := Option.map_eq_some_iff.mp selected
  obtain ⟨listed, available⟩ := mem_filter.mp (argmin_mem least)
  refine ⟨chosen, mem_zipIdx_iff_getElem?.mp listed, available, ?_⟩
  intro member found memberAvailable
  obtain ⟨memberIdx, located⟩ := getElem?_of_mem found
  have entry : (member, memberIdx) ∈ members.zipIdx.filter
      fun entry => entry.1.health.isAvailable nowUnixMs :=
    mem_filter.mpr ⟨mem_zipIdx_iff_getElem?.mpr located, memberAvailable⟩
  have leastEntry := le_of_mem_argmin entry least
  exact leastEntry

theorem leastServed_eq_none_iff : state.leastServed members nowUnixMs = none ↔
      ∀ member ∈ members, member.health.isAvailable nowUnixMs = false := by
  rw [leastServed_eq_argmin, Option.map_eq_none_iff, argmin_eq_none, filter_eq_nil_iff]
  constructor
  · intro absent member found
    obtain ⟨memberIdx, located⟩ := getElem?_of_mem found
    simpa using absent (member, memberIdx) (mem_zipIdx_iff_getElem?.mpr located)
  · rintro absent ⟨member, memberIdx⟩ listed
    simpa using absent member (mem_of_getElem? (mem_zipIdx_iff_getElem?.mp listed))

theorem firstAvailable_some {idx : Nat} (selected : firstAvailable members nowUnixMs = some idx) :
    ∃ chosen, members[idx]? = some chosen ∧ chosen.health.isAvailable nowUnixMs = true := by
  obtain ⟨bound, available, _⟩ := findIdx?_eq_some_iff_getElem.mp selected
  exact ⟨members[idx], getElem?_eq_getElem bound, available⟩

/-- A usable binding is the hint's key, bound to an admitted member that stands
available at the returned index. -/
theorem boundIndex_some {key boundId : String} {idx : Nat}
    (usable : state.boundIndex members hint nowUnixMs = some (key, boundId, idx)) :
    hint.affinityKey = some key ∧ (∃ stamp, state.affinity[key]? = some (boundId, stamp)) ∧
      state.admits boundId = true ∧ ∃ member, members[idx]? = some member ∧ member.id = boundId ∧
        member.health.isAvailable nowUnixMs = true := by
  simp only [boundIndex] at usable
  split at usable
  case h_1 => cases usable
  case h_2 hintKey keyed =>
    split at usable
    case h_1 => cases usable
    case h_2 boundMember stamp bound =>
      split at usable
      case isFalse => cases usable
      case isTrue admitted =>
        obtain ⟨position, located, same⟩ := Option.map_eq_some_iff.mp usable
        simp only [Prod.mk.injEq] at same
        obtain ⟨rfl, rfl, rfl⟩ := same
        obtain ⟨inRange, matched, _⟩ := findIdx?_eq_some_iff_getElem.mp located
        simp only [Bool.and_eq_true, beq_iff_eq] at matched
        exact ⟨keyed, ⟨stamp, bound⟩, admitted, members[position], getElem?_eq_getElem inRange, matched.1, matched.2⟩

@[simp] theorem advance_seq : state.advance.seq = wrappingAdd state.seq 1 := rfl
@[simp] theorem advance_active : state.advance.active = state.active := rfl
@[simp] theorem advance_lastServed : state.advance.lastServed = state.lastServed := rfl
@[simp] theorem advance_affinity : state.advance.affinity = state.affinity := rfl

@[simp] theorem advance_admits (id : String) : state.advance.admits id = state.admits id :=
  rfl

@[simp] theorem stampMember_affinity (id : String) : (state.stampMember id).affinity = state.affinity := rfl

@[simp] theorem evictIdle_seq : state.evictIdle.seq = state.seq := by
  unfold evictIdle; split <;> rfl

@[simp] theorem evictIdle_active : state.evictIdle.active = state.active := by
  unfold evictIdle; split <;> rfl

@[simp] theorem evictIdle_lastServed : state.evictIdle.lastServed = state.lastServed := by
  unfold evictIdle; split <;> rfl

/-- Idle eviction keeps every binding used within the last `affinityMaxIdle`
sequence numbers and changes none it keeps. -/
theorem evictIdle_affinity (state : RouterState) (key : String) :
    state.evictIdle.affinity[key]? = state.affinity[key]? ∨
      ∃ boundId stamp, state.affinity[key]? = some (boundId, stamp) ∧
        stamp + affinityMaxIdle < state.seq ∧ state.evictIdle.affinity[key]? = none := by
  unfold evictIdle
  split
  case isFalse => exact .inl rfl
  case isTrue =>
    simp only [Std.ExtTreeMap.getElem?_filter']
    cases found : state.affinity[key]? with
    | none => simp
    | some binding =>
      by_cases recent : binding.2 ≥ state.seq - affinityMaxIdle
      · simp [Option.filter, recent]
      · right
        exact ⟨binding.1, binding.2, rfl, by omega, by simp [Option.filter, recent]⟩

end RouterState

namespace Router
open RouterState

variable {router : Router} {members : List PoolMember} {hint : SessionHint}
    {nowUnixMs : Int}

theorem strategyIndex_some {idx : Nat} (selected : router.strategyIndex members nowUnixMs = some idx) :
    ∃ chosen, members[idx]? = some chosen ∧ chosen.health.isAvailable nowUnixMs = true := by
  unfold strategyIndex at selected
  split at selected
  · exact firstAvailable_some selected
  · obtain ⟨chosen, located, available, _⟩ := leastServed_some selected
    exact ⟨chosen, located, available⟩

/-- The three ways `select` ends: an affinity hit, no available member, or a
choice by strategy. -/
theorem select_cases (router : Router) (members : List PoolMember) (hint : SessionHint) (nowUnixMs : Int) :
    (∃ key boundId idx, router.state.boundIndex members hint nowUnixMs = some (key, boundId, idx) ∧
      router.select members hint nowUnixMs = (some idx, { router with
        state := (router.state.advance.stampMember boundId).bindAffinity key boundId })) ∨
    (router.state.boundIndex members hint nowUnixMs = none ∧ router.strategyIndex members nowUnixMs = none ∧
      router.select members hint nowUnixMs = (none, router)) ∨
    ∃ idx chosen, router.state.boundIndex members hint nowUnixMs = none ∧
      router.strategyIndex members nowUnixMs = some idx ∧ members[idx]? = some chosen ∧
      chosen.health.isAvailable nowUnixMs = true ∧ router.select members hint nowUnixMs =
        (some idx, { router with state := router.state.recordChosen chosen.id hint }) := by
  cases usable : router.state.boundIndex members hint nowUnixMs with
  | some binding =>
    obtain ⟨key, boundId, idx⟩ := binding
    exact .inl ⟨key, boundId, idx, rfl, by simp [select, usable]⟩
  | none =>
    cases selected : router.strategyIndex members nowUnixMs with
    | none => exact .inr (.inl ⟨rfl, rfl, by simp [select, usable, selected]⟩)
    | some idx =>
      obtain ⟨chosen, located, available⟩ := strategyIndex_some selected
      exact .inr (.inr ⟨idx, chosen, rfl, rfl, located, available, by simp [select, usable, selected, located]⟩)

/-- Effect of a service on the rotation: the next sequence number is assigned,
and the served member is stamped with it if the allowlist admits it. -/
structure Stamped (before after : RouterState) (id : String) : Prop where
  active : after.active = before.active
  seq : after.seq = wrappingAdd before.seq 1
  lastServed : after.lastServed =
    if before.admits id then before.lastServed.insert id after.seq else before.lastServed

/-- What a call serves, and what it leaves of the state. -/
inductive Effect (router : Router) (op : Op) : Option String → RouterState → Prop where
  | idle (keeps : op.retains = false) : Effect router op none router.state
  | unlisted {id : String} (refused : router.state.admits id = false) :
      Effect router op (some id) router.state.advance
  | served {id : String} (admitted : router.state.admits id = true) :
      Effect router op (some id) (router.state.advance.stampMember id)
  | bound {id key : String} (admitted : router.state.admits id = true) (keyed : op.key? = some key)
      (known : router.state.affinity.contains key = true ∨ op = .selectForced id (some key)) :
      Effect router op (some id) ((router.state.advance.stampMember id).bindAffinity key id)
  | chosen {id key : String} (admitted : router.state.admits id = true)
      (keyed : op.key? = some key) : Effect router op (some id)
        ((router.state.advance.stampMember id).bindAffinity key id).evictIdle
  | retained {active : Std.ExtTreeSet String} (replaces : op = .retainMembers active) :
      Effect router op none (router.retainMembers active).2.state

theorem step_effect (router : Router) (op : Op) : Effect router op (router.served op) (router.step op).state := by
  cases op with
  | select members hint nowUnixMs =>
    rcases select_cases router members hint nowUnixMs with
      ⟨key, boundId, idx, usable, result⟩ | ⟨_, _, result⟩ |
      ⟨idx, chosen, _, _, located, _, result⟩
    · obtain ⟨keyed, ⟨stamp, held⟩, admitted, member, located, rfl, _⟩ := boundIndex_some usable
      simp only [step, served, result, Option.bind_some, located]
      refine .bound admitted keyed (.inl ?_)
      rw [Std.ExtTreeMap.contains_eq_isSome_getElem?, held]
      rfl
    · simp only [step, served, result]
      exact .idle rfl
    · simp only [step, served, result, Option.bind_some, located, recordChosen]
      split
      next admitted =>
        split
        next keyed => exact .chosen admitted keyed
        next => exact .served admitted
      next refused => exact .unlisted (Bool.eq_false_iff.mpr refused)
  | selectForced memberId affinityKey =>
    simp only [step, served, selectForced]
    cases admitted : router.state.admits memberId with
    | false => exact .idle rfl
    | true =>
      cases affinityKey with
      | none => exact .served admitted
      | some key => exact .bound admitted rfl (.inr rfl)
  | setStrategy strategy => exact .idle rfl
  | retainMembers active => exact .retained rfl

/-- A call that serves nobody leaves the state as it is, unless it replaces
the allowlist. -/
theorem step_state_of_served_none {op : Op} (idle : router.served op = none)
    (keeps : op.retains = false) : (router.step op).state = router.state := by
  have effect := step_effect router op
  rw [idle] at effect
  generalize (router.step op).state = after at effect ⊢
  cases effect with
  | idle => rfl
  | retained replaces =>
    rw [replaces] at keeps
    cases keeps

theorem step_stamped {op : Op} {id : String} (service : router.served op = some id) :
    Stamped router.state (router.step op).state id := by
  have effect := step_effect router op
  rw [service] at effect
  generalize (router.step op).state = after at effect ⊢
  cases effect with
  | unlisted refused => exact ⟨rfl, rfl, by simp [refused]⟩
  | served admitted => exact ⟨rfl, rfl, by simp [admitted, stampMember]⟩
  | bound admitted => exact ⟨rfl, rfl, by simp [admitted, stampMember, bindAffinity]⟩
  | chosen admitted => exact ⟨evictIdle_active, evictIdle_seq, by simp [admitted, stampMember, bindAffinity]⟩

end Router

variable {ι : Type*} {view : ι → PoolMember} {origin : List ι} {nowUnixMs : Int}

namespace RouterState
variable {state : RouterState}

/-- The member the hint's key is bound to, if the allowlist admits it. -/
def usableBinding (state : RouterState) (hint : SessionHint) : Option String :=
  (hint.affinityKey.bind fun key => (state.affinity[key]?).map Prod.fst).filter state.admits

theorem boundIndex_origin (hint : SessionHint) : (state.boundIndex (origin.map view) hint nowUnixMs).bind
        (fun binding => origin[binding.2.2]?) =
      (state.usableBinding hint).bind fun boundId => origin.find? fun candidate =>
        (view candidate).id == boundId && (view candidate).health.isAvailable nowUnixMs := by
  simp only [boundIndex, usableBinding]
  cases hint.affinityKey with
  | none => rfl
  | some key =>
    simp only [Option.bind_some]
    cases state.affinity[key]? with
    | none => rfl
    | some binding =>
      obtain ⟨boundId, stamp⟩ := binding
      cases admitted : state.admits boundId with
      | false => simp [admitted, Option.filter_some]
      | true =>
        simp only [if_true, Option.map_some, Option.filter_some, admitted, find?_eq_bind_findIdx?_getElem?, findIdx?_map, Option.bind_map]
        rfl

theorem firstAvailable_origin : (firstAvailable (origin.map view) nowUnixMs).bind (origin[·]?) =
      origin.find? fun candidate => (view candidate).health.isAvailable nowUnixMs := by
  rw [firstAvailable, findIdx?_map, find?_eq_bind_findIdx?_getElem?]
  rfl

theorem leastServed_origin : (state.leastServed (origin.map view) nowUnixMs).bind (origin[·]?) =
      (origin.filter fun candidate => (view candidate).health.isAvailable nowUnixMs).argmin
        fun candidate => state.lastSeq (view candidate).id := by
  rw [leastServed_eq_argmin, zipIdx_map, filter_map, argmin_map]
  conv_rhs => rw [← zipIdx_map_fst 0 origin, filter_map, argmin_map]
  simp only [Function.comp_def, Prod.map_fst]
  cases least : (origin.zipIdx.filter fun entry =>
      (view entry.1).health.isAvailable nowUnixMs).argmin
        fun entry => state.lastSeq (view entry.1).id with
  | none => rfl
  | some entry =>
    obtain ⟨listed, _⟩ := mem_filter.mp (argmin_mem least)
    simpa using mem_zipIdx_iff_getElem?.mp listed

end RouterState

namespace Router
open RouterState

variable {router : Router}

def strategyPick (router : Router) (view : ι → PoolMember) (origin : List ι) (nowUnixMs : Int) : Option ι :=
  match router.strategy with
  | .fillFirst => origin.find? fun candidate => (view candidate).health.isAvailable nowUnixMs
  | .strictRoundRobin =>
    (origin.filter fun candidate => (view candidate).health.isAvailable nowUnixMs).argmin
      fun candidate => router.state.lastSeq (view candidate).id

theorem strategyIndex_origin : (router.strategyIndex (origin.map view) nowUnixMs).bind (origin[·]?) =
      router.strategyPick view origin nowUnixMs := by
  simp only [strategyIndex, strategyPick]
  cases router.strategy with
  | fillFirst => exact firstAvailable_origin
  | strictRoundRobin => exact leastServed_origin

/-- The candidate `select` picks: the bound one if it is usable, else the one
the strategy names. -/
theorem select_origin (hint : SessionHint) : ((router.select (origin.map view) hint nowUnixMs).1).bind (origin[·]?) =
      ((router.state.usableBinding hint).bind fun boundId => origin.find? fun candidate =>
        (view candidate).id == boundId && (view candidate).health.isAvailable nowUnixMs).or
          (router.strategyPick view origin nowUnixMs) := by
  rw [← boundIndex_origin]
  rcases select_cases router (origin.map view) hint nowUnixMs with
    ⟨key, boundId, idx, usable, selected⟩ | ⟨unusable, idle, selected⟩ |
    ⟨idx, chosen, unusable, picked, _, _, selected⟩
  · obtain ⟨_, _, _, member, located, _⟩ := boundIndex_some usable
    rw [getElem?_map] at located
    obtain ⟨candidate, found, _⟩ := Option.map_eq_some_iff.mp located
    simp [selected, usable, found]
  · simp [selected, unusable, ← strategyIndex_origin, idle]
  · simp [selected, unusable, ← strategyIndex_origin, picked]

end Router
end Mahoquot
