import Mahoquot.Library.Rotation
import Mahoquot.Router.State

/-! Fairness of the strict round robin. The service stamps of a router whose counter has not
wrapped refine a least-recently-served rotation, whatever calls are interleaved. -/

set_option autoImplicit false

namespace Mahoquot.Router
open Library RouterState List Option

variable (router : Router)

/-- What a call does to the rotation: a member outside the allowlist is served
without being stamped. -/
def event (op : Op) : ServiceEvent String :=
  match router.served op with
  | none => .idle
  | some id => if router.state.admits id then .serve id else .skip

structure Tracks (router : Router) (rotation : Rotation String) : Prop where
  clock : rotation.clock = router.state.seq
  stamp : ∀ id, rotation.stamp id = router.state.lastSeq id

def StampsBounded : Prop :=
  ∀ id, router.state.lastSeq id ≤ router.state.seq

def rotation (bounded : router.StampsBounded) : Rotation String :=
  ⟨router.state.lastSeq, router.state.seq, bounded⟩

variable {router : Router} {op : Op}

theorem tracks_rotation (bounded : router.StampsBounded) : router.Tracks (router.rotation bounded) :=
  ⟨rfl, fun _ => rfl⟩

variable {rotation : Rotation String}

theorem Tracks.stampsBounded (tracks : router.Tracks rotation) : router.StampsBounded := by
  intro id
  rw [← tracks.stamp, ← tracks.clock]
  exact rotation.bounded id

theorem new_stampsBounded (strategy : Strategy) : (new strategy).StampsBounded := by
  intro id
  simp [new, RouterState.default, lastSeq]

theorem lastSeq_insert {before after : RouterState} {id : String} {seq : Nat}
    (inserted : after.lastServed = before.lastServed.insert id seq) (other : String) :
    after.lastSeq other = if other = id then seq else before.lastSeq other := by
  simp only [lastSeq, inserted, Std.ExtTreeMap.getElem?_insert, Std.LawfulEqOrd.compare_eq_iff_eq, eq_comm (a := id)]
  split <;> rfl

theorem step_seq (noWrap : router.state.seq + router.increments op < 2 ^ 64) :
    (router.step op).state.seq = router.state.seq + router.increments op := by
  cases service : router.served op with
  | some id =>
    simp only [increments, service, isSome_some, if_true] at noWrap ⊢
    rw [(step_stamped service).seq, wrappingAdd_of_lt noWrap]
  | none =>
    simp only [increments, service, isSome_none, Bool.false_eq_true, if_false]
    cases keeps : op.retains with
    | false => rw [step_state_of_served_none service keeps, Nat.add_zero]
    | true => cases op <;> first | rfl | cases keeps

theorem Tracks.step (tracks : router.Tracks rotation) (keeps : op.retains = false)
    (noWrap : router.state.seq + router.increments op < 2 ^ 64) :
    (router.step op).Tracks (rotation.apply (router.event op)) := by
  cases service : router.served op with
  | none =>
    have same := step_state_of_served_none service keeps
    simp only [event, service, Rotation.apply]
    exact ⟨by rw [same, tracks.clock], fun id => by rw [same, tracks.stamp]⟩
  | some id =>
    have stamped := step_stamped service
    have seq := step_seq noWrap
    simp only [increments, service, isSome_some, if_true] at seq
    cases admitted : router.state.admits id with
    | false =>
      have untouched := stamped.lastServed
      simp only [admitted, Bool.false_eq_true, if_false] at untouched
      simp only [event, service, admitted, Bool.false_eq_true, if_false, Rotation.apply, Rotation.tick]
      exact ⟨by simp only [seq, tracks.clock], fun other => by simp only [tracks.stamp, lastSeq, untouched]⟩
    | true =>
      have inserted := stamped.lastServed
      simp only [admitted] at inserted
      simp only [event, service, admitted, if_true, Rotation.apply, Rotation.serve]
      refine ⟨by simp only [seq, tracks.clock], fun other => ?_⟩
      rw [lastSeq_insert inserted, seq]
      simp only [tracks.stamp, tracks.clock]

theorem lastSeq_retainMembers_le (router : Router) (active : Std.ExtTreeSet String) (id : String) :
    (router.retainMembers active).2.state.lastSeq id ≤ router.state.lastSeq id := by
  simp only [retainMembers, lastSeq, Std.ExtTreeMap.getElem?_filter']
  cases router.state.lastServed[id]? with
  | none => simp
  | some stamp => by_cases kept : active.contains id <;> simp [Option.filter, kept]

theorem StampsBounded.step (bounded : router.StampsBounded)
    (noWrap : router.state.seq + router.increments op < 2 ^ 64) : (router.step op).StampsBounded := by
  cases keeps : op.retains with
  | false => exact ((tracks_rotation bounded).step keeps noWrap).stampsBounded
  | true =>
    cases op with
    | retainMembers active => exact fun id => (router.lastSeq_retainMembers_le active id).trans (bounded id)
    | select _ _ _ | selectForced _ _ | setStrategy _ => cases keeps

/-- While the counter does not wrap it counts the services, and no stamp runs
ahead of it. -/
theorem StampsBounded.run (bounded : router.StampsBounded) (ops : List Op)
    (noWrap : router.state.seq + runCost Router.step increments router ops < 2 ^ 64) :
    (ops.foldl Router.step router).StampsBounded ∧ (ops.foldl Router.step router).state.seq =
        router.state.seq + runCost Router.step increments router ops := by
  induction ops generalizing router with
  | nil => exact ⟨bounded, rfl⟩
  | cons op ops ih =>
    rw [runCost_cons] at noWrap
    have first : router.state.seq + router.increments op < 2 ^ 64 := by omega
    have seq := step_seq first
    have tail := ih (bounded.step first) (by rw [seq]; omega)
    refine ⟨tail.1, ?_⟩
    rw [foldl_cons, tail.2, runCost_cons]
    omega

/-- A strict round-robin selection (no usable affinity binding) over a pool of
distinct admitted members in which `waiting` is available, serving `chosen`. -/
def RotationTurn (op : Op) (waiting chosen : String) : Prop :=
  ∃ members hint nowUnixMs, op = .select members hint nowUnixMs ∧
    router.strategy = .strictRoundRobin ∧
    router.state.boundIndex members hint nowUnixMs = none ∧
    (members.map PoolMember.id).Nodup ∧
    (∀ member ∈ members, router.state.admits member.id = true) ∧
    (∃ member ∈ members, member.id = waiting ∧ member.health.isAvailable nowUnixMs = true) ∧
    router.served op = some chosen

theorem RotationTurn.least {waiting chosen : String} (turn : router.RotationTurn op waiting chosen) :
    router.event op = .serve chosen ∧ router.state.lastSeq chosen ≤ router.state.lastSeq waiting := by
  obtain ⟨members, hint, nowUnixMs, rfl, strict, unbound, _, admitted, ⟨member, listed, rfl, available⟩, service⟩ := turn
  rcases select_cases router members hint nowUnixMs with
    ⟨_, _, _, usable, _⟩ | ⟨_, _, result⟩ | ⟨idx, pick, _, selected, located, _, result⟩
  · rw [unbound] at usable
    cases usable
  · simp [served, result] at service
  · obtain rfl : pick.id = chosen := by simpa [served, result, located] using service
    simp only [strategyIndex, strict] at selected
    obtain ⟨again, relocated, _, least⟩ := leastServed_some selected
    obtain rfl : again = pick := some.inj (relocated.symm.trans located)
    refine ⟨?_, least member listed available⟩
    simp [event, service, admitted again (mem_of_getElem? located)]

/-- A selection without affinity key, by strict round robin, over available and
admitted members with the given ids. -/
def FixedPoolTurn (ids : List String) (op : Op) : Prop :=
  ∃ members nowUnixMs, op = .select members ⟨none⟩ nowUnixMs ∧
    router.strategy = .strictRoundRobin ∧ members.map PoolMember.id = ids ∧
    (∀ member ∈ members, member.health.isAvailable nowUnixMs = true) ∧
    ∀ id ∈ ids, router.state.admits id = true

theorem FixedPoolTurn.least {ids : List String} (turn : router.FixedPoolTurn ids op) (nonempty : ids ≠ []) :
    ∃ pick ∈ ids, router.served op = some pick ∧ router.event op = .serve pick ∧
      ∀ id ∈ ids, router.state.lastSeq pick ≤ router.state.lastSeq id := by
  obtain ⟨members, nowUnixMs, rfl, strict, rfl, available, admitted⟩ := turn
  rcases select_cases router members ⟨none⟩ nowUnixMs with
    ⟨_, _, _, usable, _⟩ | ⟨_, absent, _⟩ | ⟨idx, pick, _, selected, located, _, result⟩
  · cases usable
  · simp only [strategyIndex, strict, leastServed_eq_none_iff] at absent
    obtain ⟨member, listed⟩ := exists_mem_of_ne_nil members (by simpa using nonempty)
    exact absurd (absent member listed) (by simp [available member listed])
  · have listed := mem_of_getElem? located
    have service : router.served (.select members ⟨none⟩ nowUnixMs) = some pick.id := by
      simp [served, result, located]
    simp only [strategyIndex, strict] at selected
    obtain ⟨again, relocated, _, least⟩ := leastServed_some selected
    obtain rfl : again = pick := some.inj (relocated.symm.trans located)
    have pooled : again.id ∈ members.map PoolMember.id := mem_map_of_mem listed
    refine ⟨again.id, pooled, service, by simp [event, service, admitted _ pooled], ?_⟩
    intro id idPooled
    obtain ⟨member, memberListed, rfl⟩ := mem_map.mp idPooled
    exact least member memberListed (available member memberListed)

/-- Consecutive selections over a fixed pool are a round of least-stamp picks
of the rotation. -/
theorem leastPicks_of_fixedPoolTurns {ids : List String} {round : List Op}
    (tracks : router.Tracks rotation) (nonempty : ids ≠ [])
    (noWrap : router.state.seq + runCost step increments router round < 2 ^ 64)
    (turns : ∀ position op, round[position]? = some op → (stateAt step router round position).FixedPoolTurn ids op) :
    ∃ picks, trace step served router round = picks.map some ∧ rotation.LeastPicks ids picks := by
  induction round generalizing router rotation with
  | nil => exact ⟨[], rfl, .nil⟩
  | cons op round ih =>
    have turn : router.FixedPoolTurn ids op := turns 0 op rfl
    obtain ⟨pick, member, service, serves, least⟩ := turn.least nonempty
    have keeps : op.retains = false := by
      obtain ⟨members, nowUnixMs, rfl, _⟩ := turn
      rfl
    rw [runCost_cons] at noWrap
    have first : router.state.seq + router.increments op < 2 ^ 64 := by omega
    have tracked := tracks.step keeps first
    rw [serves] at tracked
    obtain ⟨picks, traced, round⟩ := ih tracked (by rw [step_seq first]; omega)
      fun position op found => turns (position + 1) op found
    refine ⟨pick :: picks, by simp [trace, service, traced], .cons member ?_ round⟩
    intro id pooled
    rw [tracks.stamp, tracks.stamp]
    exact least id pooled

theorem served_of_event_serve {id : String} (serves : router.event op = .serve id) : router.served op = some id := by
  unfold event at serves
  split at serves
  case h_1 => cases serves
  case h_2 other service =>
    split at serves
    · obtain rfl : other = id := by simpa using serves
      exact service
    · cases serves

/-- Along a run whose counter does not wrap, every router is tracked by the
rotation that saw the same services. -/
theorem Tracks.run {run : List Op} (tracks : router.Tracks rotation)
    (noWrap : router.state.seq + runCost Router.step increments router run < 2 ^ 64)
    (noRetain : ∀ op ∈ run, op.retains = false) (position : Nat) : (stateAt Router.step router run position).Tracks
      (stateAt Rotation.apply rotation (trace Router.step event router run) position) := by
  refine stateAt_simulates Tracks tracks ?_ position
  intro position op rotation found tracked
  have spent := runCost_take_succ_le Router.step increments router found
  have counted := (tracks.stampsBounded.run (run.take position) (by omega)).2
  refine tracked.step (noRetain op (mem_of_getElem? found)) ?_
  rw [stateAt]
  rw [stateAt] at spent
  omega

/-- Between two round-robin turns that pass over an available `waiting` in
favour of the same other member, `waiting` is served. -/
theorem served_between_turns {run : List Op} (bounded : router.StampsBounded)
    (noWrap : router.state.seq + runCost step increments router run < 2 ^ 64)
    (noRetain : ∀ op ∈ run, op.retains = false) {waiting chosen : String} {first last : Nat} {firstOp lastOp : Op}
    (distinct : chosen ≠ waiting) (ordered : first < last) (firstFound : run[first]? = some firstOp)
    (firstTurn : (stateAt step router run first).RotationTurn firstOp waiting chosen)
    (lastTurn : (stateAt step router run last).RotationTurn lastOp waiting chosen) :
    ∃ position op, first < position ∧ position < last ∧ run[position]? = some op ∧
      (stateAt step router run position).served op = some waiting := by
  have tracked := (tracks_rotation bounded).run noWrap noRetain
  have serves : (trace step event router run)[first]? = some (.serve chosen) := by
    rw [trace_getElem?, firstFound, map_some, firstTurn.least.1]
  have behind := lastTurn.least.2
  rw [← (tracked last).stamp, ← (tracked last).stamp] at behind
  obtain ⟨position, lower, upper, found⟩ := Rotation.served_between ordered distinct serves behind
  rw [trace_getElem?] at found
  obtain ⟨op, located, event⟩ := map_eq_some_iff.mp found
  exact ⟨position, op, lower, upper, located, served_of_event_serve event⟩

/-- While the counter does not wrap, two round-robin turns that prefer the same member to
an available `waiting` have a service of `waiting` between them; and as many selections as
a fixed pool has members serve each of them exactly once. -/
theorem roundRobin_bounded_overtaking (strategy : Strategy) (history run : List Op)
    (noWrap : runCost step increments (new strategy) (history ++ run) < 2 ^ 64)
    (noRetain : ∀ op ∈ run, op.retains = false) :
    let router := history.foldl step (new strategy)
    (∀ (waiting chosen : String) (first last : Nat) (firstOp lastOp : Op), chosen ≠ waiting → first < last →
      run[first]? = some firstOp → run[last]? = some lastOp →
      (stateAt step router run first).RotationTurn firstOp waiting chosen →
      (stateAt step router run last).RotationTurn lastOp waiting chosen →
      ∃ position op, first < position ∧ position < last ∧ run[position]? = some op ∧
        (stateAt step router run position).served op = some waiting) ∧
    ∀ ids : List String, ids.Nodup → run.length = ids.length →
      (∀ position op, run[position]? = some op → (stateAt step router run position).FixedPoolTurn ids op) →
      ∃ picks : List String,
        trace step served router run = picks.map some ∧ picks.Perm ids := by
  intro router
  rw [runCost_append] at noWrap
  have start : (new strategy).state.seq = 0 := rfl
  obtain ⟨bounded, counted⟩ := (new_stampsBounded strategy).run history (by omega)
  have unwrapped : router.state.seq + runCost step increments router run < 2 ^ 64 := by
    simp only [router]
    omega
  constructor
  · intro waiting chosen first last firstOp lastOp distinct ordered firstFound _
    exact served_between_turns bounded unwrapped noRetain distinct ordered firstFound
  · intro ids distinct full turns
    by_cases empty : ids = []
    · subst empty
      obtain rfl : run = [] := eq_nil_of_length_eq_zero full
      exact ⟨[], rfl, .nil⟩
    · obtain ⟨picks, traced, round⟩ := leastPicks_of_fixedPoolTurns (tracks_rotation bounded) empty unwrapped turns
      refine ⟨picks, traced, round.perm distinct ?_⟩
      have lengths := congrArg length traced
      rw [length_trace, length_map] at lengths
      omega

def pairRun : List Op :=
  replicate 3 (.select [⟨"a", .available⟩, ⟨"b", .available⟩] ⟨none⟩ 0)

theorem roundRobin_pair_alternates : let router := [Op.selectForced "a" none].foldl step (new .strictRoundRobin)
    ∃ position op, 0 < position ∧ position < 2 ∧ pairRun[position]? = some op ∧
      (stateAt step router pairRun position).served op = some "a" :=
  (roundRobin_bounded_overtaking .strictRoundRobin [.selectForced "a" none] pairRun
      (by decide +kernel) (by decide)).1 "a" "b" 0 2 _ _ (by decide) (by decide) rfl rfl
    ⟨_, _, _, rfl, rfl, rfl, by decide, by decide,
      ⟨⟨"a", .available⟩, by decide, rfl, rfl⟩, by decide +kernel⟩
    ⟨_, _, _, rfl, rfl, rfl, by decide, by decide,
      ⟨⟨"a", .available⟩, by decide, rfl, rfl⟩, by decide +kernel⟩

end Mahoquot.Router
