import Mahoquot.Library.Stamps
import Mahoquot.Router.RotationProperties

/-! The books of a router over whole runs: the numbers of its services and bindings, the
members they name, and how many bindings there are. -/

set_option autoImplicit false

namespace Mahoquot.Router
open Library RouterState List

/-- The numbers are those of the counter, each given once, and the members are listed. -/
structure Books (state : RouterState) : Prop where
  served : Dated id state.seq state.lastServed
  bound : Dated Prod.snd state.seq state.affinity
  tracked : ∀ (id : String) stamp, state.lastServed[id]? = some stamp → state.admits id = true
  listed : ∀ (key : String) binding, state.affinity[key]? = some binding →
    state.admits binding.1 = true

namespace Books
variable {state : RouterState} (books : Books state)

include books

theorem advance (grown : state.seq ≤ state.advance.seq) : Books state.advance :=
  ⟨books.served.later grown, books.bound.later grown, books.tracked, books.listed⟩

variable {id : String} (admitted : state.admits id = true)
  (grown : state.advance.seq = state.seq + 1)

include admitted grown

theorem serve : Books (state.advance.stampMember id) where
  served := grown ▸ books.served.insert grown id
  bound := books.bound.later (by change state.seq ≤ state.advance.seq; omega)
  tracked other stamp found := by
    rw [stampMember, Std.ExtTreeMap.getElem?_insert] at found
    split at found
    next same => exact Std.LawfulEqOrd.eq_of_compare same ▸ admitted
    next => exact books.tracked other stamp found
  listed := books.listed

theorem bind (key : String) : Books ((state.advance.stampMember id).bindAffinity key id) where
  served := (books.serve admitted grown).served
  bound := grown ▸ books.bound.insert grown key
  tracked := (books.serve admitted grown).tracked
  listed other binding found := by
    rw [bindAffinity, Std.ExtTreeMap.getElem?_insert] at found
    split at found
    · exact Option.some.inj found ▸ admitted
    · exact books.listed other binding found

omit admitted grown

theorem evictIdle : Books state.evictIdle := by
  unfold RouterState.evictIdle
  split
  · refine { books with bound := books.bound.filter _, listed := fun key binding found => ?_ }
    rw [Std.ExtTreeMap.getElem?_filter'] at found
    exact books.listed key binding (Option.filter_eq_some_iff.mp found).1
  · exact books

end Books

variable {router : Router} {op : Op} {after : RouterState} {service : Option String}

theorem advance_seq_of_le {state : RouterState} (unwrapped : state.seq ≤ state.advance.seq) :
    state.advance.seq = state.seq + 1 := by
  rw [advance_seq, wrappingAdd] at *
  omega

theorem Books.step (books : Books router.state) (effect : Effect router op service after)
    (unwrapped : router.state.seq ≤ after.seq) : Books after := by
  cases effect with
  | idle => exact books
  | unlisted => exact books.advance unwrapped
  | served admitted => exact books.serve admitted (advance_seq_of_le unwrapped)
  | bound admitted => exact books.bind admitted (advance_seq_of_le unwrapped) _
  | chosen admitted =>
    rw [evictIdle_seq] at unwrapped
    exact (books.bind admitted (advance_seq_of_le unwrapped) _).evictIdle
  | @retained active =>
    refine ⟨books.served.filter _, books.bound.filter _, fun id stamp found => ?_, fun key binding found => ?_⟩
    · rw [retainMembers, Std.ExtTreeMap.getElem?_filter'] at found
      exact (Option.filter_eq_some_iff.mp found).2
    · rw [retainMembers, Std.ExtTreeMap.getElem?_filter'] at found
      exact (Option.filter_eq_some_iff.mp found).2

theorem Books.run (books : Books router.state) (ops : List Op)
    (noWrap : router.state.seq + runCost Router.step increments router ops < 2 ^ 64) :
    Books (ops.foldl Router.step router).state := by
  induction ops generalizing router with
  | nil => exact books
  | cons op ops ih =>
    rw [runCost_cons] at noWrap
    have seq := step_seq (show router.state.seq + router.increments op < 2 ^ 64 by omega)
    exact ih (books.step (step_effect router op) (by omega)) (by rw [seq]; omega)

theorem books_new (strategy : Strategy) : Books (new strategy).state :=
  ⟨.empty, .empty, fun _ _ found => by simp [new, RouterState.default] at found,
    fun _ _ found => by simp [new, RouterState.default] at found⟩

theorem active_step (keeps : op.retains = false) : (router.step op).state.active = router.state.active := by
  cases service : router.served op with
  | none => rw [step_state_of_served_none service keeps]
  | some id => exact (step_stamped service).active

theorem active_run {ops : List Op} (keeps : ∀ op ∈ ops, op.retains = false) :
    (ops.foldl step router).state.active = router.state.active := by
  induction ops generalizing router with
  | nil => rfl
  | cons op ops ih =>
    obtain ⟨first, rest⟩ := forall_mem_cons.mp keeps
    exact (ih rest).trans (active_step first)

/-- Services and bindings are numbered apart, up to the counter, and all their members
are in the latest set of active ones, whatever pools are selected from. -/
theorem bookkeeping_sound (strategy : Strategy) (ops : List Op)
    (noWrap : runCost step increments (new strategy) ops < 2 ^ 64) :
    let state := (ops.foldl step (new strategy)).state
    Dated id state.seq state.lastServed ∧ Dated Prod.snd state.seq state.affinity ∧
      ∀ front active back, ops = front ++ .retainMembers active :: back →
        (∀ op ∈ back, op.retains = false) →
          (∀ (id : String) stamp, state.lastServed[id]? = some stamp → active.contains id = true) ∧
            ∀ (key : String) binding, state.affinity[key]? = some binding →
              active.contains binding.1 = true := by
  have books := (books_new strategy).run ops (by rwa [new, RouterState.default, Nat.zero_add])
  refine ⟨books.served, books.bound, fun front active back split keeps => ?_⟩
  have latest : (ops.foldl step (new strategy)).state.active = some active := by
    rw [split, foldl_append, foldl_cons, active_run keeps]
    rfl
  have admits (id : String) : (ops.foldl step (new strategy)).state.admits id = active.contains id := by
    rw [RouterState.admits, latest]
  exact ⟨fun id stamp found => admits id ▸ books.tracked id stamp found,
    fun key binding found => admits binding.1 ▸ books.listed key binding found⟩

theorem stale_selection_unrecorded :
    let ops := [.retainMembers (Std.ExtTreeSet.ofList ["b"]), .selectForced "b" (some "k"),
      .select [⟨"a", .available⟩] ⟨some "l"⟩ 0]
    ∀ (id : String) stamp, (ops.foldl step (new .fillFirst)).state.lastServed[id]? = some stamp →
      (Std.ExtTreeSet.ofList ["b"]).contains id = true :=
  ((bookkeeping_sound .fillFirst _ (by decide +kernel)).2.2 [] _ _ rfl (by decide)).1

/-- A forced call that binds another key while the bindings are at their limit. -/
def Overfills (router : Router) : Op → Prop
  | .selectForced id (some key) => router.state.admits id = true ∧
      router.state.affinity.contains key = false ∧
      affinityMaxIdle + 2 ≤ router.state.affinity.size
  | _ => False

theorem evictIdle_size {state : RouterState} (dated : Dated Prod.snd state.seq state.affinity) :
    state.evictIdle.affinity.size ≤ affinityMaxIdle + 1 := by
  unfold evictIdle
  split
  next =>
    have window := (dated.filter fun _ binding =>
        decide (binding.2 ≥ state.seq - affinityMaxIdle)).size_le fun key binding found => by
      rw [Std.ExtTreeMap.getElem?_filter'] at found
      exact of_decide_eq_true (Option.filter_eq_some_iff.mp found).2
    dsimp only
    omega
  next few =>
    have limit : affinityMaxEntries ≤ affinityMaxIdle := by decide
    omega

theorem Effect.size_le (effect : Effect router op service after) (books : Books router.state)
    (unwrapped : router.state.seq ≤ after.seq) (fits : ¬ router.Overfills op)
    (small : router.state.affinity.size ≤ affinityMaxIdle + 2) : after.affinity.size ≤ affinityMaxIdle + 2 := by
  cases effect with
  | idle | unlisted | served => exact small
  | bound admitted _ known =>
    rw [bindAffinity, Std.ExtTreeMap.size_insert]
    split
    next => exact small
    next fresh =>
      rw [known.resolve_left fresh] at fits
      exact Nat.lt_of_not_le fun full => fits ⟨admitted, Bool.eq_false_iff.mpr fresh, full⟩
  | chosen admitted =>
    rw [evictIdle_seq] at unwrapped
    have bound := books.bind admitted (advance_seq_of_le unwrapped)
    exact Nat.le_succ_of_le (evictIdle_size (bound _).bound)
  | retained => exact Std.ExtTreeMap.size_filter_le_size.trans small

theorem size_of_overfills (overfills : router.Overfills op) :
    affinityMaxIdle + 2 < (router.step op).state.affinity.size := by
  cases op with
  | selectForced id affinityKey =>
    cases affinityKey with
    | none => cases overfills
    | some key =>
      obtain ⟨admitted, fresh, full⟩ := overfills
      simp only [step, selectForced, admitted, Bool.not_true, Bool.false_eq_true, if_false,
        bindAffinity, Std.ExtTreeMap.size_insert, stampMember_affinity, advance_affinity, fresh]
      exact Nat.lt_succ_of_le full
  | select | setStrategy | retainMembers => cases overfills

/-- The bindings stay in their limit over a run exactly if no forced call binds another
key while they are at it. -/
theorem affinity_bounded_iff (strategy : Strategy) (ops : List Op)
    (noWrap : runCost step increments (new strategy) ops < 2 ^ 64) : (∀ front, front <+: ops →
        (front.foldl step (new strategy)).state.affinity.size ≤ affinityMaxIdle + 2) ↔
      ∀ front op, front ++ [op] <+: ops → ¬ (front.foldl step (new strategy)).Overfills op := by
  constructor
  · intro bounded front op within overfills
    have after := bounded (front ++ [op]) within
    rw [foldl_concat] at after
    exact absurd (size_of_overfills overfills) (Nat.not_lt_of_le after)
  · intro fits front within
    induction front using reverseRecOn with
    | nil => exact Nat.zero_le _
    | append_singleton front op ih =>
      have before := (prefix_append front [op]).trans within
      obtain ⟨rest, rfl⟩ := within
      rw [runCost_append, runCost_append] at noWrap
      have start : (new strategy).state.seq = 0 := rfl
      have books := (books_new strategy).run front (by omega)
      have counted := ((new_stampsBounded strategy).run front (by omega)).2
      rw [runCost_cons] at noWrap
      have seq := step_seq (show (front.foldl step (new strategy)).state.seq +
        (front.foldl step (new strategy)).increments op < 2 ^ 64 by omega)
      rw [foldl_concat]
      exact (step_effect _ op).size_le books (by omega) (fits front op (prefix_append _ _)) (ih before)

namespace BookkeepingSample

def freshKey (length : Nat) : String := String.ofList (replicate length 'k')

def forcedCalls (count : Nat) : List Op :=
  (range count).map fun index => .selectForced "a" (some (freshKey index))

theorem forcedCalls_run (count : Nat) : let router := (forcedCalls count).foldl step (new .fillFirst)
    router.state.active = none ∧ router.state.affinity.size = count ∧
      runCost step increments (new .fillFirst) (forcedCalls count) = count ∧
      ∀ index ≥ count, router.state.affinity.contains (freshKey index) = false := by
  induction count with
  | zero => exact ⟨rfl, rfl, rfl, fun _ _ => rfl⟩
  | succ count ih =>
    obtain ⟨unlisted, size, cost, fresh⟩ := ih
    have admitted : ((forcedCalls count).foldl step (new .fillFirst)).state.admits "a" = true := by
      rw [RouterState.admits, unlisted]
    have calls : forcedCalls (count + 1) =
        forcedCalls count ++ [.selectForced "a" (some (freshKey count))] := by
      simp [forcedCalls, range_succ]
    rw [calls, runCost_append, cost]
    refine ⟨?_, ?_, ?_, ?_⟩
    · simp [step, selectForced, admitted, stampMember, bindAffinity, unlisted]
    · simp [step, selectForced, admitted, bindAffinity, Std.ExtTreeMap.size_insert, size, fresh count (Nat.le_refl _)]
    · simp [increments, served, admitted]
    · intro index above
      have different : freshKey count ≠ freshKey index := fun same => by
        have lengths := congrArg (fun key => key.toList.length) same
        simp [freshKey] at lengths
        omega
      simp [step, selectForced, admitted, bindAffinity, different, fresh index (by omega)]

/-- Forced calls alone bind more keys than the limit. -/
theorem forced_calls_overfill : runCost step increments (new .fillFirst) (forcedCalls 10003) < 2 ^ 64 ∧
      ¬ ((forcedCalls 10003).foldl step (new .fillFirst)).state.affinity.size ≤ affinityMaxIdle + 2 := by
  obtain ⟨-, size, cost, -⟩ := forcedCalls_run 10003
  rw [size, cost]
  decide

/-- Up to the limit they do not. -/
theorem forced_calls_within_limit :
    ((forcedCalls 10002).foldl step (new .fillFirst)).state.affinity.size ≤ affinityMaxIdle + 2 := by
  have counted : runCost step increments (new .fillFirst) (forcedCalls 10002) < 2 ^ 64 := by
    rw [(forcedCalls_run 10002).2.2.1]
    decide
  refine (affinity_bounded_iff .fillFirst (forcedCalls 10002) counted).2 ?_ _ prefix_rfl
  intro front op within overfills
  have short : front.length + 1 ≤ 10002 := by simpa [forcedCalls] using within.length_le
  have calls : front ++ [op] = forcedCalls (front.length + 1) := by
    rw [prefix_iff_eq_take.mp within, length_append, length_singleton, forcedCalls, ← map_take, take_range,
      Nat.min_eq_left short, forcedCalls]
  have size := (forcedCalls_run (front.length + 1)).2.1
  rw [← calls, foldl_concat] at size
  have above := size_of_overfills overfills
  simp only [affinityMaxIdle] at above
  omega

end BookkeepingSample
end Mahoquot.Router
