import Mahoquot.Library.Runs
import Mahoquot.Router.State

/-! Session affinity: which calls touch a binding, and that a session in use keeps its
member. -/

set_option autoImplicit false

namespace Mahoquot.Router
open Library RouterState

theorem bindAffinity_affinity_of_ne (state : RouterState) {key other : String} (distinct : other ≠ key) (id : String) :
    (state.bindAffinity other id).affinity[key]? = state.affinity[key]? := by
  simp [bindAffinity, Std.ExtTreeMap.getElem?_insert, distinct]

/-- How a call that does not carry `key` can leave the binding of `key`. -/
inductive ForeignEffect (router : Router) (op : Op) (key : String) : Prop where
  | untouched
      (same : (router.step op).state.affinity[key]? = router.state.affinity[key]?)
  | retired (active : Std.ExtTreeSet String) (boundId : String) (stamp : Nat)
      (replaces : op = .retainMembers active)
      (bound : router.state.affinity[key]? = some (boundId, stamp))
      (gone : active.contains boundId = false)
      (removed : (router.step op).state.affinity[key]? = none)
  | evicted (boundId : String) (stamp : Nat)
      (keeps : op.retains = false)
      (bound : router.state.affinity[key]? = some (boundId, stamp))
      (idle : stamp + affinityMaxIdle < (router.step op).state.seq)
      (removed : (router.step op).state.affinity[key]? = none)

variable (router : Router)

theorem step_foreignEffect {op : Op} {key : String} (foreign : op.key? ≠ some key) : router.ForeignEffect op key := by
  have effect := step_effect router op
  generalize after_eq : (router.step op).state = after at effect
  generalize router.served op = service at effect
  have distinct {other : String} (keyed : op.key? = some other) : other ≠ key := fun same => foreign (same ▸ keyed)
  cases effect with
  | idle | unlisted | served => exact .untouched (congrArg (fun state => state.affinity[key]?) after_eq)
  | @bound id other _ keyed =>
    refine .untouched ?_
    rw [after_eq]
    exact bindAffinity_affinity_of_ne _ (distinct keyed) id
  | @chosen id other _ keyed =>
    have kept := bindAffinity_affinity_of_ne (router.state.advance.stampMember id) (distinct keyed) id
    have keeps : op.retains = false := by
      cases op with
      | retainMembers => cases keyed
      | select | selectForced | setStrategy => rfl
    rcases evictIdle_affinity ((router.state.advance.stampMember id).bindAffinity other id) key
      with same | ⟨boundId, stamp, bound, idle, removed⟩
    · exact .untouched (by rw [after_eq, same, kept]; rfl)
    · rw [kept] at bound
      exact .evicted boundId stamp keeps bound (by rw [after_eq, evictIdle_seq]; exact idle) (by rw [after_eq, removed])
  | @retained active replaces =>
    have filtered : (router.step op).state.affinity[key]? =
        router.state.affinity[key]?.filter fun binding => active.contains binding.1 := by
      simp [after_eq, retainMembers]
    cases bound : router.state.affinity[key]? with
    | none => exact .untouched (by rw [filtered, bound]; rfl)
    | some binding =>
      rw [bound] at filtered
      cases live : active.contains binding.1 with
      | true => exact .untouched (by rw [filtered, bound]; simp [live])
      | false =>
        exact .retired active binding.1 binding.2 replaces bound live (by rw [filtered]; simp [Option.filter, live])

theorem step_seq_le (op : Op) : (router.step op).state.seq ≤ router.state.seq + router.increments op := by
  cases service : router.served op with
  | some id =>
    simp only [increments, service, (step_stamped service).seq]
    exact Nat.mod_le _ _
  | none =>
    cases keeps : op.retains with
    | false => simp [step_state_of_served_none service keeps]
    | true =>
      cases op with
      | retainMembers active => exact Nat.le_add_right _ _
      | select _ _ _ | selectForced _ _ | setStrategy _ => cases keeps

theorem admits_step_retainMembers (active : Std.ExtTreeSet String) (id : String) :
    (router.step (.retainMembers active)).state.admits id = active.contains id := rfl

/-- A binding survives foreign calls while its member stays admitted and it has
not been idle for more than `affinityMaxIdle` sequence numbers. The counter may
wrap: the eviction cutoff then saturates at zero. -/
theorem affinity_run_foreign {key boundId : String} {stamp : Nat} (ops : List Op) (router : Router)
    (bound : router.state.affinity[key]? = some (boundId, stamp)) (foreign : ∀ op ∈ ops, op.key? ≠ some key)
    (admitted : ∀ position ≤ ops.length, (stateAt step router ops position).state.admits boundId = true)
    (recent : router.state.seq + runCost step increments router ops ≤ stamp + affinityMaxIdle) :
    (ops.foldl step router).state.affinity[key]? = some (boundId, stamp) := by
  induction ops generalizing router with
  | nil => exact bound
  | cons op ops ih =>
    rw [runCost_cons] at recent
    have bounded := router.step_seq_le op
    have tail := ih (router.step op)
    refine tail ?_ (fun later member => foreign later (List.mem_cons_of_mem _ member))
      (fun position le => admitted (position + 1) (Nat.succ_le_succ le)) (by omega)
    rcases router.step_foreignEffect (foreign op List.mem_cons_self) with
      same | ⟨active, id, oldStamp, rfl, held, gone, _⟩ | ⟨id, oldStamp, _, held, idle, _⟩
    · rw [same, bound]
    · obtain ⟨rfl, rfl⟩ : id = boundId ∧ oldStamp = stamp := by
        simpa [bound] using held.symm
      have live := admitted 1 (by simp)
      rw [show stateAt step router (.retainMembers active :: ops) 1 =
        router.step (.retainMembers active) from rfl, admits_step_retainMembers, gone] at live
      cases live
    · obtain ⟨rfl, rfl⟩ : id = boundId ∧ oldStamp = stamp := by
        simpa [bound] using held.symm
      omega

/-- A usable binding decides `select`: the first available occurrence of the
bound member is returned and the binding is stamped afresh. -/
theorem select_bound {router : Router} {members : List PoolMember} {key boundId : String}
    {stamp : Nat} {nowUnixMs : Int} (bound : router.state.affinity[key]? = some (boundId, stamp))
    (admitted : router.state.admits boundId = true) (present : ∃ member ∈ members, member.id = boundId ∧
      member.health.isAvailable nowUnixMs = true) : ∃ idx after, members.findIdx? (fun member =>
        member.id == boundId && member.health.isAvailable nowUnixMs) = some idx ∧
      router.select members ⟨some key⟩ nowUnixMs = (some idx, after) ∧
      after.state.affinity[key]? = some (boundId, after.state.seq) := by
  obtain ⟨member, listed, sameId, available⟩ := present
  cases located : members.findIdx? (fun member =>
      member.id == boundId && member.health.isAvailable nowUnixMs) with
  | none =>
    have absent := List.findIdx?_eq_none_iff.mp located member listed
    simp [sameId, available] at absent
  | some idx =>
    have usable : router.state.boundIndex members ⟨some key⟩ nowUnixMs =
        some (key, boundId, idx) := by
      simp [boundIndex, bound, admitted, located]
    refine ⟨idx, _, rfl, by simp only [select, usable]; rfl, ?_⟩
    simp [bindAffinity]

/-- A call that does not carry `key` changes its binding only through `retainMembers` or
idle eviction. A bound member that stays admitted is returned by the next selection under
`key` that comes in time and finds it available, and stays bound. -/
theorem affinity_isolated_and_sticky (key : String) :
    (∀ op : Op, op.key? ≠ some key → router.ForeignEffect op key) ∧ ∀ (boundId : String) (ops : List Op),
      router.state.affinity[key]? = some (boundId, router.state.seq) → (∀ op ∈ ops, op.key? ≠ some key) →
      (∀ position ≤ ops.length, (stateAt step router ops position).state.admits boundId = true) →
      runCost step increments router ops ≤ affinityMaxIdle → ∀ (members : List PoolMember) (nowUnixMs : Int),
        (∃ member ∈ members, member.id = boundId ∧ member.health.isAvailable nowUnixMs = true) →
        ∃ idx after, members.findIdx? (fun member =>
            member.id == boundId && member.health.isAvailable nowUnixMs) = some idx ∧
          (ops.foldl step router).select members ⟨some key⟩ nowUnixMs = (some idx, after) ∧
          after.state.affinity[key]? = some (boundId, after.state.seq) := by
  refine ⟨fun op foreign => router.step_foreignEffect foreign, ?_⟩
  intro boundId ops bound foreign admitted recent members nowUnixMs present
  have kept := affinity_run_foreign ops router bound foreign admitted (by omega)
  have live := admitted ops.length (Nat.le_refl _)
  rw [stateAt_length] at live
  exact select_bound kept live present

theorem affinity_sticky_after_foreign_calls : let router := (new .strictRoundRobin).selectForced "b" (some "k")
    let pool : List PoolMember := [⟨"a", .available⟩, ⟨"b", .available⟩]
    ∃ idx after, pool.findIdx? (fun member =>
        member.id == "b" && member.health.isAvailable 0) = some idx ∧
      ([Op.select pool ⟨some "other"⟩ 0, .setStrategy .fillFirst,
        .retainMembers (.ofList ["a", "b"])].foldl step router).select pool ⟨some "k"⟩ 0 =
          (some idx, after) ∧
      after.state.affinity["k"]? = some ("b", after.state.seq) := by
  intro router pool
  exact (affinity_isolated_and_sticky router "k").2 "b" _ (by decide +kernel)
    (by decide) (by decide +kernel) (by decide +kernel) pool 0 ⟨⟨"b", .available⟩, by decide⟩

end Mahoquot.Router
