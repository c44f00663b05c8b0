import Mathlib.Data.List.Basic

/-! Chains of a partial function `next`, which end where it is undefined. A walk follows the
chain with a list of visited nodes and a bound on its hops. -/

set_option autoImplicit false

namespace Mahoquot.Library.Chain
variable {α : Type*} {next : α → Option α}

/-- `hops` applications of `next` lead from the first node to the second. -/
def Path (next : α → Option α) : Nat → α → α → Prop
  | 0, first, last => first = last
  | hops + 1, first, last => ∃ node, next first = some node ∧ Path next hops node last

/-- The chain from `first` ends at `last`, after `hops` hops. -/
def Leads (next : α → Option α) (hops : Nat) (first last : α) : Prop :=
  Path next hops first last ∧ next last = none

variable {first last node : α} {hops : Nat}

theorem path_cons (step : next first = some node) : Path next (hops + 1) first last ↔ Path next hops node last := by
  constructor
  · rintro ⟨other, same, path⟩
    rw [step] at same
    cases same
    exact path
  · intro path
    exact ⟨node, step, path⟩

instance decidablePath [DecidableEq α] :
    (hops : Nat) → (first last : α) → Decidable (Path next hops first last)
  | 0, first, last => inferInstanceAs (Decidable (first = last))
  | hops + 1, first, last =>
    match step : next first with
    | none => isFalse fun ⟨_, defined, _⟩ => by simp [step] at defined
    | some node =>
      have := decidablePath hops node last
      decidable_of_iff (Path next hops node last) (path_cons step).symm

instance [DecidableEq α] (hops : Nat) (first last : α) : Decidable (Leads next hops first last) :=
  inferInstanceAs (Decidable (_ ∧ _))

theorem Path.trans {more : Nat} {middle : α} (start : Path next hops first middle)
    (rest : Path next more middle last) : Path next (hops + more) first last := by
  induction hops generalizing first with
  | zero =>
    cases start
    simpa using rest
  | succ hops ih =>
    obtain ⟨node, step, start⟩ := start
    rw [Nat.succ_add]
    exact ⟨node, step, ih start⟩

theorem Path.snoc {middle : α} (start : Path next hops first middle)
    (step : next middle = some last) : Path next (hops + 1) first last :=
  start.trans ⟨last, step, rfl⟩

theorem leads_zero (undefined : next first = none) : Leads next 0 first first :=
  ⟨rfl, undefined⟩

theorem leads_zero_iff (undefined : next first = none) : Leads next 0 first last ↔ first = last := by
  constructor
  · exact And.left
  · rintro rfl
    exact leads_zero undefined

theorem leads_of_none (undefined : next first = none) (leads : Leads next hops first last) :
    hops = 0 ∧ last = first := by
  obtain ⟨path, _⟩ := leads
  cases hops with
  | zero => exact ⟨rfl, path.symm⟩
  | succ hops =>
    obtain ⟨node, step, _⟩ := path
    simp [undefined] at step

theorem leads_cons (step : next first = some node) : Leads next (hops + 1) first last ↔ Leads next hops node last :=
  and_congr_left fun _ => path_cons step

theorem not_leads_zero (step : next first = some node) : ¬ Leads next 0 first last := by
  rintro ⟨rfl, ended⟩
  simp [step] at ended

theorem Leads.unique {others : Nat} {other : α} (leads : Leads next hops first last)
    (again : Leads next others first other) : hops = others ∧ last = other := by
  induction hops generalizing first others with
  | zero =>
    obtain ⟨rfl, ended⟩ := leads
    obtain ⟨rfl, rfl⟩ := leads_of_none ended again
    exact ⟨rfl, rfl⟩
  | succ hops ih =>
    obtain ⟨⟨node, step, path⟩, ended⟩ := leads
    cases others with
    | zero => exact absurd again (not_leads_zero step)
    | succ others =>
      obtain ⟨rfl, rfl⟩ := ih ⟨path, ended⟩ ((leads_cons step).mp again)
      exact ⟨rfl, rfl⟩

/-- A node of a cycle leads nowhere. -/
theorem Leads.acyclic {length : Nat} (leads : Leads next hops first last)
    (cycle : Path next (length + 1) first first) : False := by
  have longer : Leads next (length + 1 + hops) first last := ⟨cycle.trans leads.1, leads.2⟩
  obtain ⟨same, _⟩ := leads.unique longer
  omega

/-- Every visited node lies before the current one on its chain. -/
def Trail (next : α → Option α) (visited : List α) (current : α) : Prop :=
  ∀ node ∈ visited, ∃ hops, Path next (hops + 1) node current

theorem Trail.snoc {visited : List α} {current : α} (trail : Trail next visited current)
    (step : next current = some node) : Trail next (visited ++ [current]) node := by
  refine List.forall_mem_append.mpr ⟨fun earlier member => ?_, List.forall_mem_singleton.mpr ⟨0, node, step, rfl⟩⟩
  obtain ⟨hops, path⟩ := trail earlier member
  exact ⟨hops + 1, path.snoc step⟩

section Walk
variable [BEq α] [LawfulBEq α]

/-- The walk from `current`; `fuel` is how many more hops are allowed. -/
def walk (next : α → Option α) : Nat → α → List α → Option α
  | fuel, current, visited =>
    match next current with
    | none => some current
    | some node =>
      if visited.contains current then none
      else
        match fuel with
        | 0 => none
        | fuel + 1 => walk next fuel node (visited ++ [current])

/-- The visited list only ever cuts chains that have no end: the walk finds the
end of every chain that is short enough, and of no other. -/
theorem walk_eq_some_iff {fuel : Nat} {current : α} {visited : List α} (trail : Trail next visited current) :
    walk next fuel current visited = some last ↔ ∃ hops ≤ fuel, Leads next hops current last := by
  induction fuel generalizing current visited with
  | zero =>
    rw [walk]
    cases step : next current with
    | none => simpa using (leads_zero_iff step).symm
    | some node => simpa using not_leads_zero step
  | succ fuel ih =>
    rw [walk]
    cases step : next current with
    | none =>
      constructor
      · rintro ⟨⟩
        exact ⟨0, Nat.zero_le _, leads_zero step⟩
      · rintro ⟨hops, _, leads⟩
        rw [(leads_of_none step leads).2]
    | some node =>
      cases seen : visited.contains current with
      | true =>
        obtain ⟨length, cycle⟩ := trail current (List.contains_iff_mem.mp seen)
        constructor
        · intro found
          simp at found
        · rintro ⟨hops, _, leads⟩
          exact (leads.acyclic cycle).elim
      | false =>
        simp only [Bool.false_eq_true, if_false]
        rw [ih (trail.snoc step)]
        constructor
        · rintro ⟨hops, bounded, leads⟩
          exact ⟨hops + 1, Nat.succ_le_succ bounded, (leads_cons step).mpr leads⟩
        · rintro ⟨hops, bounded, leads⟩
          cases hops with
          | zero => exact absurd leads (not_leads_zero step)
          | succ hops => exact ⟨hops, Nat.le_of_succ_le_succ bounded, (leads_cons step).mp leads⟩

end Walk
end Mahoquot.Library.Chain
