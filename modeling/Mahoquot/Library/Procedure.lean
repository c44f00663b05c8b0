import Mathlib.Logic.Basic

/-! Procedures that change a state and may fail on the way, with rules for what holds when
they return. A failed run keeps the changes made so far. -/

set_option autoImplicit false

namespace Mahoquot.Library

abbrev Procedure (ε σ α : Type) := EStateM ε σ α

section Rules
variable {ε σ α β : Type}

/-- The run from `before` returns `result` and leaves `after`. -/
def Runs (procedure : Procedure ε σ α) (before : σ) (result : α) (after : σ) : Prop :=
  procedure before = .ok result after

variable {before after : σ}

@[simp] theorem runs_pure {value result : α} :
    Runs (pure value : Procedure ε σ α) before result after ↔ value = result ∧ before = after := by
  constructor
  · intro run
    cases run
    exact ⟨rfl, rfl⟩
  · rintro ⟨rfl, rfl⟩
    rfl

@[simp] theorem runs_throw {failure : ε} {result : α} :
    ¬ Runs (throw failure : Procedure ε σ α) before result after := by
  intro run
  cases run

@[simp] theorem runs_get {result : σ} :
    Runs (get : Procedure ε σ σ) before result after ↔ before = result ∧ before = after := by
  constructor
  · intro run
    cases run
    exact ⟨rfl, rfl⟩
  · rintro ⟨rfl, rfl⟩
    rfl

@[simp] theorem runs_modify {change : σ → σ} {result : Unit} :
    Runs (modify change : Procedure ε σ Unit) before result after ↔ change before = after := by
  constructor
  · intro run
    cases run
    rfl
  · rintro rfl
    rfl

theorem runs_bind {first : Procedure ε σ α} {rest : α → Procedure ε σ β} {result : β} :
    Runs (first >>= rest) before result after ↔
      ∃ value middle, Runs first before value middle ∧ Runs (rest value) middle result after := by
  simp only [Runs, bind, EStateM.bind]
  cases first before with
  | ok value middle =>
    constructor
    · exact fun run => ⟨value, middle, rfl, run⟩
    · rintro ⟨_, _, same, run⟩
      cases same
      exact run
  | error failure middle => simp

theorem runs_adaptExcept {ε' : Type} {rename : ε → ε'} {procedure : Procedure ε σ α} {result : α} :
    Runs (EStateM.adaptExcept rename procedure) before result after ↔ Runs procedure before result after := by
  simp only [Runs, EStateM.adaptExcept]
  cases procedure before <;> simp

/-- Whenever the procedure returns from a state with `pre`, result and state
have `post`. -/
def Triple (pre : σ → Prop) (procedure : Procedure ε σ α) (post : α → σ → Prop) : Prop :=
  ∀ before result after, pre before → Runs procedure before result after → post result after

namespace Triple
variable {pre : σ → Prop} {post : α → σ → Prop}

theorem of_pure {value : α} (holds : ∀ state, pre state → post value state) :
    Triple pre (pure value : Procedure ε σ α) post := by
  intro before result after initial run
  obtain ⟨rfl, rfl⟩ := runs_pure.mp run
  exact holds before initial

theorem of_throw {failure : ε} : Triple pre (throw failure : Procedure ε σ α) post :=
  fun _ _ _ _ run => absurd run runs_throw

theorem bind {middle : α → σ → Prop} {first : Procedure ε σ α} {rest : α → Procedure ε σ β}
    {final : β → σ → Prop} (head : Triple pre first middle)
    (tail : ∀ value, Triple (middle value) (rest value) final) : Triple pre (first >>= rest) final := by
  intro before result after initial run
  obtain ⟨value, state, firstRun, restRun⟩ := runs_bind.mp run
  exact tail value state result after (head before value state initial firstRun) restRun

theorem of_get {post : σ → σ → Prop} (holds : ∀ state, pre state → post state state) :
    Triple pre (get : Procedure ε σ σ) post := by
  intro before result after initial run
  obtain ⟨rfl, rfl⟩ := runs_get.mp run
  exact holds before initial

theorem of_modify {change : σ → σ} {post : Unit → σ → Prop} (holds : ∀ state, pre state → post () (change state)) :
    Triple pre (modify change : Procedure ε σ Unit) post := by
  intro before result after initial run
  rw [← runs_modify.mp run]
  exact holds before initial

variable {procedure : Procedure ε σ α}

theorem adaptExcept {ε' : Type} {rename : ε → ε'} (triple : Triple pre procedure post) :
    Triple pre (EStateM.adaptExcept rename procedure) post :=
  fun before result after initial run =>
    triple before result after initial (runs_adaptExcept.mp run)

theorem strengthen {stronger : σ → Prop} (triple : Triple pre procedure post)
    (implies : ∀ state, stronger state → pre state) : Triple stronger procedure post :=
  fun before result after initial run => triple before result after (implies before initial) run

theorem mono {weaker : α → σ → Prop} (triple : Triple pre procedure post)
    (implies : ∀ result state, post result state → weaker result state) : Triple pre procedure weaker :=
  fun before result after initial run =>
    implies result after (triple before result after initial run)

end Triple
end Rules
end Mahoquot.Library
