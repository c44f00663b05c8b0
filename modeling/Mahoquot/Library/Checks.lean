import Mathlib.Data.List.Basic
import Mathlib.Data.List.Forall2

/-! Sequences of checks that stop at the first error, read back: what passed. -/

set_option autoImplicit false

namespace Mahoquot.Library

open List
variable {ε α β σ : Type} {result : Except ε α} {value : β}

theorem bind_eq_ok {next : α → Except ε β} :
    (result >>= next) = .ok value ↔ ∃ first, result = .ok first ∧ next first = .ok value := by
  cases result with
  | error | ok => simp [bind, Except.bind]

theorem unit_bind_eq_ok {check : Except ε Unit} {next : Unit → Except ε β} :
    (check >>= next) = .ok value ↔ check = .ok () ∧ next () = .ok value := by
  rw [bind_eq_ok]
  constructor
  · rintro ⟨⟨⟩, passed, rest⟩
    exact ⟨passed, rest⟩
  · rintro ⟨passed, rest⟩
    exact ⟨(), passed, rest⟩

theorem mapError_eq_ok {δ : Type} {convert : ε → δ} {value : α} :
    result.mapError convert = .ok value ↔ result = .ok value := by
  cases result with
  | error error => simp [Except.mapError]
  | ok value => simp [Except.mapError]

theorem discard_eq_ok : discard result = .ok () ↔ ∃ value, result = .ok value := by
  cases result with
  | error | ok => simp [discard, Functor.mapConst, Except.map]

variable {items : List α}

theorem forM_eq_ok {check : α → Except ε Unit} : items.forM check = .ok () ↔ ∀ item ∈ items, check item = .ok () := by
  induction items with
  | nil => simp [pure, Except.pure]
  | cons item items ih =>
    rw [forM_eq_forM] at ih ⊢
    rw [forM_cons, unit_bind_eq_ok, forall_mem_cons, ih]

theorem map_eq_ok {convert : α → β} :
    result.map convert = .ok value ↔ ∃ first, result = .ok first ∧ convert first = value := by
  cases result with
  | error error => simp [Except.map]
  | ok first => simp [Except.map]

theorem exists_map_eq_ok {convert : α → β} :
    (∃ value, result.map convert = .ok value) ↔ ∃ first, result = .ok first := by
  cases result with
  | error error => simp [Except.map]
  | ok first => simp [Except.map]

variable {convert : α → Except ε β}

theorem mapM_eq_ok {values : List β} : items.mapM convert = .ok values ↔
      Forall₂ (fun item value => convert item = .ok value) items values := by
  induction items generalizing values with
  | nil =>
    rw [mapM_nil, forall₂_nil_left_iff]
    exact ⟨fun same => (Except.ok.inj same).symm, fun same => congrArg _ same.symm⟩
  | cons item items ih =>
    rw [mapM_cons, bind_eq_ok, forall₂_cons_left_iff]
    refine exists_congr fun value => ?_
    rw [bind_eq_ok, exists_and_left]
    refine and_congr_right fun _ => ?_
    exact exists_congr fun rest => and_congr ih ⟨fun same => (Except.ok.inj same).symm, fun same => congrArg _ same.symm⟩

theorem exists_of_mem_mapM {values : List β} (passed : items.mapM convert = .ok values) (member : value ∈ values) :
    ∃ item ∈ items, convert item = .ok value := by
  rw [mapM_eq_ok] at passed
  induction passed with
  | nil => cases member
  | cons first others ih =>
    obtain rfl | member := mem_cons.1 member
    · exact ⟨_, mem_cons_self, first⟩
    · obtain ⟨item, found, converted⟩ := ih member
      exact ⟨item, mem_cons_of_mem _ found, converted⟩

theorem exists_mapM_eq_ok : (∃ values, items.mapM convert = .ok values) ↔
      ∀ item ∈ items, ∃ value, convert item = .ok value := by
  induction items with
  | nil => exact iff_of_true ⟨[], rfl⟩ nofun
  | cons item items ih =>
    rw [forall_mem_cons, ← ih]
    constructor
    · rintro ⟨values, passed⟩
      obtain ⟨value, rest, first, others, -⟩ := forall₂_cons_left_iff.1 (mapM_eq_ok.1 passed)
      exact ⟨⟨value, first⟩, rest, mapM_eq_ok.2 others⟩
    · rintro ⟨⟨value, first⟩, values, others⟩
      exact ⟨value :: values, mapM_eq_ok.2 (.cons first (mapM_eq_ok.1 others))⟩

variable {step : σ → α → Except ε σ}

/-- A fold whose steps succeed or fail by the item alone goes through when each item does. -/
theorem exists_foldlM_eq_ok {accepts : α → Prop}
    (judged : ∀ item ∈ items, ∀ before, (∃ after, step before item = .ok after) ↔ accepts item)
    (start : σ) : (∃ last, items.foldlM step start = .ok last) ↔ ∀ item ∈ items, accepts item := by
  induction items generalizing start with
  | nil => exact iff_of_true ⟨start, rfl⟩ nofun
  | cons item items ih =>
    have later := ih fun other member => judged other (mem_cons_of_mem item member)
    rw [forall_mem_cons, ← judged item mem_cons_self start]
    simp only [foldlM_cons, bind_eq_ok]
    constructor
    · rintro ⟨last, after, first, rest⟩
      exact ⟨⟨after, first⟩, (later after).1 ⟨last, rest⟩⟩
    · rintro ⟨⟨after, first⟩, others⟩
      obtain ⟨last, rest⟩ := (later after).2 others
      exact ⟨last, after, first, rest⟩

theorem step_ok_of_foldlM {start last : σ} (passed : items.foldlM step start = .ok last) :
    ∀ item ∈ items, ∃ before after, step before item = .ok after := by
  induction items generalizing start with
  | nil => exact forall_mem_nil _
  | cons head items ih =>
    rw [foldlM_cons, bind_eq_ok] at passed
    obtain ⟨state, first, rest⟩ := passed
    exact forall_mem_cons.mpr ⟨⟨start, state, first⟩, ih rest⟩

/-- What every step of a fold keeps, the fold keeps. -/
theorem foldlM_keeps (view : σ → β)
    (keeps : ∀ {before item after}, step before item = .ok after → view after = view before)
    {start last : σ} (passed : items.foldlM step start = .ok last) : view last = view start := by
  induction items generalizing start with
  | nil =>
    cases passed
    rfl
  | cons head items ih =>
    rw [foldlM_cons, bind_eq_ok] at passed
    obtain ⟨state, first, rest⟩ := passed
    exact (ih rest).trans (keeps first)

theorem toOption_any {test : α → Bool}
    (passes : result.toOption.any test) : ∃ value, result = .ok value ∧ test value := by
  cases result with
  | error error => simp [Except.toOption] at passes
  | ok value => exact ⟨value, rfl, by simpa [Except.toOption] using passes⟩

end Mahoquot.Library
