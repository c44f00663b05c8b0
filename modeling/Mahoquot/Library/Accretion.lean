import Mathlib.Order.Basic
import Mahoquot.Library.Tables

/-! Steps that only add to a state. A run of them leads from every state between its start
and its result to that result. -/

set_option autoImplicit false

namespace Mahoquot.Library

section Accretes
variable {α ε ι κ : Type} [PartialOrder α] {view : α → κ}

/-- A fallible step that grows its state and keeps a view of it, and that leads from
every larger state below `top` to a state below `top`. -/
structure Accretes (view : α → κ) (step : α → Except ε α) : Prop where
  extensive : ∀ {start last : α}, step start = .ok last → start ≤ last ∧ view last = view start
  absorbs : ∀ {start last between top : α}, step start = .ok last → start ≤ between →
    between ≤ top → last ≤ top →
      ∃ reached, step between = .ok reached ∧ last ≤ reached ∧ reached ≤ top

namespace Accretes

theorem pure : Accretes view (fun state : α => (.ok state : Except ε α)) where
  extensive same := by
    cases same
    exact ⟨le_rfl, rfl⟩
  absorbs same below above _ := by
    cases same
    exact ⟨_, rfl, below, above⟩

theorem never (error : ε) : Accretes view (fun _ : α => .error error) where
  extensive stepped := by cases stepped
  absorbs stepped := by cases stepped

theorem bind {first second : α → Except ε α} (grows : Accretes view first)
    (then' : Accretes view second) : Accretes view (fun state => first state >>= second) where
  extensive stepped := by
    obtain ⟨middle, reached, stepped⟩ := bind_eq_ok.mp stepped
    obtain ⟨below, kept⟩ := grows.extensive reached
    obtain ⟨above, keptToo⟩ := then'.extensive stepped
    exact ⟨below.trans above, keptToo.trans kept⟩
  absorbs stepped below above within := by
    obtain ⟨middle, reached, stepped⟩ := bind_eq_ok.mp stepped
    have middleWithin := (then'.extensive stepped).1.trans within
    obtain ⟨middle', reached', below, above⟩ := grows.absorbs reached below above middleWithin
    obtain ⟨last', stepped', below, above⟩ := then'.absorbs stepped below above within
    exact ⟨last', bind_eq_ok.mpr ⟨middle', reached', stepped'⟩, below, above⟩

theorem after {first : α → α} {second : α → Except ε α} (then' : Accretes view second)
    (grows : Accretes view fun state => (.ok (first state) : Except ε α)) :
    Accretes view fun state => second (first state) :=
  grows.bind then'

theorem foldlM {step : α → ι → Except ε α}
    (grows : ∀ item, Accretes view fun state => step state item) (items : List ι) :
    Accretes view fun state => items.foldlM step state := by
  induction items with
  | nil => exact Accretes.pure
  | cons item items ih => exact (grows item).bind ih

theorem foldl {step : α → ι → α} (grows : ∀ item, Accretes view fun state => (.ok (step state item) : Except ε α))
    (items : List ι) : Accretes view fun state => (.ok (items.foldl step state) : Except ε α) := by
  induction items with
  | nil => exact Accretes.pure
  | cons item items ih => exact (grows item).bind ih

/-- A step that is skipped where `guard` holds, if it never leads to a state
where it would be. -/
theorem skipWhere {step : α → Except ε α} (guard : α → Prop) [DecidablePred guard]
    (grows : Accretes view step) (keeps : ∀ {lower upper}, lower ≤ upper → guard lower → guard upper)
    (avoids : ∀ {start last top}, ¬ guard start → step start = .ok last → last ≤ top → ¬ guard top) :
    Accretes view fun state => if guard state then .ok state else step state where
  extensive {start last} stepped := by
    by_cases skipped : guard start
    · rw [if_pos skipped] at stepped
      cases stepped
      exact ⟨le_rfl, rfl⟩
    · rw [if_neg skipped] at stepped
      exact grows.extensive stepped
  absorbs {start last between top} stepped below above within := by
    by_cases skipped : guard start
    · rw [if_pos skipped] at stepped
      cases stepped
      exact ⟨between, if_pos (keeps below skipped), below, above⟩
    · rw [if_neg skipped] at stepped
      have open' : ¬ guard between := fun held =>
        avoids skipped stepped within (keeps above held)
      rw [if_neg open']
      exact grows.absorbs stepped below above within

theorem of_total {step : α → α} (extensive : ∀ state, state ≤ step state ∧ view (step state) = view state)
    (absorbs : ∀ start between top, start ≤ between → between ≤ top → step start ≤ top →
      step start ≤ step between ∧ step between ≤ top) :
    Accretes view (fun state => (.ok (step state) : Except ε α)) where
  extensive stepped := by
    cases stepped
    exact extensive _
  absorbs stepped below above within := by
    cases stepped
    obtain ⟨below, above⟩ := absorbs _ _ _ below above within
    exact ⟨_, rfl, below, above⟩

theorem total {step : α → α} (grows : Accretes view fun state => (.ok (step state) : Except ε α))
    (state : α) : state ≤ step state ∧ view (step state) = view state :=
  grows.extensive rfl

theorem reaches {step : α → Except ε α} (grows : Accretes view step) {start between last : α}
    (stepped : step start = .ok last) (below : start ≤ between) (above : between ≤ last) : step between = .ok last := by
  obtain ⟨reached, stepped', lower, upper⟩ := grows.absorbs stepped below above le_rfl
  rw [stepped', le_antisymm upper lower]

end Accretes
end Accretes

/-! ## Tables within tables -/

section Within
variable {κ ν : Type} [Ord κ] [Std.TransOrd κ]

/-- Every entry of `first` has one under the same key of `second` that is at
least as large. -/
def Within (le : ν → ν → Prop) (first second : Std.ExtTreeMap κ ν) : Prop :=
  ∀ (key : κ) (value : ν), first[key]? = some value →
    ∃ other, second[key]? = some other ∧ le value other

theorem Within.refl {le : ν → ν → Prop} (refl : ∀ value, le value value)
    (table : Std.ExtTreeMap κ ν) : Within le table table :=
  fun _ value found => ⟨value, found, refl value⟩

variable {first second : Std.ExtTreeMap κ ν}

theorem Within.trans (le : ν → ν → Prop)
    (trans : ∀ first second third, le first second → le second third → le first third)
    {third : Std.ExtTreeMap κ ν} (below : Within le first second) (above : Within le second third) :
    Within le first third := by
  intro key value found
  obtain ⟨other, found, lower⟩ := below key value found
  obtain ⟨last, found, upper⟩ := above key other found
  exact ⟨last, found, trans _ _ _ lower upper⟩

theorem Within.antisymm [Std.LawfulEqOrd κ] (le : ν → ν → Prop)
    (antisymm : ∀ first second, le first second → le second first → first = second)
    (below : Within le first second) (above : Within le second first) : first = second := by
  apply Std.ExtTreeMap.ext_getElem?
  intro key
  cases found : first[key]? with
  | some value =>
    obtain ⟨other, foundOther, lower⟩ := below key value found
    obtain ⟨again, foundAgain, upper⟩ := above key other foundOther
    cases found.symm.trans foundAgain
    rw [foundOther, antisymm _ _ lower upper]
  | none =>
    cases foundOther : second[key]? with
    | none => rfl
    | some other =>
      obtain ⟨value, foundValue, _⟩ := above key other foundOther
      rw [found] at foundValue
      cases foundValue

/-- The entries of `first` stand unchanged in `second`. -/
def SubTable (first second : Std.ExtTreeMap κ ν) : Prop := Within Eq first second

variable {key : κ}

theorem SubTable.get (sub : SubTable first second) {value : ν}
    (found : first[key]? = some value) : second[key]? = some value := by
  obtain ⟨other, found, rfl⟩ := sub key value found
  exact found

theorem subTable_iff : SubTable first second ↔
      ∀ (key : κ) (value : ν), first[key]? = some value → second[key]? = some value := by
  constructor
  · intro sub key value found
    exact sub.get found
  · intro sub key value found
    exact ⟨value, sub key value found, rfl⟩

variable (table : Std.ExtTreeMap κ ν)

theorem SubTable.refl : SubTable table table :=
  Within.refl (fun _ => rfl) table

theorem SubTable.trans {third : Std.ExtTreeMap κ ν} (below : SubTable first second)
    (above : SubTable second third) : SubTable first third :=
  Within.trans Eq (fun _ _ _ => Eq.trans) below above

theorem SubTable.antisymm [Std.LawfulEqOrd κ] (below : SubTable first second)
    (above : SubTable second first) : first = second :=
  Within.antisymm Eq (fun _ _ same _ => same) below above

theorem getElem?_insertIfNew_eq [Std.LawfulEqOrd κ] [DecidableEq κ] (key wanted : κ) (value : ν) :
    (table.insertIfNew key value)[wanted]? = table[wanted]?.or (if key = wanted then some value else none) := by
  rw [Std.ExtTreeMap.getElem?_insertIfNew]
  by_cases same : key = wanted
  · subst same
    cases found : table[key]? with
    | none =>
      have absent : key ∉ table := by
        rw [Std.ExtTreeMap.mem_iff_isSome_getElem?, found]
        simp
      simp [absent]
    | some other => simp [mem_of_getElem? found]
  · simp [same]

theorem insertIfNew_of_mem [Std.LawfulEqOrd κ] {table : Std.ExtTreeMap κ ν} (value : ν)
    (known : key ∈ table) : table.insertIfNew key value = table := by
  apply Std.ExtTreeMap.ext_getElem?
  intro wanted
  rw [Std.ExtTreeMap.getElem?_insertIfNew, if_neg]
  rintro ⟨_, absent⟩
  exact absent known

theorem insertIfNew_of_notMem [Std.LawfulEqOrd κ] {table : Std.ExtTreeMap κ ν} (value : ν)
    (absent : key ∉ table) : table.insertIfNew key value = table.insert key value := by
  apply Std.ExtTreeMap.ext_getElem?
  intro wanted
  rw [Std.ExtTreeMap.getElem?_insertIfNew, Std.ExtTreeMap.getElem?_insert]
  by_cases same : compare key wanted = .eq
  · rw [if_pos ⟨same, absent⟩, if_pos same]
  · rw [if_neg fun both => same both.1, if_neg same]

theorem subTable_insertIfNew [Std.LawfulEqOrd κ] [DecidableEq κ] (key : κ) (value : ν) :
    SubTable table (table.insertIfNew key value) := by
  rw [subTable_iff]
  intro wanted other found
  rw [getElem?_insertIfNew_eq, found, Option.some_or]

theorem insertIfNew_absorbs [Std.LawfulEqOrd κ] [DecidableEq κ] {start between top : Std.ExtTreeMap κ ν} {value : ν}
    (below : SubTable start between) (above : SubTable between top)
    (within : SubTable (start.insertIfNew key value) top) :
    SubTable (start.insertIfNew key value) (between.insertIfNew key value) ∧
      SubTable (between.insertIfNew key value) top := by
  have stepped : SubTable (between.insertIfNew key value) top := by
    rw [subTable_iff]
    intro wanted other found
    rw [getElem?_insertIfNew_eq] at found
    cases held : between[wanted]? with
    | some value =>
      rw [held] at found
      cases found
      exact above.get held
    | none =>
      -- A key that `between` lacks is new to `start` as well.
      rw [held, Option.none_or] at found
      refine within.get ?_
      rw [getElem?_insertIfNew_eq]
      cases foundStart : start[wanted]? with
      | none => rw [Option.none_or, found]
      | some earlier =>
        have := below.get foundStart
        rw [held] at this
        cases this
  refine ⟨?_, stepped⟩
  rw [subTable_iff]
  intro wanted other found
  have final := within.get found
  rw [getElem?_insertIfNew_eq] at found ⊢
  cases held : between[wanted]? with
  | some value =>
    rw [above.get held] at final
    rw [Option.some_or, final]
  | none =>
    cases foundStart : start[wanted]? with
    | none => rwa [foundStart] at found
    | some earlier =>
      have := below.get foundStart
      rw [held] at this
      cases this

end Within
end Mahoquot.Library
