import Mathlib.Data.List.Basic

/-! Transducers read one item at a time and emit a list of outputs for each. A run over
chunks is a run over their items; a stream closes with its only terminal output. -/

set_option autoImplicit false

namespace Mahoquot.Library

open List
variable {σ τ ι ω : Type*}

/-- The last state and all outputs of a run. -/
def emitAll (step : σ → ι → σ × List ω) : σ → List ι → σ × List ω
  | state, [] => (state, [])
  | state, item :: items =>
    let first := step state item
    let rest := emitAll step first.1 items
    (rest.1, first.2 ++ rest.2)

variable (step : σ → ι → σ × List ω)

@[simp] theorem emitAll_nil (state : σ) : emitAll step state [] = (state, []) := rfl

theorem emitAll_cons (state : σ) (item : ι) (items : List ι) : emitAll step state (item :: items) =
      ((emitAll step (step state item).1 items).1,
        (step state item).2 ++ (emitAll step (step state item).1 items).2) := rfl

theorem emitAll_append (state : σ) (first second : List ι) : emitAll step state (first ++ second) =
      ((emitAll step (emitAll step state first).1 second).1,
        (emitAll step state first).2 ++ (emitAll step (emitAll step state first).1 second).2) := by
  induction first generalizing state with
  | nil => rfl
  | cons item first ih => simp [emitAll_cons, ih]

/-- A machine that has stopped stays as it is. -/
theorem emitAll_still {step : σ → ι → σ × List ω} {state : σ} (still : ∀ item, step state item = (state, []))
    (items : List ι) : emitAll step state items = (state, []) := by
  induction items with
  | nil => rfl
  | cons item items ih => rw [emitAll_cons, still, ih, append_nil]

/-- What every step keeps, a run keeps. -/
theorem emitAll_invariant {step : σ → ι → σ × List ω} (Holds : σ → Prop)
    (preserved : ∀ state item, Holds state → Holds (step state item).1) {state : σ}
    (initial : Holds state) (items : List ι) : Holds (emitAll step state items).1 := by
  induction items generalizing state with
  | nil => exact initial
  | cons item items ih => exact ih (preserved state item initial)

/-- What every output of a step has, every output of a run has. -/
theorem emitAll_forall {step : σ → ι → σ × List ω} {Holds : ω → Prop}
    (each : ∀ state item, ∀ output ∈ (step state item).2, Holds output) (state : σ)
    (items : List ι) : ∀ output ∈ (emitAll step state items).2, Holds output := by
  induction items generalizing state with
  | nil => simp
  | cons item items ih =>
    rw [emitAll_cons]
    exact forall_mem_append.mpr ⟨each state item, ih _⟩

/-- A machine inside a larger one runs as it does alone. -/
theorem emitAll_embed (inner : τ → ι → τ × List ω) (outer : σ → ι → σ × List ω) (embed : τ → σ)
    (steps : ∀ state item, outer (embed state) item = (embed (inner state item).1, (inner state item).2))
    (state : τ) (items : List ι) : emitAll outer (embed state) items =
      (embed (emitAll inner state items).1, (emitAll inner state items).2) := by
  induction items generalizing state with
  | nil => rfl
  | cons item items ih => simp only [emitAll_cons, steps, ih]

section Closing
variable {terminal : ω → Bool} {before middle after : Bool} {first second : List ω}

/-- The outputs end in their only terminal one. -/
def EndsOnce (terminal : ω → Bool) (outputs : List ω) : Prop :=
  ∃ front last, outputs = front ++ [last] ∧ (∀ output ∈ front, terminal output = false) ∧
    terminal last = true

/-- How a stream moves between open and closed: an open stretch holds no
terminal output, a closing one ends in its only one, a closed stream is silent. -/
inductive Moves (terminal : ω → Bool) : Bool → List ω → Bool → Prop where
  | silent : Moves terminal true [] true
  | running {outputs : List ω} (plain : ∀ output ∈ outputs, terminal output = false) :
      Moves terminal false outputs false
  | closing {outputs : List ω} (ends : EndsOnce terminal outputs) :
      Moves terminal false outputs true

namespace Moves

theorem refl (closed : Bool) : Moves terminal closed [] closed := by
  cases closed with
  | false => exact .running (by simp)
  | true => exact .silent

theorem of_terminal {output : ω} (last : terminal output = true) : Moves terminal false [output] true :=
  .closing ⟨[], output, rfl, by simp, last⟩

theorem append (left : Moves terminal before first middle) (right : Moves terminal middle second after) :
    Moves terminal before (first ++ second) after := by
  cases left with
  | silent => exact right
  | closing ends =>
    cases right
    rw [append_nil]
    exact .closing ends
  | running plain =>
    cases right with
    | running rest =>
      exact .running (forall_mem_append.mpr ⟨plain, rest⟩)
    | closing ends =>
      obtain ⟨front, last, rfl, quiet, closes⟩ := ends
      exact .closing ⟨first ++ front, last, by simp, forall_mem_append.mpr ⟨plain, quiet⟩, closes⟩

theorem endsOnce {outputs : List ω} (moves : Moves terminal false outputs true) : EndsOnce terminal outputs := by
  cases moves with
  | closing ends => exact ends

/-- A run moves as its steps do. -/
theorem emitAll {step : σ → ι → σ × List ω} (closed : σ → Bool) (state : σ) {items : List ι}
    (moves : ∀ front item rest, items = front ++ item :: rest →
      let before := (emitAll step state front).1
      Moves terminal (closed before) (step before item).2 (closed (step before item).1)) :
    Moves terminal (closed state) (Library.emitAll step state items).2
      (closed (Library.emitAll step state items).1) := by
  induction items generalizing state with
  | nil => exact .refl _
  | cons item items ih =>
    refine (moves [] item items rfl).append (ih _ fun front next rest split => ?_)
    exact moves (item :: front) next rest (by rw [split]; rfl)

end Moves

/-- A stream that may open again once it is closed, with the number of times it
does. -/
inductive Episodes (terminal opening : ω → Bool) : Bool → List ω → Bool → Nat → Prop where
  | within {before after : Bool} {outputs : List ω}
      (moves : Moves terminal before outputs after) :
      Episodes terminal opening before outputs after 0
  | again {before after : Bool} {outputs rest : List ω} {opened : ω} {count : Nat}
      (earlier : Episodes terminal opening before outputs true count)
      (opens : opening opened = true) (moves : Moves terminal false (opened :: rest) after) :
      Episodes terminal opening before (outputs ++ opened :: rest) after (count + 1)

namespace Episodes
variable {opening : ω → Bool}

theorem then_moves {count : Nat}
    (left : Episodes terminal opening before first middle count) (right : Moves terminal middle second after) :
    Episodes terminal opening before (first ++ second) after count := by
  cases left with
  | within moves => exact .within (moves.append right)
  | again earlier opens moves =>
    rw [append_assoc]
    exact .again earlier opens (moves.append right)

theorem append {count more : Nat} (left : Episodes terminal opening before first middle count)
    (right : Episodes terminal opening middle second after more) :
    Episodes terminal opening before (first ++ second) after (count + more) := by
  induction right with
  | within moves => exact left.then_moves moves
  | again _ opens moves ih =>
    rw [← append_assoc]
    exact .again ih opens moves

/-- A closed stream is cut into its episodes: each closes once, and each but the
first begins with an opening output. -/
theorem segments {outputs : List ω} {count : Nat} (episodes : Episodes terminal opening false outputs true count) :
    ∃ segments : List (List ω), outputs = segments.flatten ∧ segments.length = count + 1 ∧
      (∀ segment ∈ segments, EndsOnce terminal segment) ∧
      ∀ segment ∈ segments.tail, ∃ opened rest, segment = opened :: rest ∧ opening opened = true := by
  generalize stop : true = after at episodes
  induction episodes with
  | @within _ outputs moves =>
    subst stop
    exact ⟨[outputs], by simp, rfl, by simpa using moves.endsOnce, by simp⟩
  | @again _ outputs rest opened count _ opens moves ih =>
    subst stop
    obtain ⟨segments, joined, length, ends, opened'⟩ := ih rfl
    have last : EndsOnce terminal (opened :: rest) := moves.endsOnce
    cases segments with
    | nil => cases length
    | cons segment segments =>
      refine ⟨segment :: segments ++ [opened :: rest], by simp [joined], by simpa using length, ?_, ?_⟩
      · exact forall_mem_append.mpr ⟨ends, forall_mem_singleton.mpr last⟩
      · exact forall_mem_append.mpr ⟨opened', forall_mem_singleton.mpr ⟨opened, rest, rfl, opens⟩⟩

end Episodes
end Closing
end Mahoquot.Library
