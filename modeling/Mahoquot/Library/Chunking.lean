import Mahoquot.Library.Transducer

/-! Machines that take their input in chunks: one that reads a chunk after a prefix as it
reads both at once reads a stream the same way however it is cut. -/

set_option autoImplicit false

namespace Mahoquot.Library

open List
variable {σ ι ω : Type*}

theorem take_drop_append {front : List ι} {start count : Nat} (held : start + count ≤ front.length)
    (back : List ι) : ((front ++ back).drop start).take count = (front.drop start).take count := by
  rw [drop_append_of_le_length (by omega), take_append_of_le_length (by
    rw [length_drop]
    omega)]

/-- Same outputs, and states that no later input tells apart: equal ones, or
two that are closed. -/
def Agree (closed : σ → Bool) (first second : σ × List ω) : Prop :=
  first.2 = second.2 ∧ (first.1 = second.1 ∨ closed first.1 ∧ closed second.1)

def feedTwice (step : σ → List ι → σ × List ω) (state : σ) (first second : List ι) : σ × List ω :=
  let before := step state first
  let after := step before.1 second
  (after.1, before.2 ++ after.2)

namespace Agree
variable {closed : σ → Bool} {first second third : σ × List ω}

theorem refl (outcome : σ × List ω) : Agree closed outcome outcome := ⟨rfl, .inl rfl⟩

theorem of_eq (same : first = second) : Agree closed first second := same ▸ refl first

theorem trans (left : Agree closed first second) (right : Agree closed second third) : Agree closed first third := by
  refine ⟨left.1.trans right.1, ?_⟩
  rcases left.2 with same | ⟨closedFirst, closedSecond⟩
  · rw [same]
    exact right.2
  · rcases right.2 with same | ⟨-, closedThird⟩
    · exact .inr ⟨closedFirst, same ▸ closedSecond⟩
    · exact .inr ⟨closedFirst, closedThird⟩

theorem prepend {left right : σ × List ω} (agree : Agree closed left right) (outputs : List ω) :
    Agree closed (left.1, outputs ++ left.2) (right.1, outputs ++ right.2) :=
  ⟨congrArg (outputs ++ ·) agree.1, agree.2⟩

end Agree

section Chunks
variable {step : σ → List ι → σ × List ω} {closed : σ → Bool}
  (silent : ∀ state input, closed state → step state input = (state, []))

include silent

theorem Agree.feed {first second : σ × List ω} (agree : Agree closed first second) (input : List ι) :
    Agree closed ((step first.1 input).1, first.2 ++ (step first.1 input).2)
      ((step second.1 input).1, second.2 ++ (step second.1 input).2) := by
  rcases agree.2 with same | ⟨closedFirst, closedSecond⟩
  · rw [agree.1, same]
    exact .refl _
  · rw [silent _ input closedFirst, silent _ input closedSecond, append_nil, append_nil]
    exact ⟨agree.1, .inr ⟨closedFirst, closedSecond⟩⟩

/-- If every cut into two agrees, every cut does. -/
theorem emitAll_chunks {start : σ} {stream : List ι} (empty : step start [] = (start, []))
    (cut : ∀ front chunk, front ++ chunk <+: stream →
      Agree closed (step start (front ++ chunk)) (feedTwice step start front chunk))
    {chunks : List (List ι)} (within : chunks.flatten <+: stream) :
    Agree closed (step start chunks.flatten) (emitAll step start chunks) := by
  -- Taking the chunks from the left keeps the invariant about the prefix read so far.
  suffices read : ∀ front outcome, front ++ chunks.flatten <+: stream →
      Agree closed (step start front) outcome →
        Agree closed (step start (front ++ chunks.flatten))
          ((emitAll step outcome.1 chunks).1, outcome.2 ++ (emitAll step outcome.1 chunks).2) by
    have whole := read [] (start, []) within (.of_eq empty)
    exact whole
  clear within
  induction chunks with
  | nil =>
    intro front outcome _ agree
    rw [flatten_nil, append_nil, emitAll_nil, append_nil]
    exact agree
  | cons chunk chunks ih =>
    intro front outcome within agree
    rw [flatten_cons, ← append_assoc] at within ⊢
    have here := (prefix_append (front ++ chunk) chunks.flatten).trans within
    have next := (cut front chunk here).trans (agree.feed silent chunk)
    have rest := ih (front ++ chunk) _ within next
    rw [emitAll_cons, ← append_assoc]
    exact rest

end Chunks

/-- What a round of a loop over a buffer comes to: the loop stops, or goes on. -/
inductive Round (σ ω : Type*) where
  | stop (outcome : σ × List ω)
  | go (next : σ) (outputs : List ω)

def Round.map (change : σ → σ) : Round σ ω → Round σ ω
  | .stop outcome => .stop (change outcome.1, outcome.2)
  | .go next outputs => .go (change next) outputs

/-- Where the loop stops it is closed, and what it goes on with has a property. -/
def Round.Leads (closed : σ → Bool) (Fits : σ → Prop) : Round σ ω → Prop
  | .stop outcome => closed outcome.1
  | .go next _ => Fits next

/-- What a machine does behind an outcome, with what came out before. -/
def followed (first : σ × List ω) (later : σ → σ × List ω) : σ × List ω :=
  ((later first.1).1, first.2 ++ (later first.1).2)

/-- A loop with a bound that is never reached: each round that goes on leaves a smaller buffer. -/
structure Drains (round : σ → Round σ ω) (size : σ → Nat) (loop : Nat → σ → σ × List ω) : Prop where
  succ : ∀ fuel state, loop (fuel + 1) state =
    match round state with
    | .stop outcome => outcome
    | .go next outputs => followed (next, outputs) (loop fuel)
  shrinks : ∀ {state next outputs}, round state = .go next outputs → size next < size state

namespace Drains
variable {round : σ → Round σ ω} {size : σ → Nat} {loop : Nat → σ → σ × List ω}
  (drains : Drains round size loop) {state next : σ} {outputs : List ω}

include drains

theorem stop {outcome : σ × List ω} (ends : round state = .stop outcome) (fuel : Nat) : loop (fuel + 1) state = outcome := by
  rw [drains.succ, ends]

theorem bound {fuel : Nat} (enough : size state < fuel) (extra : Nat) : loop (fuel + extra) state = loop fuel state := by
  induction fuel generalizing state with
  | zero => omega
  | succ fuel ih =>
    rw [Nat.add_right_comm, drains.succ, drains.succ]
    cases taken : round state with
    | stop outcome => rfl
    | go next outputs =>
      have smaller := drains.shrinks taken
      dsimp only [followed]
      rw [ih (by omega)]

theorem go (goes : round state = .go next outputs) :
    loop (size state + 1) state = followed (next, outputs) (loop (size next + 1)) := by
  obtain ⟨extra, more⟩ := Nat.exists_eq_add_of_lt (drains.shrinks goes)
  rw [drains.succ, goes, more, Nat.add_right_comm]
  dsimp only [followed]
  rw [drains.bound (Nat.lt_succ_self (size next))]

/-- Induction along the rounds. -/
theorem rule (Holds : σ → Prop) (stop : ∀ {state outcome}, round state = .stop outcome → Holds state)
    (go : ∀ {state next outputs}, round state = .go next outputs → Holds next → Holds state) (state : σ) : Holds state := by
  induction measured : size state using Nat.strongRecOn generalizing state with
  | _ _ ih =>
    cases taken : round state with
    | stop outcome => exact stop taken
    | go next outputs => exact go taken (ih _ (measured ▸ drains.shrinks taken) next rfl)

/-- A loop that waits goes on with what comes. -/
theorem waits {later : σ → σ × List ω} {whole : σ × List ω} (idle : round state = .stop (state, []))
    (goes : later state = whole) {closed : σ → Bool} : Agree closed whole (followed (loop (size state + 1) state) later) := by
  rw [drains.stop idle, ← goes]
  exact .refl _

/-- Input that comes behind the buffer is drained as if it had been there, if no
round takes notice of it up to one from which this is known. -/
theorem cut {closed : σ → Bool} {later : σ → σ × List ω} (silent : ∀ {state}, closed state → later state = (state, []))
    (grow : σ → σ) (kept : ∀ state, closed (grow state) = closed state) (Fits : σ → Prop)
    (step : ∀ {state}, Fits state →
      Agree closed (loop (size (grow state) + 1) (grow state)) (followed (loop (size state + 1) state) later) ∨
        round (grow state) = (round state).map grow ∧ (round state).Leads closed Fits) (state : σ) : Fits state →
    Agree closed (loop (size (grow state) + 1) (grow state)) (followed (loop (size state + 1) state) later) := by
  refine drains.rule (fun state => Fits state → Agree closed (loop (size (grow state) + 1) (grow state))
    (followed (loop (size state + 1) state) later)) ?_ ?_ state
  · intro state outcome taken fits
    obtain known | ⟨longer, ends⟩ := step fits
    · exact known
    · rw [taken] at longer ends
      rw [drains.stop taken, drains.stop longer, followed, silent ends, append_nil]
      exact ⟨rfl, .inr ⟨(kept _).trans ends, ends⟩⟩
  · intro state next outputs taken ih fits
    obtain known | ⟨longer, goes⟩ := step fits
    · exact known
    · rw [taken] at longer goes
      rw [drains.go taken, drains.go longer, followed, followed, followed, append_assoc]
      exact (ih goes).prepend outputs

end Drains
end Mahoquot.Library
