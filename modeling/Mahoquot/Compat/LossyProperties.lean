import Mahoquot.Compat.Utf8

/-! Lossy reading of bytes that are still arriving: what has been read stays, but
for the end, and every text read so far was read from some beginning of the bytes. -/

set_option autoImplicit false

namespace Mahoquot.Compat

open List

/-- What a lossy reader writes for the first bytes, and the bytes it goes on with. -/
def lossyStep (first : UInt8) (rest : Bytes) : Char × Bytes :=
  match utf8Step first rest with
  | .char char rest => (char, rest)
  | .invalid len => (replacement, (first :: rest).drop len)
  | .incomplete => (replacement, [])

variable (first : UInt8)

theorem lossyStep_append (rest more : Bytes) :
    lossyStep first (rest ++ more) = ((lossyStep first rest).1, (lossyStep first rest).2 ++ more) ∨
      lossyStep first rest = (replacement, []) := by
  unfold lossyStep utf8Step
  rcases rest with _ | ⟨second, _ | ⟨third, _ | ⟨fourth, rest⟩⟩⟩
  all_goals simp only [cons_append]
  all_goals grind

theorem lossyStep_lift (rest : Bytes) :
    ∃ count, (lossyStep first rest).2 = rest.drop count ∧ ∀ front, front <+: rest.drop count →
      lossyStep first (rest.take count ++ front) = ((lossyStep first rest).1, front) := by
  have heads (front : Bytes) (head : UInt8) (tail : Bytes) (within : front <+: head :: tail) :
      front = [] ∨ ∃ back, front = head :: back := by
    cases front with
    | nil => exact .inl rfl
    | cons byte back => exact .inr ⟨back, by rw [(cons_prefix_cons.mp within).1]⟩
  unfold lossyStep utf8Step
  by_cases one : first < 0x80
  · exact ⟨0, by simp [one], by simp [one]⟩
  by_cases two : (0xC2 ≤ first && first ≤ 0xDF) = true
  · simp only [one, two, if_false]
    rcases rest with _ | ⟨second, rest⟩
    · exact ⟨0, by simp, by simp⟩
    · by_cases follows : isContinuation second = true
      · exact ⟨1, by simp [follows], by simp [follows]⟩
      · refine ⟨0, by simp [follows], fun front within => ?_⟩
        rcases heads _ _ _ within with rfl | ⟨back, rfl⟩ <;> simp [follows]
  by_cases three : (0xE0 ≤ first && first ≤ 0xEF) = true
  · simp only [one, two, three, if_false]
    rcases rest with _ | ⟨second, rest⟩
    · exact ⟨0, by simp, by simp⟩
    by_cases fits : isSecond first second = true
    · rcases rest with _ | ⟨third, rest⟩
      · exact ⟨1, by simp [fits], by simp [fits]⟩
      by_cases follows : isContinuation third = true
      · exact ⟨2, by simp [fits, follows], by simp [fits, follows]⟩
      · refine ⟨1, by simp [fits, follows], fun front within => ?_⟩
        rcases heads _ _ _ within with rfl | ⟨back, rfl⟩ <;> simp [fits, follows]
    · refine ⟨0, by simp [fits], fun front within => ?_⟩
      rcases heads _ _ _ within with rfl | ⟨back, rfl⟩ <;> simp [fits]
  by_cases four : (0xF0 ≤ first && first ≤ 0xF4) = true
  · simp only [one, two, three, four, if_false]
    rcases rest with _ | ⟨second, rest⟩
    · exact ⟨0, by simp, by simp⟩
    by_cases fits : isSecond first second = true
    · rcases rest with _ | ⟨third, rest⟩
      · exact ⟨1, by simp [fits], by simp [fits]⟩
      by_cases follows : isContinuation third = true
      · rcases rest with _ | ⟨fourth, rest⟩
        · exact ⟨2, by simp [fits, follows], by simp [fits, follows]⟩
        by_cases ends : isContinuation fourth = true
        · exact ⟨3, by simp [fits, follows, ends], by simp [fits, follows, ends]⟩
        · refine ⟨2, by simp [fits, follows, ends], fun front within => ?_⟩
          rcases heads _ _ _ within with rfl | ⟨back, rfl⟩ <;> simp [fits, follows, ends]
      · refine ⟨1, by simp [fits, follows], fun front within => ?_⟩
        rcases heads _ _ _ within with rfl | ⟨back, rfl⟩ <;> simp [fits, follows]
    · refine ⟨0, by simp [fits], fun front within => ?_⟩
      rcases heads _ _ _ within with rfl | ⟨back, rfl⟩ <;> simp [fits]
  · exact ⟨0, by simp [one, two, three, four], by simp [one, two, three, four]⟩

theorem length_lossyStep_le (rest : Bytes) : (lossyStep first rest).2.length ≤ rest.length := by
  obtain ⟨count, remaining, _⟩ := lossyStep_lift first rest
  rw [remaining, length_drop]
  exact Nat.sub_le _ _

theorem fromUtf8LossyLoop_cons (fuel : Nat) (first : UInt8) (rest : Bytes) :
    fromUtf8LossyLoop (fuel + 1) (first :: rest) =
      (lossyStep first rest).1 :: fromUtf8LossyLoop fuel (lossyStep first rest).2 := by
  rw [fromUtf8LossyLoop, lossyStep]
  cases utf8Step first rest with
  | incomplete => cases fuel <;> rfl
  | _ => rfl

/-- Any fuel above the number of bytes reads all of them. -/
theorem fromUtf8LossyLoop_fuel {bytes : Bytes} {fuel other : Nat} (enough : bytes.length < fuel)
    (too : bytes.length < other) : fromUtf8LossyLoop fuel bytes = fromUtf8LossyLoop other bytes := by
  induction fuel generalizing bytes other with
  | zero => exact absurd enough (Nat.not_lt_zero _)
  | succ fuel ih =>
    obtain ⟨other, rfl⟩ : ∃ less, other = less + 1 := ⟨other - 1, by omega⟩
    cases bytes with
    | nil => rfl
    | cons first rest =>
      have shorter := length_lossyStep_le first rest
      rw [length_cons] at enough too
      rw [fromUtf8LossyLoop_cons, fromUtf8LossyLoop_cons]
      exact congrArg (cons _) (ih (by omega) (by omega))

theorem fromUtf8Lossy_cons (rest : Bytes) : fromUtf8Lossy (first :: rest) =
      (lossyStep first rest).1 :: fromUtf8Lossy (lossyStep first rest).2 := by
  have shorter := length_lossyStep_le first rest
  rw [fromUtf8Lossy, fromUtf8LossyLoop_cons, length_cons,
    fromUtf8LossyLoop_fuel (Nat.lt_succ_of_le shorter) (Nat.lt_succ_self _)]
  rfl

/-- Of bytes that grow, all characters stay but for one at the end that stands for
an unfinished sequence. -/
theorem fromUtf8Lossy_append (bytes more : Bytes) : ∃ solid tail longer, fromUtf8Lossy bytes = solid ++ tail ∧
      fromUtf8Lossy (bytes ++ more) = solid ++ longer ∧ ∀ char ∈ tail, char = replacement := by
  induction size : bytes.length using Nat.strong_induction_on generalizing bytes with
  | _ count ih =>
    cases bytes with
    | nil => exact ⟨[], [], _, rfl, rfl, by simp⟩
    | cons first rest =>
      have shorter := length_lossyStep_le first rest
      rw [length_cons] at size
      rw [cons_append, fromUtf8Lossy_cons, fromUtf8Lossy_cons]
      rcases lossyStep_append first rest more with settled | unfinished
      · obtain ⟨solid, tail, longer, now, later, junk⟩ := ih _ (by omega) (lossyStep first rest).2 rfl
        rw [settled, now, later]
        exact ⟨_ :: solid, tail, longer, rfl, rfl, junk⟩
      · rw [unfinished]
        exact ⟨[], [replacement], _, rfl, rfl, by simp⟩

/-- What is read up to some character is read from a beginning of the bytes. -/
theorem fromUtf8Lossy_lift {bytes : Bytes} {front back : List Char} (read : fromUtf8Lossy bytes = front ++ back) :
    ∃ before behind, bytes = before ++ behind ∧ fromUtf8Lossy before = front := by
  induction front generalizing bytes with
  | nil => exact ⟨[], bytes, rfl, rfl⟩
  | cons char front ih =>
    cases bytes with
    | nil => cases read
    | cons first rest =>
      rw [fromUtf8Lossy_cons, cons_append, cons.injEq] at read
      obtain ⟨count, remaining, lifts⟩ := lossyStep_lift first rest
      obtain ⟨before, behind, split, front⟩ := ih read.2
      rw [remaining] at split
      have step := lifts before ⟨behind, split.symm⟩
      refine ⟨first :: (rest.take count ++ before), behind, ?_, ?_⟩
      · rw [cons_append, append_assoc, ← split, take_append_drop]
      · rw [fromUtf8Lossy_cons, step, read.1, front]

end Mahoquot.Compat
