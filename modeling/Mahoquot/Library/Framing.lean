import Mathlib.Data.List.Basic

/-! Cutting a text at a separator of two characters, and replacing such a pair by one,
while the text is still growing: what is cut off stays so. -/

set_option autoImplicit false

namespace Mahoquot.Library.Framing
open List

variable {α : Type*} {item : α} {tail : List α}

def consPiece (item : α) : List (List α) × List α → List (List α) × List α
  | ([], last) => ([], item :: last)
  | (piece :: pieces, last) => ((item :: piece) :: pieces, last)

theorem consPiece_fst_prefix {shorter longer : List (List α) × List α}
    (within : shorter.1 <+: longer.1) : (consPiece item shorter).1 <+: (consPiece item longer).1 := by
  obtain ⟨pieces, last⟩ := shorter
  obtain ⟨others, final⟩ := longer
  cases pieces with
  | nil => exact nil_prefix
  | cons piece pieces =>
    obtain ⟨more, rfl⟩ := within
    exact ⟨more, rfl⟩

theorem consPiece_fst_take {shorter longer : List (List α) × List α} {count : Nat}
    (taken : shorter.1 = longer.1.take count) : (consPiece item shorter).1 = (consPiece item longer).1.take count := by
  obtain ⟨pieces, last⟩ := shorter
  obtain ⟨others, final⟩ := longer
  subst taken
  cases others with
  | nil => simp [consPiece]
  | cons piece others => cases count <;> simp [consPiece]

variable [DecidableEq α]

/-- The pieces before each separator, and what is behind the last. -/
def cutPairs (first second : α) : List α → List (List α) × List α
  | [] => ([], [])
  | [item] => ([], [item])
  | item :: next :: text =>
    if item = first ∧ next = second then
      let rest := cutPairs first second text
      ([] :: rest.1, rest.2)
    else consPiece item (cutPairs first second (next :: text))

def replacePairs (first second new : α) : List α → List α
  | [] => []
  | [item] => [item]
  | item :: next :: text =>
    if item = first ∧ next = second then new :: replacePairs first second new text
    else item :: replacePairs first second new (next :: text)

variable {first second new : α}

/-- Pieces stay cut off while the text grows. -/
theorem cutPairs_prefix (text more : List α) :
    (cutPairs first second text).1 <+: (cutPairs first second (text ++ more)).1 := by
  fun_induction cutPairs first second text with
  | case1 => exact nil_prefix
  | case2 item => exact nil_prefix
  | case3 item next text cut rest ih =>
    rw [cons_append, cons_append, cutPairs, if_pos cut]
    exact prefix_cons_inj _ |>.mpr ih
  | case4 item next text uncut ih =>
    rw [cons_append, cons_append, cutPairs, if_neg uncut]
    exact consPiece_fst_prefix ih

theorem cutPairs_clear (clear : second ∉ tail) : (cutPairs first second (item :: tail)).1 = [] := by
  induction tail generalizing item with
  | nil => rfl
  | cons next tail ih =>
    rw [mem_cons, not_or] at clear
    rw [cutPairs, if_neg fun cut => clear.1 cut.2.symm]
    have rest : (cutPairs first second (next :: tail)).1 = [] := ih clear.2
    generalize cutPairs first second (next :: tail) = cut at rest
    obtain ⟨pieces, last⟩ := cut
    subst rest
    rfl

/-- A tail without the second half of a separator cuts nothing off. -/
theorem cutPairs_append_clear (text : List α) (clear : second ∉ tail) :
    (cutPairs first second (text ++ tail)).1 = (cutPairs first second text).1 := by
  fun_induction cutPairs first second text with
  | case1 =>
    cases tail with
    | nil => rfl
    | cons item tail => exact cutPairs_clear fun inside => clear (mem_cons_of_mem _ inside)
  | case2 item => exact cutPairs_clear clear
  | case3 item next text cut rest ih =>
    rw [cons_append, cons_append, cutPairs, if_pos cut]
    exact congrArg (cons []) ih
  | case4 item next text uncut ih =>
    rw [cons_append, cons_append, cutPairs, if_neg uncut]
    rw [cons_append] at ih
    generalize cutPairs first second (next :: text) = one at ih
    generalize cutPairs first second (next :: (text ++ tail)) = other at ih
    obtain ⟨pieces, last⟩ := one
    obtain ⟨others, final⟩ := other
    subst ih
    cases others <;> rfl

/-- Each number of pieces is what some beginning of the text is cut into. -/
theorem cutPairs_take (text : List α) (count : Nat) : ∃ front back, text = front ++ back ∧
      (cutPairs first second front).1 = (cutPairs first second text).1.take count := by
  fun_induction cutPairs first second text generalizing count with
  | case1 => exact ⟨[], [], rfl, by simp [cutPairs]⟩
  | case2 item => exact ⟨[], [item], rfl, by simp [cutPairs]⟩
  | case3 item next text cut rest ih =>
    cases count with
    | zero => exact ⟨[], _, rfl, by simp [cutPairs]⟩
    | succ count =>
      obtain ⟨front, back, rfl, taken⟩ := ih count
      refine ⟨item :: next :: front, back, rfl, ?_⟩
      rw [cutPairs, if_pos cut]
      simp [taken, rest]
  | case4 item next text uncut ih =>
    obtain ⟨front, back, split, taken⟩ := ih count
    cases front with
    | nil =>
      refine ⟨[], _, rfl, ?_⟩
      exact consPiece_fst_take taken
    | cons head front =>
      obtain ⟨rfl, rfl⟩ := cons_eq_cons.mp split
      refine ⟨item :: next :: front, back, rfl, ?_⟩
      rw [cutPairs, if_neg uncut]
      exact consPiece_fst_take taken

theorem replacePairs_clear (clear : second ∉ tail) : replacePairs first second new (item :: tail) = item :: tail := by
  induction tail generalizing item with
  | nil => rfl
  | cons next tail ih =>
    rw [mem_cons, not_or] at clear
    rw [replacePairs, if_neg fun pair => clear.1 pair.2.symm, ih clear.2]

theorem replacePairs_cons_ne (other : item ≠ first) (text : List α) :
    replacePairs first second new (item :: text) = item :: replacePairs first second new text := by
  cases text with
  | nil => rfl
  | cons next text => rw [replacePairs, if_neg fun pair => other pair.1]

/-- Of a text that grows, all that is written stays, but for an item at its end
that may be the first half of a pair. -/
theorem replacePairs_append (text more : List α) (clear : second ∉ tail) :
    ∃ solid rest longer, replacePairs first second new (text ++ tail) = solid ++ rest ∧
      replacePairs first second new (text ++ more) = solid ++ longer ∧ ∀ item ∈ rest, item = first ∨ item ∈ tail := by
  fun_induction replacePairs first second new text with
  | case1 =>
    refine ⟨[], tail, _, ?_, rfl, fun _ inside => .inr inside⟩
    cases tail with
    | nil => rfl
    | cons item tail => exact replacePairs_clear fun inside => clear (mem_cons_of_mem _ inside)
  | case2 item =>
    by_cases half : item = first
    · refine ⟨[], item :: tail, _, replacePairs_clear clear, rfl, ?_⟩
      intro other inside
      exact (mem_cons.mp inside).imp_left fun same => same.trans half
    · exact ⟨[item], tail, _, replacePairs_clear clear, replacePairs_cons_ne half more, fun _ inside => .inr inside⟩
  | case3 item next text pair ih =>
    obtain ⟨solid, rest, longer, now, later, junk⟩ := ih
    refine ⟨new :: solid, rest, longer, ?_, ?_, junk⟩
    · rw [cons_append, cons_append, replacePairs, if_pos pair, now, cons_append]
    · rw [cons_append, cons_append, replacePairs, if_pos pair, later, cons_append]
  | case4 item next text unpaired ih =>
    obtain ⟨solid, rest, longer, now, later, junk⟩ := ih
    refine ⟨item :: solid, rest, longer, ?_, ?_, junk⟩
    · rw [cons_append, cons_append, replacePairs, if_neg unpaired, ← cons_append, now, cons_append]
    · rw [cons_append, cons_append, replacePairs, if_neg unpaired, ← cons_append, later, cons_append]

/-- Whatever is written up to some place is written for a beginning of the text. -/
theorem replacePairs_lift {text front back : List α} (written : replacePairs first second new text = front ++ back) :
    ∃ before behind, text = before ++ behind ∧ replacePairs first second new before = front := by
  fun_induction replacePairs first second new text generalizing front with
  | case1 =>
    obtain ⟨rfl, rfl⟩ := nil_eq_append_iff.mp written
    exact ⟨[], [], rfl, rfl⟩
  | case2 item =>
    rcases cons_eq_append_iff.mp written with ⟨rfl, _⟩ | ⟨_, rfl, rest⟩
    · exact ⟨[], [item], rfl, rfl⟩
    · obtain ⟨rfl, rfl⟩ := nil_eq_append_iff.mp rest
      exact ⟨[item], [], rfl, rfl⟩
  | case3 item next text pair ih =>
    rcases cons_eq_append_iff.mp written with ⟨rfl, _⟩ | ⟨_, rfl, rest⟩
    · exact ⟨[], _, rfl, rfl⟩
    · obtain ⟨before, behind, rfl, front⟩ := ih rest
      refine ⟨item :: next :: before, behind, rfl, ?_⟩
      rw [replacePairs, if_pos pair, front]
  | case4 item next text unpaired ih =>
    rcases cons_eq_append_iff.mp written with ⟨rfl, _⟩ | ⟨_, rfl, rest⟩
    · exact ⟨[], _, rfl, rfl⟩
    · obtain ⟨before, behind, split, front⟩ := ih rest
      refine ⟨item :: before, behind, by rw [split]; rfl, ?_⟩
      cases before with
      | nil =>
        rw [← front]
        rfl
      | cons head before =>
        obtain ⟨rfl, rfl⟩ := cons_eq_cons.mp split
        rw [replacePairs, if_neg unpaired, front]

end Mahoquot.Library.Framing
