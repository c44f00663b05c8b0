import Mathlib.Data.List.Nodup
import Std.Data.ExtTreeMap

/-! Tables whose entries carry the number of their last use. -/

set_option autoImplicit false

namespace Mahoquot.Library
variable {κ β : Type} [Ord κ] [Std.TransOrd κ] {stamp : β → Nat} {count : Nat}
  {table : Std.ExtTreeMap κ β}

/-- Every number was given out by the counter, and none of them twice. -/
structure Dated (stamp : β → Nat) (count : Nat) (table : Std.ExtTreeMap κ β) : Prop where
  given : ∀ (key : κ) entry, table[key]? = some entry → 1 ≤ stamp entry ∧ stamp entry ≤ count
  apart : ∀ (first second : κ) entry other, table[first]? = some entry →
    table[second]? = some other → stamp entry = stamp other → first = second

namespace Dated

theorem empty : Dated stamp count (∅ : Std.ExtTreeMap κ β) :=
  ⟨fun _ _ found => by simp at found, fun _ _ _ _ found => by simp at found⟩

variable (dated : Dated stamp count table)

include dated

theorem later {next : Nat} (grown : count ≤ next) : Dated stamp next table :=
  ⟨fun key entry found => (dated.given key entry found).imp_right (Nat.le_trans · grown), dated.apart⟩

variable [Std.LawfulEqOrd κ]

theorem filter (keeps : κ → β → Bool) : Dated stamp count (table.filter keeps) := by
  have held {key : κ} {entry : β} (found : (table.filter keeps)[key]? = some entry) :
      table[key]? = some entry := by
    rw [Std.ExtTreeMap.getElem?_filter'] at found
    exact (Option.filter_eq_some_iff.mp found).1
  exact ⟨fun key entry found => dated.given key entry (held found), fun first second entry other here there =>
      dated.apart first second entry other (held here) (held there)⟩

theorem insert {entry : β} (fresh : stamp entry = count + 1) (key : κ) :
    Dated stamp (count + 1) (table.insert key entry) := by
  -- the other entries have smaller numbers
  have cases {other : κ} {held : β} (found : (table.insert key entry)[other]? = some held) :
      other = key ∧ held = entry ∨ table[other]? = some held ∧ stamp held ≤ count := by
    rw [Std.ExtTreeMap.getElem?_insert] at found
    split at found
    next same =>
      exact .inl ⟨(Std.LawfulEqOrd.eq_of_compare same).symm, (Option.some.inj found).symm⟩
    next => exact .inr ⟨found, (dated.given other held found).2⟩
  refine ⟨fun other held found => ?_, fun first second held other here there same => ?_⟩
  · obtain ⟨-, rfl⟩ | ⟨found, -⟩ := cases found
    · exact ⟨by omega, by omega⟩
    · exact (dated.given other held found).imp_right (Nat.le_succ_of_le)
  · obtain ⟨rfl, rfl⟩ | ⟨here, small⟩ := cases here
    · obtain ⟨rfl, -⟩ | ⟨-, small⟩ := cases there
      · rfl
      · omega
    · obtain ⟨rfl, rfl⟩ | ⟨there, -⟩ := cases there
      · omega
      · exact dated.apart first second held other here there same

/-- Entries in a window of the counter are no more than the window is wide. -/
theorem size_le {low : Nat} (recent : ∀ (key : κ) entry, table[key]? = some entry → low ≤ stamp entry) :
    table.size ≤ count + 1 - low := by
  have distinct : (table.toList.map fun entry => stamp entry.2).Nodup := by
    rw [List.Nodup, List.pairwise_map]
    refine table.distinct_keys_toList.imp_of_mem fun {first second} here there different same => ?_
    rw [Std.ExtTreeMap.mem_toList_iff_getElem?_eq_some] at here there
    exact different (Std.compare_eq_iff_eq.mpr (dated.apart _ _ _ _ here there same))
  have within : (table.toList.map fun entry => stamp entry.2) ⊆
      List.range' low (count + 1 - low) := by
    intro number member
    obtain ⟨⟨key, entry⟩, held, rfl⟩ := List.mem_map.mp member
    rw [Std.ExtTreeMap.mem_toList_iff_getElem?_eq_some] at held
    have below := recent key entry held
    have above := (dated.given key entry held).2
    refine List.mem_range'_1.mpr ⟨below, ?_⟩
    dsimp only
    omega
  have length := distinct.length_le_of_subset within
  rwa [List.length_map, Std.ExtTreeMap.length_toList, List.length_range'] at length

end Dated
end Mahoquot.Library
