import Mathlib.Data.List.Sort
import Mahoquot.Library.Checks

/-! Ordered tables: checks of every entry, tables that are filled from a list of items, and
the merge of a change into a table that may have been edited meanwhile. The change is given
by two tables; only the keys that belong to the writer are taken over. -/

set_option autoImplicit false

namespace Mahoquot.Library
open List Std

variable {κ ν : Type*} [BEq κ] [LawfulBEq κ]

def lastWith (key : ν → κ) (items : List ν) (wanted : κ) : Option ν :=
  items.reverse.find? fun item => key item == wanted

theorem lastWith_some {key : ν → κ} {items : List ν} {wanted : κ} {item : ν}
    (found : lastWith key items wanted = some item) : item ∈ items ∧ key item = wanted := by
  constructor
  · simpa using mem_of_find?_eq_some found
  · simpa using find?_some found

theorem exists_lastWith (key : ν → κ) {items : List ν} {item : ν} (member : item ∈ items) :
    ∃ last, lastWith key items (key item) = some last := by
  rw [← Option.isSome_iff_exists]
  simp only [lastWith, find?_isSome, mem_reverse]
  exact ⟨item, member, by simp⟩

section Insert
variable [Ord κ] [TransOrd κ]

def insertAll (key : ν → κ) (table : ExtTreeMap κ ν) (items : List ν) : ExtTreeMap κ ν :=
  items.foldl (fun table item => table.insert (key item) item) table

theorem getElem?_insertAll [LawfulEqOrd κ] (key : ν → κ) (table : ExtTreeMap κ ν) (items : List ν) (wanted : κ) :
    (insertAll key table items)[wanted]? = (lastWith key items wanted).or table[wanted]? := by
  induction items generalizing table with
  | nil => simp [insertAll, lastWith]
  | cons item items ih =>
    have folded := ih (table.insert (key item) item)
    simp only [insertAll, lastWith, foldl_cons, reverse_cons, find?_append] at folded ⊢
    rw [folded, ExtTreeMap.getElem?_insert]
    by_cases same : key item = wanted
    · simp [same]
    · simp [same]

end Insert

variable {κ ν : Type*}

theorem mem_of_getElem? [Ord κ] [TransOrd κ] {table : ExtTreeMap κ ν} {key : κ} {value : ν}
    (found : table[key]? = some value) : key ∈ table := by
  rw [ExtTreeMap.mem_iff_isSome_getElem?, found]
  rfl

theorem values_eq_map_toList [Ord κ] [TransOrd κ]
    (table : ExtTreeMap κ ν) : table.values = table.toList.map Prod.snd := by
  obtain ⟨⟨inner⟩⟩ := table
  induction inner using Quotient.inductionOn with
  | _ tree =>
    change tree.inner.values =
      (DTreeMap.Internal.Impl.Const.toList tree.inner).map Prod.snd
    rw [DTreeMap.Internal.Impl.values_eq_map_snd, DTreeMap.Internal.Impl.Const.toList_eq_toListModel_map]
    simp

theorem mem_values [Ord κ] [TransOrd κ] [LawfulEqOrd κ] {table : ExtTreeMap κ ν} {value : ν} :
    value ∈ table.values ↔ ∃ key : κ, table[key]? = some value := by
  simp [values_eq_map_toList]

theorem forM_toList_eq_ok {ε κ ν : Type} [Ord κ] [TransOrd κ] [LawfulEqOrd κ]
    {table : ExtTreeMap κ ν} {check : κ × ν → Except ε Unit} : table.toList.forM check = .ok () ↔
      ∀ key value, table[key]? = some value → check (key, value) = .ok () := by
  rw [forM_eq_ok]
  constructor
  · intro passed key value found
    exact passed (key, value) (ExtTreeMap.mem_toList_iff_getElem?_eq_some.mpr found)
  · rintro passed ⟨key, value⟩ member
    exact passed key value (ExtTreeMap.mem_toList_iff_getElem?_eq_some.mp member)

section Filled
variable {κ ν τ : Type*} [Ord κ] [TransOrd κ] [LawfulEqOrd κ] {key : τ → κ} {value : τ → ν}
  {table : ExtTreeMap κ ν}

theorem getElem?_foldl_insert_of_notMem {items : List τ} {wanted : κ} (absent : wanted ∉ items.map key) :
    (items.foldl (fun table item => table.insert (key item) (value item)) table)[wanted]? = table[wanted]? := by
  induction items generalizing table with
  | nil => rfl
  | cons item items ih =>
    rw [map_cons, mem_cons, not_or] at absent
    rw [foldl_cons, ih absent.2, ExtTreeMap.getElem?_insert, if_neg (mt LawfulEqOrd.eq_of_compare (Ne.symm absent.1))]

theorem getElem?_foldl_insert_of_mem {items : List τ} (distinct : (items.map key).Nodup) {item : τ}
    (member : item ∈ items) : (items.foldl (fun table item => table.insert (key item) (value item)) table)[key item]? =
      some (value item) := by
  induction items generalizing table with
  | nil => cases member
  | cons first items ih =>
    rw [map_cons, nodup_cons] at distinct
    rw [foldl_cons]
    rcases mem_cons.mp member with rfl | later
    · rw [getElem?_foldl_insert_of_notMem distinct.1, ExtTreeMap.getElem?_insert_self]
    · exact ih distinct.2 later

end Filled

/-- A table whose keys are the places of a list has its items in their order. -/
theorem map_snd_toList {table : ExtTreeMap Nat ν} {items : List ν}
    (same : ∀ index : Nat, table[index]? = items[index]?) : table.toList.map Prod.snd = items := by
  let Before (first second : Nat × ν) : Prop := first.1 < second.1
  have ordered : table.toList.Pairwise Before := table.ordered_keys_toList.imp Nat.compare_eq_lt.mp
  have places : (items.zipIdx.map Prod.swap).Pairwise Before := by
    have increasing : (range' 0 items.length).Pairwise (· < ·) := pairwise_lt_range'
    rw [← zipIdx_map_snd 0 items, pairwise_map] at increasing
    rw [pairwise_map]
    exact increasing
  have equal : table.toList = items.zipIdx.map Prod.swap := by
    apply ordered.eq_of_mem_iff places
    rintro ⟨index, item⟩
    rw [ExtTreeMap.mem_toList_iff_getElem?_eq_some, same]
    simp [mem_zipIdx_iff_getElem?]
  rw [equal, map_map]
  exact zipIdx_map_fst 0 items

section Merge
variable {κ ν : Type*} [Ord κ] [TransOrd κ] [DecidableEq ν]

def mergeKey (expected candidate : κ → Option ν) (current : ExtTreeMap κ ν) (key : κ) : ExtTreeMap κ ν :=
  if candidate key ≠ expected key then
    match candidate key with
    | some value => current.insert key value
    | none => current.erase key
  else current

def threeWay (owned : List κ) (expected candidate : κ → Option ν) (current : ExtTreeMap κ ν) : ExtTreeMap κ ν :=
  owned.foldl (mergeKey expected candidate) current

variable [LawfulEqOrd κ] [DecidableEq κ]

theorem getElem?_mergeKey (expected candidate : κ → Option ν) (current : ExtTreeMap κ ν) (key wanted : κ) :
    (mergeKey expected candidate current key)[wanted]? =
      if wanted = key ∧ candidate key ≠ expected key then candidate key else current[wanted]? := by
  simp only [mergeKey]
  by_cases changed : candidate key ≠ expected key
  · rw [if_pos changed]
    by_cases same : key = wanted
    · subst same
      cases held : candidate key <;> simp [held ▸ changed]
    · cases held : candidate key <;>
        simp [ExtTreeMap.getElem?_erase, ExtTreeMap.getElem?_insert, same, Ne.symm same]
  · simp [changed]

/-- The merge takes over what the candidate changed of the owned keys, and
nothing else. -/
theorem getElem?_threeWay (owned : List κ) (expected candidate : κ → Option ν)
    (current : ExtTreeMap κ ν) (wanted : κ) : (threeWay owned expected candidate current)[wanted]? =
      if wanted ∈ owned ∧ candidate wanted ≠ expected wanted then candidate wanted else current[wanted]? := by
  induction owned generalizing current with
  | nil => simp [threeWay]
  | cons key owned ih =>
    have step : threeWay (key :: owned) expected candidate current =
      threeWay owned expected candidate (mergeKey expected candidate current key) := rfl
    rw [step, ih, getElem?_mergeKey]
    by_cases same : wanted = key
    · subst same
      by_cases changed : candidate wanted ≠ expected wanted <;> simp [changed]
    · simp [same]

end Merge

section Owned
variable {κ ν : Type*} [Ord κ] [TransOrd κ]

/-- Two tables that may differ on the owned keys only. -/
def SameOutside (owned : List κ) (first second : ExtTreeMap κ ν) : Prop :=
  ∀ key, key ∉ owned → first[key]? = second[key]?

theorem SameOutside.refl (owned : List κ) (table : ExtTreeMap κ ν) : SameOutside owned table table :=
  fun _ _ => rfl

theorem SameOutside.insert [LawfulEqOrd κ] {owned : List κ} {first second : ExtTreeMap κ ν} {key : κ}
    (listed : key ∈ owned) (same : SameOutside owned first second) (value : ν) :
    SameOutside owned (first.insert key value) second := by
  intro other outside
  have different : key ≠ other := by
    rintro rfl
    exact outside listed
  simp [ExtTreeMap.getElem?_insert, different, same other outside]

/-- Without edits meanwhile, a candidate that kept to the owned keys is
reproduced in full. -/
theorem threeWay_unedited [LawfulEqOrd κ] [DecidableEq κ] [DecidableEq ν] {owned : List κ}
    {expected candidate : ExtTreeMap κ ν} (same : SameOutside owned candidate expected) :
    threeWay owned (fun key => expected[key]?) (fun key => candidate[key]?) expected = candidate := by
  apply ExtTreeMap.ext_getElem?
  intro key
  rw [getElem?_threeWay]
  split
  next => rfl
  next kept =>
    by_cases listed : key ∈ owned
    · have unchanged : candidate[key]? = expected[key]? := by
        by_contra changed
        exact kept ⟨listed, changed⟩
      exact unchanged.symm
    · exact (same key listed).symm

end Owned

end Mahoquot.Library
