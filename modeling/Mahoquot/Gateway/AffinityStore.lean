import Mathlib.Algebra.Ring.Nat
import Mathlib.Data.List.Sort

/-! The durable bindings of Claude sessions to accounts, and which are dropped once there
are too many. -/

set_option autoImplicit false

namespace Mahoquot.Gateway.AffinityStore
open List

structure Binding where
  key : UInt64
  accountId : String
  lastUsedUnix : Int
deriving Repr, DecidableEq

def bindingTtlSecs : Int := 6 * 3600
def maxBindings : Nat := 20000

/-- Not idle past the TTL. The difference of two `i64` wraps. -/
def isLive (nowUnix : Int) (binding : Binding) : Bool :=
  Int.bmod (nowUnix - binding.lastUsedUnix) (2 ^ 64) ≤ bindingTtlSecs

def live (map : List Binding) (nowUnix : Int) : List Binding := map.filter (isLive nowUnix)

/-- The map is the list of its bindings, in any order. -/
def trim (map : List Binding) (nowUnix : Int) : List Binding :=
  let live := live map nowUnix
  if live.length > maxBindings then
    let ages := (live.map Binding.lastUsedUnix).insertionSort (· ≤ ·)
    let cutoff := ages.getD (ages.length - maxBindings) 0
    live.filter fun binding => cutoff ≤ binding.lastUsedUnix
  else live

def load (stored : List Binding) (nowUnix : Int) : List Binding := trim stored nowUnix

def insert (map : List Binding) (binding : Binding) : List Binding := binding :: map.filter (·.key ≠ binding.key)

def put (map : List Binding) (key : UInt64) (accountId : String) (nowUnix : Int) : List Binding :=
  let inserted := insert map ⟨key, accountId, nowUnix⟩
  if inserted.length > maxBindings then trim inserted nowUnix else inserted

/-- The bindings that were used at a time or later. -/
def usedSince (since : Int) (bindings : List Binding) : Nat := bindings.countP (since ≤ ·.lastUsedUnix)

/-- What an operation leaves of the bindings that it has to hold. -/
structure Keeps (nowUnix : Int) (held after : List Binding) : Prop where
  capped : after.length ≤ maxBindings
  recent : ∀ dropped ∈ held, isLive nowUnix dropped → dropped ∉ after →
    ∀ kept ∈ after, dropped.lastUsedUnix ≤ kept.lastUsedUnix

/-- Some time parts the latest bindings from the others. -/
def Parted (nowUnix : Int) (held : List Binding) : Prop :=
  (live held nowUnix).length ≤ maxBindings ∨
    ∃ since, usedSince since (live held nowUnix) = maxBindings

/-- In a sorted list, the entry `count` from the end is known by what it is not below. -/
theorem le_cutoff_iff {ages : List Int} (sorted : ages.Pairwise (· ≤ ·)) {count : Nat} (positive : 0 < count)
    (enough : count ≤ ages.length) (since : Int) :
    since ≤ ages.getD (ages.length - count) 0 ↔ count ≤ ages.countP (since ≤ ·) := by
  obtain ⟨early, late, rfl, length⟩ : ∃ early late, early ++ late = ages ∧ late.length = count :=
    ⟨ages.take (ages.length - count), ages.drop (ages.length - count), take_append_drop .., by simp; omega⟩
  obtain ⟨cutoff, rest, rfl⟩ := exists_cons_of_length_pos (length ▸ positive)
  obtain ⟨-, above, below⟩ := pairwise_append.mp sorted
  have place : (early ++ cutoff :: rest).length - count = early.length := by simp at length ⊢; omega
  rw [place, getD_eq_getElem?_getD, getElem?_append_right le_rfl, Nat.sub_self, countP_append]
  change since ≤ cutoff ↔ _
  constructor
  · intro reached
    have all : (cutoff :: rest).countP (since ≤ ·) = count := by
      rw [← length, countP_eq_length]
      simpa using ⟨reached, fun age member => Int.le_trans reached ((pairwise_cons.mp above).1 age member)⟩
    omega
  · intro many
    by_contra later
    have none : early.countP (since ≤ ·) = 0 := countP_eq_zero.mpr fun age member reached =>
      later (Int.le_trans (of_decide_eq_true reached) (below age member cutoff mem_cons_self))
    have few := countP_le_length (p := fun age => decide (since ≤ age)) (l := rest)
    rw [none, countP_cons_of_neg (by simpa using later)] at many
    rw [length_cons] at length
    omega

variable {nowUnix : Int} {held : List Binding}

/-- All that is live is left, or what was used since a cutoff. -/
theorem trim_cases (held : List Binding) (nowUnix : Int) :
    (live held nowUnix).length ≤ maxBindings ∧ trim held nowUnix = live held nowUnix ∨
      ∃ cutoff, trim held nowUnix = (live held nowUnix).filter (cutoff ≤ ·.lastUsedUnix) ∧
        maxBindings < (live held nowUnix).length ∧
        ∀ since, since ≤ cutoff ↔ maxBindings ≤ usedSince since (live held nowUnix) := by
  unfold trim
  generalize live held nowUnix = live
  dsimp only
  split
  next many =>
    have sorting := perm_insertionSort (· ≤ ·) (live.map Binding.lastUsedUnix)
    refine .inr ⟨_, rfl, many, fun since => ?_⟩
    rw [le_cutoff_iff (pairwise_insertionSort _ _) (by decide) (by simpa using Nat.le_of_lt many), sorting.countP_eq,
      countP_map]
    rfl
  next few => exact .inl ⟨Nat.le_of_not_lt few, rfl⟩

theorem keeps_trim_iff : Keeps nowUnix held (trim held nowUnix) ↔ Parted nowUnix held := by
  obtain ⟨few, all⟩ | ⟨cutoff, left, many, known⟩ := trim_cases held nowUnix
  · refine iff_of_true ⟨all ▸ few, fun dropped member unexpired gone => ?_⟩ (.inl few)
    rw [all] at gone
    exact absurd (mem_filter.mpr ⟨member, unexpired⟩) gone
  · have length : (trim held nowUnix).length = usedSince cutoff (live held nowUnix) := by
      rw [left, ← countP_eq_length_filter]
      rfl
    constructor
    · rintro ⟨capped, -⟩
      exact .inr ⟨cutoff, Nat.le_antisymm (length ▸ capped) ((known cutoff).mp le_rfl)⟩
    · rintro (few | ⟨since, parts⟩)
      · exact absurd few (Nat.not_le_of_gt many)
      refine ⟨?_, fun dropped member unexpired gone kept among => ?_⟩
      · have before := (known since).mpr parts.ge
        rw [length, ← parts]
        exact countP_mono_left fun binding _ late => by simp at late ⊢; omega
      · rw [left, mem_filter, decide_eq_true_eq] at gone among
        exact Int.le_trans (Int.le_of_not_le fun late => gone ⟨mem_filter.mpr ⟨member, unexpired⟩, late⟩) among.2

section Fresh
variable {binding : Binding} (dated : binding.lastUsedUnix = nowUnix) (member : binding ∈ held)
include dated member

theorem live_of_dated : binding ∈ live held nowUnix :=
  mem_filter.mpr ⟨member, by simp [isLive, dated, bindingTtlSecs]⟩

theorem usedSince_lt : usedSince (nowUnix + 1) (live held nowUnix) < (live held nowUnix).length := by
  refine Nat.lt_of_le_of_ne countP_le_length fun every => ?_
  have later := of_decide_eq_true (countP_eq_length.mp every binding (live_of_dated dated member))
  omega

theorem mem_trim_iff : binding ∈ trim held nowUnix ↔ usedSince (nowUnix + 1) (live held nowUnix) < maxBindings := by
  have unexpired := live_of_dated dated member
  obtain ⟨few, all⟩ | ⟨cutoff, left, many, known⟩ := trim_cases held nowUnix
  · exact iff_of_true (all ▸ unexpired) (Nat.lt_of_lt_of_le (usedSince_lt dated member) few)
  · rw [left, mem_filter, and_iff_right unexpired, ← Nat.not_le, ← known, dated, decide_eq_true_eq]
    omega

end Fresh

inductive Op where
  | load (stored : List Binding) (nowUnix : Int)
  | put (key : UInt64) (accountId : String) (nowUnix : Int)

def apply (map : List Binding) : Op → List Binding
  | .load stored nowUnix => load stored nowUnix
  | .put key accountId nowUnix => put map key accountId nowUnix

/-- The store is as it should be after the operation. -/
def Kept (map : List Binding) : Op → Prop
  | .load stored nowUnix => Keeps nowUnix stored (load stored nowUnix)
  | .put key accountId nowUnix =>
    Keeps nowUnix (insert map ⟨key, accountId, nowUnix⟩) (put map key accountId nowUnix) ∧
      ⟨key, accountId, nowUnix⟩ ∈ put map key accountId nowUnix

/-- A time parts the latest bindings from the others, and fewer than the cap are dated
later than a put. -/
def Fits (map : List Binding) : Op → Prop
  | .load stored nowUnix => Parted nowUnix stored
  | .put key accountId nowUnix => Parted nowUnix (insert map ⟨key, accountId, nowUnix⟩) ∧
      usedSince (nowUnix + 1) (live (insert map ⟨key, accountId, nowUnix⟩) nowUnix) < maxBindings

theorem kept_iff_fits (map : List Binding) (op : Op) : Kept map op ↔ Fits map op := by
  cases op with
  | load stored nowUnix => exact keeps_trim_iff
  | put key accountId nowUnix =>
    have member : ⟨key, accountId, nowUnix⟩ ∈ insert map ⟨key, accountId, nowUnix⟩ := mem_cons_self
    dsimp only [Kept, Fits, put]
    generalize insert map ⟨key, accountId, nowUnix⟩ = inserted at member
    split
    · rw [keeps_trim_iff, mem_trim_iff rfl member]
    next few =>
      have small := Nat.le_of_not_lt few
      have fewer := (@filter_sublist _ (isLive nowUnix) inserted).length_le.trans small
      exact iff_of_true ⟨⟨small, fun dropped given _ gone => absurd given gone⟩, member⟩
        ⟨.inl fewer, (usedSince_lt rfl member).trans_le fewer⟩

/-- Along a run of loads and puts, the store is as it should be after each of them exactly
if each fits the bindings it meets. -/
theorem affinity_kept_iff (map : List Binding) (ops : List Op) :
    (∀ front op, front ++ [op] <+: ops → Kept (front.foldl apply map) op) ↔
      ∀ front op, front ++ [op] <+: ops → Fits (front.foldl apply map) op :=
  forall₃_congr fun front op _ => kept_iff_fits (front.foldl apply map) op

/-- Bindings of one second, one more than the cap. -/
def together : List Binding := (range (maxBindings + 1)).map fun key => ⟨.ofNat key, "a", 0⟩

theorem together_not_capped : (together.map Binding.key).Nodup ∧ ¬ Kept [] (.load together 0) := by
  have distinct : (together.map Binding.key).Nodup := by
    rw [together, map_map]
    refine nodup_range.map_on fun first inside second inside' same => ?_
    have small : maxBindings + 1 < 2 ^ 64 := by decide
    rw [mem_range] at inside inside'
    have numbers := congrArg UInt64.toNat same
    simp only [Function.comp_apply, UInt64.toNat_ofNat'] at numbers
    omega
  have all : live together 0 = together := filter_eq_self.mpr (by simp [together, isLive, bindingTtlSecs])
  have used (since : Int) : usedSince since together = if since ≤ 0 then maxBindings + 1 else 0 := by
    unfold usedSince together
    rw [countP_map]
    split <;> simp_all [Function.comp_def]
  refine ⟨distinct, ?_⟩
  rw [kept_iff_fits, Fits, Parted, all]
  rintro (few | ⟨since, parted⟩)
  · rw [together, length_map, length_range] at few
    exact absurd few (Nat.not_succ_le_self _)
  · rw [used] at parted
    split at parted <;> cases parted

end Mahoquot.Gateway.AffinityStore
