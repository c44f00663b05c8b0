import Mahoquot.Management.Inbound
import Mahoquot.Library.Runs
import Mathlib.Logic.Function.Basic
import Mathlib.Algebra.Ring.Nat
import Mathlib.Algebra.BigOperators.Group.List.Basic

/-! The live counters of the scoped keys. Requests charge a counter through an entry they
hold; a new settings document republishes the entries, with the counters of the old ones. -/

set_option autoImplicit false

namespace Mahoquot.Management
open Library

structure ScopedKeyEntry where
  key : ScopedApiKey
  cell : Nat
deriving DecidableEq, Repr

/-- The map of a published index, in the order its values are visited. -/
abbrev KeyIndex := List (String × ScopedKeyEntry)

namespace KeyIndex

def insert (index : KeyIndex) (identifier : String) (entry : ScopedKeyEntry) : KeyIndex :=
  if index.any (fun item => item.1 == identifier) then
    index.map fun item => if item.1 = identifier then (identifier, entry) else item
  else index ++ [(identifier, entry)]

def get (index : KeyIndex) (identifier : String) : Option ScopedKeyEntry :=
  (index.find? fun item => item.1 == identifier).map (·.2)

end KeyIndex

/-- The shared counters, by number; those from `fresh` on are not made yet. -/
structure Cells where
  value : Nat → UInt64
  fresh : Nat

namespace Cells

def empty : Cells := ⟨fun _ => 0, 0⟩

def set (cells : Cells) (cell : Nat) (value : UInt64) : Cells :=
  { cells with value := Function.update cells.value cell value }

def allocate (cells : Cells) (value : UInt64) : Cells :=
  ⟨Function.update cells.value cells.fresh value, cells.fresh + 1⟩

end Cells

variable {id : String} {cells : Cells} {keys : List ScopedApiKey} {key : ScopedApiKey}

def saturatingAdd (left right : UInt64) : UInt64 :=
  UInt64.ofNat (min (left.toNat + right.toNat) (2 ^ 64 - 1))

/-- The entry of one key in a new index. The counter of an earlier entry of the same key
is taken over, and raised to what the document says. -/
def reconcileKey (cells : Cells) (previous : KeyIndex) (key : ScopedApiKey) : Cells × ScopedKeyEntry :=
  match previous.find? fun item => item.2.key.id == key.id with
  | some (_, existing) =>
    (cells.set existing.cell (max (cells.value existing.cell) key.tokenUsed), ⟨key, existing.cell⟩)
  | none => (cells.allocate key.tokenUsed, ⟨key, cells.fresh⟩)

def reconcileAll (previous : KeyIndex) (cells : Cells) (next : KeyIndex) : List ScopedApiKey → Cells × KeyIndex
  | [] => (cells, next)
  | key :: rest =>
    let (cells, entry) := reconcileKey cells previous key
    reconcileAll previous cells (next.insert key.keyIdentifier entry) rest

/-- A reconciliation under way. -/
structure Rebuild where
  previous : KeyIndex
  remaining : List ScopedApiKey
  next : KeyIndex

inductive ChargePhase where
  | held
  | loaded (current : UInt64)
  | finished
deriving DecidableEq, Repr

/-- Tokens on their way to the counter of an entry. -/
structure Charge where
  entry : ScopedKeyEntry
  tokens : UInt64
  phase : ChargePhase
deriving DecidableEq, Repr

structure TrackerState where
  cells : Cells
  entries : KeyIndex
  rebuild : Option Rebuild
  charges : List Charge

namespace TrackerState

def new (keys : List ScopedApiKey) : TrackerState :=
  let (cells, entries) := reconcileAll [] .empty [] keys
  ⟨cells, entries, none, []⟩

inductive Event where
  /-- A reconciliation loads the index; the map gives its values in some order. -/
  | reconcile (keys : List ScopedApiKey) (order : KeyIndex)
  | reconcileNext
  | publish
  /-- A request looks up its key, to charge tokens to the entry later. -/
  | lookup (identifier : String) (tokens : UInt64)
  | load (charge : Nat)
  | exchange (charge : Nat)
  /-- A weak exchange may fail without a reason. -/
  | failExchange (charge : Nat)

def setPhase (state : TrackerState) (number : Nat) (charge : Charge) (phase : ChargePhase) : TrackerState :=
  { state with charges := state.charges.set number { charge with phase } }

def step (state : TrackerState) : Event → Option TrackerState
  | .reconcile keys order =>
    if state.rebuild.isSome || !(order.isPerm state.entries) then none
    else some { state with rebuild := some ⟨order, keys, []⟩ }
  | .reconcileNext =>
    match state.rebuild with
    | some ⟨previous, key :: rest, next⟩ =>
      let (cells, entry) := reconcileKey state.cells previous key
      some { state with
        cells
        rebuild := some ⟨previous, rest, next.insert key.keyIdentifier entry⟩ }
    | _ => none
  | .publish =>
    match state.rebuild with
    | some ⟨_, [], next⟩ => some { state with entries := next, rebuild := none }
    | _ => none
  | .lookup identifier tokens =>
    (state.entries.get identifier).map fun entry =>
      { state with
        charges := state.charges ++
          [⟨entry, tokens, if tokens = 0 then .finished else .held⟩] }
  | .load number =>
    match state.charges[number]? with
    | some charge =>
      if charge.phase = .held then
        some (state.setPhase number charge (.loaded (state.cells.value charge.entry.cell)))
      else none
    | none => none
  | .exchange number =>
    match state.charges[number]? with
    | some charge =>
      match charge.phase with
      | .loaded current =>
        let observed := state.cells.value charge.entry.cell
        if observed = current then
          some { state.setPhase number charge .finished with
            cells := state.cells.set charge.entry.cell
              (saturatingAdd current charge.tokens) }
        else some (state.setPhase number charge (.loaded observed))
      | _ => none
    | none => none
  | .failExchange number =>
    match state.charges[number]? with
    | some charge =>
      match charge.phase with
      | .loaded _ => some (state.setPhase number charge (.loaded (state.cells.value charge.entry.cell)))
      | _ => none
    | none => none

end TrackerState

open TrackerState List Nat

theorem toNat_saturatingAdd (left right : UInt64) :
    (saturatingAdd left right).toNat = min (left.toNat + right.toNat) (2 ^ 64 - 1) := by
  apply mod_eq_of_lt
  omega

theorem toNat_le_max_left (left right : UInt64) : left.toNat ≤ (max left right).toNat := by
  change left.toNat ≤ (if left ≤ right then right else left).toNat
  split
  · next lower => exact UInt64.le_iff_toNat_le.mp lower
  · exact le_refl _

section Cells

/-- No counter that is made is lowered. -/
def Cells.Grows (before after : Cells) : Prop :=
  before.fresh ≤ after.fresh ∧
    ∀ cell, cell < before.fresh → (before.value cell).toNat ≤ (after.value cell).toNat

variable (cells : Cells)

theorem Cells.Grows.refl : cells.Grows cells :=
  ⟨le_refl _, fun _ _ => le_refl _⟩

theorem Cells.Grows.trans {first second third : Cells} (early : first.Grows second)
    (late : second.Grows third) : first.Grows third :=
  ⟨le_trans early.1 late.1, fun cell made =>
    le_trans (early.2 cell made) (late.2 cell (lt_of_lt_of_le made early.1))⟩

theorem Cells.grows_set {cells : Cells} {cell : Nat} {value : UInt64}
    (larger : (cells.value cell).toNat ≤ value.toNat) : cells.Grows (cells.set cell value) := by
  refine ⟨le_refl _, ?_⟩
  intro other _
  by_cases same : other = cell
  · subst same
    simpa [Cells.set] using larger
  · simp [Cells.set, Function.update_of_ne same]

theorem Cells.grows_allocate (value : UInt64) : cells.Grows (cells.allocate value) := by
  refine ⟨le_succ _, ?_⟩
  intro other made
  simp [Cells.allocate, Function.update_of_ne (Nat.ne_of_lt made)]

theorem reconcileKey_grows (previous : KeyIndex) (key : ScopedApiKey) :
    cells.Grows (reconcileKey cells previous key).1 := by
  unfold reconcileKey
  split
  · exact Cells.grows_set (toNat_le_max_left _ _)
  · exact Cells.grows_allocate _ _

end Cells

section Index

def Points (id : String) (cell : Nat) (index : KeyIndex) : Prop :=
  ∀ item ∈ index, item.2.key.id = id → item.2.cell = cell

def Has (id : String) (index : KeyIndex) : Prop :=
  ∃ item ∈ index, item.2.key.id = id

/-- The identifiers of an index and of the keys still to come are different ones. -/
def Unrepeated (index : KeyIndex) (keys : List ScopedApiKey) : Prop :=
  (index.map (·.1) ++ keys.map ScopedApiKey.keyIdentifier).Nodup

variable {index : KeyIndex}

theorem Unrepeated.insert {rest : List ScopedApiKey}
    (fresh : Unrepeated index (key :: rest)) (entry : ScopedKeyEntry) :
    index.insert key.keyIdentifier entry = index ++ [(key.keyIdentifier, entry)] ∧
      Unrepeated (index.insert key.keyIdentifier entry) rest := by
  have inserted : index.insert key.keyIdentifier entry = index ++ [(key.keyIdentifier, entry)] := by
    unfold KeyIndex.insert
    rw [if_neg]
    have unused : key.keyIdentifier ∉ index.map (·.1) := fun member =>
      (nodup_append.mp fresh).2.2 _ member _ (by simp) rfl
    simpa using unused
  rw [inserted]
  simpa [Unrepeated] using fresh

theorem mem_of_get {identifier : String} {entry : ScopedKeyEntry}
    (found : index.get identifier = some entry) : ∃ item ∈ index, item.2 = entry := by
  obtain ⟨item, here, same⟩ := Option.map_eq_some_iff.mp found
  exact ⟨item, mem_of_find?_eq_some here, same⟩

theorem reconcileKey_key (cells : Cells) (previous : KeyIndex) (key : ScopedApiKey) :
    (reconcileKey cells previous key).2.key = key := by
  unfold reconcileKey
  split <;> rfl

theorem reconcileKey_cell {previous : KeyIndex}
    {cell : Nat} (points : Points id cell previous) (has : Has id previous)
    (same : key.id = id) : (reconcileKey cells previous key).2.cell = cell := by
  unfold reconcileKey
  split
  next identifier existing found =>
    have matched := find?_some found
    exact points _ (mem_of_find?_eq_some found) (by simpa [same] using matched)
  next missing =>
    obtain ⟨item, member, itemId⟩ := has
    have other := find?_eq_none.mp missing item member
    simp [itemId, same] at other

theorem points_append {cell : Nat} {identifier : String} {entry : ScopedKeyEntry}
    (points : Points id cell index) (own : entry.key.id = id → entry.cell = cell) :
    Points id cell (index ++ [(identifier, entry)]) := by
  exact forall_mem_append.mpr ⟨points, forall_mem_singleton.mpr own⟩

theorem has_append_left {more : KeyIndex} (has : Has id index) : Has id (index ++ more) := by
  obtain ⟨item, member, itemId⟩ := has
  exact ⟨item, mem_append_left _ member, itemId⟩

end Index

section New
variable {id : String} {cell : Nat}

/-- The keys behind the one in question change nothing about it. -/
theorem reconcileAll_other {next : KeyIndex}
    (allocated : cell < cells.fresh) (points : Points id cell next) (has : Has id next)
    (others : ∀ key ∈ keys, key.id ≠ id) (fresh : Unrepeated next keys) :
    cell < (reconcileAll [] cells next keys).1.fresh ∧ Points id cell (reconcileAll [] cells next keys).2 ∧
      Has id (reconcileAll [] cells next keys).2 := by
  induction keys generalizing cells next with
  | nil => exact ⟨allocated, points, has⟩
  | cons key rest ih =>
    obtain ⟨inserted, stillFresh⟩ := fresh.insert (reconcileKey cells [] key).2
    simp only [reconcileAll]
    refine ih ?_ ?_ ?_ ?_ stillFresh
    · exact lt_of_lt_of_le allocated (reconcileKey_grows cells [] key).1
    · rw [inserted]
      refine points_append points ?_
      exact fun same => absurd same (others key (by simp))
    · rw [inserted]
      exact has_append_left has
    · exact fun other member => others other (by simp [member])

theorem reconcileAll_new {next : KeyIndex}
    (absent : ∀ item ∈ next, item.2.key.id ≠ id) (present : id ∈ keys.map ScopedApiKey.id)
    (distinct : (keys.map ScopedApiKey.id).Nodup) (fresh : Unrepeated next keys) :
    ∃ cell, cell < (reconcileAll [] cells next keys).1.fresh ∧ Points id cell (reconcileAll [] cells next keys).2 ∧
      Has id (reconcileAll [] cells next keys).2 := by
  induction keys generalizing cells next with
  | nil => cases present
  | cons key rest ih =>
    obtain ⟨inserted, stillFresh⟩ := fresh.insert (reconcileKey cells [] key).2
    have keyOf := reconcileKey_key cells [] key
    simp only [reconcileAll]
    by_cases own : key.id = id
    · refine ⟨cells.fresh, ?_⟩
      refine reconcileAll_other ?_ ?_ ?_ ?_ stillFresh
      · exact lt_succ_self _
      · rw [inserted]
        refine points_append (fun item member same => absurd same (absent item member)) ?_
        exact fun _ => rfl
      · rw [inserted]
        exact ⟨(key.keyIdentifier, (reconcileKey cells [] key).2), by simp, by rw [keyOf, own]⟩
      · intro other member same
        rw [map_cons, nodup_cons] at distinct
        exact distinct.1 (by rw [own, ← same]; exact mem_map_of_mem member)
    · refine ih ?_ ?_ (nodup_cons.mp distinct).2 stillFresh
      · rw [inserted]
        exact forall_mem_append.mpr ⟨absent, forall_mem_singleton.mpr own⟩
      · rw [map_cons, mem_cons] at present
        rcases present with same | later
        · exact absurd same.symm own
        · exact later

end New

namespace TrackerState

section Runs

def Tracks (state : TrackerState) (id : String) (value : UInt64) : Prop :=
  ∃ item ∈ state.entries, item.2.key.id = id ∧ state.cells.value item.2.cell = value

def chargedTo (id : String) (charges : List Charge) : Nat :=
  ((charges.filter fun charge => charge.entry.key.id == id).map fun charge =>
    charge.tokens.toNat).sum

/-- The key is tracked throughout, its counter never goes down, and when every charge is
finished it has them all. -/
structure NeverUndercounts (id : String) (start : TrackerState) (events : List Event) : Prop where
  tracked : ∀ past state, past <+: events → schedule step start past = some state →
    ∃ value, state.Tracks id value
  monotone : ∀ past later state last before after, events = past ++ later →
    schedule step start past = some state → schedule step state later = some last →
    state.Tracks id before → last.Tracks id after → before.toNat ≤ after.toNat
  counted : ∀ last initial final, schedule step start events = some last →
    (∀ charge ∈ last.charges, charge.phase = .finished) →
    start.Tracks id initial → last.Tracks id final →
    min (initial.toNat + chargedTo id last.charges) (2 ^ 64 - 1) ≤ final.toNat

/-- A reconciliation that will publish the key with its counter. -/
structure Keeps (id : String) (cell : Nat) (rebuild : Rebuild) : Prop where
  points : Points id cell rebuild.previous
  has : Has id rebuild.previous
  next : Points id cell rebuild.next
  kept : Has id rebuild.next ∨ id ∈ rebuild.remaining.map ScopedApiKey.id
  fresh : Unrepeated rebuild.next rebuild.remaining

/-- The key keeps one counter in the index, in the one to come and in every charge. -/
structure Pinned (id : String) (cell : Nat) (state : TrackerState) : Prop where
  allocated : cell < state.cells.fresh
  points : Points id cell state.entries
  has : Has id state.entries
  rebuild : ∀ rebuild, state.rebuild = some rebuild → Keeps id cell rebuild
  charges : ∀ charge ∈ state.charges, charge.entry.key.id = id → charge.entry.cell = cell

variable {id : String} {cell : Nat} {state next : TrackerState}

theorem Pinned.tracks_iff (pinned : Pinned id cell state) (value : UInt64) :
    state.Tracks id value ↔ state.cells.value cell = value := by
  constructor
  · rintro ⟨item, member, itemId, here⟩
    rw [← pinned.points item member itemId]
    exact here
  · intro here
    obtain ⟨item, member, itemId⟩ := pinned.has
    exact ⟨item, member, itemId, by rw [pinned.points item member itemId]; exact here⟩

theorem Keeps.step {rebuild : Rebuild} {rest : List ScopedApiKey}
    (cells : Cells) (keeps : Keeps id cell rebuild) (head : rebuild.remaining = key :: rest) :
    Keeps id cell ⟨rebuild.previous, rest,
      rebuild.next.insert key.keyIdentifier (reconcileKey cells rebuild.previous key).2⟩ := by
  have fresh := keeps.fresh
  rw [head] at fresh
  obtain ⟨inserted, stillFresh⟩ := fresh.insert (reconcileKey cells rebuild.previous key).2
  have keyOf := reconcileKey_key cells rebuild.previous key
  refine ⟨keeps.points, keeps.has, ?_, ?_, stillFresh⟩
  · rw [inserted]
    refine points_append keeps.next ?_
    intro own
    rw [keyOf] at own
    exact reconcileKey_cell keeps.points keeps.has own
  · rw [inserted]
    rcases keeps.kept with has | later
    · exact .inl (has_append_left has)
    · rw [head, map_cons, mem_cons] at later
      rcases later with own | later
      · refine .inl ⟨(key.keyIdentifier, (reconcileKey cells rebuild.previous key).2), by simp, ?_⟩
        rw [keyOf, own]
      · exact .inr later

variable {charge : Charge}

/-- A charge that moves on is still a charge to the same entry. -/
theorem Pinned.setPhase (pinned : Pinned id cell state) {number : Nat}
    (found : state.charges[number]? = some charge) (phase : ChargePhase) :
    Pinned id cell (state.setPhase number charge phase) where
  allocated := pinned.allocated
  points := pinned.points
  has := pinned.has
  rebuild := pinned.rebuild
  charges := by
    intro other member same
    rcases mem_or_eq_of_mem_set member with old | rfl
    · exact pinned.charges other old same
    · exact pinned.charges charge (mem_of_getElem? found) same

/-- What a charge has already brought to the counter of the key. -/
def settled (id : String) (charge : Charge) : Nat :=
  if charge.entry.key.id = id ∧ charge.phase = .finished then charge.tokens.toNat else 0

def settledSum (id : String) (charges : List Charge) : Nat := (charges.map (settled id)).sum

theorem settledSum_set (id : String) {charges : List Charge} {number : Nat}
    (found : charges[number]? = some charge) (moved : Charge) :
    settledSum id (charges.set number moved) + settled id charge = settledSum id charges + settled id moved := by
  induction charges generalizing number with
  | nil => cases found
  | cons first rest ih =>
    cases number with
    | zero =>
      cases found
      simp only [set_cons_zero, settledSum, map_cons, sum_cons]
      omega
    | succ number =>
      have inRest : rest[number]? = some charge := by simpa using found
      have tail := ih inRest
      simp only [set_cons_succ, settledSum, map_cons, sum_cons] at tail ⊢
      omega

theorem settled_of_unfinished (running : charge.phase ≠ .finished) : settled id charge = 0 := by
  simp [settled, running]

theorem settledSum_eq_chargedTo {charges : List Charge} (finished : ∀ charge ∈ charges, charge.phase = .finished) :
    settledSum id charges = chargedTo id charges := by
  induction charges with
  | nil => rfl
  | cons first rest ih =>
    have tail := ih fun charge member => finished charge (by simp [member])
    have ended := finished first (by simp)
    simp only [settledSum, chargedTo] at tail ⊢
    by_cases own : first.entry.key.id = id
    · simp [settled, own, ended, tail]
    · simp [settled, own, tail]

/-- The counter has at least what the finished charges brought. -/
def Counted (id : String) (cell initial : Nat) (state : TrackerState) : Prop :=
  min (initial + settledSum id state.charges) (2 ^ 64 - 1) ≤ (state.cells.value cell).toNat

/-- Only the exchange of a charge to the key adds to what it must have. -/
theorem Counted.of_grows {initial : Nat} (counted : Counted id cell initial state)
    (made : cell < state.cells.fresh) (grows : state.cells.Grows next.cells)
    (same : settledSum id next.charges = settledSum id state.charges) : Counted id cell initial next := by
  unfold Counted at counted ⊢
  rw [same]
  exact le_trans counted (grows.2 cell made)

theorem settledSum_setPhase {number : Nat} {phase : ChargePhase} (found : state.charges[number]? = some charge)
    (running : charge.phase ≠ .finished) (still : phase ≠ .finished) :
    settledSum id (state.setPhase number charge phase).charges = settledSum id state.charges := by
  have moved := settledSum_set id found { charge with phase }
  rw [settled_of_unfinished running, settled_of_unfinished (by exact still)] at moved
  exact moved

/-- A step keeps the counter of a key that every new set has, under identifiers of their
own. -/
theorem Pinned.step {event : Event} (pinned : Pinned id cell state)
    (sets : ∀ keys order, event = .reconcile keys order → id ∈ keys.map ScopedApiKey.id ∧
    (keys.map ScopedApiKey.keyIdentifier).Nodup) (stepped : state.step event = some next) :
    Pinned id cell next ∧ state.cells.Grows next.cells ∧
      ∀ initial, Counted id cell initial state → Counted id cell initial next := by
  cases event with
  | reconcile keys order =>
    simp only [TrackerState.step] at stepped
    split at stepped
    · cases stepped
    next idle =>
      cases stepped
      obtain ⟨present, distinct⟩ := sets keys order rfl
      have perm : order.Perm state.entries := by
        rw [Bool.or_eq_true, not_or] at idle
        exact isPerm_iff.mp (by simpa using idle.2)
      refine ⟨⟨pinned.allocated, pinned.points, pinned.has, ?_, pinned.charges⟩, .refl _, fun _ counted => counted⟩
      intro rebuild begun
      cases begun
      obtain ⟨item, member, itemId⟩ := pinned.has
      exact ⟨fun item member => pinned.points item (perm.mem_iff.mp member),
        ⟨item, perm.mem_iff.mpr member, itemId⟩, nofun,
        .inr present, by simpa [Unrepeated] using distinct⟩
  | reconcileNext =>
    simp only [TrackerState.step] at stepped
    split at stepped
    next previous key rest index running =>
      cases stepped
      have grows := reconcileKey_grows state.cells previous key
      refine ⟨⟨lt_of_lt_of_le pinned.allocated grows.1, pinned.points, pinned.has, ?_, pinned.charges⟩, grows,
        fun _ counted => counted.of_grows pinned.allocated grows rfl⟩
      intro rebuild begun
      cases begun
      exact (pinned.rebuild _ running).step state.cells rfl
    · cases stepped
  | publish =>
    simp only [TrackerState.step] at stepped
    split at stepped
    next previous index running =>
      cases stepped
      have keeps := pinned.rebuild _ running
      refine ⟨⟨pinned.allocated, keeps.next, ?_, nofun, pinned.charges⟩, .refl _, fun _ counted => counted⟩
      rcases keeps.kept with has | later
      · exact has
      · cases later
    · cases stepped
  | lookup identifier tokens =>
    obtain ⟨entry, found, rfl⟩ := Option.map_eq_some_iff.mp stepped
    obtain ⟨item, here, rfl⟩ := mem_of_get found
    refine ⟨⟨pinned.allocated, pinned.points, pinned.has, pinned.rebuild, ?_⟩, .refl _, fun _ counted => ?_⟩
    · exact forall_mem_append.mpr ⟨pinned.charges, forall_mem_singleton.mpr (pinned.points item here)⟩
    · refine counted.of_grows pinned.allocated (.refl _) ?_
      have nothing : settled id ⟨item.2, tokens, if tokens = 0 then .finished else .held⟩ = 0 := by
        by_cases zero : tokens = 0
        · simp [settled, zero]
        · simp [settled, zero]
      simp [settledSum, nothing]
  | load | failExchange =>
    simp only [TrackerState.step] at stepped
    split at stepped
    next charge found =>
      split at stepped <;> cases stepped
      next phase => exact ⟨pinned.setPhase found _, .refl _, fun _ counted =>
        counted.of_grows pinned.allocated (.refl _) (settledSum_setPhase found (by simp [phase]) nofun)⟩
    · cases stepped
  | exchange number =>
    simp only [TrackerState.step] at stepped
    split at stepped
    next charge found =>
      split at stepped
      next current loaded =>
        split at stepped
        next observed =>
          cases stepped
          have grows : state.cells.Grows (state.cells.set charge.entry.cell
              (saturatingAdd current charge.tokens)) := by
            apply Cells.grows_set
            rw [toNat_saturatingAdd, observed]
            have bound := current.toNat_lt
            omega
          have moved := pinned.setPhase found .finished
          refine ⟨⟨moved.allocated, moved.points, moved.has, moved.rebuild, moved.charges⟩, grows, fun _ counted => ?_⟩
          have sums := settledSum_set id found { charge with phase := .finished }
          rw [settled_of_unfinished (by simp [loaded])] at sums
          by_cases own : charge.entry.key.id = id
          · unfold Counted at counted ⊢
            rw [← pinned.charges charge (mem_of_getElem? found) own] at counted ⊢
            simp only [TrackerState.setPhase, Cells.set, Function.update_self, toNat_saturatingAdd]
            rw [observed] at counted
            simp only [settled, own, and_self, if_true] at sums
            omega
          · refine counted.of_grows pinned.allocated grows ?_
            simpa [settled, own, TrackerState.setPhase] using sums
        · cases stepped
          exact ⟨pinned.setPhase found _, .refl _, fun _ counted =>
            counted.of_grows pinned.allocated (.refl _) (settledSum_setPhase found (by simp [loaded]) nofun)⟩
      · cases stepped
    · cases stepped

/-- The sets of keys in which no two keys have one identifier, and the key is there. -/
def Admits (id : String) (keys : List ScopedApiKey) : Prop :=
  id ∈ keys.map ScopedApiKey.id ∧ (keys.map ScopedApiKey.keyIdentifier).Nodup

theorem pinned_new (admits : Admits id keys)
    (distinct : (keys.map ScopedApiKey.id).Nodup) : ∃ cell, Pinned id cell (new keys) := by
  obtain ⟨cell, allocated, points, has⟩ : ∃ cell,
      cell < (reconcileAll [] .empty [] keys).1.fresh ∧
        Points id cell (reconcileAll [] .empty [] keys).2 ∧
        Has id (reconcileAll [] .empty [] keys).2 :=
    reconcileAll_new nofun admits.1 distinct (by simpa [Unrepeated] using admits.2)
  exact ⟨cell, allocated, points, has, nofun, nofun⟩

theorem pinned_of_schedule {start last : TrackerState} {events : List Event} (pinned : Pinned id cell start)
    (sets : ∀ keys order, .reconcile keys order ∈ events → Admits id keys)
    (ran : schedule step start events = some last) : Pinned id cell last ∧ start.cells.Grows last.cells ∧
      ∀ initial, Counted id cell initial start → Counted id cell initial last := by
  refine schedule_invariant_within (fun _ state => Pinned id cell state ∧ start.cells.Grows state.cells ∧
      ∀ initial, Counted id cell initial start → Counted id cell initial state)
    ⟨pinned, .refl _, fun _ counted => counted⟩ ?_ ran
  rintro history state event next within - ⟨before, grown, counted⟩ stepped
  obtain ⟨after, grows, counts⟩ := before.step (fun keys order same =>
    sets keys order (within.subset (by simp [same]))) stepped
  exact ⟨after, grown.trans grows, fun initial here => counts initial (counted initial here)⟩

/-- A key that every set has is never under-counted, if the keys of the first set have
ids of their own and the keys of every set have identifiers of their own. -/
theorem never_undercounts_of_distinct (id : String) (keys : List ScopedApiKey) (events : List Event)
    (admits : Admits id keys) (distinct : (keys.map ScopedApiKey.id).Nodup)
    (sets : ∀ keys order, .reconcile keys order ∈ events → Admits id keys) : NeverUndercounts id (new keys) events := by
  obtain ⟨cell, pinned⟩ := pinned_new admits distinct
  refine ⟨?_, ?_, ?_⟩
  · intro past state within reached
    have there := (pinned_of_schedule pinned (fun keys order member => sets keys order (within.subset member)) reached).1
    exact ⟨_, (there.tracks_iff _).mpr rfl⟩
  · rintro past later state last before after rfl reached ran here there
    have middle := (pinned_of_schedule pinned (fun keys order member => sets keys order (mem_append_left _ member)) reached).1
    obtain ⟨ends, grows, -⟩ := pinned_of_schedule middle
      (fun keys order member => sets keys order (mem_append_right _ member)) ran
    rw [middle.tracks_iff] at here
    rw [ends.tracks_iff] at there
    rw [← here, ← there]
    exact grows.2 cell middle.allocated
  · intro last initial final ran finished here there
    obtain ⟨ends, -, counted⟩ := pinned_of_schedule pinned sets ran
    rw [pinned.tracks_iff] at here
    rw [ends.tracks_iff] at there
    have start : Counted id cell initial.toNat (new keys) := by
      unfold Counted
      rw [here]
      exact min_le_left _ _
    have total := counted initial.toNat start
    unfold Counted at total
    rw [settledSum_eq_chargedTo finished, there] at total
    exact total

end Runs

namespace TrackerSample

def scopedKey (id identifier : String) : ScopedApiKey := ⟨id, identifier, 0, 0, true, none⟩

def pair : List ScopedApiKey := [scopedKey "a" "x", scopedKey "b" "y"]

def rotated : List Event :=
  [.lookup "x" 100, .load 0, .reconcile [scopedKey "a" "w", scopedKey "b" "y"] (new pair).entries,
    .reconcileNext, .reconcileNext, .publish, .exchange 0]

theorem rotated_key_counted : NeverUndercounts "a" (new pair) rotated := by
  refine never_undercounts_of_distinct "a" pair rotated ⟨by decide, by decide⟩ (by decide) ?_
  intro keys order member
  simp only [rotated, mem_cons, not_mem_nil, or_false, reduceCtorEq, false_or] at member
  obtain ⟨rfl, -⟩ := member
  exact ⟨by decide, by decide⟩

def counters (state : TrackerState) : List (String × UInt64) :=
  state.entries.map fun item => (item.2.key.id, state.cells.value item.2.cell)

theorem tracks_of_mem {state : TrackerState} {value : UInt64}
    (member : (id, value) ∈ counters state) : state.Tracks id value := by
  obtain ⟨item, here, same⟩ := mem_map.mp member
  exact ⟨item, here, (Prod.mk.inj same).1, (Prod.mk.inj same).2⟩

def spent : List Event := [.lookup "x" 100, .load 0, .exchange 0]

def collided : List Event :=
  [.reconcile [scopedKey "a" "z", scopedKey "b" "z"] (new pair).entries, .reconcileNext, .reconcileNext, .publish,
    .reconcile [scopedKey "a" "x", scopedKey "b" "z"] [("z", ⟨scopedKey "b" "z", 1⟩)],
    .reconcileNext, .reconcileNext, .publish]

theorem collided_key_forgets_usage : (∀ keys order, .reconcile keys order ∈ spent ++ collided →
      "a" ∈ keys.map ScopedApiKey.id) ∧ (schedule step (new pair) spent).map counters = some [("a", 100), ("b", 0)] ∧
    (schedule step (new pair) (spent ++ collided)).map counters = some [("a", 0), ("b", 0)] ∧
    ¬ NeverUndercounts "a" (new pair) (spent ++ collided) := by
  have before : (schedule step (new pair) spent).map counters = some [("a", 100), ("b", 0)] := by decide +kernel
  refine ⟨?_, before, (and_iff_left_of_imp ?_).mpr (by decide +kernel)⟩
  · intro keys order member
    simp only [spent, collided, cons_append, nil_append, mem_cons, not_mem_nil, or_false, reduceCtorEq, false_or] at member
    rcases member with ⟨rfl, -⟩ | ⟨rfl, -⟩ <;> decide
  · intro after counted
    obtain ⟨state, reached, here⟩ := Option.map_eq_some_iff.mp before
    obtain ⟨last, ran, there⟩ := Option.map_eq_some_iff.mp after
    obtain ⟨state', reached', ran⟩ := schedule_append.mp ran
    rw [reached] at reached'
    cases reached'
    have lower := counted.monotone spent collided state last 100 0 rfl reached ran
      (tracks_of_mem (by simp [here])) (tracks_of_mem (by simp [there]))
    exact absurd lower (by decide)

end TrackerSample
end TrackerState
end Mahoquot.Management
