import Mathlib.Tactic.IntervalCases
import Std.Data.ExtTreeMap

/-! Monthly budgets of Claude accounts with an API key: the usage that was read last, kept
beside settings that change on their own, and the month it is counted from. -/

set_option autoImplicit false

namespace Mahoquot.Gateway.Budget
open Std

abbrev Units := ExtTreeMap String Nat

def isOver (usage : Option Units) (budgets : Units) (account : String) : Bool :=
  match budgets[account]? with
  | none => false
  | some limit =>
    match usage with
    | some usage => limit ≤ usage.getD account 0
    | none => true

def refreshWith (budgets : Units) (read : String → Option Nat) : Option Units :=
  budgets.keys.foldlM (fun usage account => (read account).map (usage.insert account)) ∅

def refreshFromHistory (budgets : Units) (read : String → Option Nat) : Option Units :=
  if budgets.isEmpty then some ∅ else refreshWith budgets read

/-- The tracker beside the settings. The last two fields are history: what was read of
an account last, and whether that was since it last got a budget. -/
structure BudgetState where
  budgets : Units
  usage : Option Units
  /-- What each refresh in progress found in the settings. -/
  refreshes : List Units
  latest : String → Option Nat
  fresh : String → Bool

def boot (budgets : Units) : BudgetState := ⟨budgets, none, [], fun _ => none, fun _ => false⟩

inductive BudgetStep where
  | settings (budgets : Units)
  | refresh
  | refreshed (index : Nat) (read : String → Option Nat)

variable {state : BudgetState} {account : String}

def BudgetState.step (state : BudgetState) : BudgetStep → BudgetState
  | .settings budgets =>
    { state with budgets, fresh := fun account => state.fresh account && state.budgets.contains account }
  | .refresh => { state with refreshes := state.refreshes ++ [state.budgets] }
  | .refreshed index read =>
    match state.refreshes[index]? with
    | none => state
    | some budgets =>
      let usage := refreshFromHistory budgets read
      let isRead account := usage.isSome && budgets.contains account
      { state with
        usage
        refreshes := state.refreshes.eraseIdx index
        latest := fun account => if isRead account then read account else state.latest account
        fresh := fun account => state.fresh account || isRead account }

/-- An account gets a budget only while no usage is known and none is being read. -/
def BudgetState.Allows (state : BudgetState) : BudgetStep → Prop
  | .settings budgets => state.usage = none ∧ state.refreshes = [] ∨ ∀ account ∈ budgets, account ∈ state.budgets
  | _ => True

inductive Reached : BudgetState → Prop where
  | boot (budgets : Units) : Reached (boot budgets)
  | step {state : BudgetState} {step : BudgetStep} (reached : Reached state) (allowed : state.Allows step) :
      Reached (state.step step)

variable {read : String → Option Nat}

def Has (read : String → Option Nat) (account : String) (usage : Units) : Prop :=
  ∃ units, read account = some units ∧ usage[account]? = some units

theorem has_foldlM {accounts : List String} {start usage : Units}
    (done : accounts.foldlM (fun usage account => (read account).map (usage.insert account)) start = some usage)
    (known : account ∈ accounts ∨ Has read account start) : Has read account usage := by
  induction accounts generalizing start with
  | nil =>
    cases done
    exact known.resolve_left List.not_mem_nil
  | cons first rest ih =>
    obtain ⟨next, added, done⟩ := Option.bind_eq_some_iff.mp done
    obtain ⟨units, found, rfl⟩ := Option.map_eq_some_iff.mp added
    refine ih done ?_
    by_cases here : first = account
    · subst here
      exact .inr ⟨units, found, ExtTreeMap.getElem?_insert_self⟩
    · refine known.imp (fun member => (List.mem_cons.mp member).resolve_left (Ne.symm here)) ?_
      rintro ⟨units', found', held⟩
      refine ⟨units', found', ?_⟩
      rwa [ExtTreeMap.getElem?_insert, if_neg (mt LawfulEqOrd.eq_of_compare here)]

theorem has_refreshFromHistory {budgets usage : Units} (done : refreshFromHistory budgets read = some usage)
    (budgeted : account ∈ budgets) : Has read account usage := by
  unfold refreshFromHistory at done
  split at done
  next none =>
    rw [ExtTreeMap.isEmpty_iff.mp none] at budgeted
    cases ExtTreeMap.not_mem_empty budgeted
  · exact has_foldlM done (.inl (ExtTreeMap.mem_keys.mpr budgeted))

/-- Every budgeted account is among those whose usage is known, or about to be. -/
structure Known (state : BudgetState) : Prop where
  reading : ∀ budgets ∈ state.refreshes, ∀ account ∈ state.budgets, account ∈ budgets
  read : ∀ usage, state.usage = some usage → ∀ account ∈ state.budgets,
    state.fresh account = true ∧ Has state.latest account usage

theorem Known.step (known : Known state) {step : BudgetStep} (allowed : state.Allows step) :
    Known (state.step step) := by
  cases step with
  | settings budgets =>
    obtain ⟨unknown, idle⟩ | fewer := allowed
    · exact ⟨by simp [BudgetState.step, idle], by simp [BudgetState.step, unknown]⟩
    · refine ⟨fun captured member account budgeted => known.reading captured member account (fewer account budgeted),
        fun usage held account budgeted => ?_⟩
      obtain ⟨fresh, has⟩ := known.read usage held account (fewer account budgeted)
      exact ⟨by simp [BudgetState.step, fresh, fewer account budgeted], has⟩
  | refresh =>
    exact ⟨List.forall_mem_append.mpr ⟨known.reading, List.forall_mem_singleton.mpr fun _ => id⟩, known.read⟩
  | refreshed index read =>
    simp only [BudgetState.step]
    split
    · exact known
    next captured found =>
      refine ⟨fun budgets member => known.reading budgets (List.mem_of_mem_eraseIdx member),
        fun usage held account budgeted => ?_⟩
      have member := known.reading captured (List.mem_of_getElem? found) account budgeted
      obtain ⟨units, read, kept⟩ := has_refreshFromHistory held member
      refine ⟨?_, units, ?_, kept⟩
      · simp [show refreshFromHistory captured _ = some usage from held, member]
      · simp [show refreshFromHistory captured _ = some usage from held, member, read]

theorem known_of_reached (reached : Reached state) : Known state := by
  induction reached with
  | boot budgets => exact ⟨nofun, nofun⟩
  | step _ allowed known => exact known.step allowed

/-- While budgets are given only to a tracker that knows nothing, an account that was
not read since, or was last read at its limit, is over its budget. -/
theorem budgets_fail_closed (reached : Reached state) {limit : Nat} (budgeted : state.budgets[account]? = some limit) :
    (state.fresh account = false → isOver state.usage state.budgets account = true) ∧
      ∀ units, state.latest account = some units → limit ≤ units →
        isOver state.usage state.budgets account = true := by
  simp only [isOver, budgeted]
  cases held : state.usage with
  | none => simp
  | some usage =>
    obtain ⟨fresh, units, latest, kept⟩ := (known_of_reached reached).read usage held account
      (ExtTreeMap.mem_iff_isSome_getElem?.mpr (by rw [budgeted]; rfl))
    simp [fresh, latest, ExtTreeMap.getD_eq_getD_getElem?, kept]

def keyed : Units := .ofList [("key", 10)]

def spent : BudgetState := ((boot keyed).step .refresh).step (.refreshed 0 fun _ => some 12)

theorem spent_key_is_over : isOver spent.usage spent.budgets "key" = true :=
  (@budgets_fail_closed spent "key" (.step (.step (.boot keyed) trivial) trivial) 10 (by decide +kernel)).2 12
    (by decide +kernel) (by decide)

/-- A budget that comes after a reading without it counts as unspent. -/
def late : BudgetState := (((boot ∅).step .refresh).step (.refreshed 0 fun _ => some 12)).step (.settings keyed)

theorem late_budget_not_over : late.budgets["key"]? = some 10 ∧ late.fresh "key" = false ∧
    isOver late.usage late.budgets "key" = false := by
  decide +kernel

/-- Where it is not `div_euclid`, the source divides what is not negative. -/
def civilFromDays (z : Int) : Int × Nat × Nat :=
  let z := z + 719468
  let era := z / 146097
  let doe := z % 146097
  let yoe := (doe - doe / 1460 + doe / 36524 - doe / 146096) / 365
  let y := yoe + era * 400
  let doy := doe - (365 * yoe + yoe / 4 - yoe / 100)
  let mp := (5 * doy + 2) / 153
  let d := (doy - (153 * mp + 2) / 5 + 1).toNat
  let m := (if mp < 10 then mp + 3 else mp - 9).toNat
  (if m ≤ 2 then y + 1 else y, m, d)

def daysFromCivil (y : Int) (m d : Nat) : Int :=
  let y := if m ≤ 2 then y - 1 else y
  let era := y / 400
  let yoe := y % 400
  let doy := (153 * (if m > 2 then (m : Int) - 3 else m + 9) + 2) / 5 + d - 1
  let doe := yoe * 365 + yoe / 4 - yoe / 100 + doy
  era * 146097 + doe - 719468

def wrapI64 (n : Int) : Int := (n + 2 ^ 63) % 2 ^ 64 - 2 ^ 63

theorem wrapI64_fits {n m : Int} (wrapped : wrapI64 n = m) (near : n - 2 ^ 62 < m ∧ m < n + 2 ^ 62) :
    -2 ^ 63 ≤ n ∧ n < 2 ^ 63 := by
  unfold wrapI64 at wrapped
  omega

theorem wrapI64_of_fits {n : Int} (fits : -2 ^ 63 ≤ n ∧ n < 2 ^ 63) : wrapI64 n = n := by
  unfold wrapI64
  omega

def monthStartUtcMs (nowUnix : Int) : Int :=
  let days := nowUnix / 86400
  let date := civilFromDays days
  wrapI64 (daysFromCivil date.1 date.2.1 1 * 86400 * 1000)

def daysInMonth (year : Int) (month : Nat) : Nat :=
  if month = 2 then if year % 4 = 0 ∧ (year % 100 ≠ 0 ∨ year % 400 = 0) then 29 else 28
  else if month = 4 ∨ month = 6 ∨ month = 9 ∨ month = 11 then 30 else 31

abbrev ValidDate (year : Int) (month day : Nat) : Prop :=
  (1 ≤ month ∧ month ≤ 12) ∧ 1 ≤ day ∧ day ≤ daysInMonth year month

section March
variable {c q t doy doe y : Int} (day : 0 ≤ doy ∧ doy ≤ 365)
include day

/-- Century, four years and year of a day of an era; a leap day is the last of its year. -/
theorem yearOfEra (century : 0 ≤ c ∧ c < 4) (cycle : 0 ≤ q ∧ q < 25) (year : 0 ≤ t ∧ t < 4)
    (leap : doy = 365 → t = 3 ∧ (q < 24 ∨ c = 3)) (named : doe = 36524 * c + 1461 * q + 365 * t + doy) :
    (doe - doe / 1460 + doe / 36524 - doe / 146096) / 365 = 100 * c + 4 * q + t := by
  have centuries : doe / 36524 = c ∨ doe / 36524 = c + 1 ∧ doe = 146096 := by omega
  have cycles : doe / 1460 = 25 * c + q + (24 * c + q + 365 * t + doy) / 1460 := by omega
  rcases centuries with inside | last
  · have early : doe / 146096 = 0 := by omega
    have carry : (24 * c + q + 365 * t + doy) / 1460 = 0 ∨ (24 * c + q + 365 * t + doy) / 1460 = 1 := by omega
    rw [early, inside, cycles]
    rcases carry with none | one
    · rw [none]
      omega
    · rw [one]
      omega
  · omega

/-- The date of a day in the year from March of `y` on. -/
theorem civilFromDays_march (leap : doy = 365 → y % 4 = 3 ∧ (y % 100 ≠ 99 ∨ y % 400 = 399)) :
    civilFromDays (365 * y + y / 4 - y / 100 + y / 400 + doy - 719468) =
      let mp := (5 * doy + 2) / 153
      let m := (if mp < 10 then mp + 3 else mp - 9).toNat
      (if m ≤ 2 then y + 1 else y, m, (doy - (153 * mp + 2) / 5 + 1).toNat) := by
  obtain ⟨era, c, q, t, parts, century, cycle, year⟩ : ∃ era c q t : Int, y = 400 * era + (100 * c + 4 * q + t) ∧
      (0 ≤ c ∧ c < 4) ∧ (0 ≤ q ∧ q < 25) ∧ 0 ≤ t ∧ t < 4 :=
    ⟨y / 400, y % 400 / 100, y % 100 / 4, y % 4, by omega, by omega, by omega, by omega⟩
  obtain ⟨doe, named⟩ : ∃ doe, doe = 36524 * c + 1461 * q + 365 * t + doy := ⟨_, rfl⟩
  have days : 365 * y + y / 4 - y / 100 + y / 400 + doy - 719468 + 719468 = 146097 * era + doe := by omega
  have whole : (146097 * era + doe) / 146097 = era := by omega
  have part : (146097 * era + doe) % 146097 = doe := by omega
  have rest : doe - (365 * (100 * c + 4 * q + t) + (100 * c + 4 * q + t) / 4 - (100 * c + 4 * q + t) / 100) = doy := by
    have cycles : (100 * c + 4 * q + t) / 4 = 25 * c + q := by omega
    have centuries : (100 * c + 4 * q + t) / 100 = c := by omega
    omega
  have back : 100 * c + 4 * q + t + era * 400 = y := by omega
  simp only [civilFromDays, days, whole, part, yearOfEra day century cycle year (by omega) named, rest, back]

end March

/-- The month from March on that its day `day` is found in. -/
theorem month_of_day {mp day : Int} (low : 0 ≤ mp) (high : mp ≤ 11) (first : 1 ≤ day)
    (last : day ≤ 31 ∧ (mp = 1 ∨ mp = 3 ∨ mp = 6 ∨ mp = 8 → day ≤ 30) ∧ (mp = 11 → day ≤ 29)) :
    (5 * ((153 * mp + 2) / 5 + day - 1) + 2) / 153 = mp := by
  interval_cases mp <;> omega

variable {year : Int} {month day : Nat}

theorem civilFromDays_inverts (valid : ValidDate year month day) :
    civilFromDays (daysFromCivil year month day) = (year, month, day) := by
  obtain ⟨⟨low, high⟩, first, last⟩ := valid
  obtain ⟨mp, march⟩ : ∃ mp : Int, mp = if month > 2 then (month : Int) - 3 else month + 9 := ⟨_, rfl⟩
  obtain ⟨y, shifted⟩ : ∃ y : Int, y = if month ≤ 2 then year - 1 else year := ⟨_, rfl⟩
  have table : day ≤ 31 ∧ (mp = 1 ∨ mp = 3 ∨ mp = 6 ∨ mp = 8 → day ≤ 30) ∧
      (mp = 11 → day ≤ 29 ∧ (day = 29 → y % 4 = 3 ∧ (y % 100 ≠ 99 ∨ y % 400 = 399))) := by
    unfold daysInMonth at last
    repeat' split at last
    all_goals omega
  have same : daysFromCivil year month day =
      365 * y + y / 4 - y / 100 + y / 400 + ((153 * mp + 2) / 5 + day - 1) - 719468 := by
    simp only [daysFromCivil, ← shifted, ← march]
    omega
  rw [same, civilFromDays_march (by omega) (by omega), month_of_day (by omega) (by omega) (by omega) (by omega)]
  clear same table
  simp only [Prod.mk.injEq]
  omega

def nextMonth (year : Int) (month : Nat) : Int × Nat := if month = 12 then (year + 1, 1) else (year, month + 1)

/-- The time lies in the month that is said to start. -/
def InMonth (nowUnix : Int) : Prop :=
  ∃ year month, (1 ≤ month ∧ month ≤ 12) ∧ monthStartUtcMs nowUnix = daysFromCivil year month 1 * 86400 * 1000 ∧
    daysFromCivil year month 1 * 86400 * 1000 ≤ nowUnix * 1000 ∧
    nowUnix * 1000 < daysFromCivil (nextMonth year month).1 (nextMonth year month).2 1 * 86400 * 1000

theorem daysFromCivil_day (year : Int) (month day : Nat) :
    daysFromCivil year month day = daysFromCivil year month 1 + day - 1 := by
  simp only [daysFromCivil]
  omega

theorem daysFromCivil_next (low : 1 ≤ month) (high : month ≤ 12) :
    daysFromCivil (nextMonth year month).1 (nextMonth year month).2 1 =
      daysFromCivil year month 1 + daysInMonth year month := by
  unfold nextMonth daysInMonth daysFromCivil
  interval_cases month <;> simp <;> omega

theorem daysInMonth_bounds (year : Int) (month : Nat) : 28 ≤ daysInMonth year month ∧ daysInMonth year month ≤ 31 := by
  unfold daysInMonth
  repeat' split
  all_goals omega

theorem exists_validDate (z : Int) : ∃ year month day, ValidDate year month day ∧ daysFromCivil year month day = z := by
  have later (n : Nat) : ∃ year month day, ValidDate year month day ∧ daysFromCivil year month day = n := by
    induction n with
    | zero => exact ⟨1970, 1, 1, by decide, by decide⟩
    | succ n ih =>
      obtain ⟨year, month, day, ⟨months, days⟩, dated⟩ := ih
      rw [daysFromCivil_day] at dated
      by_cases last : day = daysInMonth year month
      · have next := @daysFromCivil_next year month months.1 months.2
        refine ⟨_, _, 1, ⟨?_, Nat.le_refl 1, ?_⟩, next.trans (by omega)⟩
        · unfold nextMonth
          split <;> omega
        · have := daysInMonth_bounds (nextMonth year month).1 (nextMonth year month).2
          omega
      · exact ⟨year, month, day + 1, ⟨months, by omega⟩, by rw [daysFromCivil_day]; omega⟩
  -- an era is a whole number of days, so a day before 1970 has its date some eras later
  obtain ⟨eras, enough⟩ : ∃ eras : Nat, 0 ≤ z + 146097 * eras := ⟨z.natAbs, by omega⟩
  obtain ⟨year, month, day, valid, dated⟩ := later (z + 146097 * eras).toNat
  refine ⟨year - 400 * eras, month, day, ?_, ?_⟩
  · have shifted : ∀ n ∈ [4, 100, 400], (year - 400 * eras) % n = year % n := by simp; omega
    simpa [ValidDate, daysInMonth, shifted] using valid
  · simp only [daysFromCivil] at dated ⊢
    omega

/-- The calendar, and the month that a time lies in. -/
theorem month_arithmetic : (∀ z, let date := civilFromDays z
      ValidDate date.1 date.2.1 date.2.2 ∧ daysFromCivil date.1 date.2.1 date.2.2 = z) ∧
    (∀ year month day, ValidDate year month day →
      civilFromDays (daysFromCivil year month day) = (year, month, day)) ∧
    ∀ nowUnix, let date := civilFromDays (nowUnix / 86400)
      let start := daysFromCivil date.1 date.2.1 1 * 86400 * 1000
      InMonth nowUnix ↔ -2 ^ 63 ≤ start ∧ start < 2 ^ 63 := by
  refine ⟨fun z => ?_, fun _ _ _ => civilFromDays_inverts, fun nowUnix => ?_⟩
  · obtain ⟨year, month, day, valid, rfl⟩ := exists_validDate z
    rw [civilFromDays_inverts valid]
    exact ⟨valid, rfl⟩
  · obtain ⟨year, month, day, valid, same⟩ := exists_validDate (nowUnix / 86400)
    have dated : civilFromDays (nowUnix / 86400) = (year, month, day) := by rw [← same, civilFromDays_inverts valid]
    simp only [InMonth, monthStartUtcMs, dated]
    rw [daysFromCivil_day] at same
    have length := daysInMonth_bounds year month
    constructor
    · -- both months hold the time, so their starts are too near for the product to have wrapped
      rintro ⟨other, number, months, wrapped, early, late⟩
      rw [daysFromCivil_next months.1 months.2] at late
      have bounds := daysInMonth_bounds other number
      exact wrapI64_fits wrapped (by omega)
    · intro fits
      have next := @daysFromCivil_next year month valid.1.1 valid.1.2
      exact ⟨year, month, valid.1, wrapI64_of_fits fits, by omega, by omega⟩

theorem epoch_in_month : InMonth 0 ∧ civilFromDays (daysFromCivil 2028 2 29) = (2028, 2, 29) :=
  ⟨(month_arithmetic.2.2 0).2 (by decide), month_arithmetic.2.1 2028 2 29 (by decide)⟩

/-- The milliseconds of the month are no `i64`. -/
theorem late_month_start : ¬ InMonth (2 ^ 63 - 1) := by
  rintro ⟨year, month, months, start, early, late⟩
  rw [daysFromCivil_next months.1 months.2] at late
  have bounds := daysInMonth_bounds year month
  have wrapped : monthStartUtcMs (2 ^ 63 - 1) < 2 ^ 63 := by decide
  omega

end Mahoquot.Gateway.Budget
