import Mahoquot.Gateway.Rescan
import Mahoquot.Gateway.Writes
import Mahoquot.Library.Succession

/-! Requests in flight across a rescan. A request records its outcome on the member it
picked, while the rescan copies the cells of the published member into a fresh one. A
member covers another when it withholds the account at least as long. -/

set_option autoImplicit false

namespace Mahoquot.Gateway
open Library AccountMember RuntimeCell List

/-- The runtime cell a write goes to. -/
def Write.cell : Write → RuntimeCell
  | .bench _ | .reject | .expire _ | .extend _ | .lift => .health
  | .raise .. => .groupCooldowns
  | .unsupported _ => .unsupportedModels

variable (file : AccountFile)

def rescans : Replaceable AccountMember RuntimeCell Write where
  fresh := .load file
  write := write
  cell := Write.cell
  copy cell source target :=
    if target.sameCredentialIdentity source then cell.adopt source target else target
  cells := runtimeCells

/-- A rescan that nothing interrupts adopts the runtime state in one go. -/
theorem copies_eq_adoptRuntimeState {file : AccountFile} {member : AccountMember} (unchanged : member.file = file) :
    (rescans file).cells.foldl (fun target cell => (rescans file).copy cell member target) (rescans file).fresh =
      adoptRuntimeState (.load file) member := by
  have copies : ∀ (cells : List RuntimeCell) (target : AccountMember), target.file = file →
      cells.foldl (fun target cell => (rescans file).copy cell member target) target =
        cells.foldl (fun target cell => cell.adopt member target) target := by
    intro cells
    induction cells with
    | nil => intro target _; rfl
    | cons cell cells ih =>
      intro target same
      have identity : target.sameCredentialIdentity member = true :=
        sameCredentialIdentity_of_file (same.trans unchanged.symm)
      simp only [foldl_cons, rescans, identity, ↓reduceIte]
      exact ih _ (by rw [file_adopt, same])
  have identity : (load file).sameCredentialIdentity member = true := sameCredentialIdentity_of_file unchanged.symm
  rw [adoptRuntimeState, if_pos identity]
  exact copies runtimeCells (.load file) rfl

namespace AccountMember

/-- Whether routing may hand the account a request for `model`. -/
def offers (member : AccountMember) (model : String) (nowMs : Int) : Bool :=
  member.health.isAvailable nowMs && member.groupAvailable model nowMs

/-- One member keeps the account back wherever the other does, cell by cell. No
outcome writes the usage or the catalog. -/
def Covers (cell : RuntimeCell) (first second : AccountMember) : Prop :=
  match cell with
  | .health => ∀ nowMs, first.health.isAvailable nowMs = true →
      second.health.isAvailable nowMs = true
  | .groupCooldowns => ∀ key nowMs, second.Held key nowMs → first.Held key nowMs
  | .unsupportedModels => second.unsupportedModels ⊆ first.unsupportedModels
  | .usage | .devinCatalog => True

/-- When a written health admits requests, in terms of the health before. -/
def admitsAfter (admits : Int → Prop) (nowMs : Int) : Write → Prop
  | .bench untilUnixMs => untilUnixMs ≤ nowMs
  | .reject => False
  | .expire clock => admits nowMs ∨ admits clock
  | .extend untilUnixMs => admits nowMs ∧ untilUnixMs ≤ nowMs
  | .lift => ∃ time, admits time
  | .raise .. | .unsupported _ => admits nowMs

theorem isAvailable_write (member : AccountMember) (write : Write) (nowMs : Int) :
    (member.write write).health.isAvailable nowMs = true ↔
      admitsAfter (fun time => member.health.isAvailable time = true) nowMs write := by
  cases write with
  | bench | reject => simp [write, setHealth, Health.isAvailable, admitsAfter]
  | expire clock =>
    cases found : member.health with
    | cooldown running =>
      by_cases ended : running ≤ clock <;>
        simp [write, recordOk, found, ended, setHealth, Health.isAvailable, admitsAfter]
    | available | authFailed | disabled => simp [write, recordOk, found, Health.isAvailable, admitsAfter]
  | extend untilUnixMs =>
    cases found : member.health <;>
      simp [write, coolDown, setHealth, found, Health.isAvailable, admitsAfter]
  | lift =>
    cases found : member.health with
    | cooldown running =>
      have admitted : ∃ time, running ≤ time := ⟨running, le_refl running⟩
      simp [write, found, setHealth, Health.isAvailable, admitsAfter, admitted]
    | available | authFailed | disabled => simp [write, found, Health.isAvailable, admitsAfter]
  | raise key untilUnixMs => exact Iff.rfl
  | unsupported model =>
    simp only [write, markUnsupported]
    split <;> exact Iff.rfl

theorem admitsAfter_mono {first second : Int → Prop} {nowMs : Int} (less : ∀ time, first time → second time) :
    ∀ {write : Write}, admitsAfter first nowMs write → admitsAfter second nowMs write
  | .bench _, ended => ended
  | .expire _, .inl admitted => .inl (less nowMs admitted)
  | .expire clock, .inr admitted => .inr (less clock admitted)
  | .extend _, ⟨admitted, ended⟩ => ⟨less nowMs admitted, ended⟩
  | .lift, ⟨time, admitted⟩ => ⟨time, less time admitted⟩
  | .raise .., admitted => less nowMs admitted
  | .unsupported _, admitted => less nowMs admitted

variable {member : AccountMember}

/-- A write keeps a key back that it raises, and those kept back before. -/
theorem held_write {write : Write} {key : String} {nowMs : Int} : (member.write write).Held key nowMs ↔
      (∃ deadline, write = .raise key deadline ∧ nowMs < deadline) ∨ member.Held key nowMs := by
  cases write with
  | raise raised deadline =>
    rw [AccountMember.write, held_raiseCooldown]
    simp [eq_comm]
  | bench | reject | expire | extend | lift | unsupported =>
    simp only [reduceCtorEq, false_and, exists_false, false_or, write, recordOk, coolDown, markUnsupported]
    repeat' split
    all_goals rfl

theorem health_write {write : Write} (elsewhere : write.cell ≠ .health) :
    (member.write write).health = member.health := by
  cases write with
  | raise key deadline => rfl
  | unsupported model =>
    simp only [write, markUnsupported]
    split <;> rfl
  | bench | reject | expire | extend | lift => exact absurd rfl elsewhere

theorem mem_unsupportedModels_write {write : Write} {model : String} :
    model ∈ (member.write write).unsupportedModels ↔ write = .unsupported model ∨ model ∈ member.unsupportedModels := by
  cases write with
  | unsupported other =>
    simp only [write, markUnsupported]
    split
    next listed =>
      rw [contains_iff_mem] at listed
      simp only [Write.unsupported.injEq, iff_or_self]
      exact fun same => same ▸ listed
    next => simp [or_comm, eq_comm]
  | bench | reject | expire | extend | lift | raise =>
    simp only [reduceCtorEq, false_or, write, recordOk, coolDown]
    repeat' split
    all_goals rfl

theorem file_write (member : AccountMember) (write : Write) : (member.write write).file = member.file := by
  cases write <;> simp only [write, recordOk, coolDown, markUnsupported] <;>
    (repeat' split) <;> rfl

theorem covers_refl (cell : RuntimeCell) (member : AccountMember) : Covers cell member member := by
  cases cell with
  | health => exact fun _ admitted => admitted
  | groupCooldowns => exact fun _ _ held => held
  | unsupportedModels => exact Subset.refl _
  | usage | devinCatalog => trivial

theorem Covers.trans {cell : RuntimeCell} {first second third : AccountMember}
    (left : Covers cell first second) (right : Covers cell second third) : Covers cell first third := by
  cases cell with
  | health => exact fun nowMs admitted => right nowMs (left nowMs admitted)
  | groupCooldowns => exact fun key nowMs held => left key nowMs (right key nowMs held)
  | unsupportedModels => exact Subset.trans right left
  | usage | devinCatalog => trivial

theorem Covers.write {cell : RuntimeCell} {first second : AccountMember} (write : Write)
    (covers : Covers cell first second) : Covers cell (first.write write) (second.write write) := by
  cases cell with
  | health =>
    intro nowMs admitted
    rw [isAvailable_write] at admitted ⊢
    exact admitsAfter_mono covers admitted
  | groupCooldowns =>
    intro key nowMs held
    rw [held_write] at held ⊢
    exact held.imp_right (covers key nowMs)
  | unsupportedModels =>
    intro model listed
    rw [mem_unsupportedModels_write] at listed ⊢
    exact listed.imp_right fun known => covers known
  | usage | devinCatalog => trivial

theorem covers_write_elsewhere {cell : RuntimeCell} {write : Write} (member : AccountMember)
    (elsewhere : cell ≠ write.cell) : Covers cell member (member.write write) := by
  cases cell with
  | health =>
    simp only [Covers, health_write elsewhere.symm]
    exact fun _ admitted => admitted
  | groupCooldowns =>
    intro key nowMs held
    obtain ⟨deadline, rfl, -⟩ | held := held_write.mp held
    · exact absurd rfl elsewhere
    · exact held
  | unsupportedModels =>
    intro model listed
    obtain rfl | listed := mem_unsupportedModels_write.mp listed
    · exact absurd rfl elsewhere
    · exact listed
  | usage | devinCatalog => trivial

/-- In use for a file: only a disabled file makes a disabled member. -/
structure BuiltFrom (file : AccountFile) (member : AccountMember) : Prop where
  same : member.file = file
  enabled : member.health = .disabled → file.disabled = true

/-- Under construction for a file: a disabled file has made a disabled member. -/
structure BuildsOn (file : AccountFile) (member : AccountMember) : Prop where
  same : member.file = file
  disabled : file.disabled = true → member.health = .disabled

theorem enabled_write {write : Write} (disabled : (member.write write).health = .disabled) :
    member.health = .disabled := by
  cases write with
  | bench | reject => cases disabled
  | raise => exact disabled
  | expire clock =>
    simp only [write, recordOk] at disabled
    split at disabled
    · split at disabled
      · cases disabled
      · exact disabled
    · exact disabled
  | extend deadline =>
    simp only [write, coolDown] at disabled
    split at disabled
    · cases disabled
    · cases disabled
    · exact disabled
    · exact disabled
  | lift =>
    simp only [write] at disabled
    split at disabled
    · cases disabled
    · exact disabled
  | unsupported model => rwa [health_write (by simp [Write.cell])] at disabled

theorem BuiltFrom.write {file : AccountFile} (write : Write) (built : member.BuiltFrom file) :
    (member.write write).BuiltFrom file :=
  ⟨by rw [file_write, built.same], fun disabled => built.enabled (enabled_write disabled)⟩

section Copies
variable {file : AccountFile} {cell : RuntimeCell} {source target : AccountMember}

theorem copy_eq_adopt (built : source.BuiltFrom file) (same : target.file = file) :
    (rescans file).copy cell source target = cell.adopt source target := by
  have identity : target.sameCredentialIdentity source = true := sameCredentialIdentity_of_file (same.trans built.same.symm)
  simp only [rescans, identity, ↓reduceIte]

theorem health_adopt_of_ne (other : cell ≠ .health) : (cell.adopt source target).health = target.health := by
  cases cell with
  | health => exact absurd rfl other
  | usage | unsupportedModels | groupCooldowns => rfl
  | devinCatalog =>
    simp only [adopt]
    split <;> rfl

/-- The adopted health is that of the source unless one of the two is disabled. -/
theorem health_adopt : (RuntimeCell.health.adopt source target).health =
    if target.health ≠ .disabled ∧ source.health ≠ .disabled then source.health else target.health := by
  simp only [adopt]
  split <;> rfl

theorem unsupportedModels_adopt_of_ne (other : cell ≠ .unsupportedModels) :
    (cell.adopt source target).unsupportedModels = target.unsupportedModels := by
  cases cell with
  | unsupportedModels => exact absurd rfl other
  | usage | groupCooldowns => rfl
  | health | devinCatalog =>
    simp only [adopt]
    split <;> rfl

theorem covers_adopt (built : source.BuiltFrom file) (prepared : target.BuildsOn file) :
    Covers cell (cell.adopt source target) source := by
  cases cell with
  | health =>
    intro nowMs admitted
    rw [health_adopt] at admitted
    split at admitted
    next => exact admitted
    next kept =>
      -- a disabled source means a disabled file, and so a disabled target
      have disabled : target.health = .disabled := by
        by_contra enabled
        have source : source.health = .disabled := by
          by_contra other
          exact kept ⟨enabled, other⟩
        exact enabled (prepared.disabled (built.enabled source))
      rw [disabled] at admitted
      cases admitted
  | groupCooldowns => exact fun _ _ held => held
  | unsupportedModels => exact Subset.refl _
  | usage | devinCatalog => trivial

theorem covers_adopt_elsewhere {other : RuntimeCell} {object : AccountMember}
    (different : other ≠ cell) (covers : Covers other target object) :
    Covers other (cell.adopt source target) object := by
  cases other with
  | health =>
    simp only [Covers, health_adopt_of_ne different.symm]
    exact covers
  | groupCooldowns =>
    simp only [Covers, Held, groupCooldowns_adopt, different.symm]
    exact covers
  | unsupportedModels =>
    simp only [Covers, unsupportedModels_adopt_of_ne different.symm]
    exact covers
  | usage | devinCatalog => trivial

theorem BuiltFrom.adopt (built : source.BuiltFrom file) (targetBuilt : target.BuiltFrom file) :
    (cell.adopt source target).BuiltFrom file := by
  refine ⟨by rw [file_adopt, targetBuilt.same], fun disabled => ?_⟩
  by_cases health : cell = .health
  · subst health
    rw [health_adopt] at disabled
    split at disabled
    · exact built.enabled disabled
    · exact targetBuilt.enabled disabled
  · rw [health_adopt_of_ne health] at disabled
    exact targetBuilt.enabled disabled

theorem BuildsOn.adopt (prepared : target.BuildsOn file) : (cell.adopt source target).BuildsOn file := by
  refine ⟨by rw [file_adopt, prepared.same], fun off => ?_⟩
  have disabled := prepared.disabled off
  by_cases health : cell = .health
  · subst health
    simp [health_adopt, disabled]
  · rw [health_adopt_of_ne health, disabled]

end Copies

theorem load_builtFrom (file : AccountFile) : (load file).BuiltFrom file :=
  ⟨rfl, fun disabled => by
    by_contra enabled
    simp [load, enabled] at disabled⟩

theorem load_buildsOn (file : AccountFile) : (load file).BuildsOn file :=
  ⟨rfl, fun off => by simp [load, off]⟩

end AccountMember

open AccountMember in
/-- Writes and copies respect what members withhold. -/
def withholding : Coverage (rescans file) where
  Covers := Covers
  Valid := BuiltFrom file
  Prepared := fun member => member.BuiltFrom file ∧ member.BuildsOn file
  refl := covers_refl
  trans := Covers.trans
  write_mono := Covers.write
  write_frame := covers_write_elsewhere
  copy_covers := fun built prepared => by
    rw [copy_eq_adopt built prepared.1.same]
    exact covers_adopt built prepared.2
  copy_frame := fun different covers => by
    simp only [rescans]
    split
    · exact covers_adopt_elsewhere different covers
    · exact covers
  fresh_valid := load_builtFrom file
  fresh_prepared := ⟨load_builtFrom file, load_buildsOn file⟩
  write_valid := BuiltFrom.write
  copy_valid := fun built targetBuilt => by
    rw [copy_eq_adopt built targetBuilt.same]
    exact built.adopt targetBuilt
  copy_prepared := fun built prepared => by
    rw [copy_eq_adopt built prepared.1.same]
    exact ⟨built.adopt prepared.1, prepared.2.adopt⟩

/-- A member that withholds as much as another offers no more than it. -/
theorem AccountMember.offers_of_covers {first second : AccountMember} (same : first.file = second.file)
    (health : Covers .health first second) (groups : Covers .groupCooldowns first second) {model : String}
    {nowMs : Int} (offered : first.offers model nowMs = true) : second.offers model nowMs = true := by
  simp only [offers, Bool.and_eq_true, groupAvailable_iff] at offered ⊢
  obtain ⟨admitted, free⟩ := offered
  have keys : second.cooldownKeys model = first.cooldownKeys model := by
    simp only [cooldownKeys, quotaGroupFor_of_file same]
  exact ⟨health nowMs admitted, fun key read held =>
    free key (keys ▸ read) (groups key nowMs held)⟩

theorem file_ledger (start : AccountMember) (events : List (SuccessionEvent Write)) :
    ((rescans file).ledger start events).file = start.file := by
  have written : ∀ (writes : List Write) (member : AccountMember),
      (writes.foldl write member).file = member.file := by
    intro writes
    induction writes with
    | nil => intro member; rfl
    | cons write writes ih =>
      intro member
      rw [foldl_cons, ih, file_write]
  exact written _ start

def publishedAfter (start : AccountMember) (events : List (SuccessionEvent Write)) : AccountMember :=
  ((rescans file).before start events events.length).current

def recordedAccount (start : AccountMember) (events : List (SuccessionEvent Write)) : AccountMember :=
  (rescans file).ledger start events

/-- Whenever each outcome reaches the published member or is known to it, and
reaches the copy under construction likewise, the published member offers the
account only where the recorded outcomes do. -/
theorem outcomes_survive_rescans {file : AccountFile} {start : AccountMember}
    (built : start.BuiltFrom file) {events : List (SuccessionEvent Write)}
    (reaches : ∀ (position request : Nat) (write : Write), events[position]? = some (.record request write) →
        (withholding file).Reaches ((rescans file).before start events position) request write)
    (model : String) (nowMs : Int) (offered : (publishedAfter file start events).offers model nowMs = true) :
    (recordedAccount file start events).offers model nowMs = true := by
  have informed := Coverage.informed_before built reaches events.length
  rw [take_length] at informed
  have same := informed.valid.same.trans ((file_ledger file start events).trans built.same).symm
  exact offers_of_covers same
    (informed.current .health (by simp [rescans, runtimeCells]))
    (informed.current .groupCooldowns (by simp [rescans, runtimeCells])) offered

def codexFile : AccountFile :=
  { id := "codex-a", inner := .codex, disabled := false, identities := [], email := none,
    accessToken := "token", baseUrl := "", upstreamOverride := none, overrideHosts := [],
    requestRetryOverride := none }

def rescan : List (SuccessionEvent Write) :=
  .build :: runtimeCells.map (fun _ => .copy) ++ [.publish]

/-- A stream that ran dry before the rescan keeps the account back after it. -/
theorem bench_survives_later_rescan : (publishedAfter codexFile (.load codexFile)
      (.pick 1 :: .record 1 (.bench 300000) :: rescan)).offers "gpt-5" 299999 = false := by
  have reaches : ∀ (position request : Nat) (write : Write),
      (.pick 1 :: .record 1 (.bench 300000) :: rescan)[position]? =
          some (.record request write) →
        (withholding codexFile).Reaches ((rescans codexFile).before (.load codexFile)
          (.pick 1 :: .record 1 (.bench 300000) :: rescan) position) request write := by
    intro position request write found
    match position with
    | 0 => cases found
    | 1 =>
      cases found
      exact ⟨.inl rfl, fun successor absent => by cases absent⟩
    | position + 2 =>
      have recorded : SuccessionEvent.record request write ∈ rescan := mem_of_getElem? found
      simp [rescan] at recorded
  rw [← Bool.not_eq_true]
  intro offered
  have recorded := outcomes_survive_rescans (load_builtFrom codexFile) reaches "gpt-5" 299999 offered
  revert recorded
  decide +kernel

/-- A stream that runs dry after the rescan, for a request that picked its
member before: the bench lands on the replaced member. -/
theorem late_bench_is_lost : (Outcome.exhausted (some "gpt-5") 0).writes (.load codexFile) = [.bench 300000] ∧
      (recordedAccount codexFile (.load codexFile)
        (.pick 1 :: rescan ++ [.record 1 (.bench 300000)])).offers "gpt-5" 0 = false ∧
      (publishedAfter codexFile (.load codexFile)
        (.pick 1 :: rescan ++ [.record 1 (.bench 300000)])).offers "gpt-5" 0 = true ∧
      (publishedAfter codexFile (.load codexFile)
        (.pick 1 :: rescan ++ [.record 1 .reject])).offers "gpt-5" 0 = true := by
  decide +kernel

end Mahoquot.Gateway
