import Mahoquot.Gateway.HealthProperties
import Mathlib.Data.Int.LeastGreatest

/-! The reset an exhausted pool names, and when it is the time the pool serves the model
again. An account is back when all its deadlines have passed; the reset is the first group
or account deadline of any account that may serve. `binds` is the embedded catalogue. -/

set_option autoImplicit false

namespace Mahoquot.Gateway
open Library List

def stripClaudeRoutePrefix (model : String) : String :=
  (["anthropic-", "anthropic/", "nekos-", "nekos/"].findSome? (Text.stripPrefix? · model)).getD model

def ProviderKind.servesModelIn (binds : ProviderKind → String → Bool) (kind : ProviderKind) (model : String) : Bool :=
  match kind with
  | .codex =>
    !binds .antigravity model && !binds .claude model && !binds .zcode model &&
      !(["cursor-", "cursor/", "kiro/", "anthropic-", "anthropic/", "nekos-", "nekos/"].any
        (Text.startsWith · model)) && model != "auto-kiro" && !binds .vertex model &&
      !(["devin-", "devin/"].any (Text.startsWith · model)) && model != "devin"
  | .antigravity | .zcode | .vertex => binds kind model
  | .claude => binds .claude (stripClaudeRoutePrefix model)
  | .cursor => Text.startsWith "cursor/" model || binds .cursor model
  | .kiro => model == "auto-kiro" || (Text.stripPrefix? "kiro/" model).any (binds .kiro)
  | .openCode | .generic => true
  | .devin => false

namespace AccountMember
variable (binds : ProviderKind → String → Bool)

variable (member : AccountMember)

def supportsAntigravityModel (model : String) : Bool :=
  let stripped := (Text.stripPrefix? "antigravity/" model).getD model
  if member.kind ≠ .antigravity || member.isManuallyDisabled then false
  else if member.unsupportedModels.contains model then false
  else
    match member.usage.modelAvailability with
    | some discovered => discovered[model]? == some (some true) || discovered[stripped]? == some (some true)
    | none => binds .antigravity model || binds .antigravity stripped

def supportsModelIn (model : String) : Bool :=
  let declared := match member.inner with
    | .generic provider models => provider != "xai" && models.isEmpty || models.contains model
    | .devin =>
      member.supportsDevinModel model
        (if Text.startsWith "devin/" model then model else "devin/" ++ model)
        ((Text.stripPrefix? "devin/" model).getD model)
    | .claude _ =>
      let bound := binds .claude (stripClaudeRoutePrefix model)
      if Text.startsWith "anthropic-" model || Text.startsWith "anthropic/" model then
        !member.isNekosRelay && bound
      else if Text.startsWith "nekos-" model || Text.startsWith "nekos/" model then
        member.isNekosRelay && bound
      else bound
    | .antigravity => member.supportsAntigravityModel binds model
    | account => account.kind.servesModelIn binds model
  declared && !member.unsupportedModels.contains model

def memberMayServeModel (model : String) (member : AccountMember) : Bool :=
  (member.quotaGroupFor model).isSome || member.supportsModelIn binds model

/-- The account's cooldown, in seconds. -/
def resetAtUnix : Option Int :=
  match member.health with
  | .cooldown untilUnixMs => some (untilUnixMs.tdiv 1000)
  | _ => none

def groupResetAtUnix (model : String) : Option Int :=
  (member.quotaGroupFor model).bind fun group =>
    (member.groupCooldowns[group]?).map fun untilMs => untilMs.tdiv 1000

end AccountMember

def keepEarliest (now : Int) (earliest : Option Int) (reset : Int) : Option Int :=
  if reset > now then some ((earliest.map fun current => min current reset).getD reset)
  else earliest

def earliestExhaustionResetUnixSecs (binds : ProviderKind → String → Bool) (pool : PoolSnapshot)
    (canonicalModel : Option String) (now : Int) : Option Int :=
  pool.members.foldl (fun earliest member =>
    if canonicalModel.any fun model => !member.memberMayServeModel binds model then earliest
    else
      [canonicalModel.bind member.groupResetAtUnix, member.resetAtUnix].reduceOption.foldl
        (keepEarliest now) earliest) none

variable (binds : ProviderKind → String → Bool) (pool : PoolSnapshot) (model : Option String)

namespace AccountMember

def availableFor (member : AccountMember) (nowMs : Int) : Bool :=
  (model.all fun model => member.groupAvailable model nowMs) && member.health.isAvailable nowMs

/-- The deadlines that keep an account from serving the model. -/
def deadlines (member : AccountMember) : List Int :=
  (model.bind fun model => member.groupCooldowns[modelBenchKey model]?).toList ++
    ((model.bind member.quotaGroupFor).bind fun group => member.groupCooldowns[group]?).toList ++
    match member.health with
    | .cooldown untilMs => [untilMs]
    | _ => []

theorem availableFor_iff {member : AccountMember} {nowMs : Int} : member.availableFor model nowMs ↔
      ¬ Withdrawn member.health ∧ ∀ deadline ∈ member.deadlines model, deadline ≤ nowMs := by
  have groups : (model.all fun model => member.groupAvailable model nowMs) = true ↔
      ∀ deadline ∈ (model.bind fun model => member.groupCooldowns[modelBenchKey model]?).toList ++
        ((model.bind member.quotaGroupFor).bind fun group => member.groupCooldowns[group]?).toList,
        deadline ≤ nowMs := by
    cases model with
    | none => simp
    | some model =>
      cases grouped : member.quotaGroupFor model <;>
        simp [groupAvailable, grouped, Option.all_eq_true, Option.any_eq_false, or_imp, forall_and]
  rw [deadlines, forall_mem_append, ← groups, availableFor, and_left_comm]
  cases member.health <;> simp [Health.isAvailable, Withdrawn]

end AccountMember

def serving : List AccountMember :=
  pool.members.filter fun member => model.all fun model => member.memberMayServeModel binds model

/-- The seconds in which some account that may serve the model is available. -/
def freeSeconds : Set Int :=
  {second | ∃ member ∈ serving binds pool model, ∃ time : Int, time / 1000 = second ∧ member.availableFor model time}

theorem mem_freeSeconds {second : Int} :
    second ∈ freeSeconds binds pool model ↔ ∃ member ∈ serving binds pool model, ¬ Withdrawn member.health ∧
        ∀ deadline ∈ member.deadlines model, deadline / 1000 ≤ second := by
  refine exists_congr fun member => and_congr_right fun _ => ?_
  simp only [AccountMember.availableFor_iff]
  constructor
  · rintro ⟨time, rfl, back, passed⟩
    exact ⟨back, fun deadline held => Int.ediv_le_ediv (by decide) (passed deadline held)⟩
  · rintro ⟨back, passed⟩
    refine ⟨second * 1000 + 999, by omega, back, fun deadline held => ?_⟩
    have := passed deadline held
    omega

/-- The resets of the accounts that may serve the model, in later seconds than `now`. -/
def resetsAhead (now : Int) : List Int :=
  ((serving binds pool model).flatMap fun member =>
    [model.bind member.groupResetAtUnix, member.resetAtUnix].reduceOption).filter (now < ·)

theorem foldl_keepEarliest (now : Int) (resets : List Int) (earliest : Option Int) :
    resets.foldl (keepEarliest now) earliest = (earliest.toList ++ resets.filter (now < ·)).min? := by
  induction resets generalizing earliest with
  | nil => cases earliest <;> rfl
  | cons reset resets ih =>
    rw [foldl_cons, ih, filter_cons, keepEarliest]
    by_cases ahead : now < reset
    · rw [if_pos ahead, if_pos (decide_eq_true ahead)]
      cases earliest <;> rfl
    · rw [if_neg ahead, if_neg (by simpa using ahead)]

theorem earliest_eq (now : Int) : earliestExhaustionResetUnixSecs binds pool model now =
      (resetsAhead binds pool model now).min? := by
  rw [← nil_append (resetsAhead ..), resetsAhead, ← Option.toList_none, ← foldl_keepEarliest,
    foldl_flatMap, serving, foldl_filter, earliestExhaustionResetUnixSecs]
  congr 1
  funext earliest member
  cases model with
  | none => rfl
  | some model => cases served : member.memberMayServeModel binds model <;> simp [served]

/-- The reset that is named is the first second of service again exactly if no reset
ahead comes before an account is back, and no account is back before a reset. -/
theorem reset_sound_iff (nowMs : Nat)
    (exhausted : ∀ member ∈ serving binds pool model, ¬ member.availableFor model nowMs) :
    (∀ reset, earliestExhaustionResetUnixSecs binds pool model (nowMs / 1000) = some reset ↔
        IsLeast (freeSeconds binds pool model) reset) ↔ (∀ reset ∈ resetsAhead binds pool model (nowMs / 1000),
        ∃ member ∈ serving binds pool model, ¬ Withdrawn member.health ∧
          ∀ deadline ∈ member.deadlines model, deadline / 1000 ≤ reset) ∧
      ∀ member ∈ serving binds pool model, ¬ Withdrawn member.health →
        ∃ reset ∈ resetsAhead binds pool model (nowMs / 1000),
          ∃ deadline ∈ member.deadlines model, reset ≤ deadline / 1000 := by
  have running (member : AccountMember) (held : member ∈ serving binds pool model)
      (back : ¬ Withdrawn member.health) :
      ∃ deadline ∈ member.deadlines model, (nowMs : Int) < deadline := by
    simpa [AccountMember.availableFor_iff, back] using exhausted member held
  have later (second : Int) (free : second ∈ freeSeconds binds pool model) :
      (nowMs / 1000 : Int) ≤ second := by
    obtain ⟨member, held, back, passed⟩ := (mem_freeSeconds ..).mp free
    obtain ⟨deadline, blocks, ahead⟩ := running member held back
    have := passed deadline blocks
    omega
  simp only [earliest_eq, ← mem_freeSeconds]
  generalize resetsAhead binds pool model (nowMs / 1000) = ahead
  constructor
  · intro sound
    refine ⟨fun reset named => ?_, fun member held back => ?_⟩
    · obtain ⟨first, least⟩ := Option.isSome_iff_exists.mp (isSome_min?_of_mem named)
      have before := (min?_eq_some_iff.mp least).2 reset named
      obtain ⟨member, held, back, passed⟩ := (mem_freeSeconds ..).mp ((sound first).mp least).1
      exact (mem_freeSeconds ..).mpr ⟨member, held, back, fun deadline blocks => (passed deadline blocks).trans before⟩
    · obtain ⟨_, blocking, _⟩ := running member held back
      obtain ⟨last, most⟩ := Option.isSome_iff_exists.mp (isSome_max?_of_mem (mem_map_of_mem (f := (· / 1000)) blocking))
      obtain ⟨among, greatest⟩ := max?_eq_some_iff.mp most
      obtain ⟨deadline, blocks, rfl⟩ := mem_map.mp among
      have free : deadline / 1000 ∈ freeSeconds binds pool model :=
        (mem_freeSeconds ..).mpr ⟨member, held, back, fun other blocks => greatest _ (mem_map_of_mem blocks)⟩
      obtain ⟨first, back, least⟩ := Int.exists_least_of_bdd ⟨_, later⟩ ⟨_, free⟩
      exact ⟨first, (min?_eq_some_iff.mp ((sound first).mpr ⟨back, fun _ => least _⟩)).1, deadline, blocks, least _ free⟩
  · rintro ⟨late, early⟩ reset
    have reached {second : Int} (free : second ∈ freeSeconds binds pool model) :
        ∃ other ∈ ahead, other ≤ second := by
      obtain ⟨member, held, back, passed⟩ := (mem_freeSeconds ..).mp free
      obtain ⟨other, named, deadline, blocks, before⟩ := early member held back
      exact ⟨other, named, before.trans (passed deadline blocks)⟩
    rw [min?_eq_some_iff]
    constructor
    · rintro ⟨named, least⟩
      refine ⟨late reset named, fun second free => ?_⟩
      obtain ⟨other, named, before⟩ := reached free
      exact (least other named).trans before
    · rintro ⟨free, least⟩
      obtain ⟨other, named, before⟩ := reached free
      have same := Int.le_antisymm before (least (late other named))
      exact ⟨same ▸ named, fun second ahead => least (late second ahead)⟩

instance (health : Health) : Decidable (Withdrawn health) := inferInstanceAs (Decidable (_ ∨ _))

namespace ExhaustionSample

def unbound : ProviderKind → String → Bool := fun _ _ => false

def poolOf (member : AccountMember) : PoolSnapshot := .new [member] [] claudeCatalog fun _ => false

def cooling : AccountMember :=
  { AccountMember.new "a" .antigravity with health := .cooldown 100000 }

/-- The group of the model is benched for longer than the account. -/
def benched : AccountMember := cooling.raiseCooldown "gemini" 200000

theorem reset_before_group_bench : (∀ member ∈ serving unbound (poolOf benched) (some "gemini-x"),
        ¬ member.availableFor (some "gemini-x") 0) ∧
      earliestExhaustionResetUnixSecs unbound (poolOf benched) (some "gemini-x") 0 = some 100 ∧
      ¬ IsLeast (freeSeconds unbound (poolOf benched) (some "gemini-x")) 100 := by
  refine ⟨by decide +kernel, by decide +kernel, fun least => ?_⟩
  obtain ⟨member, held, _, passed⟩ := (mem_freeSeconds ..).mp least.1
  cases mem_singleton.mp (mem_of_mem_filter held)
  exact absurd passed (by decide +kernel)

theorem reset_of_cooldown : IsLeast (freeSeconds unbound (poolOf cooling) (some "gemini-x")) 100 :=
  ((reset_sound_iff unbound (poolOf cooling) (some "gemini-x") 0 (by decide +kernel)).mpr
    ⟨by decide +kernel, by decide +kernel⟩ 100).mp (by decide +kernel)

end ExhaustionSample

end Mahoquot.Gateway
