import Mahoquot.Gateway.Route

/-! Upstream answers as the relay reads them, with a body that is unreadable or comes with
its JSON decoding, and how a 429 benches an account: its deadline, and the scope, whole
account or quota group or single model, it is filed under. -/

set_option autoImplicit false

namespace Mahoquot.Gateway
open Library Text

/-- A decoded JSON value. Numbers outside `i64` are `number`. -/
inductive Json where
  | null
  | bool (value : Bool)
  | int (value : Int)
  | number
  | str (value : String)
  | arr (items : List Json)
  | obj (entries : List (String × Json))

namespace Json

def get? (json : Json) (key : String) : Option Json :=
  match json with
  | .obj entries => (entries.find? fun entry => entry.1 == key).map Prod.snd
  | _ => none

def asStr? : Json → Option String
  | .str value => some value
  | _ => none

def asI64? : Json → Option Int
  | .int value => some value
  | _ => none

def set (json : Json) (key : String) (entry : Json) : Json :=
  match json with
  | .obj entries =>
    if entries.any fun field => field.1 == key then
      .obj (entries.map fun field => if field.1 == key then (key, entry) else field)
    else .obj (entries ++ [(key, entry)])
  | other => other

end Json

structure Body where
  text : String
  json : Option Json

abbrev Headers := List (String × String)

def Headers.get? (headers : Headers) (name : String) : Option String :=
  (headers.find? fun entry => entry.1 == name).map Prod.snd

structure Response where
  status : Nat
  headers : Headers
  /-- The error text when the body cannot be read within its limit. -/
  body : Except String Body

structure FinalFailure where
  status : Nat
  contentType : Option String
  body : Body

def errorBody (message : String) : Body :=
  ⟨"\x7b\"error\":\x7b\"message\":\"" ++ message ++ "\"\x7d\x7d",
    some (.obj [("error", .obj [("message", .str message)])])⟩

def extractFailure (response : Response) : FinalFailure :=
  match response.body with
  | .error message => ⟨502, some "application/json", errorBody message⟩
  | .ok body => ⟨response.status, response.headers.get? "content-type", body⟩

def maxCooldownSecs : Int := 86400

def clineCreditBackoffSecs : Int := 300

def clamp (low high value : Int) : Int := max low (min high value)

/-- Deadline of an upstream-supplied delay, clamped in both directions. -/
def cooldownDeadlineMs (nowMs retryAfterSecs : Int) : Int :=
  saturatingAdd nowMs (clamp 0 maxCooldownSecs retryAfterSecs * 1000)

def resetDelay (nowUnix : Int) (header : String × String) : Option Int :=
  let lower := toAsciiLowercase header.1
  if !(endsWith "-reset-at" lower || endsWith "-reset-after-seconds" lower) then none
  else
    match parseI64? (trim header.2) with
    | none => none
    | some secs =>
      let delay := if endsWith "-reset-after-seconds" lower then secs
        else saturatingAdd secs (-nowUnix)
      if delay > 0 then some delay else none

def cooldownDeadlineFromHeaders (headers : Headers) (nowMs : Int) : Int :=
  let retryAfter := (headers.get? "retry-after").bind fun value =>
    parseI64? (trim value)
  cooldownDeadlineMs nowMs
    ((retryAfter.or (headers.filterMap (resetDelay (nowMs.tdiv 1000))).min?).getD 300)

/-- Hours and minutes named in a reset text such as `8h 48m`. -/
def resetTimeStep (time : Int × Int) (part : String) : Int × Int :=
  match stripSuffix? "h" part with
  | some hours =>
    match parseI64? hours with
    | some value => (clamp 0 8760 value, time.2)
    | none => time
  | none =>
    match stripSuffix? "m" part with
    | some minutes =>
      match parseI64? minutes with
      | some value => (time.1, clamp 0 525600 value)
      | none => time
    | none => time

def errorField (body : Body) (key : String) : Option Json :=
  (body.json.bind fun json => json.get? "error").bind fun error => error.get? key

def parseClineCapError (body : Body) : Option (String × Int) :=
  match (errorField body "message").bind Json.asStr? with
  | none => none
  | some message =>
    match splitAt? "Daily free limit reached on model " message with
    | none => none
    | some (_, remainder) =>
      match splitAt? ". Try again in " remainder with
      | none => none
      | some (named, time) =>
        let model := trim named
        if model.isEmpty then none
        else
          let parts := (splitWhitespace (trim time)).foldl resetTimeStep (0, 0)
          let total := clamp 0 maxCooldownSecs (parts.1 * 3600 + parts.2 * 60)
          some (model, if total > 0 then total else 300)

def failureIsInsufficientCredits (body : Body) : Bool :=
  match (body.json.bind fun json => json.get? "code").bind Json.asStr? with
  | some code => code == "insufficient_credits"
  | none => ((errorField body "code").bind Json.asStr?).any (· == "insufficient_credits")

def planQuotaBizCode : Int := 1005

def failureIsLimitExhaustion (body : Body) : Bool :=
  if (parseClineCapError body).isSome || failureIsInsufficientCredits body then true
  else ((errorField body "code").bind Json.asI64?).any (· == planQuotaBizCode)

/-- Claude rejected the model or its overage while both shared windows still
allow traffic. -/
def claudeModelScopedRejection (headers : Headers) : Bool :=
  let get := fun name => (headers.get? name).map fun value =>
    toAsciiLowercase (trim value)
  let windowAllows := fun name =>
    (get name).any fun value => value == "allowed" || value == "allowed_warning"
  get "anthropic-ratelimit-unified-status" == some "rejected" &&
    ((get "anthropic-ratelimit-unified-representative-claim").any fun claim =>
      claim == "overage" || claim == "model") &&
    windowAllows "anthropic-ratelimit-unified-5h-status" &&
    windowAllows "anthropic-ratelimit-unified-7d-status"

/-- A full-day reading is a ceiling, so a deadline already in force outranks it. -/
def resolveClineDeadline (tracker : Option ClineDailyTracker) (nowSecs reportedSecs : Int) : Int :=
  let candidate := saturatingAdd nowSecs reportedSecs
  if reportedSecs < maxCooldownSecs then candidate
  else
    let known := (tracker.map (·.estimatedResetUnix)).getD 0
    if known > nowSecs then known else candidate

/-- The tracker of one Cline model, with the tokens it counts. -/
structure ClineLane where
  tracker : ClineDailyTracker
  usedTokens : Nat
  seeded : Bool
  budgetTokens : Nat
deriving Repr, DecidableEq

inductive LaneEvent where
  | cap (reportedSecs : Int)
  | observe (tokens : Nat)
  | anchorWindow
  | seedFromHistory (sumTokens : Nat) (windowStartUnix : Int)
deriving Repr, DecidableEq

namespace ClineLane
variable (lane : ClineLane)

/-- Unix seconds of the reset, 0 while no window is open. -/
def deadline : Int := lane.tracker.estimatedResetUnix

def rolloverIfLapsed (nowUnix : Int) : ClineLane :=
  if lane.deadline ≠ 0 ∧ nowUnix ≥ lane.deadline then { lane with tracker := .new, usedTokens := 0 } else lane

def openWindow (startUnix : Int) : ClineLane :=
  if lane.tracker.windowStartUnix = 0 then
    { lane with tracker := { lane.tracker with windowStartUnix := startUnix } }
  else lane

def observe (tokens : Nat) (nowUnix : Int) : ClineLane :=
  let opened := (lane.rolloverIfLapsed nowUnix).openWindow nowUnix
  { opened with usedTokens := (opened.usedTokens + tokens) % 2 ^ 64 }

def anchorWindow (nowUnix : Int) : ClineLane :=
  let rolled := lane.rolloverIfLapsed nowUnix
  if nowUnix > 0 then rolled.openWindow nowUnix else rolled

def seedFromHistory (sumTokens : Nat) (windowStartUnix nowUnix : Int) : ClineLane :=
  if lane.seeded then lane
  else
    let seeded := { lane with seeded := true }
    -- A window that has lapsed is not opened again.
    if windowStartUnix > 0 ∧ windowStartUnix + daySecs > nowUnix then
      let opened := seeded.openWindow windowStartUnix
      { opened with usedTokens := max opened.usedTokens sumTokens }
    else seeded

def onCap429 (resetAtUnix nowUnix : Int) : ClineLane :=
  { lane with
    tracker := lane.tracker.onCap429 resetAtUnix nowUnix
    usedTokens := if resetAtUnix ≤ nowUnix then lane.usedTokens else max lane.usedTokens lane.budgetTokens }

def step (nowUnix : Int) : LaneEvent → ClineLane
  | .cap reportedSecs => lane.onCap429 (resolveClineDeadline (some lane.tracker) nowUnix reportedSecs) nowUnix
  | .observe tokens => lane.observe tokens nowUnix
  | .anchorWindow => lane.anchorWindow nowUnix
  | .seedFromHistory sumTokens windowStartUnix => lane.seedFromHistory sumTokens windowStartUnix nowUnix

def run (events : List (Int × LaneEvent)) : ClineLane := events.foldl (fun lane entry => lane.step entry.1 entry.2) lane

end ClineLane

namespace AccountMember
variable (member : AccountMember)

def clineTrackerFor (model : String) : ClineDailyTracker :=
  member.clineTrackers[clineQuotaSlug model]?.getD .new

def setClineTracker (model : String) (tracker : ClineDailyTracker) : AccountMember :=
  { member with clineTrackers := member.clineTrackers.insert (clineQuotaSlug model) tracker }

def benchExhaustedQuota (model : Option String) (untilUnixMs : Int) (kind : BenchKind) : AccountMember :=
  match model.bind fun model => (member.setGroupCooldown model untilUnixMs).map
      fun benched => benched.setGroupBenchKind model kind with
  | some benched => benched
  | none => (member.setHealth (.cooldown untilUnixMs)).setAccountBenchKind kind

/-- Bench a Cline cap under the billed and the requested name. -/
def benchClineCap (capModel : String) (requestedModel : Option String) (untilUnixMs : Int) : AccountMember :=
  let benched := member.benchExhaustedQuota (some capModel) untilUnixMs .quotaExhausted
  match requestedModel with
  | some requested =>
    if requested ≠ capModel then
      benched.benchExhaustedQuota (some requested) untilUnixMs .quotaExhausted
    else benched
  | none => benched

end AccountMember

def benchKindOf (body : Body) : BenchKind :=
  if failureIsInsufficientCredits body then .outOfCredit
  else if failureIsLimitExhaustion body then .quotaExhausted
  else .rateLimited

def clineCap (response : Response) (member : AccountMember) : Option (String × Int) :=
  if member.providerName = "cline" then parseClineCapError (extractFailure response).body
  else none

def rejectedModel (response : Response) (member : AccountMember) (model : Option String) : Option String :=
  if decide (member.kind = .claude) && claudeModelScopedRejection response.headers then model
  else none

/-- What a 429 leaves on the account, next to the failure it reports. -/
def recordCooldown (response : Response) (member : AccountMember) (model : Option String)
    (nowMs : Int) : FinalFailure × AccountMember :=
  let headerUntil := cooldownDeadlineFromHeaders response.headers nowMs
  let failure := extractFailure response
  match rejectedModel response member model with
  | some rejected => (failure, member.setModelCooldown rejected headerUntil)
  | none =>
    let (tracked, effectiveModel, untilUnixMs) := match clineCap response member with
      | some (capModel, resetSecs) =>
        let nowSecs := nowMs.tdiv 1000
        let tracker := member.clineTrackerFor capModel
        let resetAt := resolveClineDeadline (some tracker) nowSecs resetSecs
        (member.setClineTracker capModel (tracker.onCap429 resetAt nowSecs), some capModel, saturatingMul resetAt 1000)
      | none => (member, model, headerUntil)
    match if member.providerName = "cline" ∧ effectiveModel ≠ model then effectiveModel
        else none with
    | some capModel => (failure, tracked.benchClineCap capModel model untilUnixMs)
    | none => (failure, tracked.benchExhaustedQuota (effectiveModel.or model) untilUnixMs
        (benchKindOf failure.body))

open Registry AccountMember Option

/-- What a cooldown covers: the account, or the keys it is filed under. -/
inductive BenchScope where
  | account
  | keys (filed : List String)
deriving Repr, DecidableEq

namespace AccountMember
variable (member : AccountMember)

def cooldownKeys (model : String) : List String :=
  modelBenchKey model :: (member.quotaGroupFor model).toList

def raiseCooldowns (keys : List String) (untilUnixMs : Int) : AccountMember :=
  keys.foldl (fun member key => member.raiseCooldown key untilUnixMs) member

def bench (scope : BenchScope) (untilUnixMs : Int) : AccountMember :=
  match scope with
  | .account => member.setHealth (.cooldown untilUnixMs)
  | .keys filed => member.raiseCooldowns filed untilUnixMs

/-- A key is held at a time while its deadline lies after it. -/
def Held (key : String) (nowMs : Int) : Prop :=
  ∃ deadline, member.groupCooldowns[key]? = some deadline ∧ nowMs < deadline

variable {member : AccountMember}

theorem groupAvailable_iff {model : String} {nowMs : Int} : member.groupAvailable model nowMs ↔
      ∀ key ∈ member.cooldownKeys model, ¬ member.Held key nowMs := by
  cases grouped : member.quotaGroupFor model <;>
    simp [groupAvailable, cooldownKeys, Held, grouped, all_eq_true, any_eq_false]

theorem held_raiseCooldown {key other : String} {deadline nowMs : Int} :
    (member.raiseCooldown key deadline).Held other nowMs ↔ (other = key ∧ nowMs < deadline) ∨ member.Held other nowMs := by
  simp only [raiseCooldown, Held, Std.ExtTreeMap.getElem?_insert]
  by_cases same : key = other
  · subst same
    cases member.groupCooldowns[key]? <;> simp [or_comm]
  · simp [same, Ne.symm same]

theorem held_raiseCooldowns {keys : List String} {other : String} {deadline nowMs : Int}
    (early : nowMs < deadline) : (member.raiseCooldowns keys deadline).Held other nowMs ↔
      other ∈ keys ∨ member.Held other nowMs := by
  induction keys generalizing member with
  | nil => simp [raiseCooldowns]
  | cons key keys ih =>
    have step : member.raiseCooldowns (key :: keys) deadline =
      (member.raiseCooldown key deadline).raiseCooldowns keys deadline := rfl
    rw [step, ih, held_raiseCooldown, List.mem_cons]
    tauto

theorem raiseCooldowns_eq (member : AccountMember) (keys : List String) (deadline : Int) :
    member.raiseCooldowns keys deadline = { member with
      groupCooldowns := (member.raiseCooldowns keys deadline).groupCooldowns } := by
  induction keys generalizing member with
  | nil => rfl
  | cons key keys ih => exact ih (member.raiseCooldown key deadline)

end AccountMember

def AccountMember.groupScope (member : AccountMember) (model : Option String) : BenchScope :=
  match model.bind member.quotaGroupFor with
  | some group => .keys [group]
  | none => .account

def benchScope (response : Response) (member : AccountMember) (model : Option String) : BenchScope :=
  match rejectedModel response member model with
  | some rejected => .keys [modelBenchKey rejected]
  | none =>
    match clineCap response member with
    | some (capModel, _) => .keys
        ((capModel :: (model.filter (· ≠ capModel)).toList).filterMap member.quotaGroupFor)
    | none => member.groupScope model

def benchDeadline (response : Response) (member : AccountMember) (model : Option String) (nowMs : Int) : Int :=
  match rejectedModel response member model, clineCap response member with
  | none, some (capModel, resetSecs) => saturatingMul
      (resolveClineDeadline (some (member.clineTrackerFor capModel)) (nowMs.tdiv 1000) resetSecs)
      1000
  | _, _ => cooldownDeadlineFromHeaders response.headers nowMs

namespace AccountMember
variable (member : AccountMember)

/-- The account without the labels that no routing decision reads. -/
def unlabelled : AccountMember :=
  { member with creditBenched := ∅, benchKinds := ∅, clineTrackers := ∅ }

theorem unlabelled_setClineTracker (model : String) (tracker : ClineDailyTracker) :
    (member.setClineTracker model tracker).unlabelled = member.unlabelled := rfl

theorem groupScope_setClineTracker (model : String) (tracker : ClineDailyTracker) (other : Option String) :
    (member.setClineTracker model tracker).groupScope other = member.groupScope other := rfl

theorem unlabelled_benchExhaustedQuota (model : Option String) (deadline : Int) (kind : BenchKind) :
    (member.benchExhaustedQuota model deadline kind).unlabelled =
      member.unlabelled.bench (member.groupScope model) deadline := by
  cases model with
  | none => rfl
  | some model =>
    cases grouped : member.quotaGroupFor model with
    | none =>
      simp only [benchExhaustedQuota, setGroupCooldown, groupScope, grouped, bind_some]
      rfl
    | some group =>
      have labelled : (member.raiseCooldown group deadline).quotaGroupFor model = some group := grouped
      simp only [benchExhaustedQuota, setGroupCooldown, groupScope, grouped, bind_some, map_some, setGroupBenchKind, labelled]
      rfl

theorem quotaGroupFor_cline {member : AccountMember} (cline : member.providerName = "cline")
    (model : String) : ∃ group, member.quotaGroupFor model = some group := by
  have notAntigravity : ¬ "cline" = "antigravity" := by decide
  simp only [quotaGroupFor, modelQuotaGroup, cline, notAntigravity, ↓reduceIte]
  split
  · exact ⟨_, rfl⟩
  · split
    · exact ⟨_, rfl⟩
    · cases splitDateSuffix model <;> exact ⟨_, rfl⟩

theorem unlabelled_benchClineCap (cline : member.providerName = "cline")
    (capModel : String) (model : Option String) (deadline : Int) :
    (member.benchClineCap capModel model deadline).unlabelled = member.unlabelled.bench
      (.keys ((capModel :: (model.filter (· ≠ capModel)).toList).filterMap member.quotaGroupFor)) deadline := by
  obtain ⟨capGroup, capGrouped⟩ := quotaGroupFor_cline cline capModel
  have capScope : member.groupScope (some capModel) = .keys [capGroup] := by
    simp [groupScope, capGrouped]
  have capBenched := member.unlabelled_benchExhaustedQuota (some capModel) deadline .quotaExhausted
  rw [capScope] at capBenched
  cases model with
  | none => simpa [benchClineCap, capGrouped] using capBenched
  | some requested =>
    by_cases same : requested = capModel
    · subst same
      simpa [benchClineCap, capGrouped, filter_some] using capBenched
    · obtain ⟨group, grouped⟩ := quotaGroupFor_cline cline requested
      have scope : (member.benchExhaustedQuota (some capModel) deadline
          .quotaExhausted).groupScope (some requested) = .keys [group] :=
        calc (member.benchExhaustedQuota (some capModel) deadline
            .quotaExhausted).unlabelled.groupScope (some requested)
          _ = member.groupScope (some requested) := by rw [capBenched]; rfl
          _ = .keys [group] := by simp [groupScope, grouped]
      simp only [benchClineCap, ne_eq, same, not_false_eq_true, ↓reduceIte, unlabelled_benchExhaustedQuota, scope, capBenched]
      simp [same, capGrouped, grouped, bench, raiseCooldowns, filter_some]

end AccountMember

/-- Beside the bench, a recorded 429 leaves labels and tracker readings only. -/
theorem unlabelled_recordCooldown (response : Response) (member : AccountMember)
    (model : Option String) (nowMs : Int) : (recordCooldown response member model nowMs).2.unlabelled =
      member.unlabelled.bench (benchScope response member model) (benchDeadline response member model nowMs) := by
  simp only [benchScope, benchDeadline]
  cases rejected : rejectedModel response member model with
  | some rejectedName =>
    simp only [recordCooldown, rejected]
    rfl
  | none =>
    cases capped : clineCap response member with
    | none =>
      simp only [recordCooldown, rejected, capped, ne_eq, not_true_eq_false, and_false, Option.or_self]
      exact member.unlabelled_benchExhaustedQuota model _ _
    | some cap =>
      have cline : member.providerName = "cline" := by
        by_contra other
        simp [clineCap, other] at capped
      by_cases same : some cap.1 = model
      · subst same
        obtain ⟨group, grouped⟩ := quotaGroupFor_cline cline cap.1
        have scope : member.groupScope (some cap.1) = .keys [group] := by
          simp [groupScope, grouped]
        simp only [recordCooldown, rejected, capped, ne_eq, not_true_eq_false, and_false,
          ↓reduceIte, unlabelled_benchExhaustedQuota,
          groupScope_setClineTracker,
          unlabelled_setClineTracker]
        simp [scope, grouped, filter_some]
      · simp only [recordCooldown, rejected, capped, cline, ne_eq, same, not_false_eq_true, and_self, ↓reduceIte]
        have tracked (tracker : ClineDailyTracker) : (member.setClineTracker cap.1 tracker).providerName = "cline" := cline
        rw [unlabelled_benchClineCap _ (tracked _)]
        rfl

def BenchScope.Covers (scope : BenchScope) (member : AccountMember) (model : String) : Prop :=
  match scope with
  | .account => True
  | .keys filed => ∃ key ∈ filed, key ∈ member.cooldownKeys model

theorem groupAvailable_raiseCooldowns {member : AccountMember} {keys : List String} {model : String} {nowMs deadline : Int}
    (early : nowMs < deadline) :
    (member.raiseCooldowns keys deadline).groupAvailable model nowMs ↔
      ¬ (BenchScope.keys keys).Covers member model ∧ member.groupAvailable model nowMs := by
  have sameKeys : (member.raiseCooldowns keys deadline).cooldownKeys model =
      member.cooldownKeys model := by
    rw [member.raiseCooldowns_eq keys deadline]
    rfl
  simp only [groupAvailable_iff, sameKeys, held_raiseCooldowns early]
  constructor
  · intro free
    exact ⟨fun ⟨key, filed, read⟩ => free key read (.inl filed), fun key read held => free key read (.inr held)⟩
  · rintro ⟨uncovered, free⟩ key read (filed | held)
    · exact uncovered ⟨key, filed, read⟩
    · exact free key read held

/-- A cap response says no more than that the reset is a day or more away. -/
def LaneEvent.AtCeiling : LaneEvent → Prop
  | .cap reportedSecs => maxCooldownSecs ≤ reportedSecs
  | _ => True

namespace ClineLane
variable {lane : ClineLane} {nowUnix : Int}

theorem deadline_openWindow (inForce : 0 < lane.deadline) (startUnix : Int) :
    (lane.openWindow startUnix).deadline = lane.deadline := by
  unfold openWindow deadline ClineDailyTracker.estimatedResetUnix at *
  grind

theorem rolloverIfLapsed_inForce (inForce : nowUnix < lane.deadline) : lane.rolloverIfLapsed nowUnix = lane :=
  if_neg fun lapsed => Int.not_le.mpr inForce lapsed.2

/-- A cap response whose reset lies ahead sets the deadline to it. -/
theorem deadline_onCap429 {resetAtUnix : Int} (clock : 0 ≤ nowUnix) (ahead : nowUnix < resetAtUnix) :
    (lane.onCap429 resetAtUnix nowUnix).deadline = resetAtUnix := by
  unfold onCap429 deadline ClineDailyTracker.onCap429 ClineDailyTracker.estimatedResetUnix
  grind

theorem deadline_step (clock : 0 ≤ nowUnix) (inForce : nowUnix < lane.deadline) {event : LaneEvent}
    (ceiling : event.AtCeiling) : (lane.step nowUnix event).deadline = lane.deadline := by
  have ahead : 0 < lane.deadline := Int.lt_of_le_of_lt clock inForce
  cases event with
  | cap reportedSecs =>
    have known : resolveClineDeadline (some lane.tracker) nowUnix reportedSecs = lane.deadline := by
      rw [resolveClineDeadline, if_neg (Int.not_lt.mpr ceiling)]
      exact if_pos inForce
    rw [step, known, deadline_onCap429 clock inForce]
  | observe tokens =>
    have opened := deadline_openWindow ahead nowUnix
    rw [step, observe, rolloverIfLapsed_inForce inForce]
    exact opened
  | anchorWindow =>
    rw [step, anchorWindow, rolloverIfLapsed_inForce inForce]
    split
    · exact deadline_openWindow ahead nowUnix
    · rfl
  | seedFromHistory sumTokens windowStartUnix =>
    rw [step, seedFromHistory]
    split
    · rfl
    · split
      · exact @deadline_openWindow { lane with seeded := true } ahead windowStartUnix
      · rfl

/-- A deadline in force stays through readings that only reach the ceiling. A reading below
the ceiling, or the first one after the deadline, sets it to the time the reading names. -/
theorem deadline_does_not_drift (lane : ClineLane) : (∀ events : List (Int × LaneEvent), (∀ entry ∈ events,
        0 ≤ entry.1 ∧ entry.1 < lane.deadline ∧ entry.2.AtCeiling) → (lane.run events).deadline = lane.deadline) ∧
      ∀ nowUnix reportedSecs, 0 ≤ nowUnix → 0 < reportedSecs → nowUnix + reportedSecs ≤ i64Max →
        reportedSecs < maxCooldownSecs ∨ lane.deadline ≤ nowUnix →
          (lane.step nowUnix (.cap reportedSecs)).deadline = nowUnix + reportedSecs := by
  constructor
  · intro events
    induction events generalizing lane with
    | nil => exact fun _ => rfl
    | cons entry events ih =>
      intro within
      obtain ⟨⟨clock, inForce, ceiling⟩, later⟩ := List.forall_mem_cons.mp within
      have kept := deadline_step clock inForce ceiling
      rw [← kept] at later ⊢
      exact ih (lane.step entry.1 entry.2) later
  · intro nowUnix reportedSecs clock positive small names
    have sum : saturatingAdd nowUnix reportedSecs = nowUnix + reportedSecs := by
      rw [saturatingAdd, Int.min_eq_right small, Int.max_eq_right (by unfold i64Min; omega)]
    have resolved : resolveClineDeadline (some lane.tracker) nowUnix reportedSecs = nowUnix + reportedSecs := by
      rw [resolveClineDeadline, sum]
      split
      · rfl
      next ceiling => exact if_neg (Int.not_lt.mpr (names.resolve_left ceiling))
    rw [step, resolved, deadline_onCap429 clock (by omega)]

/-- A cap at noon, two more of a day and some tokens, and one of an hour. -/
theorem noon_cap_stays : let capped := ClineLane.run ⟨.new, 0, false, 9⟩ [(43200, .cap 86400)]
    (capped.run [(43260, .cap 86400), (50000, .observe 5), (60000, .cap 90000)]).deadline = capped.deadline ∧
      (capped.step 70000 (.cap 3600)).deadline = 73600 :=
  ⟨(deadline_does_not_drift _).1 _ (by simp [LaneEvent.AtCeiling]; decide),
    (deadline_does_not_drift _).2 70000 3600 (by decide) (by decide) (by decide) (.inl (by decide))⟩

end ClineLane
end Mahoquot.Gateway
