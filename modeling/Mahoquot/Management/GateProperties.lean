import Mahoquot.Management.Gate
import Mahoquot.Library.Runs

/-! What the gate guarantees over every interleaving of attempts. -/

set_option autoImplicit false

namespace Mahoquot.Management
open Library ManagementAttempts List Nat
namespace ManagementAttempts
variable {attempts : ManagementAttempts} {peer other : IpAddr} {now : Nat}

/-- A check refuses, or leaves no ban. What it keeps does not depend on whether remote
management is allowed. -/
theorem preflight_cases (attempts : ManagementAttempts) (peer : IpAddr) (allowRemote : Bool) (now : Nat) :
    (∃ denial : Denial, denial.status = .forbidden ∧ attempts.preflight peer allowRemote now =
        ((attempts.preflight peer true now).1, .error denial)) ∨
      attempts.preflight peer allowRemote now = ((attempts.preflight peer true now).1, .ok ()) ∧
        ∀ record, (attempts.preflight peer true now).1.ips peer = some record → record.ban = none := by
  unfold preflight
  dsimp only
  cases held : (attempts.retain now).ips peer with
  | none =>
    dsimp only
    split
    · exact .inl ⟨_, rfl, rfl⟩
    · exact .inr ⟨rfl, by simp [held]⟩
  | some record =>
    obtain ⟨failures, ban, activity⟩ := record
    cases ban with
    | none =>
      dsimp only
      split
      · exact .inl ⟨_, rfl, rfl⟩
      · exact .inr ⟨rfl, by simp [held]⟩
    | some ends =>
      by_cases lasting : now < ends
      · simp only [if_pos lasting]
        exact .inl ⟨_, rfl, rfl⟩
      · simp only [if_neg lasting]
        split
        · exact .inl ⟨_, rfl, rfl⟩
        · exact .inr ⟨rfl, by simp [setIp]⟩

theorem preflight_other (different : peer ≠ other) (allowRemote : Bool) :
    (attempts.preflight other allowRemote now).1.ips peer = (attempts.ips peer).filter (retains now) := by
  unfold preflight
  dsimp only
  split
  · split
    · rfl
    · exact if_neg different
  · rfl

/-- A check, of whichever address, keeps a record that is recent or a ban that lasts. -/
theorem preflight_kept {record : IpRecord} (held : attempts.ips peer = some record)
    (retained : retains now record = true) (lasting : ∀ ends ∈ record.ban, now < ends)
    (other : IpAddr) : (attempts.preflight other true now).1.ips peer = some record := by
  have kept : (attempts.retain now).ips peer = some record := by
    rw [retain]
    dsimp only
    rw [held, Option.filter_some, if_pos retained]
  by_cases same : peer = other
  · subst same
    unfold preflight
    dsimp only
    rw [kept]
    obtain ⟨failures, ban, activity⟩ := record
    cases ban with
    | none => exact kept
    | some ends =>
      dsimp only
      rw [if_pos (lasting ends rfl)]
      exact kept
  · exact (preflight_other same true).trans kept

end ManagementAttempts

theorem foldl_diff_eq_zero {left right : List UInt8} (same : left.length = right.length) (diff : UInt8) :
    (left.zip right).foldl (fun diff pair => diff ||| (pair.1 ^^^ pair.2)) diff = 0 ↔ diff = 0 ∧ left = right := by
  induction left generalizing right diff with
  | nil => grind
  | cons byte left ih =>
    obtain _ | ⟨other, right⟩ := right
    · cases same
    · simp [ih (Nat.succ.inj same), UInt8.or_eq_zero_iff, and_assoc]

theorem constantTimeEqual_iff (left right : String) : constantTimeEqual left right = true ↔ left = right := by
  unfold constantTimeEqual
  split
  next differ => grind
  next same => simpa [foldl_diff_eq_zero (not_not.1 same)] using ⟨Compat.utf8_injective, congrArg _⟩

/-- The request comes from this host or may come from another, and presents the password
of the environment or the configured secret, which may be a hash. -/
def KeyRequest.Entitled (bcryptVerify : String → String → Bool) (request : KeyRequest) : Prop :=
  (request.peer.isLocalhost || request.allowRemote) ∧ request.provided ≠ "" ∧
    (request.provided = request.envSecret ∨
      if Text.startsWith "$2" request.secret then bcryptVerify request.provided request.secret = true
      else request.provided = request.secret)

namespace GateState
variable {bcryptVerify : String → String → Bool} {state next : GateState}

/-- What a check of an address at the next clock leaves of the addresses. -/
abbrev checked (state next : GateState) (peer : IpAddr) : IpAddr → Option IpRecord :=
  (state.attempts.preflight peer true next.clock).1.ips

abbrev Free (state next : GateState) (peer : IpAddr) : Prop :=
  ∀ record, checked state next peer peer = some record → record.ban = none

/-- What one step does to the gate and the answers. The comparison of a key touches
neither. -/
inductive Touch (state next : GateState) : Prop where
  | compared (ips : next.attempts.ips = state.attempts.ips) (clock : next.clock = state.clock)
      (answers : next.answers = state.answers)
  | entered (peer : IpAddr) (later : state.clock ≤ next.clock)
      (ips : next.attempts.ips = checked state next peer) (answers : next.answers = state.answers)
  | refused (peer : IpAddr) (status : StatusCode) (later : state.clock ≤ next.clock)
      (ips : next.attempts.ips = checked state next peer)
      (free : status ≠ .forbidden → Free state next peer)
      (answers : next.answers = state.answers ++ [⟨peer, next.clock, .refused status⟩])
  | settled (peer : IpAddr) (record : Option IpRecord) (outcome : Outcome)
      (later : state.clock ≤ next.clock)
      (ips : ∀ other, next.attempts.ips other =
        if other = peer then record else checked state next peer other)
      (free : Free state next peer)
      (answers : next.answers = state.answers ++ [⟨peer, next.clock, outcome⟩])
      (effect : outcome = .granted ∨ outcome = .failed (failureNumber state.attempts peer next.clock) ∧
        record = some (recordFailure (checked state next peer peer) next.clock))

theorem touch_onBegin {id : Nat} {request : KeyRequest} {now : Nat}
    (began : state.onBegin id request now = some next) : Touch state next := by
  unfold onBegin at began
  split at began
  · cases began
  split at began
  · cases began
  next early =>
  split at began
  · cases began
  dsimp only at began
  have later : state.clock ≤ now := Nat.le_of_not_lt early
  unfold beginVerification at began
  obtain ⟨denial, status, checked⟩ | ⟨checked, free⟩ := preflight_cases state.attempts request.peer request.allowRemote now
  · rw [checked] at began
    cases began
    exact .refused request.peer denial.status later rfl (fun other => absurd status other) rfl
  · rw [checked] at began
    dsimp only at began
    by_cases busy : (state.attempts.preflight request.peer true now).1.verifiers = 0
    · rw [if_pos busy] at began
      cases began
      exact .refused request.peer .serviceUnavailable later rfl (fun _ => free) rfl
    · rw [if_neg busy] at began
      cases began
      exact .entered request.peer later rfl rfl

theorem touch_onVerify {id : Nat} (verified : state.onVerify bcryptVerify id = some next) : Touch state next := by
  unfold onVerify at verified
  split at verified
  next request _ =>
    cases verified
    refine .compared ?_ rfl rfl
    split <;> rfl
  next => cases verified

theorem touch_onFinish {id : Nat} {now : Nat} (finished : state.onFinish id now = some next) : Touch state next := by
  unfold onFinish at finished
  split at finished
  next request valid _ =>
    split at finished
    · cases finished
    next early =>
    have later : state.clock ≤ now := Nat.le_of_not_lt early
    have kept : ∀ attempts : ManagementAttempts,
        (if request.resp = true then attempts.release else attempts).ips = attempts.ips := by
      intro attempts
      split <;> rfl
    have ips : next.attempts.ips = (state.attempts.authenticate request.peer request.allowRemote valid
        request.missing now).1.ips := by
      cases finished
      exact kept _
    have clock : next.clock = now := by
      cases finished
      rfl
    have answers : next.answers = state.answers ++ [⟨request.peer, now, outcomeOf state.attempts
        request.peer now (state.attempts.authenticate request.peer request.allowRemote valid
          request.missing now).2⟩] := by
      cases finished
      rfl
    subst clock
    unfold authenticate at ips answers
    obtain ⟨denial, status, checked⟩ | ⟨checked, free⟩ :=
      preflight_cases state.attempts request.peer request.allowRemote next.clock
    · rw [checked] at ips answers
      refine .refused request.peer denial.status later ips (fun other => absurd status other) (answers.trans ?_)
      dsimp only
      rw [outcomeOf, if_neg (by rw [status]; decide)]
    · rw [checked] at ips answers
      cases valid with
      | true => exact .settled _ _ _ later (congrFun ips) free answers (.inl rfl)
      | false => exact .settled _ _ _ later (congrFun ips) free answers (.inr ⟨rfl, rfl⟩)
  next => cases finished

theorem touch_step {event : Event} (stepped : step bcryptVerify state event = some next) : Touch state next := by
  cases event with
  | enter id request now => exact touch_onBegin stepped
  | verify id => exact touch_onVerify stepped
  | finish id now => exact touch_onFinish stepped

theorem Touch.later (touch : Touch state next) : state.clock ≤ next.clock := by
  cases touch with
  | compared ips clock answers => exact le_of_eq clock.symm
  | entered _ later | refused _ _ later | settled _ _ _ later => exact later

section Bans
variable {peer : IpAddr}

def BannedUntil (state : GateState) (peer : IpAddr) (ends : Nat) : Prop :=
  ∃ failures activity, state.attempts.ips peer = some ⟨failures, some ends, activity⟩

/-- While a ban lasts it stays, and every answer to the address is a refusal. -/
theorem BannedUntil.step {ends : Nat} (banned : BannedUntil state peer ends)
    (touch : Touch state next) (early : next.clock < ends) :
    BannedUntil next peer ends ∧ ∃ new, next.answers = state.answers ++ new ∧
      ∀ answer ∈ new, answer.peer = peer → answer.outcome = .refused .forbidden := by
  obtain ⟨failures, activity, held⟩ := banned
  have stays : ∀ other, checked state next other peer = some ⟨failures, some ends, activity⟩ :=
    preflight_kept held (by simp [retains, early])
      (by simpa using early)
  -- an address that is let through is another one
  have different : ∀ other, Free state next other → other ≠ peer := by
    rintro other free rfl
    exact Option.some_ne_none _ (free _ (stays other))
  cases touch with
  | compared ips clock answers => exact ⟨⟨failures, activity, ips ▸ held⟩, [], by simp [answers], nofun⟩
  | entered other later ips answers =>
    exact ⟨⟨failures, activity, ips ▸ stays other⟩, [], by simp [answers], nofun⟩
  | refused other status later ips free answers =>
    refine ⟨⟨failures, activity, ips ▸ stays other⟩, _, answers, fun answer member same => ?_⟩
    obtain rfl := mem_singleton.1 member
    by_cases forbidden : status = .forbidden
    · rw [forbidden]
    · exact absurd same (different other (free forbidden))
  | settled other record outcome later ips free answers =>
    refine ⟨⟨failures, activity, ?_⟩, _, answers, fun answer member same => ?_⟩
    · rw [ips, if_neg (different other free).symm, stays other]
    · obtain rfl := mem_singleton.1 member
      exact absurd same (different other free)

end Bans

section Windows
variable {peer : IpAddr}

def isFailure (peer : IpAddr) (answer : Answer) : Bool :=
  answer.peer == peer && match answer.outcome with
    | .failed _ => true
    | _ => false

/-- How the gate stands to an address that failed that often since a time, without a
success between. -/
inductive Counted (state : GateState) (peer : IpAddr) (since : Nat) : Nat → Prop where
  | unseen : Counted state peer since 0
  | elapsed {failures : Nat} (elapsed : since + banDuration ≤ state.clock) :
      Counted state peer since failures
  | banned {failures : Nat} {ends : Nat} (banned : BannedUntil state peer ends)
      (long : since + banDuration ≤ ends) : Counted state peer since failures
  | counting {failures number : Nat} {activity : Nat}
      (held : state.attempts.ips peer = some ⟨number, none, activity⟩)
      (recent : since ≤ activity) (more : failures ≤ number) (few : number < maxFailures) :
      Counted state peer since failures

variable {since failures : Nat}

theorem BannedUntil.preflight {ends now : Nat} (banned : BannedUntil state peer ends)
    (early : now < since + banDuration) (long : since + banDuration ≤ ends) (other : IpAddr) :
    ∃ failures activity, (state.attempts.preflight other true now).1.ips peer =
      some ⟨failures, some ends, activity⟩ := by
  obtain ⟨number, activity, held⟩ := banned
  have lasting := lt_of_lt_of_le early long
  exact ⟨number, activity, preflight_kept held (by simp [retains, lasting]) (by simpa using lasting) other⟩

theorem preflight_recent {number activity now : Nat}
    (held : state.attempts.ips peer = some ⟨number, none, activity⟩) (recent : since ≤ activity)
    (early : now < since + banDuration) (other : IpAddr) :
    (state.attempts.preflight other true now).1.ips peer = some ⟨number, none, activity⟩ := by
  have short : banDuration ≤ idleLimit := by decide
  have idle : now - activity ≤ idleLimit := by omega
  exact preflight_kept held (by simp [retains, idle]) nofun other

/-- A check at the gate, of whichever address, does not lose count. -/
theorem Counted.checked (counted : Counted state peer since failures)
    (later : state.clock ≤ next.clock) {other : IpAddr}
    (ips : next.attempts.ips peer = checked state next other peer) : Counted next peer since failures := by
  by_cases past : since + banDuration ≤ next.clock
  · exact .elapsed past
  have early : next.clock < since + banDuration := Nat.lt_of_not_le past
  cases counted with
  | unseen => exact .unseen
  | elapsed elapsed => exact .elapsed (le_trans elapsed later)
  | banned banned long =>
    obtain ⟨number, activity, stays⟩ := banned.preflight early long other
    exact .banned ⟨number, activity, ips.trans stays⟩ long
  | counting held recent more few =>
    exact .counting (ips.trans (preflight_recent held recent early other)) recent more few

theorem counted_recordFailure {record : Option IpRecord} (free : ∀ held, record = some held → held.ban = none)
    (start : since ≤ next.clock) (more : failures ≤ (record.map IpRecord.failures).getD 0)
    (ips : next.attempts.ips peer = some (recordFailure record next.clock)) :
    Counted next peer since (failures + 1) := by
  have number : (record.getD ⟨0, none, next.clock⟩).failures = (record.map IpRecord.failures).getD 0 := by
    cases record <;> rfl
  have unbanned : (record.getD ⟨0, none, next.clock⟩).ban = none := by
    cases record with
    | none => rfl
    | some held => exact free held rfl
  unfold recordFailure at ips
  dsimp only at ips
  rw [number, unbanned] at ips
  split at ips
  · exact .banned ⟨_, _, ips⟩ (Nat.add_le_add_right start _)
  next few => exact .counting ips start (Nat.succ_le_succ more) (Nat.lt_of_not_le few)

/-- A failure of the address within the period, and the number it is recorded under. -/
theorem Counted.failed (counted : Counted state peer since failures) (few : failures ≤ maxFailures)
    (later : state.clock ≤ next.clock) (start : since ≤ next.clock) (early : next.clock < since + banDuration)
    (free : Free state next peer)
    (ips : next.attempts.ips peer = some (recordFailure (state.checked next peer peer) next.clock)) :
    Counted next peer since (failures + 1) ∧ failures + 1 ≤ maxFailures ∧
      (failures + 1 = maxFailures → failureNumber state.attempts peer next.clock = maxFailures) := by
  cases counted with
  | unseen =>
    refine ⟨counted_recordFailure free start (zero_le _) ips, by decide, fun last => ?_⟩
    exact absurd last (by decide)
  | elapsed elapsed => omega
  | banned banned long =>
    obtain ⟨number, activity, stays⟩ := banned.preflight early long peer
    cases free _ stays
  | @counting _ number activity held recent more fewer =>
    have stays := preflight_recent held recent early peer
    refine ⟨counted_recordFailure free start ?_ ips, by omega, fun last => ?_⟩
    · rw [GateState.checked, stays]
      exact more
    · rw [failureNumber, stays]
      change number + 1 = maxFailures
      omega

theorem counts_unfailed {answer : Answer} (unfailed : isFailure peer answer = false)
    (counted : Counted next peer since failures) (few : failures ≤ maxFailures) :
    Counted next peer since (failures + [answer].countP (isFailure peer)) ∧
      failures + [answer].countP (isFailure peer) ≤ maxFailures ∧
      (failures + 1 = maxFailures → ∀ other ∈ [answer], isFailure peer other = true →
        other.outcome = .failed maxFailures) := by
  rw [countP_singleton, unfailed]
  refine ⟨counted, few, fun _ other member failed => ?_⟩
  rw [mem_singleton.1 member, unfailed] at failed
  cases failed

/-- One step: failures are counted, within the period there are few, and the last is
recorded as such. -/
theorem Touch.counts (touch : Touch state next) (counted : Counted state peer since failures)
    (few : failures ≤ maxFailures) {new : List Answer} (answered : next.answers = state.answers ++ new)
    (window : ∀ answer ∈ new, answer.peer = peer →
      answer.outcome ≠ .granted ∧ since ≤ answer.time ∧ answer.time < since + banDuration) :
    Counted next peer since (failures + new.countP (isFailure peer)) ∧
      failures + new.countP (isFailure peer) ≤ maxFailures ∧
      (failures + 1 = maxFailures → ∀ answer ∈ new, isFailure peer answer = true →
        answer.outcome = .failed maxFailures) := by
  cases touch with
  | compared ips clock answers =>
    obtain rfl : new = [] := append_right_eq_self.1 (answered.symm.trans answers)
    refine ⟨?_, few, nofun⟩
    cases counted with
    | unseen => exact .unseen
    | elapsed elapsed => exact .elapsed (clock ▸ elapsed)
    | banned banned long => exact .banned (by rwa [BannedUntil, ips]) long
    | counting held recent more fewer => exact .counting (ips ▸ held) recent more fewer
  | entered other later ips answers =>
    obtain rfl : new = [] := append_right_eq_self.1 (answered.symm.trans answers)
    exact ⟨counted.checked later (congrFun ips peer), few, nofun⟩
  | refused other status later ips free answers =>
    obtain rfl := append_cancel_left (answered.symm.trans answers)
    exact counts_unfailed (by simp [isFailure]) (counted.checked later (congrFun ips peer)) few
  | settled other record outcome later ips free answers effect =>
    obtain rfl := append_cancel_left (answered.symm.trans answers)
    by_cases same : other = peer
    · subst same
      obtain ⟨ungranted, start, early⟩ := window _ mem_cons_self rfl
      obtain rfl | ⟨rfl, rfl⟩ := effect
      · exact absurd rfl ungranted
      have counts : isFailure other ⟨other, next.clock,
          .failed (failureNumber state.attempts other next.clock)⟩ = true := by simp [isFailure]
      obtain ⟨more, fewer, last⟩ := counted.failed few later start early free ((ips other).trans (if_pos rfl))
      rw [countP_singleton, counts]
      refine ⟨more, fewer, fun full answer member _ => ?_⟩
      obtain rfl := mem_singleton.1 member
      rw [last full]
    · exact counts_unfailed (by simp [isFailure, same]) (counted.checked later ((ips peer).trans (if_neg (Ne.symm same)))) few

end Windows

section Runs

/-- The answers to an address within one ban period, none of them a success. -/
def Period (peer : IpAddr) (since : Nat) (segment : List Answer) : Prop :=
  ∀ answer ∈ segment, answer.peer = peer →
    answer.outcome ≠ .granted ∧ since ≤ answer.time ∧ answer.time < since + banDuration

/-- What is said of a stretch of answers: few are failures, and the last of the few is
recorded as such. -/
structure Bounded (peer : IpAddr) (segment : List Answer) : Prop where
  few : segment.countP (isFailure peer) ≤ maxFailures
  fifth : ∀ before last, segment = before ++ [last] → isFailure peer last = true →
    before.countP (isFailure peer) + 1 = maxFailures → last.outcome = .failed maxFailures

/-- What every run keeps: the stretches of its answers, the count behind the last of
them, and the bans its answers brought. -/
structure Kept (state : GateState) : Prop where
  bounded : ∀ peer since before segment after, state.answers = before ++ segment ++ after →
    Period peer since segment → Bounded peer segment
  counted : ∀ peer since before segment, state.answers = before ++ segment →
    Period peer since segment → Counted state peer since (segment.countP (isFailure peer))
  banned : ∀ answer ∈ state.answers, answer.outcome = .failed maxFailures →
    answer.time + banDuration ≤ state.clock ∨
      BannedUntil state answer.peer (answer.time + banDuration)
  refused : ∀ before fifth after, state.answers = before ++ fifth :: after →
    fifth.outcome = .failed maxFailures → ∀ answer ∈ after, answer.peer = fifth.peer →
      answer.time < fifth.time + banDuration → answer.outcome = .refused .forbidden

/-- A step adds at most one answer, given at the time of the clock. -/
theorem Touch.answers (touch : Touch state next) : next.answers = state.answers ∨
      ∃ answer, next.answers = state.answers ++ [answer] ∧ answer.time = next.clock := by
  cases touch with
  | compared _ _ answers | entered _ _ _ answers => exact .inl answers
  | refused _ _ _ _ _ answers | settled _ _ _ _ _ _ answers => exact .inr ⟨_, answers, rfl⟩

variable {answer : Answer}

/-- The failure that is recorded as the last of the few brings the ban. -/
theorem Touch.bans (touch : Touch state next) (answered : next.answers = state.answers ++ [answer])
    (fifth : answer.outcome = .failed maxFailures) : BannedUntil next answer.peer (answer.time + banDuration) := by
  cases touch with
  | compared _ _ answers | entered _ _ _ answers => exact absurd (answered.symm.trans answers) (by simp)
  | refused peer status later ips free answers =>
    obtain rfl := singleton_injective (append_cancel_left (answered.symm.trans answers))
    cases fifth
  | settled peer record outcome later ips free answers effect =>
    obtain rfl := singleton_injective (append_cancel_left (answered.symm.trans answers))
    obtain rfl | ⟨rfl, rfl⟩ := effect
    · cases fifth
    have number : failureNumber state.attempts peer next.clock = maxFailures := by
      simpa using fifth
    have full : maxFailures ≤
        ((checked state next peer peer).getD ⟨0, none, next.clock⟩).failures + 1 := by
      rw [← number, failureNumber, checked]
      cases (state.attempts.preflight peer true next.clock).1.ips peer <;> exact le_refl _
    refine ⟨0, next.clock, (ips peer).trans ((if_pos rfl).trans ?_)⟩
    unfold recordFailure
    rw [if_pos full]

theorem Kept.bannedNext (kept : Kept state) (touch : Touch state next)
    (member : answer ∈ state.answers) (fifth : answer.outcome = .failed maxFailures) :
    answer.time + banDuration ≤ next.clock ∨ BannedUntil next answer.peer (answer.time + banDuration) := by
  obtain elapsed | banned := kept.banned answer member fifth
  · exact .inl (le_trans elapsed touch.later)
  · by_cases early : next.clock < answer.time + banDuration
    · exact .inr (banned.step touch early).1
    · exact .inl (Nat.le_of_not_lt early)

theorem Kept.new : Kept .new where
  bounded := by
    intro peer since before segment after given _
    obtain ⟨rfl, rfl, rfl⟩ : before = [] ∧ segment = [] ∧ after = [] := by
      simpa [GateState.new] using given
    exact ⟨zero_le _, fun before last split => by simp at split⟩
  counted := by
    intro peer since before segment given _
    obtain ⟨rfl, rfl⟩ : before = [] ∧ segment = [] := by simpa [GateState.new] using given
    exact .unseen
  banned := nofun
  refused := by
    intro before fifth after given
    simp [GateState.new] at given

theorem Kept.extend (kept : Kept state) (touch : Touch state next)
    (answered : next.answers = state.answers ++ [answer]) {peer : IpAddr} {since : Nat}
    {before segment : List Answer} (given : state.answers = before ++ segment)
    (period : Period peer since (segment ++ [answer])) : Bounded peer (segment ++ [answer]) ∧
      Counted next peer since ((segment ++ [answer]).countP (isFailure peer)) := by
  have earlier : Period peer since segment := fun other member =>
    period other (mem_append_left _ member)
  have few := (kept.bounded peer since before segment [] (by simp [given]) earlier).few
  obtain ⟨counted, fewer, fifth⟩ := touch.counts (kept.counted peer since before segment given earlier)
    few answered (fun other member => period other (mem_append_right _ member))
  rw [countP_append]
  refine ⟨⟨by rwa [countP_append], fun first last split failed full => ?_⟩, counted⟩
  obtain ⟨rfl, rfl⟩ := append_singleton_inj.1 split
  exact fifth full _ mem_cons_self failed

theorem Kept.step (kept : Kept state) (touch : Touch state next) : Kept next := by
  obtain same | ⟨answer, answered, time⟩ := touch.answers
  · have unanswered : next.answers = state.answers ++ [] := by rw [same, append_nil]
    refine ⟨?_, ?_, ?_, ?_⟩
    · rw [same]
      exact kept.bounded
    · intro peer since before segment given period
      rw [same] at given
      have few := (kept.bounded peer since before segment [] (by simp [given]) period).few
      exact (touch.counts (kept.counted peer since before segment given period) few unanswered nofun).1
    · intro old member fifth
      rw [same] at member
      exact kept.bannedNext touch member fifth
    · rw [same]
      exact kept.refused
  · refine ⟨?_, ?_, ?_, ?_⟩
    · intro peer since before segment after given period
      rw [answered] at given
      obtain rfl | ⟨after, last, rfl⟩ := after.eq_nil_or_concat'
      · obtain rfl | ⟨segment, last, rfl⟩ := segment.eq_nil_or_concat'
        · exact ⟨zero_le _, fun before last split => by simp at split⟩
        · rw [append_nil, ← append_assoc] at given
          obtain ⟨earlier, rfl⟩ := append_singleton_inj.1 given
          exact (kept.extend touch answered earlier period).1
      · rw [← append_assoc] at given
        exact kept.bounded peer since before segment after (append_singleton_inj.1 given).1 period
    · intro peer since before segment given period
      rw [answered] at given
      obtain rfl | ⟨segment, last, rfl⟩ := segment.eq_nil_or_concat'
      · exact .unseen
      · rw [← append_assoc] at given
        obtain ⟨earlier, rfl⟩ := append_singleton_inj.1 given
        exact (kept.extend touch answered earlier period).2
    · intro old member fifth
      rw [answered] at member
      obtain member | member := mem_append.1 member
      · exact kept.bannedNext touch member fifth
      · obtain rfl := mem_singleton.1 member
        exact .inr (touch.bans answered fifth)
    · intro before fifth after given full
      rw [answered] at given
      obtain rfl | ⟨after, last, rfl⟩ := after.eq_nil_or_concat'
      · nofun
      · rw [← cons_append, ← append_assoc] at given
        obtain ⟨earlier, rfl⟩ := append_singleton_inj.1 given
        intro other member peer early
        obtain member | member := mem_append.1 member
        · exact kept.refused before fifth after earlier full other member peer early
        · obtain rfl := mem_singleton.1 member
          rw [time] at early
          have found : fifth ∈ state.answers := by simp [earlier]
          obtain elapsed | banned := kept.banned fifth found full
          · exact absurd (lt_of_le_of_lt (le_trans elapsed touch.later) early) (lt_irrefl _)
          · obtain ⟨-, new, added, refusals⟩ := banned.step touch early
            obtain rfl := append_cancel_left (added.symm.trans answered)
            exact refusals _ mem_cons_self peer

end Runs

theorem entitled_of_granted {attempts : ManagementAttempts} {request : KeyRequest} {now : Nat}
    (granted : outcomeOf attempts request.peer now (attempts.authenticate request.peer
      request.allowRemote (request.valid bcryptVerify) request.missing now).2 = .granted) :
    request.Entitled bcryptVerify := by
  have checked : request.valid bcryptVerify = true ∧ (request.peer.isLocalhost || request.allowRemote) = true := by
    simp only [authenticate, preflight] at granted
    grind [outcomeOf]
  obtain ⟨valid, located⟩ := checked
  unfold KeyRequest.valid KeyRequest.missing at valid
  exact ⟨located, by grind [constantTimeEqual_iff, String.isEmpty_iff]⟩

def Event.id : Event → Nat
  | .enter id .. | .verify id | .finish id _ => id

/-- The attempt has entered under its number and is not answered yet. -/
def Pending (history : List Event) (id : Nat) (request : KeyRequest) : Prop :=
  ∃ early began late, history = early ++ .enter id request began :: late ∧
    ∀ event ∈ late, event.id = id → event = .verify id

theorem Pending.concat {history : List Event} {event : Event} {id : Nat} {request : KeyRequest}
    (pending : Pending history id request) (compares : event.id = id → event = .verify id) :
    Pending (history ++ [event]) id request := by
  obtain ⟨early, began, late, rfl, unanswered⟩ := pending
  exact ⟨early, began, late ++ [event], by simp, forall_mem_append.2 ⟨unanswered, forall_mem_singleton.2 compares⟩⟩

/-- Behind the answers before it, this one was given to an attempt with an entitled
request of the address. -/
def Entitles (bcryptVerify : String → String → Bool) (history : List Event) (before : List Answer)
    (answer : Answer) : Prop :=
  ∃ front id rest reached request, history = front ++ .finish id answer.time :: rest ∧
    schedule (step bcryptVerify) new front = some reached ∧ reached.answers = before ∧
    Pending front id request ∧ request.peer = answer.peer ∧ request.Entitled bcryptVerify

abbrev EntitlesAll (bcryptVerify : String → String → Bool) (history : List Event) (answers : List Answer) : Prop :=
  ∀ before answer after, answers = before ++ answer :: after → answer.outcome = .granted →
    Entitles bcryptVerify history before answer

section
variable {history : List Event} {answers : List Answer} {answer : Answer} {event : Event}

theorem EntitlesAll.later (entitles : EntitlesAll bcryptVerify history answers) :
    EntitlesAll bcryptVerify (history ++ [event]) answers := by
  intro before answer after given granted
  obtain ⟨front, id, rest, reached, request, rfl, found⟩ := entitles before answer after given granted
  exact ⟨front, id, rest ++ [event], reached, request, by simp, found⟩

theorem EntitlesAll.concat (entitles : EntitlesAll bcryptVerify history answers)
    (entitled : answer.outcome = .granted → Entitles bcryptVerify history answers answer) :
    EntitlesAll bcryptVerify history (answers ++ [answer]) := by
  intro before other after given granted
  obtain rfl | ⟨after, last, rfl⟩ := after.eq_nil_or_concat'
  · obtain ⟨rfl, rfl⟩ := append_singleton_inj.1 given
    exact entitled granted
  · rw [← cons_append, ← append_assoc] at given
    exact entitles before other after (append_singleton_inj.1 given).1 granted

theorem flights_setFlight {id other : Nat} {flight : Flight} {new : Option Flight}
    (under : (state.setFlight id new).flights other = some flight) :
    other = id ∧ new = some flight ∨ other ≠ id ∧ state.flights other = some flight := by
  simp only [setFlight] at under
  split at under
  next same => exact .inl ⟨same, under⟩
  next different => exact .inr ⟨different, under⟩

/-- Attempts under way have entered, and a verdict is that on their request. -/
structure Traced (bcryptVerify : String → String → Bool) (history : List Event) (state : GateState) : Prop where
  flights : ∀ id flight, state.flights id = some flight → Pending history id flight.request ∧
    (flight.verdict = none ∨ flight.verdict = some (flight.request.valid bcryptVerify))
  granted : EntitlesAll bcryptVerify history state.answers

theorem Traced.step (ran : schedule (step bcryptVerify) new history = some state)
    (traced : Traced bcryptVerify history state) (stepped : step bcryptVerify state event = some next) :
    Traced bcryptVerify (history ++ [event]) next := by
  have others : ∀ id flight, id ≠ event.id → state.flights id = some flight → _ :=
    fun id flight different under => (traced.flights id flight under).imp_left
      (·.concat fun same => absurd same.symm different)
  have entitles := @EntitlesAll.later _ _ _ event traced.granted
  cases event with
  | enter id request now =>
    simp only [GateState.step, onBegin] at stepped
    split at stepped
    · cases stepped
    next unused =>
    repeat' split at stepped
    all_goals cases stepped
    · refine ⟨fun other flight under => ?_, entitles⟩
      obtain ⟨rfl, entered⟩ | ⟨different, under⟩ := flights_setFlight under
      · cases entered
        exact ⟨⟨history, now, [], rfl, nofun⟩, .inl rfl⟩
      · exact others other flight different under
    · refine ⟨fun other flight under => ?_, entitles.concat nofun⟩
      have under : state.flights other = some flight := under
      refine others other flight (fun same => unused ?_) under
      rw [← show other = id from same, under]
      rfl
  | verify id =>
    simp only [GateState.step, onVerify] at stepped
    split at stepped
    next request under =>
      cases stepped
      refine ⟨fun other flight found => ?_, entitles⟩
      obtain ⟨rfl, compared⟩ | ⟨different, found⟩ := flights_setFlight found
      · cases compared
        exact ⟨(traced.flights other _ under).1.concat fun _ => rfl, .inr rfl⟩
      · exact others other flight different found
    next => cases stepped
  | finish id now =>
    simp only [GateState.step, onFinish] at stepped
    split at stepped
    next request valid under =>
      split at stepped
      · cases stepped
      cases stepped
      obtain ⟨pending, compared⟩ := traced.flights id _ under
      obtain rfl : valid = request.valid bcryptVerify := by simpa using compared
      refine ⟨fun other flight found => ?_, entitles.concat fun granted => ?_⟩
      · obtain ⟨-, ended⟩ | ⟨different, found⟩ := flights_setFlight found
        · cases ended
        · exact others other flight different found
      · exact ⟨history, id, [], state, request, rfl, ran, rfl, pending, rfl, entitled_of_granted granted⟩
    next => cases stepped

end

/-- Whatever the interleaving, access is granted only to an attempt whose own request is
entitled. -/
theorem granted_to_entitled {events : List Event} {last : GateState} {before after : List Answer} {answer : Answer}
    (ran : schedule (step bcryptVerify) new events = some last) (given : last.answers = before ++ answer :: after)
    (granted : answer.outcome = .granted) : Entitles bcryptVerify events before answer := by
  refine (schedule_invariant_within (Traced bcryptVerify) ?_ ?_ ran).granted before answer after given granted
  · exact ⟨nofun, fun before answer after given => by simp [new] at given⟩
  · exact fun _ _ _ _ _ ran traced stepped => traced.step ran stepped

end GateState

open GateState in
/-- Within one ban period and without a success between, an address is answered 401 at
most five times; the fifth brings the ban, and until that is over every attempt is
answered 403, whenever it began. -/
theorem brute_force_bounded {bcryptVerify : String → String → Bool} {events : List GateState.Event}
    {last : GateState} (ran : schedule (GateState.step bcryptVerify) .new events = some last) (peer : IpAddr) :
    (∀ since before segment after, last.answers = before ++ segment ++ after →
        Period peer since segment → Bounded peer segment) ∧
      ∀ before fifth after, last.answers = before ++ fifth :: after → fifth.peer = peer →
        fifth.outcome = .failed maxFailures → ∀ answer ∈ after, answer.peer = peer →
          answer.time < fifth.time + banDuration → answer.outcome = .refused .forbidden := by
  have kept : Kept last := schedule_invariant (fun _ state => Kept state) Kept.new
    (fun _ _ _ _ kept stepped => kept.step (touch_step stepped)) ran
  constructor
  · intro since before segment after given period
    exact kept.bounded peer since before segment after given period
  · rintro before fifth after given rfl full
    exact kept.refused before fifth after given full

namespace GateSample

def loopback : IpAddr := .v4 0x7f000001

def guess (provided : String) : KeyRequest where
  peer := loopback
  secret := "right"
  envSecret := ""
  remoteAllowed := false
  provided := provided
  resp := false

def noHash (_ _ : String) : Bool := false

def assault : List GateState.Event :=
  [.enter 0 (guess "right") 0, .enter 1 (guess "a") 1, .enter 2 (guess "b") 1, .enter 3 (guess "c") 1,
    .enter 4 (guess "d") 1, .enter 5 (guess "e") 2, .verify 0, .verify 1, .verify 2, .verify 3,
    .verify 4, .verify 5, .finish 1 3, .finish 2 3, .finish 3 4, .finish 4 4, .finish 5 5,
    .finish 0 6, .enter 6 (guess "right") 7]

def answers : List Answer :=
  [⟨loopback, 3, .failed 1⟩, ⟨loopback, 3, .failed 2⟩, ⟨loopback, 4, .failed 3⟩,
    ⟨loopback, 4, .failed 4⟩, ⟨loopback, 5, .failed 5⟩, ⟨loopback, 6, .refused .forbidden⟩,
    ⟨loopback, 7, .refused .forbidden⟩]

theorem assault_answers : (schedule (GateState.step noHash) .new assault).map GateState.answers = some answers := by
  decide +kernel

/-- The right key, too, is refused, before and behind its comparison. -/
theorem assault_bounded : ∃ last, schedule (GateState.step noHash) .new assault = some last ∧
      (answers.countP (GateState.isFailure loopback) ≤ maxFailures) ∧
      ∀ answer ∈ answers.drop 5, answer.outcome = .refused .forbidden := by
  obtain ⟨last, ran, given⟩ := Option.map_eq_some_iff.1 assault_answers
  obtain ⟨few, refused⟩ := brute_force_bounded ran loopback
  refine ⟨last, ran, (few 0 [] answers [] (by rw [given]; rfl) ?_).few, ?_⟩
  · unfold GateState.Period
    decide
  · have split : last.answers = answers.take 4 ++ ⟨loopback, 5, .failed 5⟩ :: answers.drop 5 := given
    intro answer member
    refine refused _ _ _ split rfl rfl answer member ?_ ?_
    · revert answer
      decide
    · revert answer
      decide

/-- Two attempts beside each other, the right key before the wrong one. -/
def visit : List GateState.Event :=
  [.enter 0 (guess "right") 0, .enter 1 (guess "a") 0, .verify 1, .finish 1 1, .verify 0, .finish 0 2]

theorem right_key_entitled : GateState.Entitles noHash visit [⟨loopback, 1, .failed 1⟩] ⟨loopback, 2, .granted⟩ :=
  @GateState.granted_to_entitled _ _ _ _ [] _ (Option.some_get (by decide +kernel)).symm
    (by decide +kernel) rfl

end GateSample
end Mahoquot.Management
