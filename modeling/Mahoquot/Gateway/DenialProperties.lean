import Mahoquot.Gateway.FailoverProperties

/-! Which Claude denials end a walk: those of the first exchange and of a starting stream
are classified on the spot, the answer to a replay is not. -/

set_option autoImplicit false

namespace Mahoquot.Gateway
variable {response : Response}

open List

inductive Answer where
  | http (response : Response)
  | stream (error : StreamError)

/-- The classifier maps the answer to a denial of the account. -/
def Answer.denies (plan : RelayPlan) : Answer → Bool
  | .http response => decide (denialOf plan response.status (extractFailure response) ≠ .other)
  | .stream error => decide (classify error.status error.description ≠ .other)

def streamed (encounter : Encounter) (exchanges : List (Except SendError Response)) : Option StreamError :=
  match exchanges.getLast?, encounter.finish with
  | some (.ok response), .error reason => if response.isSuccess then some (streamError reason) else none
  | _, _ => none

def answers (encounter : Encounter) (exchanges : List (Except SendError Response)) : List Answer :=
  (exchanges.filterMap fun exchange => exchange.toOption.map .http) ++
    (streamed encounter exchanges).toList.map .stream

/-- A Claude account gave an answer that denies it. -/
def Dispatch.denied (plan : RelayPlan) (dispatch : Dispatch) : Bool :=
  isClaudeMember dispatch.member &&
    (answers dispatch.encounter dispatch.result.exchanges).any (Answer.denies plan)

/-- The denials the loop does not classify stay out: those of a replay, and
enforcement texts under a stream code that maps to 400. -/
structure Encounter.Contained (plan : RelayPlan) (encounter : Encounter) : Prop where
  replay : ∀ response, encounter.Replays response →
    response.status = 401 ∨ response.status = 403 →
    denialOf plan response.status (extractFailure response) = .other
  finish : ∀ reason, encounter.finish = .error reason → (streamError reason).status = 400 →
    isEnforcementText (streamError reason).description = false

variable {plan : RelayPlan} {member : AccountMember} {encounter : Encounter}

theorem classify_ne_other {status : Nat} {message : String} (denial : classify status message ≠ .other) :
    status = 403 ∨ (status = 400 ∨ status = 401) ∧ isEnforcementText message = true := by
  simp only [classify] at denial
  split at denial
  next enforced =>
    simp only [Bool.and_eq_true, Bool.or_eq_true, beq_iff_eq] at enforced
    obtain ⟨refused | forbidden, text⟩ := enforced
    · exact .inr ⟨refused, text⟩
    · exact .inl forbidden
  · split at denial
    next forbidden => exact .inl forbidden
    · exact absurd rfl denial

theorem denialOf_ne_other {status : Nat} {failure : FinalFailure}
    (denial : denialOf plan status failure ≠ .other) : classify status failure.body.text ≠ .other ∧
      (if isAccountScopedModelRejection status failure.body then plan.model else none) = none := by
  simp only [denialOf] at denial
  split at denial
  · exact absurd rfl denial
  next unscoped =>
    refine ⟨denial, ?_⟩
    cases model : plan.model with
    | none => simp
    | some name => simpa [model] using unscoped

theorem streamError_code (reason : String) :
    ((streamError reason).status = 403 → (streamError reason).code = .permissionDenied) ∧
      ((streamError reason).status = 401 → (streamError reason).code = .unauthenticated) := by
  simp only [streamError]
  split
  · simp
  · split
    · simp
    next code _ => cases code <;> simp [connectCodeToHttpStatus]

theorem settle_stream_denied {reason : String}
    (claude : isClaudeMember member = true) (contained : encounter.Contained plan)
    (success : response.isSuccess = true) (finish : encounter.finish = .error reason)
    (denies : (Answer.stream (streamError reason)).denies plan = true) :
    ∃ reply, (settle plan member response encounter).2.2 = .reply reply := by
  simp only [Answer.denies, decide_eq_true_eq] at denies
  obtain ⟨forbidden, unauthenticated⟩ := streamError_code reason
  have classified : streamDenial member (streamError reason) = true := by
    rcases classify_ne_other denies with denied | ⟨bad | dead, enforced⟩
    · simpa [streamDenial, claude, forbidden denied, denied] using denies
    · simp [contained.finish reason finish bad] at enforced
    · simpa [streamDenial, claude, unauthenticated dead, dead] using denies
  simp only [settle, success, finish, settleStreamError, classified]
  exact ⟨_, rfl⟩

theorem settle_refused_denied (bad : response.status = 400)
    (denies : (Answer.http response).denies plan = true) :
    ∃ reply, (settle plan member response encounter).2.2 = .reply reply := by
  simp only [Answer.denies, decide_eq_true_eq] at denies
  obtain ⟨_, unscoped⟩ := denialOf_ne_other denies
  rw [bad] at unscoped
  simp only [settle, Response.isSuccess, settleFailure, settleRefusal, bad]
  simp [unscoped]

theorem replay_refused (contained : encounter.Contained plan) (met : encounter.Replays response)
    (denies : (Answer.http response).denies plan = true) : response.status = 400 := by
  simp only [Answer.denies, decide_eq_true_eq] at denies
  rcases classify_ne_other (denialOf_ne_other denies).1 with forbidden | ⟨bad | dead, _⟩
  · exact absurd (contained.replay response met (.inr forbidden)) denies
  · exact bad
  · exact absurd (contained.replay response met (.inl dead)) denies

theorem mem_answers {exchanges : List (Except SendError Response)} {answer : Answer}
    (given : answer ∈ answers encounter exchanges) : (∃ response, .ok response ∈ exchanges ∧ answer = .http response) ∨
      ∃ response reason, exchanges.getLast? = some (.ok response) ∧ response.isSuccess = true ∧
        encounter.finish = .error reason ∧ answer = .stream (streamError reason) := by
  simp only [answers, mem_append, mem_filterMap, mem_map, Option.mem_toList] at given
  rcases given with ⟨exchange, sent, read⟩ | ⟨error, opened, rfl⟩
  · cases exchange with
    | error error => cases read
    | ok response => exact .inl ⟨response, sent, by simpa [Except.toOption] using read.symm⟩
  · simp only [streamed] at opened
    split at opened
    next response reason last finish =>
      split at opened
      next success =>
        cases opened
        exact .inr ⟨response, reason, last, success, finish, rfl⟩
      · cases opened
    · cases opened

/-- After a harmless first answer only a later one, or the stream, can deny. -/
theorem mem_answers_of_harmless {first : Response} {later : List (Except SendError Response)}
    {answer : Answer} (harmless : (Answer.http first).denies plan = false)
    (given : answer ∈ answers encounter (.ok first :: later)) (denies : answer.denies plan = true) :
    (∃ response, .ok response ∈ later ∧ answer = .http response) ∨
      ∃ response reason, (Except.ok first :: later).getLast? = some (.ok response) ∧
        response.isSuccess = true ∧ encounter.finish = .error reason ∧ answer = .stream (streamError reason) := by
  rcases mem_answers given with ⟨response, sent, rfl⟩ | opened
  · rcases mem_cons.mp sent with same | sent
    · cases same
      simp [harmless] at denies
    · exact .inl ⟨response, sent, rfl⟩
  · exact .inr opened

theorem Reads.harmless {first read : Response} (claude : isClaudeMember member = true)
    (reads : Reads plan member first read) : (Answer.http first).denies plan = false := by
  cases reads with
  | passed unread =>
    by_contra denial
    simp only [Answer.denies, Bool.not_eq_false, decide_eq_true_eq] at denial
    have accepted := unread claude
    rcases classify_ne_other (denialOf_ne_other denial).1 with same | ⟨same | same, _⟩ <;>
      simp [same] at accepted
  | rebuilt refused harmless => simp [Answer.denies, harmless]

theorem Reads.of_isSuccess {first read : Response} (reads : Reads plan member first read)
    (success : first.isSuccess = true) : read = first := by
  cases reads with
  | passed => rfl
  | rebuilt refused =>
    rcases contains_refused.mp refused with same | same | same <;>
      simp [Response.isSuccess, same] at success

theorem attempt_denied {answer : Answer} (claude : isClaudeMember member = true) (contained : encounter.Contained plan)
    (given : answer ∈ answers encounter (attempt plan member encounter).exchanges)
    (denies : answer.denies plan = true) : ∃ reply, (attempt plan member encounter).verdict = .reply reply := by
  cases attempt_cases plan member encounter with
  | unsent silent => simp [silent, answers, streamed] at given
  | lost error sent => simp [sent, answers, streamed, Except.toOption] at given
  | denied _ _ verdict => exact ⟨_, verdict⟩
  | settled first read met reads once verdict =>
    rw [once] at given
    rw [verdict]
    rcases mem_answers_of_harmless (reads.harmless claude) given denies with ⟨_, sent, _⟩ |
      ⟨answered, reason, last, success, finish, rfl⟩
    · simp at sent
    · obtain rfl : first = answered := by simpa using last
      rw [reads.of_isSuccess success]
      exact settle_stream_denied claude contained success finish denies
  | unreplayed first read later reads unauthenticated sent _ =>
    -- only the first answer was heard, and it is no success
    rw [sent] at given
    rcases mem_answers_of_harmless (reads.harmless claude) given denies with ⟨_, sent, _⟩ |
      ⟨answered, _, last, success, _, _⟩
    · cases later <;> simp at sent
    · obtain rfl : first = answered := by cases later <;> simp at last; exact last
      simp [Response.isSuccess, reads.status unauthenticated] at success
  | replayed first read replay met reads unauthenticated again twice verdict =>
    rw [twice] at given
    rw [verdict]
    rcases mem_answers_of_harmless (reads.harmless claude) given denies with ⟨answered, sent, rfl⟩ |
      ⟨answered, reason, last, success, finish, rfl⟩
    · obtain rfl : answered = replay := by simpa using sent
      have replays : encounter.Replays answered := ⟨⟨first, met, reads.status unauthenticated⟩, again⟩
      exact settle_refused_denied (replay_refused contained replays denies) denies
    · obtain rfl : replay = answered := by simpa using last
      exact settle_stream_denied claude contained success finish denies

private theorem last_of_fresh {α : Type*} {log front rest : List α} {item : α} (fresh : item ∉ log)
    (logged : log ++ [item] = front ++ item :: rest) : rest = [] := by
  rcases eq_nil_or_concat rest with empty | ⟨init, last, rfl⟩
  · exact empty
  · have joined : log ++ [item] = (front ++ item :: init) ++ [last] := by simpa using logged
    exact absurd (by simp [(append_inj' joined rfl).1]) fresh

namespace LoopContext
variable {context : LoopContext}

/-- A denied dispatch is the last one, and the request is answered with it. -/
def Walled (context : LoopContext) (run : LoopRun) : Prop :=
  ∀ front dispatch rest, run.log = front ++ dispatch :: rest →
    dispatch.denied context.request.plan = true → rest = [] ∧ run.outcome.isSome

theorem step_walled {run : LoopRun} {turn : Turn} (contained : ∀ member, context.contact run turn = some member →
      isClaudeMember member = true → turn.encounter.Contained context.request.plan)
    (walled : Walled context run) : Walled context (context.step run turn) := by
  cases unanswered : run.outcome with
  | some reply => rwa [step_answered (by simp [unanswered])]
  | none =>
    rw [step_unanswered unanswered]
    intro front dispatch rest logged denied
    simp only [LoopRun.record] at logged ⊢
    -- No dispatch before this turn was denied: the request is unanswered.
    have harmless : ∀ earlier ∈ run.log,
        earlier.denied context.request.plan = false := by
      intro earlier listed
      obtain ⟨before, after, split⟩ := append_of_mem listed
      by_contra refused
      have answered := (walled before earlier after split (by simpa using refused)).2
      simp [unanswered] at answered
    have fresh : dispatch ∉ run.log := fun listed => by simp [harmless dispatch listed] at denied
    have listed : dispatch ∈ run.log ++ (context.runTurn run.state turn).dispatched.toList := by
      rw [logged]
      simp
    have latest := (mem_append.mp listed).resolve_left fresh
    cases runTurn_cases context run.state turn with
    | halted idle => simp [idle] at latest
    | restarted idle => simp [idle] at latest
    | dispatched index member left chosen granted entered _ continues =>
      rw [entered] at logged latest
      obtain rfl : dispatch = context.dispatchTo turn run.state.retryRound index member := by
        simpa using latest
      refine ⟨last_of_fresh fresh logged, ?_⟩
      simp only [Dispatch.denied, dispatchTo, Bool.and_eq_true, any_eq_true] at denied
      obtain ⟨claude, answer, given, denies⟩ := denied
      have contacted := contact_eq_some unanswered left chosen granted
      obtain ⟨reply, verdict⟩ := attempt_denied claude (contained member contacted claude) given denies
      rw [← Option.ne_none_iff_isSome]
      intro silent
      obtain ⟨charge, retryable, goesOn⟩ := continues (TurnResult.outcome_eq_none_iff.mp silent)
      simp [verdict] at goesOn

end LoopContext

/-- Where the denials outside the classifier's reach stay out, no account is
contacted after a Claude account denied the request. -/
theorem claude_denial_is_last {context : LoopContext} {start : LoopState} {turns : List Turn}
    (contained : context.EachContact (fun member encounter =>
      isClaudeMember member = true → encounter.Contained context.request.plan) start turns)
    {front rest : List Dispatch} {dispatch : Dispatch}
    (logged : (context.run start turns).log = front ++ dispatch :: rest)
    (denied : dispatch.denied context.request.plan = true) : rest = [] := by
  have walled : context.Walled (context.run start turns) :=
    LoopContext.run_of_eachContact context.Walled contained
      (by simp [LoopContext.Walled, LoopRun.start])
      fun _ _ fits walled => LoopContext.step_walled fits walled
  exact (walled front dispatch rest logged denied).1

def deniedTurns : List Turn :=
  [quietTurn .absent (meets (answer 403 "request not allowed") (answer 200 "")),
    quietTurn .absent (meets (answer 200 "") (answer 200 ""))]

theorem meets_contained {exchange replay : Response} (accepted : ¬ (replay.status = 401 ∨ replay.status = 403)) :
    (meets exchange replay).Contained plan where
  replay response replays refused := by
    obtain rfl : replay = response := Except.ok.inj replays.met
    exact absurd refused accepted
  finish reason failed := nomatch failed

theorem outright_denial_is_last : ∃ context start dispatch rest,
    prepare claudePair (.new .strictRoundRobin) opusRoute opusRequest relayDefaults idleState
        false 0 = .ok (context, start) ∧ (context.run start deniedTurns).log = dispatch :: rest ∧
      dispatch.denied context.request.plan = true ∧ rest = [] := by
  have entered : (prepare claudePair (.new .strictRoundRobin) opusRoute opusRequest
      relayDefaults idleState false 0).toOption.map (fun loop =>
        (loop.1.run loop.2 deniedTurns).log.head?.map
          (Dispatch.denied loop.1.request.plan)) = some (some true) := by decide +kernel
  have contained : ∀ plan, ∀ turn ∈ deniedTurns, turn.encounter.Contained plan := by
    intro plan
    simp only [deniedTurns, forall_mem_cons]
    exact ⟨meets_contained (by simp [answer]), meets_contained (by simp [answer]), by simp⟩
  obtain ⟨⟨context, start⟩, prepared, seen⟩ := ok_of_toOption_map entered
  cases logged : (context.run start deniedTurns).log with
  | nil => simp [logged] at seen
  | cons dispatch rest =>
    have denied : dispatch.denied context.request.plan = true := by
      simpa [logged] using seen
    exact ⟨context, start, dispatch, rest, prepared, logged, denied, claude_denial_is_last
        (LoopContext.eachContact_of_forall fun turn member _ _ => contained _ turn member)
        (show _ = [] ++ dispatch :: rest from logged) denied⟩

def replayDeniedTurns : List Turn :=
  [quietTurn .absent (meets (answer 401 "token expired") (answer 403 "request not allowed")),
    quietTurn .absent (meets (answer 200 "") (answer 200 ""))]

/-- The second account sees a request the first one denied in its replay. -/
theorem replay_denial_fails_over :
    (prepare claudePair (.new .strictRoundRobin) opusRoute opusRequest relayDefaults idleState
        false 0).toOption.map (fun loop => (loop.1.run loop.2 replayDeniedTurns).log.map fun dispatch =>
        (dispatch.member.id, dispatch.denied loop.1.request.plan, dispatch.result.exchanges.length)) =
      some [("alpha", true, 2), ("beta", false, 1)] := by
  decide +kernel

end Mahoquot.Gateway
