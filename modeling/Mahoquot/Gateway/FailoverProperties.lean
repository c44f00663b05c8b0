import Mahoquot.Gateway.Failover
import Mahoquot.Library.Runs
import Mathlib.Data.List.Perm.Subperm

/-! What one turn of the failover loop can do to its books, and what follows for a whole
walk over the local pool. While Home owns the credentials, its credential has no pool index,
so only the round cap bounds the dispatches, and a refunded attempt gives that back. -/

set_option autoImplicit false

namespace Mahoquot.Gateway
open Library LoopContext List
variable {Fits : AccountMember → Encounter → Prop}

theorem TurnResult.outcome_eq_none_iff {result : TurnResult} : result.outcome = none ↔ result.flow = .next := by
  cases flow : result.flow <;> simp [TurnResult.outcome, flow]

/-- The loop's counters, without what it shares with other requests. -/
structure Books where
  retryRound : Nat
  attempted : List Nat
  roundAttempts : Nat
  failoverBudget : Nat

def LoopState.books (state : LoopState) : Books :=
  ⟨state.retryRound, state.attempted, state.roundAttempts, state.failoverBudget⟩

namespace LoopContext
variable {context : LoopContext} {state : LoopState} {turn : Turn}

def dispatchTo (context : LoopContext) (turn : Turn) (round index : Nat) (member : AccountMember) : Dispatch :=
  ⟨round, index, member, turn.encounter, turn.nowMs, attempt context.request.plan member turn.encounter⟩

def booked (books : Books) (dispatch : Dispatch) : Books :=
  { retryRound := books.retryRound
    attempted := books.attempted ++ [dispatch.index]
    roundAttempts := books.roundAttempts + if dispatch.result.verdict.refunded then 0 else 1
    failoverBudget := books.failoverBudget + if dispatch.result.verdict.charged then 1 else 0 }

theorem account_books (tried : LoopState) (index : Nat) (member : AccountMember) (verdict : Verdict) :
    (context.account tried index member verdict).1.books = { tried.books with
        roundAttempts := tried.roundAttempts - if verdict.refunded then 1 else 0
        failoverBudget := tried.failoverBudget + if verdict.charged then 1 else 0 } := by
  cases verdict with
  | reply reply => cases reply <;> rfl
  | stop => rfl
  | again charge retryable => cases charge <;> rfl

variable {member : AccountMember} {turns : List Turn} {index : Nat}

/-- Only an attempt that asks for another one keeps the loop going. -/
theorem account_next {tried : LoopState} {verdict : Verdict}
    (continues : (context.account tried index member verdict).2 = .next) :
    ∃ charge retryable, verdict = .again charge retryable := by
  cases verdict with
  | reply reply => cases reply <;> cases continues
  | stop => cases continues
  | again charge retryable => exact ⟨charge, retryable, rfl⟩

theorem settleTurn_books (index : Nat) (member : AccountMember) :
    (context.settleTurn turn state index member).state.books =
      booked state.books (context.dispatchTo turn state.retryRound index member) := by
  have givenBack : ∀ refunded : Bool, state.roundAttempts + 1 - (if refunded then 1 else 0) =
      state.roundAttempts + if refunded then 0 else 1 := by
    intro refunded
    cases refunded <;> rfl
  simp only [settleTurn, account_books, givenBack]
  rfl

inductive TurnCase (context : LoopContext) (state : LoopState) (turn : Turn) (result : TurnResult) : Prop where
  | halted (idle : result.dispatched = none) (ends : result.flow ≠ .next)
      (kept : result.state.books = state.books)
  | restarted (idle : result.dispatched = none) (more : state.retryRound < context.retryLimit)
      (opened : result.state.books = ⟨state.retryRound + 1, [], 0, 0⟩)
  | dispatched (index : Nat) (member : AccountMember) (left : context.exhausted state = false)
      (chosen : (context.choose turn (observe turn state)).1 = some index)
      (granted : credential turn (observe turn state) index = .ok member)
      (logged : result.dispatched = some (context.dispatchTo turn state.retryRound index member))
      (entered : result.state.books = booked state.books (context.dispatchTo turn state.retryRound index member))
      (continues : result.flow = .next → ∃ charge retryable,
        (attempt context.request.plan member turn.encounter).verdict = .again charge retryable)

theorem nextRound_cases (state : LoopState) (turn : Turn) : ((context.nextRound turn state).dispatched = none) ∧
      ((context.nextRound turn state).flow ≠ .next ∧ (context.nextRound turn state).state.books = state.books ∨
        state.retryRound < context.retryLimit ∧
          (context.nextRound turn state).state.books = ⟨state.retryRound + 1, [], 0, 0⟩) := by
  simp only [nextRound]
  split
  case isTrue => simp
  case isFalse more =>
    simp only [Bool.or_eq_true, decide_eq_true_eq, not_or, not_le] at more
    split
    · simp
    · exact ⟨rfl, .inr ⟨more.2, rfl⟩⟩

theorem serve_cases (state : LoopState) (turn : Turn) (index : Nat) :
    (context.serve turn state index).dispatched = none ∧ (context.serve turn state index).flow ≠ .next ∧
        (context.serve turn state index).state.books = state.books ∨
      ∃ member, credential turn state index = .ok member ∧
        context.serve turn state index = context.settleTurn turn state index member := by
  simp only [serve, credential]
  cases turn.home with
  | absent => cases state.pool.members[index]? <;> simp
  | fenced => simp
  | granted member => simp
  | failed message => simp

theorem runTurn_cases (context : LoopContext) (state : LoopState) (turn : Turn) :
    TurnCase context state turn (context.runTurn state turn) := by
  simp only [runTurn]
  split
  · exact .halted rfl (by simp) rfl
  next left =>
    cases chosen : context.choose turn (observe turn state) with
    | mk choice router =>
      cases choice with
      | none =>
        obtain ⟨idle, ⟨ends, kept⟩ | ⟨more, opened⟩⟩ := @nextRound_cases context { observe turn state with router } turn
        · exact .halted idle ends kept
        · exact .restarted idle more opened
      | some index =>
        obtain ⟨idle, ends, kept⟩ | ⟨member, granted, settled⟩ :=
          @serve_cases context { observe turn state with router } turn index
        · exact .halted idle ends kept
        · refine .dispatched index member (Bool.eq_false_of_not_eq_true left) (by rw [chosen])
            granted
            (congrArg TurnResult.dispatched settled)
            ((congrArg (·.state.books) settled).trans (settleTurn_books index member)) ?_
          intro continues
          exact account_next ((congrArg TurnResult.flow settled).symm.trans continues)

theorem selectIndex_some {pool : PoolSnapshot} {router : Router} {hint : SessionHint} {eligible exclude : List Nat}
    {nowMs : Int} (selected : (selectIndex pool router hint eligible exclude nowMs).1 = some index) :
    index ∈ eligible ∧ index ∉ exclude := by
  simp only [selectIndex] at selected
  split at selected
  · cases selected
  · obtain ⟨position, _, found⟩ := Option.bind_eq_some_iff.mp selected
    have candidate := mem_of_getElem? found
    simp only [candidates, mem_filter] at candidate
    exact ⟨candidate.1.1, by simpa using candidate.1.2⟩

theorem choose_local (here : context.homeAuthoritative = false) (chosen : (context.choose turn state).1 = some index) :
    index ∈ context.eligible turn state ∧ index ∉ state.attempted := by
  simp only [choose, here] at chosen
  split at chosen
  · cases preferred : context.preferredIndex state (context.eligible turn state) turn.nowMs with
    | none => exact selectIndex_some (by simpa [preferred] using chosen)
    | some candidate =>
      obtain rfl : candidate = index := by simpa [preferred] using chosen
      simp only [preferredIndex] at preferred
      split at preferred
      · cases preferred
      · have fits := find?_some preferred
        simp only [Bool.and_eq_true, Bool.not_eq_true', contains_eq_mem, decide_eq_false_iff_not] at fits
        exact ⟨mem_of_find?_eq_some preferred, fits.1⟩
  · cases chosen

/-- An account of the initial candidates, healthy and unbenched when it was
chosen, and sent the request at most twice. -/
structure Sound (context : LoopContext) (dispatch : Dispatch) : Prop where
  eligible : dispatch.index ∈ context.initialEligible
  healthy : dispatch.member.health.isAvailable dispatch.nowMs = true
  unbenched : ∀ model, context.selectModel = some model →
    dispatch.member.groupAvailable model dispatch.nowMs = true
  sends : dispatch.result.exchanges.length ≤ 2

theorem dispatchTo_sound (round : Nat) (candidate : index ∈ context.eligible turn (observe turn state))
    (present : (observe turn state).pool.members[index]? = some member) :
    Sound context (context.dispatchTo turn round index member) := by
  simp only [eligible, mem_filter, retains, PoolSnapshot.memberIs, present, Bool.and_eq_true, Option.any_some] at candidate
  obtain ⟨initial, _, ⟨⟨_, unbenched⟩, healthy⟩, _⟩ := candidate
  refine ⟨initial, healthy, ?_, attempt_exchanges_le ..⟩
  intro model selected
  rw [selected] at unbenched
  exact unbenched

structure WithinBudget (context : LoopContext) (log : List Dispatch) : Prop where
  sound : ∀ dispatch ∈ log, Sound context dispatch
  rounds : ∀ dispatch ∈ log, dispatch.round ≤ context.retryLimit
  once : ∀ round, ((log.filter (·.round == round)).map (·.index)).Nodup
  dispatches : log.length ≤ (context.retryLimit + 1) * context.initialEligible.length
  failures : context.retryLimit = 0 →
    log.countP (·.result.verdict.charged) ≤ context.maxAttempts

/-- The invariant of a walk over the local pool: the books agree with the log. -/
structure LocalWalk (context : LoopContext) (log : List Dispatch) (books : Books) : Prop where
  sound : ∀ dispatch ∈ log, Sound context dispatch
  started : ∀ dispatch ∈ log, dispatch.round ≤ books.retryRound
  allowed : books.retryRound ≤ context.retryLimit
  once : ∀ round, ((log.filter (·.round == round)).map (·.index)).Nodup
  attempted : (log.filter (·.round == books.retryRound)).map (·.index) = books.attempted
  dispatches : log.length + Progress.picksLeft context.retryLimit
      context.initialEligible.length ⟨books.retryRound, books.attempted.length⟩ ≤
    (context.retryLimit + 1) * context.initialEligible.length
  failures : context.retryLimit = 0 →
    log.countP (·.result.verdict.charged) = books.failoverBudget ∧
      books.failoverBudget ≤ context.maxAttempts

namespace LocalWalk
variable {log : List Dispatch} {books : Books}

theorem initial {start : LoopState} (fresh : start.books = ⟨0, [], 0, 0⟩) :
    LocalWalk context (LoopRun.start start).log (LoopRun.start start).state.books := by
  simp only [LoopRun.start, fresh]
  exact
    { sound := by simp
      started := by simp
      allowed := Nat.zero_le _
      once := by simp
      attempted := rfl
      dispatches := by simpa using Progress.picksLeft_start.le
      failures := by simp }

theorem withinBudget (walk : LocalWalk context log books) : WithinBudget context log where
  sound := walk.sound
  rounds dispatch member := (walk.started dispatch member).trans walk.allowed
  once := walk.once
  dispatches := (Nat.le_add_right ..).trans walk.dispatches
  failures single := (walk.failures single).1.trans_le (walk.failures single).2

theorem opened (walk : LocalWalk context log books) (more : books.retryRound < context.retryLimit) :
    LocalWalk context log ⟨books.retryRound + 1, [], 0, 0⟩ where
  sound := walk.sound
  started dispatch member := Nat.le_succ_of_le (walk.started dispatch member)
  allowed := more
  once := walk.once
  attempted := by
    simp only [map_eq_nil_iff, filter_eq_nil_iff, beq_iff_eq]
    intro dispatch member
    exact Nat.ne_of_lt (Nat.lt_succ_of_le (walk.started dispatch member))
  dispatches := (Nat.add_le_add_left (Progress.picksLeft_newRound more) _).trans walk.dispatches
  failures single := absurd more (by omega)

theorem room (walk : LocalWalk context log books)
    (initial : index ∈ context.initialEligible) (fresh : index ∉ books.attempted) :
    (books.attempted ++ [index]).Nodup ∧ books.attempted.length < context.initialEligible.length := by
  have tried : books.attempted ⊆ context.initialEligible := by
    rw [← walk.attempted]
    intro member listed
    obtain ⟨dispatch, logged, rfl⟩ := mem_map.mp listed
    exact (walk.sound dispatch (mem_filter.mp logged).1).eligible
  have distinct : (books.attempted ++ [index]).Nodup := by
    have once := walk.once books.retryRound
    rw [walk.attempted] at once
    exact once.append (nodup_singleton index) (disjoint_singleton.mpr fresh)
  have within : books.attempted ++ [index] ⊆ context.initialEligible := by
    simpa using ⟨tried, initial⟩
  exact ⟨distinct, Nat.lt_of_succ_le (by simpa using (subperm_of_subset distinct within).length_le)⟩

theorem entered (walk : LocalWalk context log books) {dispatch : Dispatch} (sound : Sound context dispatch)
    (current : dispatch.round = books.retryRound) (fresh : dispatch.index ∉ books.attempted)
    (left : context.retryLimit = 0 → books.failoverBudget < context.maxAttempts) :
    LocalWalk context (log ++ [dispatch]) (booked books dispatch) := by
  obtain ⟨distinct, free⟩ := walk.room sound.eligible fresh
  refine ⟨?_, ?_, walk.allowed, ?_, ?_, ?_, ?_⟩
  · simpa [or_imp, forall_and] using ⟨walk.sound, sound⟩
  · simpa [or_imp, forall_and] using ⟨walk.started, current.le⟩
  · intro round
    by_cases same : round = books.retryRound
    · subst same
      simpa [current, walk.attempted] using distinct
    · simpa [current, Ne.symm same] using walk.once round
  · simp [booked, current, walk.attempted]
  · have picked := @Progress.picksLeft_pick context.retryLimit _ books.retryRound _ free
    have before := walk.dispatches
    simp only [booked, length_append, length_singleton]
    omega
  · intro single
    obtain ⟨counted, _⟩ := walk.failures single
    have below := left single
    cases charged : dispatch.result.verdict.charged with
    | false => simpa [booked, counted, charged] using below.le
    | true => simpa [booked, counted, charged] using Nat.succ_le_of_lt below

end LocalWalk

variable {run : LoopRun}

theorem step_answered (answered : run.outcome.isSome) (turn : Turn) : context.step run turn = run := by
  obtain ⟨reply, found⟩ := Option.isSome_iff_exists.mp answered
  simp [step, found]

theorem step_unanswered (unanswered : run.outcome = none) (turn : Turn) :
    context.step run turn = run.record (context.runTurn run.state turn) := by
  simp [step, unanswered]

/-- The account the next turn contacts, if it contacts one. -/
def contact (context : LoopContext) (run : LoopRun) (turn : Turn) : Option AccountMember :=
  if run.outcome.isSome || context.exhausted run.state then none
  else (context.choose turn (observe turn run.state)).1.bind fun index =>
    (credential turn (observe turn run.state) index).toOption

theorem contact_eq_some (unanswered : run.outcome = none) (left : context.exhausted run.state = false)
    (chosen : (context.choose turn (observe turn run.state)).1 = some index)
    (granted : credential turn (observe turn run.state) index = .ok member) :
    context.contact run turn = some member := by
  simp [contact, unanswered, left, chosen, granted, Except.toOption]

/-- Whenever the run contacts an account, account and answers are as required. -/
def EachContact (context : LoopContext) (Fits : AccountMember → Encounter → Prop)
    (start : LoopState) (turns : List Turn) : Prop :=
  ∀ position turn member, turns[position]? = some turn →
    context.contact (stateAt context.step (.start start) turns position) turn = some member →
    Fits member turn.encounter

variable {start : LoopState}

theorem eachContact_of_forall
    (fits : ∀ turn ∈ turns, ∀ member, Fits member turn.encounter) : context.EachContact Fits start turns :=
  fun _ turn member found _ => fits turn (mem_of_getElem? found) member

theorem run_of_eachContact (Holds : LoopRun → Prop)
    (each : context.EachContact Fits start turns) (initial : Holds (.start start))
    (preserved : ∀ run turn, (∀ member, context.contact run turn = some member →
      Fits member turn.encounter) → Holds run → Holds (context.step run turn)) : Holds (context.run start turns) := by
  have final := stateAt_stretch Holds (Nat.zero_le turns.length) initial
    fun position turn _ _ found => preserved _ turn fun member => each position turn member found
  rwa [stateAt_length] at final

theorem step_localWalk (here : context.homeAuthoritative = false) (absent : turn.home = .absent)
    (walk : LocalWalk context run.log run.state.books) :
    LocalWalk context (context.step run turn).log (context.step run turn).state.books := by
  cases unanswered : run.outcome with
  | some reply => rwa [step_answered (by simp [unanswered])]
  | none =>
    rw [step_unanswered unanswered]
    simp only [LoopRun.record]
    cases runTurn_cases context run.state turn with
    | halted idle _ kept => simpa [idle, kept] using walk
    | restarted idle more opened =>
      have next : LocalWalk context run.log ⟨run.state.retryRound + 1, [], 0, 0⟩ := walk.opened more
      simpa [idle, opened] using next
    | dispatched index member left chosen granted logged entered _ =>
      obtain ⟨candidate, fresh⟩ := choose_local here chosen
      have present : (observe turn run.state).pool.members[index]? = some member := by
        simp only [credential, absent] at granted
        split at granted
        · cases granted
          assumption
        · cases granted
      have below : context.retryLimit = 0 →
          run.state.failoverBudget < context.maxAttempts := by
        intro single
        simp only [exhausted, single, Bool.or_eq_false_iff] at left
        simpa using left.1
      simpa [logged, entered] using walk.entered (dispatchTo_sound run.state.retryRound candidate present) rfl fresh below

theorem run_localWalk (here : context.homeAuthoritative = false)
    (absent : ∀ turn ∈ turns, turn.home = .absent) (fresh : start.books = ⟨0, [], 0, 0⟩) :
    LocalWalk context (context.run start turns).log (context.run start turns).state.books :=
  foldlRecOn (motive := fun run => LocalWalk context run.log run.state.books)
    turns context.step (LocalWalk.initial fresh)
    fun _ walk turn member => step_localWalk here (absent turn member) walk

def stepsLeft (context : LoopContext) (run : LoopRun) : Nat :=
  Progress.stepsLeft context.retryLimit context.initialEligible.length
    ⟨run.state.books.retryRound, run.state.books.attempted.length⟩

theorem step_stepsLeft (here : context.homeAuthoritative = false)
    (walk : LocalWalk context run.log run.state.books) (unanswered : run.outcome = none) :
    (context.step run turn).outcome.isSome ∨ context.stepsLeft (context.step run turn) < context.stepsLeft run := by
  rw [step_unanswered unanswered]
  simp only [LoopRun.record, stepsLeft]
  cases runTurn_cases context run.state turn with
  | halted _ ends _ =>
    left
    rw [← Option.ne_none_iff_isSome]
    exact fun silent => ends (TurnResult.outcome_eq_none_iff.mp silent)
  | restarted _ more opened =>
    right
    rw [opened]
    exact Progress.stepsLeft_newRound more
  | dispatched index member _ chosen _ _ entered _ =>
    right
    obtain ⟨candidate, fresh⟩ := choose_local here chosen
    obtain ⟨_, free⟩ := walk.room (mem_filter.mp candidate).1 fresh
    simpa [entered, booked] using Progress.stepsLeft_pick free

end LoopContext

section Entry
variable {pool : PoolSnapshot} {router : Router} {route : Option ResolvedRoute}
  {request : RelayRequest} {settings : RelaySettings} {state : AppState}
  {homeAuthoritative : Bool} {context : LoopContext} {start : LoopState}

theorem enterLoop_ok {initialEligible eligible : List Nat} {durableBound : Option String}
    (entered : enterLoop pool router route request settings state homeAuthoritative
      initialEligible eligible durableBound = .ok (context, start)) :
    context.homeAuthoritative = homeAuthoritative ∧ (homeAuthoritative = true → context.roundCredentialCap = 1) ∧
      start.books = ⟨0, [], 0, 0⟩ := by
  simp only [enterLoop] at entered
  split at entered
  · cases entered
  · split at entered
    · split at entered <;> cases entered
    · cases entered
      exact ⟨rfl, fun home => by simp [roundCredentialCap, home], rfl⟩

theorem prepare_ok {nowMs : Int}
    (prepared : prepare pool router route request settings state homeAuthoritative nowMs = .ok (context, start)) :
    context.homeAuthoritative = homeAuthoritative ∧ (homeAuthoritative = true → context.roundCredentialCap = 1) ∧
      start.books = ⟨0, [], 0, 0⟩ := by
  simp only [prepare] at prepared
  split at prepared
  · exact enterLoop_ok prepared
  · split at prepared
    · exact enterLoop_ok prepared
    · cases prepared
    · exact enterLoop_ok prepared

end Entry

/-- A walk over the local pool stays within its limits whatever the upstreams
answer, and is over once it had a turn for each of them. -/
theorem local_failover_ends_within_budget {pool : PoolSnapshot} {router : Router}
    {route : Option ResolvedRoute} {request : RelayRequest} {settings : RelaySettings}
    {state : AppState} {nowMs : Int} {context : LoopContext} {start : LoopState}
    (prepared : prepare pool router route request settings state false nowMs = .ok (context, start))
    (turns : List Turn) (absent : ∀ turn ∈ turns, turn.home = .absent) :
    context.WithinBudget (context.run start turns).log ∧
      ((context.retryLimit + 1) * (context.initialEligible.length + 1) ≤ turns.length →
        (context.run start turns).outcome.isSome) := by
  obtain ⟨here, _, fresh⟩ := prepare_ok prepared
  refine ⟨(run_localWalk here absent fresh).withinBudget, ?_⟩
  intro enough
  refine halts_of_stepsLeft (fun run => context.LocalWalk run.log run.state.books)
    (fun run => run.outcome.isSome) context.stepsLeft
    (LocalWalk.initial fresh) ?_ ?_ ?_
  · intro run turn answered
    rwa [step_answered answered]
  · intro run turn member walk unanswered
    exact ⟨step_localWalk here (absent turn member) walk, step_stepsLeft here walk (by simpa using unanswered)⟩
  · have total := @Progress.stepsLeft_start context.retryLimit context.initialEligible.length
    have begins : context.stepsLeft (.start start) = Progress.stepsLeft context.retryLimit
        context.initialEligible.length ⟨0, 0⟩ := by
      simp [stepsLeft, LoopRun.start, fresh]
    omega

theorem ok_of_toOption_map {ε α β : Type*} {outcome : Except ε α} {view : α → β} {value : β}
    (seen : outcome.toOption.map view = some value) : ∃ result, outcome = .ok result ∧ view result = value := by
  cases outcome with
  | error error => simp [Except.toOption] at seen
  | ok result => exact ⟨result, rfl, by simpa [Except.toOption] using seen⟩

/-! Data for the concrete instances of this and later results. -/

def claudePair : PoolSnapshot :=
  .new [.new "alpha" (.claude none), .new "beta" (.claude none)]
    [⟨"claude-opus", "anthropic"⟩] claudeCatalog fun _ => false

def opusRoute : Option ResolvedRoute :=
  ((claudePair.resolveRoute (some "claude-opus") none).toOption).join

def opusRequest : RelayRequest :=
  { plan := ⟨some "claude-opus", false, true⟩
    apiKeyBinding := none
    scopedKey := none
    affinity := some "session-one"
    scopedSession := some "affinity-v2-0000000000000001"
    hierarchy := none
    durableDigest := some 1
    claudeAffinity := fun _ => none }

def relayDefaults : RelaySettings :=
  { requestRetry := 0
    maxRetryCredentials := 0
    maxRetryInterval := 30
    sessionAffinity := none
    sessionAffinityLcp := false
    maxFailover := 3 }

def answer (status : Nat) (text : String) : Response := ⟨status, [], .ok ⟨text, none⟩⟩

def meets (exchange replay : Response) : Encounter :=
  { expired := false
    proactiveRefresh := .ok ()
    target := .ok ()
    intercepted := none
    exchange := .ok exchange
    refresh := .ok ()
    replay := .ok replay
    finish := .ok ()
    nowMs := 0 }

def quietTurn (home : HomeView) (encounter : Encounter) : Turn :=
  { interfere := fun _ member => member
    contend := id
    nowMs := 0
    selectNowMs := 0
    waitNowMs := 0
    creditCodexAccountIds := []
    scheduler := ⟨false, true, [], []⟩
    home, encounter }

def failoverTurns : List Turn :=
  [quietTurn .absent (meets (answer 503 "") (answer 503 "")), quietTurn .absent (meets (answer 200 "") (answer 200 ""))]

theorem pair_failover_ends_within_budget : ∃ context start,
    prepare claudePair (.new .strictRoundRobin) opusRoute opusRequest relayDefaults idleState
        false 0 = .ok (context, start) ∧ (context.run start failoverTurns).log.length = 2 ∧
      context.WithinBudget (context.run start failoverTurns).log := by
  have entered : (prepare claudePair (.new .strictRoundRobin) opusRoute opusRequest
      relayDefaults idleState false 0).toOption.map
        (fun loop => (loop.1.run loop.2 failoverTurns).log.length) = some 2 := by decide +kernel
  obtain ⟨⟨context, start⟩, prepared, dispatched⟩ := ok_of_toOption_map entered
  refine ⟨context, start, prepared, dispatched, ?_⟩
  exact (local_failover_ends_within_budget prepared failoverTurns (by simp [failoverTurns, quietTurn])).1

namespace LoopContext
variable {context : LoopContext} {state : LoopState} {turn : Turn}

theorem choose_room {index : Nat} (chosen : (context.choose turn state).1 = some index) :
    state.roundAttempts < context.roundCredentialCap := by
  by_contra full
  simp [choose, full] at chosen

/-- The invariant of a walk through Home: a dispatch for each round. -/
structure HomeWalk (context : LoopContext) (log : List Dispatch) (books : Books) : Prop where
  sends : ∀ dispatch ∈ log, dispatch.result.exchanges.length ≤ 2
  dispatches : log.length + Progress.picksLeft context.retryLimit 1
    ⟨books.retryRound, books.roundAttempts⟩ ≤ context.retryLimit + 1

theorem step_homeWalk {run : LoopRun} (single : context.roundCredentialCap = 1)
    (refundless : ∀ member, context.contact run turn = some member →
      turn.encounter.Refundless context.request.plan member) (walk : HomeWalk context run.log run.state.books) :
    HomeWalk context (context.step run turn).log (context.step run turn).state.books := by
  cases unanswered : run.outcome with
  | some reply => rwa [step_answered (by simp [unanswered])]
  | none =>
    rw [step_unanswered unanswered]
    simp only [LoopRun.record]
    cases runTurn_cases context run.state turn with
    | halted idle _ kept => simpa [idle, kept] using walk
    | restarted idle more opened =>
      rw [idle, opened]
      refine ⟨by simpa using walk.sends, ?_⟩
      have left := @Progress.picksLeft_newRound context.retryLimit 1 run.state.retryRound run.state.roundAttempts more
      have before := walk.dispatches
      simp only [LoopState.books] at before
      simp only [Option.toList_none, append_nil]
      omega
    | dispatched index member left chosen granted logged entered _ =>
      have kept := attempt_refunded (refundless member (contact_eq_some unanswered left chosen granted))
      have room := choose_room chosen
      have free : run.state.roundAttempts < 1 := by
        rwa [single] at room
      have picks := @Progress.picksLeft_pick context.retryLimit 1 run.state.retryRound run.state.roundAttempts free
      have before := walk.dispatches
      simp only [LoopState.books] at before
      rw [logged, entered]
      refine ⟨?_, ?_⟩
      · simpa [or_imp, forall_and] using ⟨walk.sends, attempt_exchanges_le ..⟩
      · simp only [booked, dispatchTo, kept, LoopState.books,
          Option.toList_some, length_append, length_singleton, Bool.false_eq_true,
          if_false]
        omega

variable {member : AccountMember}

theorem runTurn_home (home : context.homeAuthoritative = true) (left : context.exhausted state = false)
    (room : state.roundAttempts < context.roundCredentialCap) (granted : turn.home = .granted member) :
    context.runTurn state turn = context.settleTurn turn (observe turn state) usizeMax member := by
  have unspent : context.exhausted (observe turn state) = false := left
  have chosen : context.choose turn (observe turn state) =
      (some usizeMax, (observe turn state).router) := by
    have free : (observe turn state).roundAttempts < context.roundCredentialCap := room
    simp [choose, free, home]
  simp only [runTurn, unspent, chosen, serve, credential, granted]
  rfl

structure Unspent (context : LoopContext) (run : LoopRun) : Prop where
  unanswered : run.outcome = none
  left : context.exhausted run.state = false
  room : run.state.roundAttempts < context.roundCredentialCap

section
variable (home : context.homeAuthoritative = true) (granted : turn.home = .granted member)
  (refunded : (attempt context.request.plan member turn.encounter).verdict.refunded = true)
include home granted refunded

theorem step_refunded {run : LoopRun} (unspent : Unspent context run) : Unspent context (context.step run turn) ∧
      (context.step run turn).log.length = run.log.length + 1 := by
  have turned := runTurn_home home unspent.left unspent.room granted
  obtain ⟨retryable, verdict⟩ := Verdict.refunded_iff.mp refunded
  rw [step_unanswered unspent.unanswered]
  simp only [LoopRun.record, turned, settleTurn, verdict]
  exact ⟨⟨rfl, unspent.left, unspent.room⟩, by simp⟩

theorem run_refunded {start : LoopState} (unspent : Unspent context (.start start)) (count : Nat) :
    Unspent context (context.run start (replicate count turn)) ∧
      (context.run start (replicate count turn)).log.length = count := by
  induction count with
  | zero => exact ⟨unspent, rfl⟩
  | succ count ih =>
    simp only [run, replicate_succ', foldl_append] at ih ⊢
    obtain ⟨unspent, counted⟩ := step_refunded home granted refunded ih.1
    exact ⟨unspent, counted.trans (congrArg (· + 1) ih.2)⟩

end

end LoopContext

/-- Without an answer that names a spent limit, a walk through Home dispatches
once a round. -/
theorem home_failover_bounded {pool : PoolSnapshot} {router : Router} {route : Option ResolvedRoute}
    {request : RelayRequest} {settings : RelaySettings} {state : AppState} {nowMs : Int}
    {context : LoopContext} {start : LoopState}
    (prepared : prepare pool router route request settings state true nowMs = .ok (context, start))
    (turns : List Turn) (refundless : context.EachContact
      (fun member encounter => encounter.Refundless context.request.plan member) start turns) :
    (context.run start turns).log.length ≤ context.retryLimit + 1 ∧
      ∀ dispatch ∈ (context.run start turns).log, dispatch.result.exchanges.length ≤ 2 := by
  obtain ⟨_, single, fresh⟩ := prepare_ok prepared
  have initial : context.HomeWalk (LoopRun.start start).log (LoopRun.start start).state.books := by
    simp only [LoopRun.start, fresh]
    exact ⟨by simp, by simp [Progress.picksLeft_start]⟩
  have walk := LoopContext.run_of_eachContact (fun run => context.HomeWalk run.log run.state.books)
      refundless initial fun _ _ unspent walk =>
        LoopContext.step_homeWalk (single rfl) unspent walk
  exact ⟨(Nat.le_add_right ..).trans walk.dispatches, walk.sends⟩

def unavailableTurn : Turn :=
  quietTurn (.granted (.new "leased" .zcode)) (meets (answer 503 "") (answer 503 ""))

/-- One retry round, with the turn that opens it and one behind the last round. -/
theorem unavailable_home_bounded : ∃ context start,
    prepare claudePair (.new .strictRoundRobin) opusRoute opusRequest { relayDefaults with requestRetry := 1 } idleState
        true 0 = .ok (context, start) ∧ (context.run start (replicate 4 unavailableTurn)).log.length = 2 ∧
      (context.run start (replicate 4 unavailableTurn)).log.length ≤ context.retryLimit + 1 := by
  have entered : (prepare claudePair (.new .strictRoundRobin) opusRoute opusRequest
      { relayDefaults with requestRetry := 1 } idleState true 0).toOption.map
        (fun loop => (loop.1.run loop.2 (replicate 4 unavailableTurn)).log.length) = some 2 := by
    decide +kernel
  have refundless : ∀ plan member, unavailableTurn.encounter.Refundless plan member :=
    fun _ _ =>
    { exchange := by
        rintro _ ⟨⟩
        simp [Response.NamesSpentLimit, answer]
      replay := by
        rintro _ ⟨_, ⟨⟩⟩
        simp [Response.NamesSpentLimit, answer]
      finish := by rintro _ ⟨⟩ }
  obtain ⟨⟨context, start⟩, prepared, dispatched⟩ := ok_of_toOption_map entered
  refine ⟨context, start, prepared, dispatched, ?_⟩
  exact (home_failover_bounded prepared (replicate 4 unavailableTurn)
    (LoopContext.eachContact_of_forall (by simpa using refundless context.request.plan))).1

def planQuotaTurn : Turn :=
  let spent : Response :=
    ⟨429, [], .ok ⟨"\x7b\"error\":\x7b\"code\":1005\x7d\x7d", some (.obj [("error", .obj [("code", .int 1005)])])⟩⟩
  quietTurn (.granted (.new "leased" .zcode)) (meets spent spent)

/-- With no retries configured, each further plan-quota 429 brings another
dispatch of the same request. -/
theorem home_failover_unbounded : ∃ context start,
    prepare claudePair (.new .strictRoundRobin) opusRoute opusRequest relayDefaults idleState
        true 0 = .ok (context, start) ∧ context.retryLimit = 0 ∧
      ∀ count, (context.run start (replicate count planQuotaTurn)).log.length = count := by
  have entered : (prepare claudePair (.new .strictRoundRobin) opusRoute opusRequest
      relayDefaults idleState true 0).toOption.map (fun loop =>
        (loop.1.homeAuthoritative, loop.1.retryLimit, loop.1.exhausted loop.2,
          decide (loop.2.roundAttempts < loop.1.roundCredentialCap),
          (attempt loop.1.request.plan (.new "leased" .zcode) planQuotaTurn.encounter).verdict.refunded)) =
      some (true, 0, false, true, true) := by decide +kernel
  obtain ⟨⟨context, start⟩, prepared, seen⟩ := ok_of_toOption_map entered
  simp only [Prod.mk.injEq, decide_eq_true_eq] at seen
  obtain ⟨home, single, left, room, refunded⟩ := seen
  refine ⟨context, start, prepared, single, fun count => ?_⟩
  exact (LoopContext.run_refunded home rfl refunded ⟨rfl, left, room⟩ count).2

end Mahoquot.Gateway
