import Mahoquot.Gateway.FailoverProperties

/-! When the first dispatch goes to the account a durable binding names. The
binding is forced into the router under the session's raw key, while the loop
selects under the scoped key and over the candidates in their initial order. -/

set_option autoImplicit false

namespace Mahoquot.Gateway
open Library LoopContext RouterState

variable (pool : PoolSnapshot)

def poolMemberAt (index : Nat) : PoolMember :=
  ((pool.members[index]?).map (·.poolMember)).getD ⟨"", .disabled⟩

def selectable (binding : Option String) (eligible : List Nat) : List Nat :=
  candidates pool (boundMemberProvider pool binding eligible []) eligible []

section selection
variable {pool} {router : Router} {hint : SessionHint} {eligible : List Nat} {nowMs : Int}

theorem selectIndex_eq (present : ∀ index ∈ eligible, (pool.members[index]?).isSome) :
    (selectIndex pool router hint eligible [] nowMs).1 = ((router.state.usableBinding hint).bind fun boundId =>
        (selectable pool (hint.affinityKey.bind router.boundAffinityMember) eligible).find?
          fun index => (poolMemberAt pool index).id == boundId &&
            (poolMemberAt pool index).health.isAvailable nowMs).or (router.strategyPick (poolMemberAt pool)
          (selectable pool (hint.affinityKey.bind router.boundAffinityMember) eligible) nowMs) := by
  have complete : ((eligible.filter fun index => !([] : List Nat).contains index).any
      fun index => (pool.members[index]?).isNone) = false := by
    simpa [Option.isSome_iff_ne_none] using present
  have members : ((selectable pool (hint.affinityKey.bind router.boundAffinityMember)
      eligible).filterMap fun index => (pool.members[index]?).map (·.poolMember)) =
      (selectable pool (hint.affinityKey.bind router.boundAffinityMember) eligible).map
        (poolMemberAt pool) := by
    refine List.filterMap_eq_map_iff_forall_eq_some.mpr fun index listed => ?_
    simp only [selectable, candidates, List.mem_filter] at listed
    obtain ⟨member, found⟩ := Option.isSome_iff_exists.mp (present index listed.1.1)
    simp [poolMemberAt, found]
  simp only [selectIndex, complete]
  rw [← Router.select_origin, ← members]
  rfl

end selection

variable (router : Router)

/-- What the hint's key is bound to once the durable binding is forced under
the session's raw key. -/
def hintBinding (boundId : String) (affinity hintKey : Option String) : Option String :=
  hintKey.bind fun key =>
    if affinity = some key ∧ router.state.admits boundId = true then some boundId
    else router.boundAffinityMember key

def forcedStamp (boundId id : String) : Nat :=
  if id = boundId ∧ router.state.admits boundId = true then wrappingAdd router.state.seq 1
  else router.state.lastSeq id

section forced
variable {router} {boundId : String} {affinity : Option String}

@[simp] theorem selectForced_strategy : (router.selectForced boundId affinity).strategy = router.strategy := by
  simp only [Router.selectForced]
  split
  · rfl
  · cases affinity <;> rfl

@[simp] theorem selectForced_admits (id : String) :
    (router.selectForced boundId affinity).state.admits id = router.state.admits id := by
  simp only [Router.selectForced]
  split
  · rfl
  · cases affinity <;> rfl

theorem selectForced_bound (hintKey : Option String) :
    hintKey.bind (router.selectForced boundId affinity).boundAffinityMember =
      hintBinding router boundId affinity hintKey := by
  cases hintKey with
  | none => rfl
  | some key =>
    simp only [hintBinding, Router.selectForced]
    cases admitted : router.state.admits boundId with
    | false => simp
    | true =>
      cases affinity with
      | none => simp [Router.boundAffinityMember]
      | some raw =>
        by_cases same : raw = key
        · simp [Router.boundAffinityMember, bindAffinity, same]
        · simp [Router.boundAffinityMember, bindAffinity, Std.ExtTreeMap.getElem?_insert, same]

theorem selectForced_lastSeq (id : String) :
    (router.selectForced boundId affinity).state.lastSeq id = forcedStamp router boundId id := by
  simp only [Router.selectForced, forcedStamp]
  cases admitted : router.state.admits boundId with
  | false => simp
  | true =>
    have stamped : (router.state.advance.stampMember boundId).lastSeq id =
        if id = boundId then wrappingAdd router.state.seq 1 else router.state.lastSeq id := by
      by_cases same : id = boundId
      · simp [lastSeq, stampMember, same]
      · simp [lastSeq, stampMember, Std.ExtTreeMap.getElem?_insert, same, Ne.symm same]
    cases affinity with
    | none => simpa using stamped
    | some raw =>
      have bound : ((router.state.advance.stampMember boundId).bindAffinity raw boundId).lastSeq id = _ := stamped
      simpa using bound

end forced

/-- A loop that has just been entered with a durable binding. -/
structure Opened (pool : PoolSnapshot) (router : Router) (request : RelayRequest)
    (settings : RelaySettings) (boundId : String) (context : LoopContext) (start : LoopState) : Prop where
  sameRequest : context.request = request
  hint : context.hint = ⟨hintKey settings request⟩
  here : context.homeAuthoritative = false
  budget : context.maxAttempts ≠ 0
  room : 0 < context.roundCredentialCap
  samePool : start.pool = pool
  forced : start.router = router.selectForced boundId request.affinity
  fresh : start.books = ⟨0, [], 0, 0⟩
  undenied : start.permissionDeniedAccounts = []

section opened
variable {pool} {router} {route : Option ResolvedRoute}
  {request : RelayRequest} {settings : RelaySettings} {state : AppState} {nowMs : Int}
  {boundId : String} {context : LoopContext} {start : LoopState}

theorem enterLoop_opened {initialEligible eligible : List Nat}
    (entered : enterLoop pool router route request settings state false initialEligible eligible
    (some boundId) = .ok (context, start)) : Opened pool router request settings boundId context start := by
  simp only [enterLoop] at entered
  split at entered
  · cases entered
  · split at entered
    · split at entered <;> cases entered
    next budget =>
      cases entered
      refine ⟨rfl, rfl, rfl, budget, ?_, rfl, rfl, rfl, rfl⟩
      simp only [maxAttempts, roundCredentialCap, Bool.and_false, Bool.false_eq_true, if_false] at budget ⊢
      split <;> omega

theorem prepare_opened (durable : durableBoundId state route request = some boundId)
    (eligible : pool.boundMemberState route request boundId
    (pool.eligibleIndices route request.plan.model nowMs request.apiKeyBinding
        request.scopedKey state) state nowMs = .eligible)
    (prepared : prepare pool router route request settings state false nowMs = .ok (context, start)) :
    Opened pool router request settings boundId context start := by
  simp only [prepare, durable, eligible] at prepared
  exact enterLoop_opened prepared

theorem mem_eligible_present {turn : Turn} {loop : LoopState} {index : Nat}
    (candidate : index ∈ context.eligible turn loop) : ∃ member, loop.pool.members[index]? = some member := by
  simp only [eligible, retains, PoolSnapshot.memberIs, List.mem_filter] at candidate
  cases found : loop.pool.members[index]? with
  | none => simp [found] at candidate
  | some member => exact ⟨member, rfl⟩

theorem Opened.dispatched (opened : Opened pool router request settings boundId context start)
    {turn : Turn} (absent : turn.home = .absent) : (context.runTurn start turn).dispatched.map (·.index) =
      (context.choose turn (observe turn start)).1 := by
  have unspent : context.exhausted (observe turn start) = false := by
    have budget : start.failoverBudget = 0 := congrArg Books.failoverBudget opened.fresh
    simp [exhausted, observe, budget, opened.undenied, opened.budget]
  cases chosen : context.choose turn (observe turn start) with
  | mk choice selected =>
    cases choice with
    | none =>
      simp only [runTurn, unspent, chosen, Bool.false_eq_true, if_false]
      rw [(nextRound_cases _ turn).1]
      rfl
    | some index =>
      obtain ⟨candidate, _⟩ := choose_local opened.here (congrArg Prod.fst chosen)
      obtain ⟨member, found⟩ := mem_eligible_present candidate
      simp [runTurn, unspent, chosen, serve, credential, absent, found, settleTurn]

end opened

def preferredCandidate (request : RelayRequest) (eligible : List Nat) (nowMs : Int) : Option Nat :=
  (request.hierarchy.bind (·.preferredMember)).bind fun preferred =>
    eligible.find? fun index => (poolMemberAt pool index).id == preferred &&
      (poolMemberAt pool index).health.isAvailable nowMs

def heldCandidate (binding : Option String) (group : List Nat) (nowMs : Int) : Option Nat :=
  (binding.filter router.state.admits).bind fun held =>
    group.find? fun index => (poolMemberAt pool index).id == held &&
      (poolMemberAt pool index).health.isAvailable nowMs

/-- The candidate the strategy names once the bound account is stamped. -/
def strategicCandidate (boundId : String) (group : List Nat) (nowMs : Int) : Option Nat :=
  match router.strategy with
  | .fillFirst => group.find? fun index => (poolMemberAt pool index).health.isAvailable nowMs
  | .strictRoundRobin =>
    (group.filter fun index => (poolMemberAt pool index).health.isAvailable nowMs).argmin
      fun index => forcedStamp router boundId (poolMemberAt pool index).id

/-- What has to agree with the durable binding for the first turn: the hierarchy of the
conversation, the router on the scoped session, and the strategy over `eligible`. -/
def BindingAgrees (request : RelayRequest) (settings : RelaySettings) (boundId : String) (eligible : List Nat)
    (nowMs selectNowMs : Int) (bound : Nat) : Prop :=
  let binding := hintBinding router boundId request.affinity (hintKey settings request)
  let group := selectable pool binding eligible
  match preferredCandidate pool request eligible nowMs with
  | some preferred => preferred = bound
  | none =>
    match heldCandidate pool router binding group selectNowMs with
    | some held => held = bound
    | none => strategicCandidate pool router boundId group selectNowMs = some bound

theorem memberIs_poolMemberAt (id : String) (nowMs : Int) (index : Nat) :
    pool.memberIs (fun member => member.id == id && member.health.isAvailable nowMs) index =
      ((poolMemberAt pool index).id == id && (poolMemberAt pool index).health.isAvailable nowMs) := by
  simp only [PoolSnapshot.memberIs, poolMemberAt]
  cases pool.members[index]? with
  | none => simp [Health.isAvailable]
  | some member => rfl

theorem preferredIndex_eq {context : LoopContext} {loop : LoopState} (fresh : loop.attempted = [])
    (eligible : List Nat) (nowMs : Int) : context.preferredIndex loop eligible nowMs =
      preferredCandidate loop.pool context.request eligible nowMs := by
  simp only [preferredIndex, preferredCandidate, fresh, memberIs_poolMemberAt]
  cases context.request.hierarchy.bind (·.preferredMember) <;> rfl

theorem Opened.choose {pool : PoolSnapshot} {router : Router} {request : RelayRequest}
    {settings : RelaySettings} {boundId : String} {context : LoopContext} {start : LoopState}
    (opened : Opened pool router request settings boundId context start) {turn : Turn}
    (undisturbed : turn.contend = id) : (context.choose turn (observe turn start)).1 =
      (context.preferredIndex (observe turn start) (context.eligible turn (observe turn start)) turn.nowMs).or
      (selectIndex (observe turn start).pool (router.selectForced boundId request.affinity) ⟨hintKey settings request⟩
        (context.eligible turn (observe turn start)) [] turn.selectNowMs).1 := by
  have room : (observe turn start).roundAttempts < context.roundCredentialCap := by
    have unused : start.roundAttempts = 0 := congrArg Books.roundAttempts opened.fresh
    simpa [observe, unused] using opened.room
  have router : (observe turn start).router =
      router.selectForced boundId request.affinity := by
    simp [observe, undisturbed, opened.forced]
  have fresh : (observe turn start).attempted = [] := congrArg Books.attempted opened.fresh
  simp only [LoopContext.choose, room, opened.here, opened.hint, router, fresh]
  cases context.preferredIndex (observe turn start)
    (context.eligible turn (observe turn start)) turn.nowMs <;> simp

theorem selectIndex_forced {pool : PoolSnapshot} {router : Router} {boundId : String}
    {affinity key : Option String} {eligible : List Nat} {nowMs : Int}
    (present : ∀ index ∈ eligible, (pool.members[index]?).isSome) :
    (selectIndex pool (router.selectForced boundId affinity) ⟨key⟩ eligible [] nowMs).1 =
      (heldCandidate pool router (hintBinding router boundId affinity key)
        (selectable pool (hintBinding router boundId affinity key) eligible) nowMs).or
      (strategicCandidate pool router boundId
        (selectable pool (hintBinding router boundId affinity key) eligible) nowMs) := by
  have admits : (router.selectForced boundId affinity).state.admits = router.state.admits := funext selectForced_admits
  have binding : (router.selectForced boundId affinity).state.usableBinding ⟨key⟩ =
      (hintBinding router boundId affinity key).filter router.state.admits := by
    rw [← selectForced_bound, usableBinding, admits]
    rfl
  rw [selectIndex_eq present, binding]
  simp only [selectForced_bound, Router.strategyPick, selectForced_strategy, selectForced_lastSeq, strategicCandidate]
  cases router.strategy <;> rfl

/-- The durable binding names an account that is eligible and passes the
loop's filters in the turn. -/
structure HoldsBinding (pool : PoolSnapshot) (route : Option ResolvedRoute)
    (request : RelayRequest) (state : AppState) (nowMs : Int) (context : LoopContext)
    (start : LoopState) (turn : Turn) (boundId : String) (bound : Nat) : Prop where
  durable : durableBoundId state route request = some boundId
  eligible : pool.boundMemberState route request boundId
    (pool.eligibleIndices route request.plan.model nowMs request.apiKeyBinding
      request.scopedKey state) state nowMs = .eligible
  located : (pool.members.findIdx? fun member => member.id == boundId) = some bound
  passes : context.retains turn (observe turn start) bound = true

/-- The first dispatch goes to the account the durable binding names exactly
if hierarchy, scoped session and strategy agree with it. -/
theorem durable_binding_first_iff {pool : PoolSnapshot} {router : Router} {route : Option ResolvedRoute}
    {request : RelayRequest} {settings : RelaySettings} {state : AppState} {nowMs : Int} {boundId : String}
    {bound : Nat} {context : LoopContext} {start : LoopState} {turn : Turn}
    (prepared : prepare pool router route request settings state false nowMs = .ok (context, start))
    (binding : HoldsBinding pool route request state nowMs context start turn boundId bound)
    (absent : turn.home = .absent) (undisturbed : turn.contend = id) :
    (context.runTurn start turn).dispatched.map (·.index) = some bound ↔
      BindingAgrees (observe turn start).pool router request settings boundId
        (context.eligible turn (observe turn start)) turn.nowMs turn.selectNowMs bound := by
  have opened := prepare_opened binding.durable binding.eligible prepared
  have present : ∀ index ∈ context.eligible turn (observe turn start),
      ((observe turn start).pool.members[index]?).isSome := by
    intro index candidate
    obtain ⟨member, found⟩ := mem_eligible_present candidate
    simp [found]
  have fresh : (observe turn start).attempted = [] := congrArg Books.attempted opened.fresh
  rw [opened.dispatched absent, opened.choose undisturbed, preferredIndex_eq fresh,
    selectIndex_forced present, opened.sameRequest]
  simp only [BindingAgrees]
  cases preferredCandidate (observe turn start).pool request
      (context.eligible turn (observe turn start)) turn.nowMs with
  | some preferred => simp
  | none =>
    cases heldCandidate (observe turn start).pool router
        (hintBinding router boundId request.affinity (hintKey settings request))
        (selectable (observe turn start).pool (hintBinding router boundId request.affinity (hintKey settings request))
          (context.eligible turn (observe turn start))) turn.selectNowMs with
    | some held => simp
    | none => simp

def boundRequest (boundId : String) : RelayRequest :=
  { opusRequest with claudeAffinity := fun _ => some boundId }

def servedTurn : Turn := quietTurn .absent (meets (answer 200 "") (answer 200 ""))

theorem first_account_binding_agrees : ∃ context start,
    prepare claudePair (.new .fillFirst) opusRoute (boundRequest "alpha") relayDefaults idleState
        false 0 = .ok (context, start) ∧ BindingAgrees (observe servedTurn start).pool (.new .fillFirst)
        (boundRequest "alpha") relayDefaults "alpha"
        (context.eligible servedTurn (observe servedTurn start)) 0 0 0 := by
  have entered : (prepare claudePair (.new .fillFirst) opusRoute (boundRequest "alpha")
      relayDefaults idleState false 0).toOption.map (fun loop =>
        ((loop.1.runTurn loop.2 servedTurn).dispatched.map (·.index),
          loop.1.retains servedTurn (observe servedTurn loop.2) 0)) =
      some (some 0, true) := by decide +kernel
  obtain ⟨⟨context, start⟩, prepared, seen⟩ := ok_of_toOption_map entered
  simp only [Prod.mk.injEq] at seen
  refine ⟨context, start, prepared, ?_⟩
  exact (durable_binding_first_iff prepared
    ⟨by decide +kernel, by decide +kernel, by decide +kernel, seen.2⟩ rfl rfl).mp seen.1

def firstDispatch (strategy : Strategy) (request : RelayRequest) (bound : Nat) :
    Option (Option String × Option String × Bool) :=
  (prepare claudePair (.new strategy) opusRoute request relayDefaults idleState
    false 0).toOption.map fun loop =>
      ((loop.1.runTurn loop.2 servedTurn).dispatched.map (·.member.id), loop.1.durableBound,
        loop.1.retains servedTurn (observe servedTurn loop.2) bound)

def failedOverRequest : RelayRequest :=
  { boundRequest "alpha" with hierarchy := some ⟨"scope", some "beta"⟩ }

/-- Under either strategy a session bound to the second of two idle accounts
starts on the first, and one bound to the first follows its last failover. -/
theorem durable_binding_overridden : firstDispatch .strictRoundRobin (boundRequest "beta") 1 =
        some (some "alpha", some "beta", true) ∧ firstDispatch .fillFirst (boundRequest "beta") 1 =
        some (some "alpha", some "beta", true) ∧ firstDispatch .strictRoundRobin failedOverRequest 0 =
        some (some "beta", some "alpha", true) := by
  refine ⟨?_, ?_, ?_⟩ <;> decide +kernel

end Mahoquot.Gateway
