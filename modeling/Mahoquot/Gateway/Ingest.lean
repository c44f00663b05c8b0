import Mathlib.Data.List.Perm.Subperm

/-! Ingestion of the request history: the callers of `enqueue` and `flush`, the bounded
channel, and the thread that writes batches. A step is one access to the channel, the depth
or the database, with the counters of its outcome, or one reply. What the database makes of
an event is left open. -/

set_option autoImplicit false

namespace Mahoquot.Gateway.History

/-- An event as ingestion reads it: its id and whether `validate_event` accepts it. -/
structure UsageEvent where
  eventId : String
  valid : Bool
deriving DecidableEq

inductive IngestCommand where
  | event (event : UsageEvent)
  | flush (reply : Nat)
deriving DecidableEq

/-- Where the ingest loop stands: in `recv`, in the loop of `try_recv`, past that loop,
past `queue_depth.fetch_sub`, past the count of what is dropped, or in the loop of replies. -/
inductive IngestPhase where
  | recv
  | collecting
  | collected
  | writing
  | inserting
  | replying
deriving DecidableEq

/-- What becomes of an event the loop has collected. -/
inductive Fate where
  | written
  | duplicate
  | dropped
  | failed
deriving DecidableEq

structure HistoryService where
  queueCapacity : Nat
  batchSize : Nat
  /-- Whether the store is set. -/
  opened : Bool
  channel : List IngestCommand := []
  phase : IngestPhase := .recv
  batch : List UsageEvent := []
  flushes : List Nat := []
  /-- The replies still to be sent. -/
  replies : List Nat := []
  /-- The calls of `enqueue` between their reservation and `try_send`. -/
  reserved : Nat := 0
  queueDepth : Nat := 0
  enqueuedEvents : Nat := 0
  writtenEvents : Nat := 0
  droppedEvents : Nat := 0
  databaseFailures : Nat := 0
  -- what a run has shown; no code reads it
  sent : List IngestCommand := []
  refused : List UsageEvent := []
  settled : List (UsageEvent × Fate) := []
  flushed : List Nat := []

inductive HistoryStep where
  | reserve
  | trySend (event : UsageEvent)
  | sendFlush (reply : Nat)
  /-- A step of the ingest thread, with whether the store opens, whether the insert
  succeeds, and then for each event of the batch whether it adds a row. -/
  | work (opens : Bool) (inserts : Option (Nat → Bool))

def tally (fate : Fate) (fates : List (UsageEvent × Fate)) : Nat :=
  (fates.map (·.2)).count fate

namespace HistoryService

def «open» (queueCapacity batchSize : Nat) (opened : Bool) : HistoryService where
  queueCapacity := max queueCapacity 1
  batchSize := max batchSize 1
  opened := opened

variable (service : HistoryService)

def receive (command : IngestCommand) (rest : List IngestCommand) (phase : IngestPhase) : HistoryService :=
  let service := { service with channel := rest, phase := phase }
  match command with
  | .event event => { service with batch := service.batch ++ [event] }
  | .flush reply => { service with flushes := service.flushes ++ [reply] }

/-- What the insert of the batch, one transaction, makes of its events. -/
def insertBatch (inserts : Option (Nat → Bool)) : List (UsageEvent × Fate) :=
  match inserts with
  | some adds => service.batch.mapIdx fun index event => (event, if adds index then .written else .duplicate)
  | none => service.batch.map (·, .failed)

/-- The events of the loop have gone their way, and its flushes are answered next. -/
def settle (fates : List (UsageEvent × Fate)) : HistoryService :=
  { service with
    phase := .replying
    batch := []
    flushes := []
    replies := service.replies ++ service.flushes
    settled := service.settled ++ fates }

def work (opens : Bool) (inserts : Option (Nat → Bool)) : HistoryService :=
  match service.phase with
  | .recv =>
    match service.channel with
    | [] => service
    | command :: rest => service.receive command rest .collecting
  | .collecting =>
    if service.batch.length < service.batchSize then
      match service.channel with
      | .event event :: rest => service.receive (.event event) rest .collecting
      | .flush reply :: rest => service.receive (.flush reply) rest .collected
      | [] => { service with phase := .collected }
    else { service with phase := .collected }
  | .collected =>
    { service with
      queueDepth := service.queueDepth - service.batch.length, phase := .writing }
  | .writing =>
    if service.opened || opens then
      let rejected := service.batch.filter (!·.valid)
      { service with
        opened := true
        droppedEvents := service.droppedEvents + rejected.length
        phase := .inserting
        batch := service.batch.filter (·.valid)
        settled := service.settled ++ rejected.map (·, .dropped) }
    else
      { service.settle (service.batch.map (·, .dropped)) with
        droppedEvents := service.droppedEvents + service.batch.length }
  | .inserting =>
    let fates := service.insertBatch inserts
    { service.settle fates with
      writtenEvents := service.writtenEvents + tally .written fates
      databaseFailures := service.databaseFailures + inserts.isNone.toNat }
  | .replying =>
    match service.replies with
    | [] => { service with phase := .recv }
    | reply :: rest => { service with replies := rest, flushed := service.flushed ++ [reply] }

def step : HistoryStep → HistoryService
  | .reserve => { service with queueDepth := service.queueDepth + 1, reserved := service.reserved + 1 }
  | .trySend event =>
    if service.reserved = 0 then service
    else if service.channel.length < service.queueCapacity then
      { service with
        reserved := service.reserved - 1
        channel := service.channel ++ [.event event]
        enqueuedEvents := service.enqueuedEvents + 1
        sent := service.sent ++ [.event event] }
    else
      { service with
        reserved := service.reserved - 1
        queueDepth := service.queueDepth - 1
        droppedEvents := service.droppedEvents + 1
        refused := service.refused ++ [event] }
  | .sendFlush reply =>
    -- `send` blocks while the channel is full
    if service.channel.length < service.queueCapacity then
      { service with
        channel := service.channel ++ [.flush reply], sent := service.sent ++ [.flush reply] }
    else service
  | .work opens inserts => service.work opens inserts

end HistoryService

open List

attribute [local simp] filterMap_cons

def event? : IngestCommand → Option UsageEvent
  | .event event => some event
  | .flush _ => none

def reply? : IngestCommand → Option Nat
  | .event _ => none
  | .flush reply => some reply

def events (commands : List IngestCommand) : List UsageEvent :=
  commands.filterMap event?

theorem tally_append (fate : Fate) (left right : List (UsageEvent × Fate)) :
    tally fate (left ++ right) = tally fate left + tally fate right := by
  simp [tally]

theorem tally_map (fate other : Fate) (events : List UsageEvent) :
    tally fate (events.map (·, other)) = if other = fate then events.length else 0 := by
  simp [tally, Function.comp_def, count_replicate]

theorem length_eq_tallies (fates : List (UsageEvent × Fate)) :
    fates.length = tally .written fates + tally .duplicate fates + tally .dropped fates + tally .failed fates := by
  induction fates with
  | nil => rfl
  | cons pair fates ih =>
    obtain ⟨event, fate⟩ := pair
    cases fate <;> simp [tally] at ih ⊢ <;> omega

namespace HistoryService
variable {service : HistoryService} {opens : Bool} {inserts : Option (Nat → Bool)}

theorem insertBatch_events : (service.insertBatch inserts).map (·.1) = service.batch := by
  cases inserts with
  | none => simp [insertBatch, Function.comp_def]
  | some adds => exact ext_getElem (by simp [insertBatch]) (by simp [insertBatch])

theorem insertBatch_tally : tally .dropped (service.insertBatch inserts) = 0 ∧
    (inserts.isSome → tally .failed (service.insertBatch inserts) = 0) := by
  cases inserts with
  | none => simp [insertBatch, tally_map]
  | some adds =>
    simp only [insertBatch, tally, count_eq_zero, mem_map, mem_mapIdx]
    grind

/-- The events the depth no longer counts though their insert is not over. -/
def taken (service : HistoryService) : Nat :=
  if service.phase = .writing ∨ service.phase = .inserting then service.batch.length else 0

/-- The books of a run: `handled` are the commands of finished batches and `held` those of
the batch in hand, of which the invalid events go first. -/
structure Accounts (service : HistoryService) (handled held : List IngestCommand) : Prop where
  order : service.sent = handled ++ held ++ service.channel
  finished : (events handled).Subperm (service.settled.map (·.1))
  fates : (events (handled ++ held)).Perm (service.settled.map (·.1) ++ service.batch)
  replies : handled.filterMap reply? = service.flushed ++ service.replies
  flushes : held.filterMap reply? = service.flushes
  written : service.writtenEvents = tally .written service.settled
  dropped : service.droppedEvents = service.refused.length + tally .dropped service.settled
  depth : service.queueDepth + service.taken =
    (events service.channel).length + service.batch.length + service.reserved

namespace Accounts
variable {handled held : List IngestCommand}

theorem receive (accounts : Accounts service handled held) (idle : service.taken = 0)
    {command : IngestCommand} {rest : List IngestCommand} (next : service.channel = command :: rest)
    {phase : IngestPhase} (stays : phase = .collecting ∨ phase = .collected) :
    Accounts (service.receive command rest phase) handled (held ++ [command]) := by
  obtain ⟨order, finished, fates, replies, flushes, written, dropped, depth⟩ := accounts
  have unchanged : (service.receive command rest phase).taken = 0 := by
    cases command <;> rcases stays with rfl | rfl <;> rfl
  simp only [next, idle] at order depth
  cases command with
  | event event =>
    refine ⟨by simp [order, HistoryService.receive], finished, ?_, replies, ?_, written, dropped, ?_⟩
    · simpa [events, event?, HistoryService.receive] using fates.append_right [event]
    · simpa [reply?, HistoryService.receive] using flushes
    · rw [unchanged]
      simp [events, event?, HistoryService.receive] at depth ⊢
      omega
  | flush reply =>
    refine ⟨by simp [order, HistoryService.receive], finished, ?_, replies, ?_, written, dropped, ?_⟩
    · simpa [events, event?, HistoryService.receive] using fates
    · simp [reply?, HistoryService.receive, flushes]
    · rw [unchanged]
      simpa [events, event?, HistoryService.receive] using depth

/-- The batch in hand is settled as a whole. -/
theorem settle (accounts : Accounts service handled held) (busy : service.taken = service.batch.length)
    {fates : List (UsageEvent × Fate)} (own : fates.map (·.1) = service.batch) (failures : Nat) :
    Accounts { service.settle fates with
      writtenEvents := service.writtenEvents + tally .written fates
      droppedEvents := service.droppedEvents + tally .dropped fates
      databaseFailures := failures } (handled ++ held) [] := by
  obtain ⟨order, finished, settled, replies, flushes, written, dropped, depth⟩ := accounts
  refine ⟨by simp [order, HistoryService.settle], ?_, ?_, ?_, rfl, ?_, ?_, ?_⟩
  · simpa [HistoryService.settle, own] using settled.subperm
  · simpa [HistoryService.settle, own] using settled
  · simp [HistoryService.settle, replies, flushes]
  · simp [HistoryService.settle, tally_append, written]
  · simp [HistoryService.settle, tally_append, dropped, Nat.add_assoc]
  · simp [HistoryService.settle, taken]
    omega

theorem write (accounts : Accounts service handled held) (busy : service.phase = .writing) :
    ∃ handled held, Accounts (service.work opens inserts) handled held := by
  have whole : service.taken = service.batch.length := by simp [taken, busy]
  unfold HistoryService.work
  rw [busy]
  dsimp only
  split
  · obtain ⟨order, finished, fates, replies, flushes, written, dropped, depth⟩ := accounts
    have parts := perm_append_comm.trans (filter_append_perm (·.valid) service.batch)
    refine ⟨handled, held, order, ?_, ?_, replies, flushes, ?_, ?_, ?_⟩
    · simpa using finished.trans (sublist_append_left ..).subperm
    · simpa [Function.comp_def] using fates.trans (parts.symm.append_left _)
    · simp [written, tally_append, tally_map]
    · simp [dropped, tally_append, tally_map, Nat.add_assoc]
    · simp [taken]
      omega
  · have own : (service.batch.map (·, Fate.dropped)).map (·.1) = service.batch := by simp [Function.comp_def]
    have settled := accounts.settle whole own service.databaseFailures
    rw [tally_map, tally_map] at settled
    exact ⟨_, _, settled⟩

theorem work (accounts : Accounts service handled held) :
    ∃ handled held, Accounts (service.work opens inserts) handled held := by
  have depth := accounts.depth
  have halt (busy : service.phase = .collecting) : Accounts { service with phase := .collected } handled held :=
    { accounts with depth := by simpa [taken, busy] using depth }
  cases phase : service.phase with
  | writing => exact accounts.write phase
  | recv =>
    unfold HistoryService.work
    rw [phase]
    cases next : service.channel with
    | nil => exact ⟨handled, held, accounts⟩
    | cons command rest => exact ⟨_, _, accounts.receive (by simp [taken, phase]) next (.inl rfl)⟩
  | collecting =>
    unfold HistoryService.work
    rw [phase]
    dsimp only
    split
    · split
      next next => exact ⟨_, _, accounts.receive (by simp [taken, phase]) next (.inl rfl)⟩
      next next => exact ⟨_, _, accounts.receive (by simp [taken, phase]) next (.inr rfl)⟩
      next => exact ⟨handled, held, halt phase⟩
    · exact ⟨handled, held, halt phase⟩
  | collected =>
    unfold HistoryService.work
    rw [phase]
    simp only [taken] at depth
    exact ⟨handled, held, { accounts with depth := by simp [taken]; grind }⟩
  | inserting =>
    unfold HistoryService.work
    rw [phase]
    have settled := accounts.settle (by simp [taken, phase]) (@insertBatch_events service inserts)
      (service.databaseFailures + inserts.isNone.toNat)
    rw [insertBatch_tally.1] at settled
    exact ⟨_, _, settled⟩
  | replying =>
    unfold HistoryService.work
    rw [phase]
    simp only [taken, phase] at depth
    dsimp only
    split
    · exact ⟨handled, held, { accounts with depth := depth }⟩
    next next =>
      refine ⟨handled, held, { accounts with replies := ?_, depth := by simpa [taken, phase] using depth }⟩
      simpa [next] using accounts.replies

theorem step (accounts : Accounts service handled held) (step : HistoryStep) :
    ∃ handled held, Accounts (service.step step) handled held := by
  obtain ⟨order, -, -, -, -, -, dropped, depth⟩ := id accounts
  have bound : service.taken ≤ service.batch.length := by
    unfold taken
    split <;> simp
  cases step with
  | work opens inserts => exact accounts.work
  | reserve =>
    refine ⟨handled, held, { accounts with depth := ?_ }⟩
    change service.queueDepth + 1 + service.taken = (events service.channel).length + _ + _
    dsimp only [HistoryService.step]
    omega
  | trySend event =>
    unfold HistoryService.step
    dsimp only
    split
    · exact ⟨handled, held, accounts⟩
    · split
      · refine ⟨handled, held, { accounts with order := by simp [order], depth := ?_ }⟩
        change service.queueDepth + service.taken = _
        simp [events, event?] at depth ⊢
        omega
      · refine ⟨handled, held, { accounts with dropped := ?_, depth := ?_ }⟩
        · simp [dropped, Nat.add_right_comm]
        · change service.queueDepth - 1 + service.taken = _
          dsimp only
          omega
  | sendFlush reply =>
    unfold HistoryService.step
    dsimp only
    split
    · refine ⟨handled, held, { accounts with order := by simp [order], depth := ?_ }⟩
      change service.queueDepth + service.taken = _
      simpa [events, event?] using depth
    · exact ⟨handled, held, accounts⟩

end Accounts

/-- The run of a service just opened comes to this state. -/
def Reached (steps : List HistoryStep) (service : HistoryService) : Prop :=
  ∃ queueCapacity batchSize opened, steps.foldl step («open» queueCapacity batchSize opened) = service

variable {steps : List HistoryStep}

theorem Reached.accounts (reached : Reached steps service) : ∃ handled held, Accounts service handled held := by
  obtain ⟨queueCapacity, batchSize, opened, rfl⟩ := reached
  refine foldlRecOn steps step
    (motive := fun service => ∃ handled held, Accounts service handled held)
    ⟨[], [], rfl, nil_subperm, .nil, rfl, rfl, rfl, rfl, rfl⟩ fun service accounts step _ => ?_
  obtain ⟨handled, held, accounts⟩ := accounts
  exact accounts.step step

theorem sent_step (step : HistoryStep) : service.sent <+: (service.step step).sent := by
  cases step with
  | reserve => exact prefix_rfl
  | trySend event =>
    unfold HistoryService.step
    grind
  | sendFlush reply =>
    unfold HistoryService.step
    grind
  | work opens inserts =>
    unfold HistoryService.step work receive HistoryService.settle
    grind

/-- When a flush returns, every event accepted before it was sent has been handed to the
database writer, and whatever is not handed over is in the batch or the channel. -/
theorem flush_is_barrier {before : HistoryService} {front rest : List HistoryStep} {reply : Nat}
    (reached : Reached front before) (own : .flush reply ∉ before.sent) :
    let after := (HistoryStep.sendFlush reply :: rest).foldl step before
    reply ∈ after.flushed →
      (events before.sent).Subperm (after.settled.map (·.1)) ∧
        (events after.sent).Perm
          (after.settled.map (·.1) ++ (after.batch ++ events after.channel)) := by
  intro after returned
  have reaches : Reached (front ++ .sendFlush reply :: rest) after := by
    obtain ⟨queueCapacity, batchSize, opened, rfl⟩ := reached
    exact ⟨queueCapacity, batchSize, opened, foldl_append ..⟩
  obtain ⟨handled, held, accounts⟩ := reaches.accounts
  have finished : handled <+: after.sent := by
    rw [accounts.order, append_assoc]
    exact prefix_append ..
  have earlier : before.sent <+: after.sent :=
    foldlRecOn _ step (motive := fun after => before.sent <+: after.sent) prefix_rfl
      fun _ earlier next _ => earlier.trans (sent_step next)
  have passed : before.sent <+: handled := by
    refine ( prefix_or_prefix_of_prefix earlier finished).resolve_right fun short => own ?_
    have answered := mem_append_left after.replies returned
    rw [← accounts.replies] at answered
    obtain ⟨command, member, found⟩ := mem_filterMap.mp answered
    cases command with
    | event event => cases found
    | flush other =>
      cases found
      exact short.subset member
  constructor
  · exact (passed.sublist.filterMap _).subperm.trans accounts.finished
  · rw [accounts.order]
    simpa [events] using accounts.fates.append_right (events after.channel)

theorem flush_is_barrier_sample :
    [⟨"a", true⟩].Subperm ((([.reserve, .trySend ⟨"a", true⟩, .sendFlush 0, .work true none, .work true none,
      .work true none, .work true none, .work true none, .work true none].foldl step («open» 4 2 true)).settled).map (·.1)) :=
  (@flush_is_barrier _ [.reserve, .trySend ⟨"a", true⟩] _ 0 ⟨4, 2, true, rfl⟩ (by decide) (by decide)).1

theorem failed_step {step : HistoryStep} (stores : ∀ opens, step ≠ .work opens none) :
    tally .failed (service.step step).settled = tally .failed service.settled := by
  cases step with
  | reserve => rfl
  | trySend event =>
    unfold HistoryService.step
    grind
  | sendFlush reply =>
    unfold HistoryService.step
    grind
  | work opens inserts =>
    cases inserts with
    | none => exact absurd rfl (stores opens)
    | some adds =>
      have kept := (@insertBatch_tally service (some adds)).2 rfl
      have dropped (events : List UsageEvent) : tally .failed (events.map (·, .dropped)) = 0 := by rw [tally_map]; rfl
      unfold HistoryService.step work receive HistoryService.settle
      grind [tally_append]

/-- Every event offered is accounted for while no insert fails, and the depth is what is
accepted and not yet written where as many calls are before their `try_send` as events are
taken off the depth and not yet written. -/
theorem history_balanced (reached : Reached steps service) (stores : ∀ opens, .work opens none ∉ steps) :
    let waiting := (events service.channel).length + service.batch.length
    (events service.sent).length + service.refused.length =
        waiting + service.writtenEvents + tally .duplicate service.settled +
          service.droppedEvents ∧
      (service.queueDepth = waiting ↔ service.reserved = service.taken) := by
  obtain ⟨handled, held, accounts⟩ := reached.accounts
  obtain ⟨order, -, fates, -, -, written, dropped, depth⟩ := accounts
  have kept : tally .failed service.settled = 0 := by
    obtain ⟨queueCapacity, batchSize, opened, rfl⟩ := reached
    refine foldlRecOn steps step (motive := fun service => tally .failed service.settled = 0)
      ?_ fun service kept step member => ?_
    · rfl
    · rw [failed_step fun opens same => stores opens (same ▸ member), kept]
  have total := length_eq_tallies service.settled
  have sizes := fates.length_eq
  constructor
  · simp only [order, events, filterMap_append, length_append, length_map] at sizes ⊢
    omega
  · omega

/-- An event twice and an invalid one, of which the batch adds one row. -/
def mixedBatch : List HistoryStep :=
  [.reserve, .trySend ⟨"a", true⟩, .reserve, .trySend ⟨"b", false⟩, .reserve, .trySend ⟨"a", true⟩] ++
    replicate 7 (.work true (some (· == 0)))

theorem history_balanced_sample : let service := mixedBatch.foldl step («open» 4 4 true)
    (service.writtenEvents = 1 ∧ service.droppedEvents = 1) ∧ (events service.sent).length + service.refused.length =
      (events service.channel).length + service.batch.length + service.writtenEvents +
        tally .duplicate service.settled + service.droppedEvents :=
  ⟨by decide, (@history_balanced _ mixedBatch ⟨4, 4, true, rfl⟩ (by simp [mixedBatch])).1⟩

/-- An event whose insert fails is in no count. -/
theorem failed_insert_uncounted : let service := [.reserve, .trySend ⟨"a", true⟩, .work true none, .work true none,
      .work true none, .work true none, .work true none].foldl step («open» 4 2 true)
    (events service.sent).length = 1 ∧ events service.channel = [] ∧ service.batch = [] ∧
      service.writtenEvents = 0 ∧ tally .duplicate service.settled = 0 ∧
      service.droppedEvents = 0 := by
  decide

end HistoryService
end Mahoquot.Gateway.History
