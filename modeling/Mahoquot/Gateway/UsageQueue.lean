import Mahoquot.Compat.Value
import Mathlib.Data.List.TakeWhile
import Mahoquot.Library.Transducer

/-! The queue of usage records behind the RESP interface as a first-in first-out queue, and
what keeps a record. Instants are counted from the clock's origin. -/

set_option autoImplicit false

namespace Mahoquot.Gateway
open Compat Library List

structure QueueItem where
  enqueuedAt : Nat
  payload : Bytes
deriving DecidableEq

/-- The channel of a subscriber: closed once its receiver is dropped. -/
structure Subscriber where
  buffer : List Bytes
  capacity : Nat
  closed : Bool
deriving DecidableEq

def Subscriber.accepts (subscriber : Subscriber) : Bool :=
  !subscriber.closed && decide (subscriber.buffer.length < subscriber.capacity)

def Subscriber.trySend (subscriber : Subscriber) (payload : Bytes) : Option Subscriber :=
  if subscriber.accepts then some { subscriber with buffer := subscriber.buffer ++ [payload] }
  else none

structure Queue where
  items : List QueueItem
  head : Nat
  subscribers : List (Nat × Subscriber)
  nextSubscriberId : Nat
deriving DecidableEq

namespace Queue
variable (queue : Queue)

def prune (now retention : Nat) : Queue :=
  if queue.items.length ≤ queue.head then { queue with items := [], head := 0 }
  else
    let cutoff := if retention ≤ now then now - retention else now
    let expired := (queue.items.drop queue.head).takeWhile fun item =>
      decide (item.enqueuedAt < cutoff)
    { queue with head := queue.head + expired.length }

def maybeCompact : Queue :=
  if queue.head = 0 then queue
  else if queue.items.length ≤ queue.head then { queue with items := [], head := 0 }
  else if queue.head < 1024 ∧ queue.head * 2 < queue.items.length then queue
  else { queue with items := queue.items.drop queue.head, head := 0 }

def len (now retention : Nat) : Queue × Nat :=
  let pruned := queue.prune now retention
  (pruned, pruned.items.length - pruned.head)

def enqueue (payload : Bytes) (now retention : Nat) : Queue :=
  let pruned := queue.prune now retention
  maybeCompact { pruned with items := pruned.items ++ [⟨now, payload⟩] }

def popOldest (count now retention : Nat) : Queue × List Bytes :=
  let pruned := queue.prune now retention
  let available := pruned.items.length - pruned.head
  if available = 0 ∨ count = 0 then (pruned, [])
  else
    let popCount := min count available
    (maybeCompact { pruned with head := pruned.head + popCount },
      ((pruned.items.drop pruned.head).take popCount).map QueueItem.payload)

/-- Subscribers whose buffer is full or whose receiver is gone are removed. -/
def publishToSubscribers (payload : Bytes) : Queue × Bool :=
  if queue.subscribers.isEmpty then (queue, false)
  else ({ queue with subscribers := queue.subscribers.filterMap fun entry =>
    (entry.2.trySend payload).map (entry.1, ·) }, true)

def subscribe (buffer : Nat) (initial : Option Bytes) : Queue :=
  let id := queue.nextSubscriberId + 1
  { queue with
    nextSubscriberId := id
    subscribers := queue.subscribers ++ [(id, ⟨initial.toList.take buffer, buffer, false⟩)] }

def unsubscribe (id : Nat) : Queue :=
  { queue with subscribers := queue.subscribers.filter fun entry => entry.1 != id }

/-- The usage side of the hub while it is enabled. -/
def enqueueUsage (payload : Bytes) (now retention : Nat) : Queue :=
  if payload.isEmpty then queue
  else
    match queue.publishToSubscribers payload with
    | (published, true) => published
    | (unpublished, false) => unpublished.enqueue payload now retention

end Queue

inductive QueueCall where
  | enqueue (payload : Bytes)
  | popOldest (count : Nat)
  | len

structure TimedCall where
  call : QueueCall
  now : Nat
  retention : Nat

inductive QueueReply where
  | enqueued
  | popped (payloads : List Bytes)
  | length (count : Nat)
deriving DecidableEq

def Queue.perform (queue : Queue) (timed : TimedCall) : Queue × List QueueReply :=
  match timed.call with
  | .enqueue payload => (queue.enqueue payload timed.now timed.retention, [.enqueued])
  | .popOldest count =>
    let (queue, payloads) := queue.popOldest count timed.now timed.retention
    (queue, [.popped payloads])
  | .len =>
    let (queue, count) := queue.len timed.now timed.retention
    (queue, [.length count])

inductive QueueEvent where
  | enqueueUsage (payload : Bytes)
  | popOldest (count : Nat)
  | len
  | subscribe (buffer : Nat) (initial : Option Bytes)
  | unsubscribe (id : Nat)
  /-- A receiver takes what its channel holds first. -/
  | receive (id : Nat)
  /-- A receiver is dropped. -/
  | close (id : Nat)

def Queue.alter (queue : Queue) (id : Nat) (change : Subscriber → Subscriber) : Queue :=
  { queue with subscribers := queue.subscribers.map fun entry =>
      if entry.1 = id then (id, change entry.2) else entry }

/-- An event at a time and under a retention, with the records it returns. -/
def Queue.step (queue : Queue) (timed : QueueEvent × Nat × Nat) : Queue × List Bytes :=
  let (event, now, retention) := timed
  match event with
  | .enqueueUsage payload => (queue.enqueueUsage payload now retention, [])
  | .popOldest count => queue.popOldest count now retention
  | .len => ((queue.len now retention).1, [])
  | .subscribe buffer initial => (queue.subscribe buffer initial, [])
  | .unsubscribe id => (queue.unsubscribe id, [])
  | .receive id => (queue.alter id fun subscriber => { subscriber with buffer := subscriber.buffer.tail }, [])
  | .close id => (queue.alter id fun subscriber => { subscriber with closed := true }, [])

/-- The queue as it is meant: every call first discards what is older than its retention. -/
def fifo (contents : List QueueItem) (timed : TimedCall) : List QueueItem × List QueueReply :=
  let kept := contents.filter fun item => decide (timed.now ≤ item.enqueuedAt + timed.retention)
  match timed.call with
  | .enqueue payload => (kept ++ [⟨timed.now, payload⟩], [.enqueued])
  | .popOldest count => (kept.drop count, [.popped ((kept.take count).map QueueItem.payload)])
  | .len => (kept, [.length kept.length])

def Queue.empty : Queue := ⟨[], 0, [], 0⟩

namespace Queue

def live (queue : Queue) : List QueueItem := queue.items.drop queue.head

variable {queue : Queue} {now retention : Nat}

theorem live_maybeCompact : queue.maybeCompact.live = queue.live := by
  grind [maybeCompact, live, drop_eq_nil_of_le]

theorem head_prune : (queue.prune now retention).head ≤ (queue.prune now retention).items.length := by
  have expired := ( takeWhile_prefix (l := queue.items.drop queue.head) fun item =>
    decide (item.enqueuedAt < if retention ≤ now then now - retention else now)).length_le
  grind [prune]

theorem drop_expired {items : List QueueItem} (aged : items.Pairwise (·.enqueuedAt ≤ ·.enqueuedAt)) :
    items.drop (items.takeWhile fun item => decide (item.enqueuedAt < now - retention)).length =
      items.filter fun item => decide (now ≤ item.enqueuedAt + retention) := by
  induction aged with
  | nil => rfl
  | @cons item items older aged ih =>
    by_cases expired : item.enqueuedAt < now - retention
    · rw [takeWhile_cons_of_pos (by simpa), length_cons, drop_succ_cons, ih, filter_cons_of_neg (by simp; omega)]
    · rw [takeWhile_cons_of_neg (by simpa using expired), length_nil, drop_zero, filter_eq_self.2]
      grind

theorem live_prune (aged : queue.live.Pairwise (·.enqueuedAt ≤ ·.enqueuedAt))
    (past : retention ≤ now) : (queue.prune now retention).live =
      queue.live.filter fun item => decide (now ≤ item.enqueuedAt + retention) := by
  rw [← drop_expired aged, prune]
  split
  next drained => simp [live, drop_eq_nil_of_le drained]
  next => exact (drop_drop ..).symm

variable {timed : TimedCall} {calls : List TimedCall}

theorem live_popOldest {count : Nat} : ((queue.popOldest count now retention).1.live,
    (queue.popOldest count now retention).2) = ((queue.prune now retention).live.drop count,
        ((queue.prune now retention).live.take count).map QueueItem.payload) := by
  dsimp only [popOldest]
  generalize queue.prune now retention = kept
  have whole : kept.live.length = kept.items.length - kept.head := length_drop
  rw [← whole]
  split
  next idle =>
    obtain drained | rfl := idle
    · simp [length_eq_zero_iff.1 drained]
    · simp
  next =>
    rw [live_maybeCompact, live, ← drop_drop, ← live]
    obtain fewer | more := Nat.le_total count kept.live.length
    · rw [Nat.min_eq_left fewer]
    · rw [Nat.min_eq_right more, drop_length, take_length, drop_eq_nil_of_le more, take_of_length_le more]

theorem live_enqueue {payload : Bytes} : (queue.enqueue payload now retention).live =
    (queue.prune now retention).live ++ [⟨now, payload⟩] := by
  rw [enqueue, live_maybeCompact, live, drop_append_of_le_length head_prune]
  rfl

theorem perform_eq (aged : queue.live.Pairwise (·.enqueuedAt ≤ ·.enqueuedAt)) (past : timed.retention ≤ timed.now) :
    ((queue.perform timed).1.live, (queue.perform timed).2) = fifo queue.live timed := by
  unfold perform fifo
  rw [← live_prune aged past]
  cases timed.call with
  | enqueue payload => rw [live_enqueue]
  | popOldest count =>
    obtain ⟨left, returned⟩ := Prod.mk.inj (@live_popOldest queue timed.now timed.retention count)
    dsimp only
    rw [left, returned]
  | len => simp [len, live]

theorem aged_fifo {contents : List QueueItem} (aged : contents.Pairwise (·.enqueuedAt ≤ ·.enqueuedAt))
    (before : ∀ item ∈ contents, item.enqueuedAt ≤ timed.now) :
    (fifo contents timed).1.Pairwise (·.enqueuedAt ≤ ·.enqueuedAt) ∧
      ∀ item ∈ (fifo contents timed).1, item.enqueuedAt ≤ timed.now := by
  unfold fifo
  cases timed.call with
  | enqueue payload => grind
  | popOldest count => grind
  | len => grind

/-- The calls from a state on, with the clock past all that is queued. -/
theorem run_eq (aged : queue.live.Pairwise (·.enqueuedAt ≤ ·.enqueuedAt)) (ordered : calls.Pairwise (·.now ≤ ·.now))
    (before : ∀ item ∈ queue.live, ∀ timed ∈ calls, item.enqueuedAt ≤ timed.now)
    (past : ∀ timed ∈ calls, timed.retention ≤ timed.now) :
    (emitAll perform queue calls).2 = (emitAll fifo queue.live calls).2 := by
  induction calls generalizing queue with
  | nil => rfl
  | cons timed calls ih =>
    obtain ⟨first, ordered⟩ := pairwise_cons.1 ordered
    obtain ⟨within, past⟩ := forall_mem_cons.1 past
    have performed := perform_eq aged within
    have moved := aged_fifo aged fun item member => before item member timed mem_cons_self
    rw [emitAll_cons, emitAll_cons, ← performed]
    rw [← performed] at moved
    rw [ih moved.1 ordered (fun item member later among =>
      Nat.le_trans (moved.2 item member) (first later among)) past]

end Queue

def QueueReply.payloads : QueueReply → List Bytes
  | .popped payloads => payloads
  | _ => []

def QueueCall.payloads : QueueCall → List Bytes
  | .enqueue payload => [payload]
  | _ => []

/-- What was returned and what is left was queued or enqueued, in that order and each once. -/
theorem fifo_conserves (contents : List QueueItem) (calls : List TimedCall) :
    (emitAll fifo contents calls).2.flatMap QueueReply.payloads ++
        (emitAll fifo contents calls).1.map QueueItem.payload <+
      contents.map QueueItem.payload ++ calls.flatMap fun timed => timed.call.payloads := by
  induction calls generalizing contents with
  | nil => simp
  | cons timed calls ih =>
    have kept := (filter_sublist (p := fun item : QueueItem =>
      decide (timed.now ≤ item.enqueuedAt + timed.retention)) (l := contents)).map QueueItem.payload
    have later := ih (fifo contents timed).1
    rw [emitAll_cons, flatMap_append, flatMap_cons, append_assoc]
    refine ((Sublist.refl _).append later).trans ?_
    rw [← append_assoc]
    unfold fifo
    cases timed.call with
    | enqueue payload => simpa [QueueReply.payloads, QueueCall.payloads] using kept
    | popOldest count => simpa [QueueReply.payloads, QueueCall.payloads, take_append_drop] using kept
    | len => simpa [QueueReply.payloads, QueueCall.payloads] using kept

/-- Each call returns what the queue that is meant returns, and no record is returned twice. -/
theorem queue_refines_fifo {calls : List TimedCall} (ordered : calls.Pairwise (·.now ≤ ·.now))
    (past : ∀ timed ∈ calls, timed.retention ≤ timed.now) :
    (emitAll Queue.perform .empty calls).2 = (emitAll fifo [] calls).2 ∧
      (emitAll Queue.perform .empty calls).2.flatMap QueueReply.payloads <+
        calls.flatMap fun timed => timed.call.payloads := by
  have same := @Queue.run_eq .empty _ .nil ordered nofun past
  have conserved := fifo_conserves [] calls
  refine ⟨same, ?_⟩
  rw [same]
  exact (sublist_append_left ..).trans conserved

theorem queue_refines_fifo_sample : (emitAll Queue.perform .empty [⟨.enqueue [1], 60, 60⟩, ⟨.enqueue [2], 100, 60⟩,
      ⟨.popOldest 5, 121, 60⟩]).2 = [.enqueued, .enqueued, .popped [[2]]] :=
  (queue_refines_fifo (by decide) (by decide)).1

namespace Queue
variable {queue : Queue} {now retention : Nat} {item : QueueItem} {payload : Bytes}

theorem count_live_prune (young : (if retention ≤ now then now - retention else now) ≤ item.enqueuedAt) :
    (queue.prune now retention).live.count item = queue.live.count item := by
  unfold prune
  split
  next drained => simp [live, drop_eq_nil_of_le drained]
  next =>
    let old := fun item : QueueItem =>
      decide (item.enqueuedAt < if retention ≤ now then now - retention else now)
    have absent : (queue.live.takeWhile old).count item = 0 := by
      refine count_eq_zero.2 fun member => ?_
      have passed : old item = true := mem_takeWhile_imp member
      exact absurd (of_decide_eq_true passed) (Nat.not_lt.2 young)
    have split := prefix_iff_eq_append.1 (@ takeWhile_prefix _ queue.live old)
    conv_rhs => rw [← split, count_append, absent, Nat.zero_add, live, drop_drop]
    rfl

/-- No copy of a record leaves within its retention unless it is returned. -/
theorem count_step {event : QueueEvent} (past : retention ≤ now) (within : now ≤ item.enqueuedAt + retention) :
    queue.live.count item ≤ (queue.step (event, now, retention)).1.live.count item +
      (queue.step (event, now, retention)).2.count item.payload := by
  have pruned : (queue.prune now retention).live.count item = queue.live.count item :=
    count_live_prune (by rw [if_pos past]; omega)
  cases event with
  | enqueueUsage payload =>
    simp only [step, enqueueUsage, publishToSubscribers]
    cases payload.isEmpty with
    | true => exact Nat.le_add_right _ _
    | false =>
      cases queue.subscribers.isEmpty with
      | true =>
        simp only [Bool.false_eq_true, if_false, if_true, live_enqueue, count_append]
        omega
      | false => exact Nat.le_add_right _ _
  | popOldest count =>
    obtain ⟨left, returned⟩ := Prod.mk.inj (@live_popOldest queue now retention count)
    dsimp only [step]
    rw [left, returned]
    rw [← take_append_drop count (queue.prune now retention).live, count_append] at pruned
    have mapped := count_le_count_map (l := (queue.prune now retention).live.take count)
      (f := QueueItem.payload) (x := item)
    omega
  | len => exact Nat.le_of_eq pruned.symm
  | _ => exact Nat.le_add_right _ _

/-- The record went into the buffer of a live subscriber. -/
def Placed (queue next : Queue) (payload : Bytes) : Prop :=
  ∃ entry ∈ queue.subscribers, entry.2.closed = false ∧
    (entry.1, { entry.2 with buffer := entry.2.buffer ++ [payload] }) ∈ next.subscribers

/-- One more copy of the record was queued, and whatever happens within its retention, each
copy stays or is popped. -/
def Retained (queue next : Queue) (item : QueueItem) : Prop :=
  next.live.count item = queue.live.count item + 1 ∧
    ∀ events : List (QueueEvent × Nat × Nat),
      (∀ timed ∈ events, timed.2.2 ≤ timed.2.1 ∧ timed.2.1 ≤ item.enqueuedAt + timed.2.2) →
      next.live.count item ≤ (emitAll step next events).1.live.count item +
        (emitAll step next events).2.count item.payload

theorem count_run {next : Queue} {events : List (QueueEvent × Nat × Nat)}
    (within : ∀ timed ∈ events, timed.2.2 ≤ timed.2.1 ∧ timed.2.1 ≤ item.enqueuedAt + timed.2.2) :
    next.live.count item ≤ (emitAll step next events).1.live.count item +
      (emitAll step next events).2.count item.payload := by
  induction events generalizing next with
  | nil => exact Nat.le_add_right _ _
  | cons timed events ih =>
    obtain ⟨event, now, retention⟩ := timed
    obtain ⟨⟨past, young⟩, within⟩ := forall_mem_cons.1 within
    have first := @count_step next now retention item event past young
    have later := @ih (next.step (event, now, retention)).1 within
    rw [emitAll_cons]
    dsimp only
    rw [count_append]
    omega

/-- A record is kept exactly when nobody subscribes or some subscriber takes it. -/
theorem usage_kept_iff (filled : payload ≠ []) : (Placed queue (queue.enqueueUsage payload now retention) payload ∨
      Retained queue (queue.enqueueUsage payload now retention) ⟨now, payload⟩) ↔
    queue.subscribers = [] ∨ ∃ entry ∈ queue.subscribers, entry.2.accepts = true := by
  by_cases alone : queue.subscribers = []
  · have queued : queue.enqueueUsage payload now retention = queue.enqueue payload now retention := by
      simp [enqueueUsage, publishToSubscribers, alone, filled]
    refine iff_of_true (.inr ⟨?_, fun events => count_run⟩) (.inl alone)
    rw [queued, live_enqueue, count_append, count_live_prune (by dsimp only; split <;> omega)]
    simp
  · have sent : queue.enqueueUsage payload now retention = { queue with
        subscribers := queue.subscribers.filterMap fun entry =>
          (entry.2.trySend payload).map (entry.1, ·) } := by
      simp [enqueueUsage, publishToSubscribers, alone, filled]
    rw [sent]
    constructor
    · rintro (⟨entry, -, -, taken⟩ | ⟨more, -⟩)
      · obtain ⟨source, member, sent⟩ := mem_filterMap.1 taken
        refine .inr ⟨source, member, ?_⟩
        by_contra refuses
        simp [Subscriber.trySend, refuses] at sent
      · exact absurd more (Nat.ne_of_lt (Nat.lt_succ_self _))
    · rintro (none | ⟨entry, member, accepts⟩)
      · exact absurd none alone
      · have room := accepts
        simp only [Subscriber.accepts, Bool.and_eq_true, Bool.not_eq_true'] at room
        refine .inl ⟨entry, member, room.1, mem_filterMap.2 ⟨entry, member, ?_⟩⟩
        simp [Subscriber.trySend, accepts]

/-- A second copy of a record, behind another record and after a subscriber left. -/
theorem usage_kept_unsubscribed : let left := (emitAll step empty [(.enqueueUsage [5], 60, 60), (.enqueueUsage [7], 61, 60),
      (.subscribe 1 none, 61, 60), (.unsubscribe 1, 61, 60)]).1
    Retained left (left.enqueueUsage [7] 61 60) ⟨61, [7]⟩ := by
  refine ((usage_kept_iff (by decide)).2 (.inl (by decide))).resolve_left ?_
  rintro ⟨entry, member, -⟩
  exact absurd member not_mem_nil

/-- The only receiver was dropped, and the record with it. -/
theorem usage_lost : let left := (emitAll step empty [(.subscribe 256 none, 60, 60), (.close 1, 60, 60)]).1
    ¬ (Placed left (left.enqueueUsage [7] 60 60) [7] ∨ Retained left (left.enqueueUsage [7] 60 60) ⟨60, [7]⟩) := by
  rintro left (⟨entry, -, -, placed⟩ | ⟨more, -⟩)
  · exact absurd placed not_mem_nil
  · exact absurd more (by decide)

end Queue
end Mahoquot.Gateway
