import Mahoquot.Compat.Devin

/-! What a data frame does to a Devin decoder: the events it hands on, the table of
calls it leaves, and what it does not touch. -/

set_option autoImplicit false

namespace Mahoquot.Compat
open Library List
variable {second third : DevinDecoder × List CodexEvent}
namespace DevinDecoder

/-- A stretch of events that closes, if at all, with a failure. -/
structure Runs (closed : Bool) (events : List CodexEvent) (closed' : Bool) : Prop where
  moves : Moves CodexEvent.isTerminal closed events closed'
  uncompleted : ∀ usage, .completed usage ∉ events

theorem Runs.refl (closed : Bool) : Runs closed [] closed := ⟨.refl closed, by simp⟩

variable {decoder : DevinDecoder} {events : List CodexEvent} {tool : ToolState}

theorem Runs.plain (plain : ∀ event ∈ events, event.isTerminal = false) : Runs false events false := by
  refine ⟨.running plain, fun usage member => ?_⟩
  have terminal := plain _ member
  cases terminal

theorem Runs.failed (message : String) : Runs false [.failed message] true :=
  ⟨.of_terminal rfl, by simp⟩

theorem Runs.append {before middle after : Bool} {first second : List CodexEvent}
    (left : Runs before first middle) (right : Runs middle second after) : Runs before (first ++ second) after := by
  refine ⟨left.moves.append right.moves, fun usage member => ?_⟩
  rcases mem_append.mp member with earlier | later
  · exact left.uncompleted usage earlier
  · exact right.uncompleted usage later

theorem beginIfKnown_plain (tool : ToolState) : ∀ event ∈ tool.beginIfKnown.2, event.isTerminal = false := by
  simp only [ToolState.beginIfKnown]
  split
  · simp [ToolState.begin, CodexEvent.isTerminal]
  · simp

theorem addArgs_plain (tool : ToolState) (args : Option String) :
    ∀ event ∈ (tool.addArgs args).2, event.isTerminal = false := by
  cases args with
  | none => simp [ToolState.addArgs]
  | some args =>
    simp only [ToolState.addArgs]
    split <;> simp [CodexEvent.isTerminal]

theorem absorb_plain (tool : ToolState) (name args : Option String) :
    ∀ event ∈ (tool.absorb name args).2, event.isTerminal = false := by
  exact forall_mem_append.mpr ⟨beginIfKnown_plain _, addArgs_plain _ args⟩

theorem messageEvents_plain (message : ChatMessageResponse) :
    ∀ event ∈ messageEvents message, event.isTerminal = false := by
  intro event member
  simp only [messageEvents, mem_append, Option.mem_toList, Option.map_eq_some_iff] at member
  rcases member with ((⟨_, _, rfl⟩ | redacted) | ⟨_, _, rfl⟩) | ⟨_, _, rfl⟩
  · rfl
  · split at redacted
    · rw [mem_singleton.mp redacted]
      rfl
    · simp at redacted
  · rfl
  · rfl

/-- The argument pieces the events hand on for one call. -/
def argPieces (index : Nat) (events : List CodexEvent) : List String :=
  events.filterMap fun
    | .toolArgsDelta block delta => if block = index then some delta else none
    | _ => none

@[simp] theorem argPieces_nil (index : Nat) : argPieces index [] = [] := rfl

@[simp] theorem argPieces_append (index : Nat) (first second : List CodexEvent) :
    argPieces index (first ++ second) = argPieces index first ++ argPieces index second :=
  filterMap_append

@[simp] theorem argPieces_begin (index block : Nat) (callId name : String) (events : List CodexEvent) :
    argPieces index (.toolCallBegin block callId name :: events) = argPieces index events := rfl

theorem argPieces_args (index block : Nat) (pieces : List String) :
    argPieces index (pieces.map (.toolArgsDelta block)) = if block = index then pieces else [] := by
  induction pieces with
  | nil => simp
  | cons piece pieces ih =>
    by_cases same : block = index
    · simp [argPieces, same]
    · simp [argPieces, same]

def chars (pieces : List String) : List Char := pieces.flatMap String.toList

/-- What arrived for a call is handed on, waits for the call to begin, or is owed. -/
structure Handed (tool : ToolState) (owed : List String) (events : List CodexEvent) : Prop where
  pieces : chars (argPieces tool.blockIndex events ++ tool.pendingArgs ++ owed) = tool.args.toList
  begun : tool.began = true → tool.pendingArgs = [] ∧ ∃ callId name,
    tool.callId = some callId ∧ .toolCallBegin tool.blockIndex callId name ∈ events

theorem Handed.append {owed : List String} (handed : Handed tool owed events)
    {more : List CodexEvent} (other : argPieces tool.blockIndex more = []) : Handed tool owed (events ++ more) := by
  refine ⟨?_, fun began => ?_⟩
  · rw [argPieces_append, other, append_nil]
    exact handed.pieces
  · obtain ⟨drained, callId, name, known, announced⟩ := handed.begun began
    exact ⟨drained, callId, name, known, mem_append_left _ announced⟩

/-- What a step of one call does to the account of its pieces. -/
structure Hands (before : ToolState) (owed : List String) (after : ToolState × List CodexEvent)
    (left : List String) : Prop where
  block : after.1.blockIndex = before.blockIndex
  apart : ∀ index, index ≠ before.blockIndex → argPieces index after.2 = []
  handed : ∀ events, Handed before owed events → Handed after.1 left (events ++ after.2)

theorem Hands.trans {first : ToolState} {second third : ToolState × List CodexEvent}
    {owed middle left : List String} (earlier : Hands first owed second middle)
    (later : Hands second.1 middle third left) : Hands first owed (third.1, second.2 ++ third.2) left := by
  refine ⟨later.block.trans earlier.block, fun index other => ?_, fun events handed => ?_⟩
  · rw [argPieces_append, earlier.apart index other, later.apart index (by rw [earlier.block]; exact other), append_nil]
  · rw [← append_assoc]
    exact later.handed _ (earlier.handed events handed)

theorem hands_named (tool : ToolState) (name args : Option String) :
    Hands tool [] ({ tool with name, args := tool.args ++ args.getD "" }, []) args.toList := by
  refine ⟨rfl, fun _ _ => rfl, fun events handed => ?_⟩
  rw [append_nil]
  refine ⟨?_, handed.begun⟩
  have pieces := handed.pieces
  cases args with
  | none => simpa [chars] using pieces
  | some args => simp [chars, ← pieces]

theorem hands_beginIfKnown (tool : ToolState) (owed : List String) : Hands tool owed tool.beginIfKnown owed := by
  simp only [ToolState.beginIfKnown]
  split
  next callId name _ known named =>
    refine ⟨rfl, fun index other => ?_, fun events handed => ⟨?_, fun _ => ?_⟩⟩
    · rw [ToolState.begin, argPieces_begin, argPieces_args, if_neg (Ne.symm other)]
    · have pieces := handed.pieces
      simp only [ToolState.begin, argPieces_append, argPieces_begin, argPieces_args, append_nil]
      exact pieces
    · exact ⟨rfl, callId, name, known, by simp [ToolState.begin]⟩
  · refine ⟨rfl, fun _ _ => rfl, fun events handed => ?_⟩
    rw [append_nil]
    exact handed

theorem hands_addArgs (tool : ToolState) (args : Option String) : Hands tool args.toList (tool.addArgs args) [] := by
  cases args with
  | none =>
    refine ⟨rfl, fun _ _ => rfl, fun events handed => ?_⟩
    rw [ToolState.addArgs, append_nil]
    exact handed
  | some args =>
    simp only [ToolState.addArgs]
    split
    next began =>
      refine ⟨rfl, fun index other => ?_, fun events handed => ⟨?_, fun _ => ?_⟩⟩
      · exact (argPieces_args index tool.blockIndex [args]).trans (if_neg (Ne.symm other))
      · have alone := argPieces_args tool.blockIndex tool.blockIndex [args]
        have pieces := handed.pieces
        rw [(handed.begun began).1] at pieces
        rw [argPieces_append, (handed.begun began).1]
        rw [map_singleton] at alone
        rw [alone, append_nil]
        simpa using pieces
      · obtain ⟨drained, callId, name, known, announced⟩ := handed.begun began
        exact ⟨drained, callId, name, known, mem_append_left _ announced⟩
    next waiting =>
      refine ⟨rfl, fun _ _ => rfl, fun events handed => ?_⟩
      rw [append_nil]
      refine ⟨?_, fun began => absurd began waiting⟩
      have pieces := handed.pieces
      rw [append_nil, ← append_assoc]
      exact pieces

theorem hands_absorb (tool : ToolState) (name args : Option String) : Hands tool [] (tool.absorb name args) [] := by
  have named := hands_named tool (name.or tool.name) args
  have begun := named.trans (hands_beginIfKnown _ args.toList)
  exact begun.trans (hands_addArgs _ args)

/-- The table of calls accounts for the tool events: a call's block is its place. -/
structure Ledger (decoder : DevinDecoder) (events : List CodexEvent) : Prop where
  numbered : decoder.nextBlock = decoder.tools.length
  placed : ∀ index tool, decoder.tools[index]? = some tool →
    tool.blockIndex = index ∧ Handed tool [] events
  fresh : ∀ index, decoder.tools.length ≤ index → argPieces index events = []

theorem ledger_new : Ledger .new [] := ⟨rfl, by simp [new], by simp⟩

theorem Ledger.append {more : List CodexEvent} (ledger : Ledger decoder events)
    (untold : ∀ index, argPieces index more = []) : Ledger decoder (events ++ more) := by
  refine ⟨ledger.numbered, fun index tool found => ?_, fun index beyond => ?_⟩
  · obtain ⟨place, handed⟩ := ledger.placed index tool found
    exact ⟨place, handed.append (untold _)⟩
  · rw [argPieces_append, ledger.fresh index beyond, untold index, append_nil]

theorem Ledger.of_tools {other : DevinDecoder} (ledger : Ledger decoder events)
    (tools : other.tools = decoder.tools) (counter : other.nextBlock = decoder.nextBlock) : Ledger other events :=
  ⟨by rw [tools, counter]; exact ledger.numbered, by rw [tools]; exact ledger.placed,
    by rw [tools]; exact ledger.fresh⟩

theorem ledger_openTool (ledger : Ledger decoder events) (callId : Option String) :
    Ledger (decoder.openTool callId) events := by
  refine ⟨?_, fun index tool found => ?_, fun index beyond => ?_⟩
  · simp [openTool, ledger.numbered]
  · simp only [openTool, getElem?_append, getElem?_singleton] at found
    split at found
    · exact ledger.placed index tool found
    next old =>
      split at found
      next last =>
        cases found
        have place : index = decoder.tools.length := by omega
        refine ⟨ledger.numbered.trans place.symm, ?_, fun began => by cases began⟩
        have none := ledger.fresh decoder.nextBlock (Nat.le_of_eq ledger.numbered.symm)
        simp [ToolState.new, none, chars]
      · cases found
  · simp only [openTool, length_append] at beyond
    exact ledger.fresh index (by omega)

variable {index : Nat}

theorem pendingIndices_unknown (pending : index ∈ decoder.pendingIndices) :
    ∃ tool, decoder.tools[index]? = some tool ∧ tool.callId = none := by
  have unknown := (mem_filter.mp pending).2
  cases found : decoder.tools[index]? with
  | none => simp [found] at unknown
  | some tool => exact ⟨tool, rfl, by simpa [found] using unknown⟩

theorem ledger_identify (ledger : Ledger decoder events) (pending : index ∈ decoder.pendingIndices) (id : String) :
    Ledger { decoder with tools := decoder.tools.modify index fun tool => { tool with callId := some id } } events := by
  refine ⟨by simpa using ledger.numbered, fun place tool found => ?_, by simpa using ledger.fresh⟩
  simp only [getElem?_modify] at found
  cases old : decoder.tools[place]? with
  | none => simp [old] at found
  | some before =>
    obtain ⟨block, handed⟩ := ledger.placed place before old
    simp only [old, Option.map_eq_map, Option.map_some, Option.some.injEq] at found
    split at found
    next same =>
      subst same found
      obtain ⟨_, again, unknown⟩ := pendingIndices_unknown pending
      rw [old] at again
      cases again
      refine ⟨block, handed.pieces, fun began => ?_⟩
      obtain ⟨_, _, _, known, _⟩ := handed.begun began
      rw [unknown] at known
      cases known
    · subst found
      exact ⟨block, handed⟩

/-- What a part of a stream does: its events, and the calls they account for. -/
structure Takes (before : DevinDecoder) (after : DevinDecoder × List CodexEvent) : Prop where
  finished : after.1.finished = before.finished
  runs : Runs before.failed after.2 after.1.failed
  ledger : ∀ {events}, Ledger before events → Ledger after.1 (events ++ after.2)

theorem Takes.trans {first : DevinDecoder}
    (left : Takes first second) (right : Takes second.1 third) : Takes first (third.1, second.2 ++ third.2) := by
  refine ⟨right.finished.trans left.finished, left.runs.append right.runs, fun ledger => ?_⟩
  rw [← append_assoc]
  exact right.ledger (left.ledger ledger)

/-- A data frame leaves the buffer and the end mark alone as well. -/
structure Decodes (before : DevinDecoder) (after : DevinDecoder × List CodexEvent) : Prop
    extends Takes before after where
  buf : after.1.buf = before.buf
  terminated : after.1.outcome.terminated = before.outcome.terminated

theorem Decodes.trans {first : DevinDecoder}
    (left : Decodes first second) (right : Decodes second.1 third) : Decodes first (third.1, second.2 ++ third.2) :=
  ⟨left.toTakes.trans right.toTakes, right.buf.trans left.buf, right.terminated.trans left.terminated⟩

theorem Decodes.record {before : DevinDecoder} {after : DevinDecoder × List CodexEvent}
    (decodes : Decodes before after) (outcome : DevinOutcome) (same : outcome.terminated = after.1.outcome.terminated) :
    Decodes before ({ after.1 with outcome }, after.2) :=
  ⟨⟨decodes.finished, decodes.runs, fun ledger => (decodes.ledger ledger).of_tools rfl rfl⟩,
    decodes.buf, same.trans decodes.terminated⟩

theorem takes_nil {after : DevinDecoder} (finished : after.finished = decoder.finished)
    (failed : after.failed = decoder.failed) (tools : after.tools = decoder.tools)
    (counter : after.nextBlock = decoder.nextBlock) : Takes decoder (after, []) :=
  ⟨finished, failed ▸ .refl _, fun ledger => (ledger.append fun _ => rfl).of_tools tools counter⟩

theorem takes_fail (decoder : DevinDecoder) (running : decoder.failed = false) (message : String) :
    Takes decoder (decoder.fail message) :=
  ⟨rfl, running ▸ .failed message, fun ledger => (ledger.append fun _ => rfl).of_tools rfl rfl⟩

theorem decodes_fail (running : decoder.failed = false) (message : String) : Decodes decoder (decoder.fail message) :=
  ⟨takes_fail decoder running message, rfl, rfl⟩

theorem decodes_plain (running : decoder.failed = false) (plain : ∀ event ∈ events, event.isTerminal = false)
    (untold : ∀ index, argPieces index events = []) : Decodes decoder (decoder, events) :=
  ⟨⟨rfl, running ▸ .plain plain, fun ledger => ledger.append untold⟩, rfl, rfl⟩

theorem resolveTool_keeps {resolved : DevinDecoder} {id : Option String}
    (ok : decoder.resolveTool id = .ok (resolved, index)) :
    (∀ {events}, Ledger decoder events → Ledger resolved events) ∧
      resolved.finished = decoder.finished ∧ resolved.failed = decoder.failed ∧
      resolved.buf = decoder.buf ∧ resolved.outcome = decoder.outcome := by
  simp only [resolveTool] at ok
  repeat' split at ok
  all_goals cases ok
  all_goals refine ⟨fun ledger => ?_, rfl, rfl, rfl, rfl⟩
  · exact ledger
  · exact ledger_openTool ledger _
  · next pending _ => exact ledger_identify ledger (by rw [pending]; simp) _
  · exact ledger_openTool ledger none
  · exact ledger

theorem ledger_set (ledger : Ledger decoder events) (found : decoder.tools[index]? = some tool)
    {after : ToolState × List CodexEvent} (hands : Hands tool [] after []) :
    Ledger { decoder with tools := decoder.tools.set index after.1 } (events ++ after.2) := by
  obtain ⟨block, handed⟩ := ledger.placed index tool found
  have short := (List.getElem?_eq_some_iff.mp found).1
  refine ⟨by simpa using ledger.numbered, fun place other held => ?_, fun place beyond => ?_⟩
  · simp only [getElem?_set] at held
    split at held
    next same =>
      subst same
      cases held
      exact ⟨hands.block.trans block, hands.handed events handed⟩
    next different =>
      obtain ⟨otherBlock, otherHanded⟩ := ledger.placed place other held
      refine ⟨otherBlock, otherHanded.append (hands.apart _ ?_)⟩
      rw [otherBlock, block]
      exact Ne.symm different
  · simp only [length_set] at beyond
    rw [argPieces_append, ledger.fresh place beyond, hands.apart place (by omega), append_nil]

theorem decodeToolDelta_decodes (running : decoder.failed = false) (delta : ChatToolCall) :
    Decodes decoder (decoder.decodeToolDelta delta) := by
  simp only [decodeToolDelta]
  cases resolves : decoder.resolveTool (nonEmpty delta.id) with
  | error message => exact decodes_fail running message
  | ok result =>
    obtain ⟨resolved, index⟩ := result
    obtain ⟨kept, finished, failed, buf, outcome⟩ := resolveTool_keeps resolves
    have running : resolved.failed = false := failed.trans running
    dsimp only
    cases found : resolved.tools[index]? with
    | none =>
      exact ⟨⟨finished, failed ▸ .refl _, fun ledger => kept (ledger.append fun _ => rfl)⟩, buf, by rw [outcome]⟩
    | some tool =>
      refine ⟨⟨finished, ?_, fun ledger => ?_⟩, buf, by rw [outcome]⟩
      · rw [← failed, running]
        exact .plain (absorb_plain tool _ _)
      · exact ledger_set (kept ledger) found (hands_absorb tool _ _)

theorem decodeToolDeltas_decodes (running : decoder.failed = false) (deltas : List ChatToolCall) :
    Decodes decoder (decoder.decodeToolDeltas deltas) := by
  induction deltas generalizing decoder with
  | nil => exact decodes_plain running (by simp) fun _ => rfl
  | cons delta deltas ih =>
    have first := decodeToolDelta_decodes running delta
    simp only [decodeToolDeltas]
    split
    · exact first
    next open' => exact first.trans (ih (by simpa using open'))

theorem argPieces_messageEvents (message : ChatMessageResponse) (index : Nat) :
    argPieces index (messageEvents message) = [] := by
  simp only [messageEvents]
  cases nonEmpty message.deltaThinking <;> cases nonEmpty message.deltaSignature <;>
    cases nonEmpty message.deltaText <;> split <;> rfl

theorem stopWith_decodes (running : decoder.failed = false) (stop : Int) : Decodes decoder (decoder.stopWith stop) := by
  simp only [stopWith]
  split
  · exact decodes_plain running (by simp [CodexEvent.isTerminal]) fun _ => rfl
  · split
    · exact decodes_fail running _
    · exact decodes_plain running (by simp) fun _ => rfl

theorem decodeData_decodes (wire : DevinWire) (decoder : DevinDecoder)
    (running : decoder.failed = false) (payload : Bytes) : Decodes decoder (decoder.decodeData wire payload) := by
  simp only [decodeData]
  cases wire.chatMessage payload with
  | error error => exact decodes_fail running _
  | ok message =>
    dsimp only
    have spoken := decodes_plain running (messageEvents_plain message) (argPieces_messageEvents message)
    have called := spoken.trans (decodeToolDeltas_decodes running message.deltaToolCalls)
    split
    · exact called
    next open' =>
      have recorded := called.record (recordOutcome _ message) rfl
      cases message.stopReason with
      | none => simpa using recorded
      | some stop => exact recorded.trans (stopWith_decodes (by simpa using open') stop)

end DevinDecoder
end Mahoquot.Compat
