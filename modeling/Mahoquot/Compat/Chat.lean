import Mahoquot.Compat.Events
import Mahoquot.Library.Transducer

/-! Chat completions: the chunks of a streamed answer, and the one object of an answer that
is not streamed, which a client that puts the chunks together holds as well. -/

set_option autoImplicit false

namespace Mahoquot.Compat

def usageValue (usage : Usage) : Value :=
  let value := Value.obj [
    ("prompt_tokens", .ofNat usage.promptTokens),
    ("completion_tokens", .ofNat usage.completionTokens),
    ("total_tokens", .ofNat usage.totalTokens),
    ("completion_tokens_details", .obj [("reasoning_tokens", .ofNat usage.reasoningTokens)])]
  let detail := fun (value : Value) (key : String) (tokens : Nat) =>
    value.set "prompt_tokens_details" ((value.index "prompt_tokens_details").set key (.ofNat tokens))
  let value := if usage.cachedTokensKnown then detail value "cached_tokens" usage.cachedTokens else value
  if usage.cacheWriteTokensKnown then detail value "cache_write_tokens" usage.cacheWriteTokens
  else value

structure ChunkRenderer where
  id : String
  model : String
  created : Int
  includeUsage : Bool
  roleSent : Bool
  sawToolCall : Bool
  outputLimitReached : Bool
  terminated : Bool
  toolSlots : List Nat
deriving Repr, DecidableEq

namespace ChunkRenderer

def new (model : String) (created : Int) (includeUsage : Bool) : ChunkRenderer :=
  { id := s!"chatcmpl-{created}", model, created, includeUsage, roleSent := false
    sawToolCall := false, outputLimitReached := false, terminated := false, toolSlots := [] }

variable (renderer : ChunkRenderer)

def slot (outputIndex : Nat) : ChunkRenderer × Nat :=
  match renderer.toolSlots.findIdx? (· == outputIndex) with
  | some position => (renderer, position)
  | none => ({ renderer with toolSlots := renderer.toolSlots ++ [outputIndex] }, renderer.toolSlots.length)

def chunk (delta : Value) (finishReason : Option String) : WireFrame :=
  .data (.obj [ ("id", .string renderer.id), ("object", .string "chat.completion.chunk"),
    ("created", .ofInt renderer.created),
    ("model", .string renderer.model),
    ("choices", .array [.obj [ ("index", .ofNat 0), ("delta", delta),
      ("finish_reason", (finishReason.map Value.string).getD .null)]])])

def rolePrelude : ChunkRenderer × List WireFrame :=
  if renderer.roleSent then (renderer, [])
  else
    let sent := { renderer with roleSent := true }
    (sent, [sent.chunk (.obj [("role", .string "assistant"), ("content", .string "")]) none])

def finishReason : String :=
  if renderer.outputLimitReached then "length"
  else if renderer.sawToolCall then "tool_calls"
  else "stop"

def usageFrame (usage : Option Usage) : WireFrame :=
  .data (.obj [ ("id", .string renderer.id), ("object", .string "chat.completion.chunk"),
    ("created", .ofInt renderer.created),
    ("model", .string renderer.model),
    ("choices", .array []),
    ("usage", (usage.map usageValue).getD .null)])

def render (event : CodexEvent) : ChunkRenderer × List WireFrame :=
  if renderer.terminated then (renderer, [])
  else
    let opened := renderer.rolePrelude
    match event with
    | .created responseId =>
      if responseId.isEmpty then (renderer, [])
      else ({ renderer with id := "chatcmpl-" ++ responseId }, [])
    | .textDelta text => (opened.1, opened.2 ++ [opened.1.chunk (.obj [("content", .string text)]) none])
    | .reasoningDelta text =>
      (opened.1, opened.2 ++ [opened.1.chunk (.obj [("reasoning_content", .string text)]) none])
    | .reasoningSignature _ => (renderer, [])
    | .reasoningRedacted => (renderer, [])
    | .toolCallBegin outputIndex callId name =>
      let slotted := { opened.1 with sawToolCall := true }.slot outputIndex
      (slotted.1, opened.2 ++ [slotted.1.chunk (.obj [("tool_calls", .array [.obj [ ("index", .ofNat slotted.2),
        ("id", .string callId),
        ("type", .string "function"),
        ("function", .obj [("name", .string name), ("arguments", .string "")])]])]) none])
    | .toolArgsDelta outputIndex delta =>
      let slotted := opened.1.slot outputIndex
      (slotted.1, opened.2 ++ [slotted.1.chunk (.obj [("tool_calls", .array [.obj [ ("index", .ofNat slotted.2),
        ("function", .obj [("arguments", .string delta)])]])]) none])
    | .outputLimitReached => ({ renderer with outputLimitReached := true }, [])
    | .completed usage =>
      ({ opened.1 with terminated := true }, opened.2 ++ [opened.1.chunk (.obj []) (some opened.1.finishReason)] ++
          (if opened.1.includeUsage then [opened.1.usageFrame usage] else []) ++ [.done])
    | .failed message =>
      ({ renderer with terminated := true }, [.data (.obj [("error", .obj [
          ("message", .string message), ("type", .string "upstream_error")])]), .done])

def closeUnterminated : ChunkRenderer × List WireFrame :=
  if renderer.terminated then (renderer, [])
  else renderer.render (.failed "upstream stream ended before completion")

end ChunkRenderer

structure ToolAccumulator where
  outputIndex : Nat
  callId : String
  name : String
  arguments : String
deriving Repr, DecidableEq

structure Aggregator where
  id : String
  model : String
  created : Int
  text : String
  reasoning : String
  tools : List ToolAccumulator
  usage : Option Usage
  failure : Option String
  outputLimitReached : Bool
deriving Repr, DecidableEq

def modifyFirst {α : Type} (test : α → Bool) (change : α → α) : List α → List α
  | [] => []
  | item :: rest => if test item then change item :: rest else item :: modifyFirst test change rest

namespace Aggregator

def new (model : String) (created : Int) : Aggregator :=
  { id := s!"chatcmpl-{created}", model, created, text := "", reasoning := "", tools := []
    usage := none, failure := none, outputLimitReached := false }

variable (aggregator : Aggregator)

def push : CodexEvent → Aggregator
  | .created responseId =>
    if responseId.isEmpty then aggregator
    else { aggregator with id := "chatcmpl-" ++ responseId }
  | .textDelta text => { aggregator with text := aggregator.text ++ text }
  | .reasoningDelta text => { aggregator with reasoning := aggregator.reasoning ++ text }
  | .toolCallBegin outputIndex callId name =>
    { aggregator with tools := aggregator.tools ++ [⟨outputIndex, callId, name, ""⟩] }
  | .toolArgsDelta outputIndex delta =>
    { aggregator with
      tools := modifyFirst (·.outputIndex == outputIndex)
        (fun tool => { tool with arguments := tool.arguments ++ delta }) aggregator.tools }
  | .reasoningSignature _ => aggregator
  | .reasoningRedacted => aggregator
  | .completed usage => { aggregator with usage := usage }
  | .outputLimitReached => { aggregator with outputLimitReached := true }
  | .failed message => { aggregator with failure := some message }

def message (aggregator : Aggregator) : Value :=
  let message := Value.obj [("role", .string "assistant"), ("content", .null)]
  let message :=
    if aggregator.reasoning.isEmpty then message
    else message.set "reasoning_content" (.string aggregator.reasoning)
  let message := if aggregator.text.isEmpty then message else message.set "content" (.string aggregator.text)
  if aggregator.tools.isEmpty then message
  else message.set "tool_calls" (.array (aggregator.tools.map fun tool => .obj [
    ("id", .string tool.callId),
    ("type", .string "function"),
    ("function", .obj [("name", .string tool.name), ("arguments", .string tool.arguments)])]))

def finishReason : String :=
  if aggregator.outputLimitReached then "length"
  else if aggregator.tools.isEmpty then "stop"
  else "tool_calls"

def intoCompletion : Value :=
  let payload := Value.obj [
    ("id", .string aggregator.id),
    ("object", .string "chat.completion"),
    ("created", .ofInt aggregator.created),
    ("model", .string aggregator.model),
    ("choices", .array [.obj [ ("index", .ofNat 0), ("message", aggregator.message),
      ("finish_reason", .string aggregator.finishReason)]])]
  match aggregator.usage with
  | some usage => payload.set "usage" (usageValue usage)
  | none => payload

end Aggregator

open Library Value Aggregator ToolAccumulator List

attribute [local simp] Value.obj Value.index

structure ClientCall where
  id : String
  name : String
  arguments : String
deriving Repr, DecidableEq

/-- What a client makes of a chat completion. Text that is absent or `null` is
the empty one. -/
structure ClientAnswer where
  content : String
  reasoning : String
  toolCalls : List ClientCall
  finishReason : Option String
deriving Repr, DecidableEq

namespace ClientAnswer

def empty : ClientAnswer := ⟨"", "", [], none⟩

def text (value : Value) (key : String) : String := ((value.get key).bind asStr).getD ""

/-- A tool call delta joins the call of its index: identifier and name are set
when they come, arguments are appended. -/
def mergeCall (calls : List ClientCall) (delta : Value) : List ClientCall :=
  let index := ((delta.get "index").bind asU64).getD 0
  let padded := calls ++ replicate (index + 1 - calls.length) ⟨"", "", ""⟩
  padded.modify index fun call =>
    { id := ((delta.get "id").bind asStr).getD call.id
      name := (((delta.index "function").get "name").bind asStr).getD call.name
      arguments := call.arguments ++ text (delta.index "function") "arguments" }

def items (value : Value) (key : String) : List Value :=
  ((value.get key).bind asArray).getD []

def read (answer : ClientAnswer) : WireFrame → ClientAnswer
  | .data payload =>
    match items payload "choices" with
    | [] => answer
    | choice :: _ =>
      let delta := choice.index "delta"
      { content := answer.content ++ text delta "content"
        reasoning := answer.reasoning ++ text delta "reasoning_content"
        toolCalls := (items delta "tool_calls").foldl mergeCall answer.toolCalls
        finishReason := ((choice.get "finish_reason").bind asStr).or
          answer.finishReason }
  | _ => answer

def ofCompletion (completion : Value) : ClientAnswer :=
  let choice := (items completion "choices").headD .null
  let message := choice.index "message"
  { content := text message "content"
    reasoning := text message "reasoning_content"
    toolCalls := (items message "tool_calls").map fun call =>
      { id := text call "id"
        name := text (call.index "function") "name"
        arguments := text (call.index "function") "arguments" }
    finishReason := (choice.get "finish_reason").bind asStr }

variable (renderer : ChunkRenderer) (answer : ClientAnswer)

theorem read_chunk (delta : Value) (finish : Option String) : answer.read (renderer.chunk delta finish) =
      { content := answer.content ++ text delta "content"
        reasoning := answer.reasoning ++ text delta "reasoning_content"
        toolCalls := (items delta "tool_calls").foldl mergeCall answer.toolCalls
        finishReason := finish.or answer.finishReason } := by
  cases finish <;>
    simp [read, ChunkRenderer.chunk, items, asArray, asStr]

theorem read_calls (calls : List Value) : answer.read (renderer.chunk (.obj [("tool_calls", .array calls)]) none) =
      { answer with toolCalls := calls.foldl mergeCall answer.toolCalls } := by
  rw [read_chunk]
  simp [text, items, asArray]

theorem read_prelude : renderer.rolePrelude.2.foldl read answer = answer := by
  unfold ChunkRenderer.rolePrelude
  split
  · rfl
  · rw [foldl_cons, read_chunk]
    simp [text, items]

theorem mergeCall_begin (calls : List ClientCall) (id name : String) : mergeCall calls (.obj [
      ("index", .ofNat calls.length), ("id", .string id), ("type", .string "function"),
      ("function", .obj [("name", .string name), ("arguments", .string "")])]) = calls ++ [⟨id, name, ""⟩] := by
  simp [mergeCall, text, asU64, ofNat, modify_eq_take_drop]

theorem mergeCall_arguments (calls : List ClientCall) {index : Nat} (held : index < calls.length)
    (delta : String) : mergeCall calls (.obj [ ("index", .ofNat index),
      ("function", .obj [("arguments", .string delta)])]) =
      calls.modify index fun call => { call with arguments := call.arguments ++ delta } := by
  have enough : index + 1 - calls.length = 0 := by omega
  simp [mergeCall, text, asU64, ofNat, enough]

end ClientAnswer

theorem map_modifyFirst {α β : Type} {test : α → Bool} {change : α → α} (view : α → β)
    (change' : β → β) (respects : ∀ item, view (change item) = change' (view item)) {items : List α}
    {index : Nat} (found : items.findIdx? test = some index) :
    (modifyFirst test change items).map view = (items.map view).modify index change' := by
  induction items generalizing index with
  | nil => cases found
  | cons item rest ih =>
    rw [findIdx?_cons] at found
    rw [modifyFirst]
    by_cases here : test item = true
    · rw [if_pos here] at found ⊢
      cases found
      rw [map_cons, respects]
      rfl
    · rw [if_neg here] at found ⊢
      obtain ⟨later, behind, rfl⟩ := Option.map_eq_some_iff.mp found
      rw [map_cons, ih behind]
      rfl

theorem map_modifyFirst_same {α β : Type} {test : α → Bool} {change : α → α} (view : α → β)
    (respects : ∀ item, view (change item) = view item) (items : List α) :
    (modifyFirst test change items).map view = items.map view := by
  induction items with
  | nil => rfl
  | cons item rest ih =>
    rw [modifyFirst]
    split
    · rw [map_cons, map_cons, respects]
    · rw [map_cons, map_cons, ih]

theorem addArguments_slots (outputIndex : Nat) (delta : String) (tools : List ToolAccumulator) :
    (modifyFirst (·.outputIndex == outputIndex)
        (fun tool => { tool with arguments := tool.arguments ++ delta }) tools).map
      ToolAccumulator.outputIndex = tools.map ToolAccumulator.outputIndex := by
  apply map_modifyFirst_same
  intro tool
  rfl

def ToolAccumulator.call (tool : ToolAccumulator) : ClientCall :=
  ⟨tool.callId, tool.name, tool.arguments⟩

/-- The streaming renderer, the aggregator and the client are at the same point
of an answer. -/
structure Tracks (renderer : ChunkRenderer) (aggregator : Aggregator) (answer : ClientAnswer) : Prop where
  running : renderer.terminated = false
  slots : renderer.toolSlots = aggregator.tools.map (·.outputIndex)
  saw : renderer.sawToolCall = !aggregator.tools.isEmpty
  limit : renderer.outputLimitReached = aggregator.outputLimitReached
  content : answer.content = aggregator.text
  reasoning : answer.reasoning = aggregator.reasoning
  calls : answer.toolCalls = aggregator.tools.map call
  unfinished : answer.finishReason = none

theorem rolePrelude_fst (renderer : ChunkRenderer) : renderer.rolePrelude.1 = { renderer with roleSent := true } := by
  unfold ChunkRenderer.rolePrelude
  split
  next sent => rw [← sent]
  · rfl

namespace Tracks
variable {renderer : ChunkRenderer} {aggregator : Aggregator} {answer : ClientAnswer}

theorem step (tracks : Tracks renderer aggregator answer) {event : CodexEvent} (plain : event.isTerminal = false)
    (fits : toolsFit (aggregator.tools.map (·.outputIndex)) event) :
    Tracks (renderer.render event).1 (aggregator.push event)
      ((renderer.render event).2.foldl ClientAnswer.read answer) := by
  have going : ¬ renderer.terminated = true := by
    rw [tracks.running]
    exact Bool.false_ne_true
  have prelude := rolePrelude_fst renderer
  rw [ChunkRenderer.render, if_neg going]
  cases event with
  | created responseId =>
    dsimp only [push]
    split <;> exact { tracks with }
  | reasoningSignature _ => exact tracks
  | reasoningRedacted => exact tracks
  | outputLimitReached => exact { tracks with limit := rfl }
  | completed _ => cases plain
  | failed _ => cases plain
  | textDelta text | reasoningDelta text =>
    rw [foldl_append, ClientAnswer.read_prelude, foldl_cons, ClientAnswer.read_chunk, prelude]
    exact {
      tracks with
      content := by simp [ClientAnswer.text, push, tracks.content]
      reasoning := by simp [ClientAnswer.text, push, tracks.reasoning]
      unfinished := by simp [tracks.unfinished] }
  | toolCallBegin outputIndex callId name =>
    have fresh : renderer.toolSlots.findIdx? (· == outputIndex) = none := by
      rw [findIdx?_eq_none_iff, tracks.slots]
      intro slot member
      exact beq_eq_false_iff_ne.mpr fun same => fits (same ▸ member)
    have position : renderer.toolSlots.length = answer.toolCalls.length := by
      rw [tracks.calls, tracks.slots, length_map, length_map]
    have slotted : ChunkRenderer.slot { renderer with roleSent := true, sawToolCall := true }
        outputIndex = ({ renderer with
          roleSent := true
          sawToolCall := true
          toolSlots := renderer.toolSlots ++ [outputIndex] }, answer.toolCalls.length) := by
      simp only [ChunkRenderer.slot, fresh, position]
    dsimp only
    rw [foldl_append, ClientAnswer.read_prelude, foldl_cons, ClientAnswer.read_calls, prelude, slotted, foldl_cons, ClientAnswer.mergeCall_begin]
    exact {
      tracks with
      slots := by simp [push, tracks.slots]
      saw := by simp [push]
      calls := by simp [push, tracks.calls, call] }
  | toolArgsDelta outputIndex delta =>
    obtain ⟨tool, member, same⟩ := mem_map.mp fits
    have some' : (aggregator.tools.findIdx? (·.outputIndex == outputIndex)).isSome := by
      rw [findIdx?_isSome, any_eq_true]
      exact ⟨tool, member, beq_iff_eq.mpr same⟩
    obtain ⟨index, found⟩ := Option.isSome_iff_exists.mp some'
    have position : renderer.toolSlots.findIdx? (· == outputIndex) = some index := by
      rw [tracks.slots, findIdx?_map]
      exact found
    have held : index < answer.toolCalls.length := by
      rw [tracks.calls, length_map]
      exact (findIdx?_eq_some_iff_getElem.mp found).1
    have slotted : ChunkRenderer.slot { renderer with roleSent := true } outputIndex =
        ({ renderer with roleSent := true }, index) := by
      simp only [ChunkRenderer.slot, position]
    dsimp only
    rw [foldl_append, ClientAnswer.read_prelude, foldl_cons, foldl_nil,
      ClientAnswer.read_calls, prelude, slotted, foldl_cons, foldl_nil,
      ClientAnswer.mergeCall_arguments _ held]
    have kept := addArguments_slots outputIndex delta aggregator.tools
    have nonempty := congrArg isEmpty kept
    rw [isEmpty_map, isEmpty_map] at nonempty
    exact {
      tracks with
      slots := tracks.slots.trans kept.symm
      saw := tracks.saw.trans (congrArg _ nonempty.symm)
      calls := by
        rw [tracks.calls, push, map_modifyFirst call
          (fun call => { call with arguments := call.arguments ++ delta }) (fun _ => rfl) found] }

theorem push_tools {event : CodexEvent} : (aggregator.push event).tools.map (·.outputIndex) =
      beginTools (aggregator.tools.map (·.outputIndex)) event := by
  cases event with
  | created responseId =>
    dsimp only [push]
    split <;> rfl
  | toolCallBegin => simp [push, beginTools]
  | toolArgsDelta outputIndex delta => exact addArguments_slots outputIndex delta aggregator.tools
  | _ => rfl

theorem run (tracks : Tracks renderer aggregator answer) {events : List CodexEvent}
    (plain : ∀ event ∈ events, event.isTerminal = false)
    (begun : ToolsBegun (aggregator.tools.map (·.outputIndex)) events) :
    Tracks (emitAll ChunkRenderer.render renderer events).1 (events.foldl push aggregator)
      ((emitAll ChunkRenderer.render renderer events).2.foldl ClientAnswer.read answer) := by
  induction events generalizing renderer aggregator answer with
  | nil => exact tracks
  | cons event events ih =>
    obtain ⟨fits, rest⟩ := begun
    rw [← push_tools] at rest
    rw [emitAll_cons, foldl_append]
    exact ih (tracks.step (plain event mem_cons_self) fits) (fun event member => plain event (mem_cons_of_mem _ member)) rest

theorem finish (tracks : Tracks renderer aggregator answer) (usage : Option Usage) :
    (emitAll ChunkRenderer.render renderer [.completed usage]).2.foldl ClientAnswer.read answer =
      { content := (aggregator.push (.completed usage)).text
        reasoning := (aggregator.push (.completed usage)).reasoning
        toolCalls := (aggregator.push (.completed usage)).tools.map call
        finishReason := some (aggregator.push (.completed usage)).finishReason } := by
  have going : ¬ renderer.terminated = true := by
    rw [tracks.running]
    exact Bool.false_ne_true
  have reason : renderer.rolePrelude.1.finishReason =
      (aggregator.push (.completed usage)).finishReason := by
    rw [rolePrelude_fst, ChunkRenderer.finishReason, finishReason]
    dsimp only [push]
    rw [tracks.limit, tracks.saw]
    by_cases none : aggregator.tools.isEmpty = true <;> simp [none]
  have trailer (answer : ClientAnswer) (renderer : ChunkRenderer) :
      ((if renderer.includeUsage then [renderer.usageFrame usage] else []) ++
        [WireFrame.done]).foldl ClientAnswer.read answer = answer := by
    split <;> simp [ClientAnswer.read, ClientAnswer.items, ChunkRenderer.usageFrame, asArray]
  rw [emitAll_cons, emitAll_nil, append_nil, ChunkRenderer.render, if_neg going]
  dsimp only
  rw [append_assoc, append_assoc, foldl_append, ClientAnswer.read_prelude,
    foldl_append, trailer, foldl_cons, ClientAnswer.read_chunk, reason]
  simp [ClientAnswer.text, ClientAnswer.items, push, tracks.content, tracks.reasoning, tracks.calls]

end Tracks

/-- One answer: tools begun once and before their arguments, and a single
terminal event, which completes it. -/
def WellFormed (events : List CodexEvent) : Prop :=
  ∃ body usage, events = body ++ [.completed usage] ∧
    (∀ event ∈ body, event.isTerminal = false) ∧ ToolsBegun [] body

theorem message_text (aggregator : Aggregator) : ClientAnswer.text aggregator.message "content" = aggregator.text ∧
      ClientAnswer.text aggregator.message "reasoning_content" = aggregator.reasoning := by
  unfold message
  by_cases reasoning : aggregator.reasoning = "" <;> by_cases text : aggregator.text = "" <;>
    by_cases tools : aggregator.tools = [] <;>
    simp [ClientAnswer.text, Value.set, Value.asStr, reasoning, text, tools]

theorem message_calls (aggregator : Aggregator) :
    (ClientAnswer.items aggregator.message "tool_calls").map (fun call =>
        { id := ClientAnswer.text call "id"
          name := ClientAnswer.text (call.index "function") "name"
          arguments := ClientAnswer.text (call.index "function") "arguments" }) = aggregator.tools.map call := by
  unfold message
  by_cases reasoning : aggregator.reasoning = "" <;> by_cases text : aggregator.text = "" <;>
    by_cases tools : aggregator.tools = [] <;>
    simp [ClientAnswer.text, ClientAnswer.items, Value.set, Value.asArray, call, reasoning, text, tools]

theorem ofCompletion_intoCompletion (aggregator : Aggregator) : ClientAnswer.ofCompletion aggregator.intoCompletion =
      { content := aggregator.text
        reasoning := aggregator.reasoning
        toolCalls := aggregator.tools.map call
        finishReason := some aggregator.finishReason } := by
  have choices : ClientAnswer.items aggregator.intoCompletion "choices" = [.obj [ ("index", .ofNat 0),
      ("message", aggregator.message),
      ("finish_reason", .string aggregator.finishReason)]] := by
    unfold intoCompletion
    cases aggregator.usage <;> simp [ClientAnswer.items, Value.asArray]
  have message : (obj [("index", .ofNat 0), ("message", aggregator.message),
      ("finish_reason", .string aggregator.finishReason)]).index "message" =
      aggregator.message := by
    simp
  have finish : ((obj [("index", .ofNat 0), ("message", aggregator.message),
      ("finish_reason", .string aggregator.finishReason)]).get "finish_reason").bind asStr =
      some aggregator.finishReason := by
    simp
  have texts := message_text aggregator
  unfold ClientAnswer.ofCompletion
  rw [choices]
  dsimp only [headD_cons]
  rw [message, finish, texts.1, texts.2, message_calls]

/-- What a client puts together from the stream is what it would have been given
without streaming. -/
theorem streamed_answer_eq_completion {events : List CodexEvent} (wellFormed : WellFormed events)
    (model : String) (created : Int) (includeUsage : Bool) :
    (emitAll ChunkRenderer.render (.new model created includeUsage) events).2.foldl ClientAnswer.read .empty =
      ClientAnswer.ofCompletion (events.foldl push (.new model created)).intoCompletion := by
  obtain ⟨body, usage, rfl, plain, begun⟩ := wellFormed
  have start : Tracks (.new model created includeUsage) (.new model created) .empty :=
    ⟨rfl, rfl, rfl, rfl, rfl, rfl, rfl, rfl⟩
  have tracks := start.run plain begun
  rw [emitAll_append, foldl_append, foldl_append, ofCompletion_intoCompletion]
  exact tracks.finish usage

namespace ChatSample

def parallelCalls : List CodexEvent :=
  [.textDelta "look", .toolCallBegin 4 "a" "find", .toolCallBegin 2 "b" "open",
    .toolArgsDelta 2 "x", .toolArgsDelta 4 "y", .toolArgsDelta 2 "z", .completed none]

theorem parallel_calls_agree : (emitAll ChunkRenderer.render (.new "m" 0 false) parallelCalls).2.foldl
        ClientAnswer.read .empty = ClientAnswer.ofCompletion
        (parallelCalls.foldl push (.new "m" 0)).intoCompletion :=
  streamed_answer_eq_completion ⟨parallelCalls.dropLast, none, rfl,
    by decide, by simp [parallelCalls, ToolsBegun, toolsFit, beginTools]⟩ "m" 0 false

end ChatSample
end Mahoquot.Compat
