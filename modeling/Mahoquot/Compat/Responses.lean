import Mahoquot.Compat.Events
import Mahoquot.Compat.Utf8
import Mahoquot.Library.Transducer
import Std.Data.ExtTreeMap

/-! The Responses rendering of an answer: items that are added, filled and done in
a numbered stream, and the response object that holds them all. -/

set_option autoImplicit false

namespace Mahoquot.Compat
open Library

def buildUsageJson : Option Usage → Value
  | none => .null
  | some usage =>
    let value := Value.obj [
      ("input_tokens", .ofNat usage.promptTokens),
      ("output_tokens", .ofNat usage.completionTokens),
      ("total_tokens", .ofNat usage.totalTokens),
      ("output_tokens_details", .obj [("reasoning_tokens", .ofNat usage.reasoningTokens)])]
    let value :=
      if usage.cachedTokensKnown then
        value.set "input_tokens_details" (.obj [("cached_tokens", .ofNat usage.cachedTokens)])
      else value
    if usage.cacheWriteTokensKnown then
      value.set "input_tokens_details"
        (((value.get "input_tokens_details").getD (.obj [])).set "cache_write_tokens" (.ofNat usage.cacheWriteTokens))
    else value

inductive TextItemState where
  | unstarted
  | opened (itemId : String) (outputIndex : Nat)
  | done
deriving Repr, DecidableEq

structure ToolCallItem where
  itemId : String
  outputIndex : Nat
  decoderIndex : Nat
  callId : String
  name : String
  arguments : String
  argsDoneEmitted : Bool
  itemDoneEmitted : Bool
deriving Repr, DecidableEq

/-- A search the upstream runs itself. -/
def isServerSearch (name callId : String) : Bool :=
  name == "web_search" && Text.startsWith "srvtoolu_" callId

namespace ToolCallItem

def value (serde : Serde) (tool : ToolCallItem) (status : String) : Value :=
  if isServerSearch tool.name tool.callId then
    let query := (((serde.fromSlice (utf8 tool.arguments)).toOption).bind (·.get "query")).getD .null
    .obj [("id", .string tool.itemId), ("type", .string "web_search_call"), ("status", .string status),
      ("action", .obj [("type", .string "search"), ("query", query)])]
  else
    .obj [("id", .string tool.itemId), ("type", .string "function_call"),
      ("status", .string status), ("arguments", .string tool.arguments),
      ("call_id", .string tool.callId), ("name", .string tool.name)]

end ToolCallItem

structure ResponsesStreamRenderer where
  id : String
  model : String
  created : Int
  createdSent : Bool
  terminated : Bool
  outputLimitReached : Bool
  failure : Option String
  usage : Option Usage
  textAccumulator : String
  reasoningAccumulator : String
  reasoningSignature : Option String
  reasoningRedacted : Bool
  textState : TextItemState
  tools : List ToolCallItem
  nextOutputIndex : Nat
  closedText : Std.ExtTreeMap Nat Value
  reasoningIndex : Option Nat
  nextSequence : Nat

def trimEndNewlines (text : List Char) : List Char :=
  (text.reverse.dropWhile (· == '\n')).reverse

/-- Number one frame. One whose payload is not read back as an object keeps its
bytes and takes no number. -/
def stampFrame (serde : Serde) (next : Nat) (frame : Bytes) : Nat × List Bytes :=
  match Text.findChars? "\ndata: ".toList (fromUtf8Lossy frame) with
  | none => (next, [frame])
  | some (before, behind) =>
    match serde.fromSlice (utf8 (String.ofList (trimEndNewlines behind))) with
    | .ok (.object entries) =>
      (next + 1, [utf8 (String.ofList (before ++ "\ndata: ".toList)) ++
        serde.toVec (.object (Value.insertEntry "sequence_number" (.ofNat next) entries)) ++
        utf8 "\n\n"])
    | _ => (next, [frame])

def stampSequence (serde : Serde) (next : Nat) (frames : List Bytes) : Nat × List Bytes :=
  emitAll (stampFrame serde) next frames

namespace ResponsesStreamRenderer
variable (serde : Serde)

def new (model : String) (created : Int) : ResponsesStreamRenderer :=
  { id := s!"resp_{created}", model, created, createdSent := false, terminated := false
    outputLimitReached := false, failure := none, usage := none, textAccumulator := ""
    reasoningAccumulator := "", reasoningSignature := none, reasoningRedacted := false
    textState := .unstarted, tools := [], nextOutputIndex := 0, closedText := ∅
    reasoningIndex := none, nextSequence := 0 }

variable (renderer : ResponsesStreamRenderer)

def itemStatus : String :=
  if renderer.outputLimitReached then "incomplete" else "completed"

def itemAdded (index : Nat) (item : Value) : WireFrame :=
  .event "response.output_item.added" (.obj [
    ("type", .string "response.output_item.added"), ("output_index", .ofNat index),
    ("item", item)])

def itemDone (index : Nat) (item : Value) : WireFrame :=
  .event "response.output_item.done" (.obj [
    ("type", .string "response.output_item.done"), ("output_index", .ofNat index),
    ("item", item)])

def andThen (first : ResponsesStreamRenderer × List WireFrame)
    (second : ResponsesStreamRenderer → ResponsesStreamRenderer × List WireFrame) :
    ResponsesStreamRenderer × List WireFrame :=
  ((second first.1).1, first.2 ++ (second first.1).2)

def ensureCreatedFrame : ResponsesStreamRenderer × List WireFrame :=
  if renderer.createdSent then (renderer, [])
  else
    ({ renderer with createdSent := true }, [.event "response.created" (.obj [
      ("type", .string "response.created"),
      ("response", .obj [ ("id", .string renderer.id), ("object", .string "response"),
        ("status", .string "in_progress"), ("model", .string renderer.model)])])])

def textItem (itemId : String) : Value :=
  let item := Value.obj [
    ("id", .string itemId), ("type", .string "message"), ("status", .string renderer.itemStatus),
    ("role", .string "assistant"),
    ("content", .array [.obj [ ("type", .string "output_text"), ("text", .string renderer.textAccumulator)]])]
  let item :=
    if renderer.reasoningAccumulator.isEmpty then item
    else item.set "reasoning_content" (.string renderer.reasoningAccumulator)
  let item :=
    match renderer.reasoningSignature with
    | some signature => item.set "reasoning_signature" (.string signature)
    | none => item
  if renderer.reasoningRedacted then item.set "reasoning_redacted" (.bool true) else item

def closeTextItem : ResponsesStreamRenderer × List WireFrame :=
  match renderer.textState with
  | .opened itemId outputIndex =>
    let item := renderer.textItem itemId
    ({ renderer with
        textState := .done
        closedText := renderer.closedText.insert outputIndex item
        textAccumulator := "" },
      [itemDone outputIndex item])
  | _ => (renderer, [])

def argumentsDone (tool : ToolCallItem) : WireFrame :=
  .event "response.function_call_arguments.done" (.obj [
    ("type", .string "response.function_call_arguments.done"), ("item_id", .string tool.itemId),
    ("output_index", .ofNat tool.outputIndex), ("arguments", .string tool.arguments)])

/-- One tool of `close_tool_item`: each of its closing frames is emitted once. -/
def closeToolItem (tool : ToolCallItem) : ToolCallItem × List WireFrame :=
  ({ tool with argsDoneEmitted := true, itemDoneEmitted := true },
    (if tool.argsDoneEmitted then [] else [argumentsDone tool]) ++
      (if tool.itemDoneEmitted then []
        else [itemDone tool.outputIndex (tool.value serde renderer.itemStatus)]))

def closeToolItems : ResponsesStreamRenderer × List WireFrame :=
  ({ renderer with tools := renderer.tools.map fun tool => (renderer.closeToolItem serde tool).1 },
    renderer.tools.flatMap fun tool => (renderer.closeToolItem serde tool).2)

def ensureReasoningItem : ResponsesStreamRenderer × List WireFrame :=
  andThen renderer.ensureCreatedFrame fun renderer =>
    if renderer.reasoningIndex.isSome then (renderer, [])
    else
      let index := renderer.nextOutputIndex
      ({ renderer with nextOutputIndex := index + 1, reasoningIndex := some index }, [itemAdded index (.obj [
          ("id", .string s!"rs_{index}"), ("type", .string "reasoning"), ("summary", .array [])])])

def reasoningItem (index : Nat) : Value :=
  let item := Value.obj [
    ("id", .string s!"rs_{index}"), ("type", .string "reasoning"),
    ("summary", if renderer.reasoningAccumulator.isEmpty then .array []
      else .array [.obj [
        ("type", .string "summary_text"), ("text", .string renderer.reasoningAccumulator)]])]
  match renderer.reasoningSignature with
  | some signature => item.set "encrypted_content" (.string signature)
  | none => item

def closeReasoningItem : ResponsesStreamRenderer × List WireFrame :=
  (renderer, (renderer.reasoningIndex.map fun index =>
    itemDone index (renderer.reasoningItem index)).toList)

def ensureTextItem : ResponsesStreamRenderer × List WireFrame :=
  match renderer.textState with
  | .opened _ _ => (renderer, [])
  | _ =>
    let index := renderer.nextOutputIndex
    let itemId := s!"msg_{index}"
    ({ renderer with nextOutputIndex := index + 1, textState := .opened itemId index }, [itemAdded index (.obj [
          ("id", .string itemId), ("type", .string "message"), ("status", .string "in_progress"),
          ("role", .string "assistant"), ("content", .array [])]),
        .event "response.content_part.added" (.obj [
          ("type", .string "response.content_part.added"), ("output_index", .ofNat index),
          ("content_index", .ofNat 0), ("item_id", .string itemId),
          ("part", .obj [("type", .string "output_text"), ("text", .string "")])])])

def textDelta (delta : String) : ResponsesStreamRenderer × List WireFrame :=
  match renderer.textState with
  | .opened itemId outputIndex =>
    ({ renderer with textAccumulator := renderer.textAccumulator ++ delta },
      [.event "response.output_text.delta" (.obj [
        ("type", .string "response.output_text.delta"), ("output_index", .ofNat outputIndex),
        ("content_index", .ofNat 0), ("item_id", .string itemId), ("delta", .string delta)])])
  | _ => (renderer, [])

def reasoningDelta (delta : String) : ResponsesStreamRenderer × List WireFrame :=
  match renderer.reasoningIndex with
  | some index =>
    ({ renderer with reasoningAccumulator := renderer.reasoningAccumulator ++ delta },
      [.event "response.reasoning_text.delta" (.obj [
        ("type", .string "response.reasoning_text.delta"), ("delta", .string delta),
        ("output_index", .ofNat index), ("item_id", .string s!"rs_{index}")])])
  | none => (renderer, [])

def beginTool (decoderIndex : Nat) (callId name : String) : ResponsesStreamRenderer × List WireFrame :=
  let index := renderer.nextOutputIndex
  let tool : ToolCallItem :=
    { itemId := if isServerSearch name callId then callId else s!"fc_{index}"
      outputIndex := index, decoderIndex, callId, name, arguments := ""
      argsDoneEmitted := false, itemDoneEmitted := false }
  ({ renderer with nextOutputIndex := index + 1, tools := renderer.tools ++ [tool] },
    [itemAdded index (tool.value serde "in_progress")])

def takesArguments (decoderIndex : Nat) (tool : ToolCallItem) : Bool :=
  tool.decoderIndex == decoderIndex && !tool.argsDoneEmitted

def addArguments (decoderIndex : Nat) (delta : String) : List ToolCallItem → List ToolCallItem × List WireFrame
  | [] => ([], [])
  | tool :: tools =>
    if takesArguments decoderIndex tool then
      ({ tool with arguments := tool.arguments ++ delta } :: tools,
        [.event "response.function_call_arguments.delta" (.obj [
          ("type", .string "response.function_call_arguments.delta"),
          ("output_index", .ofNat tool.outputIndex), ("item_id", .string tool.itemId),
          ("delta", .string delta)])])
    else
      let added := addArguments decoderIndex delta tools
      (tool :: added.1, added.2)

def outputItems : Std.ExtTreeMap Nat Value :=
  let items := renderer.closedText
  let items :=
    match renderer.reasoningIndex with
    | some index => items.insert index (renderer.reasoningItem index)
    | none => items
  let items :=
    match renderer.textState with
    | .opened itemId outputIndex => items.insert outputIndex (.obj [
        ("id", .string itemId), ("type", .string "message"), ("status", .string "in_progress"),
        ("role", .string "assistant"),
        ("content", .array [.obj [ ("type", .string "output_text"), ("text", .string renderer.textAccumulator)]])])
    | _ => items
  renderer.tools.foldl
    (fun items tool => items.insert tool.outputIndex (tool.value serde renderer.itemStatus)) items

def status : String :=
  if renderer.failure.isSome then "failed"
  else if renderer.outputLimitReached then "incomplete"
  else if renderer.terminated then "completed"
  else "in_progress"

def currentResponse : Value :=
  let payload := Value.obj [
    ("id", .string renderer.id), ("object", .string "response"),
    ("created_at", .ofInt renderer.created), ("status", .string renderer.status),
    ("model", .string renderer.model),
    ("output", .array ((renderer.outputItems serde).toList.map Prod.snd)),
    ("usage", buildUsageJson renderer.usage)]
  let payload :=
    if renderer.outputLimitReached then
      payload.set "incomplete_details" (.obj [("reason", .string "max_output_tokens")])
    else payload
  match renderer.failure with
  | some message => payload.set "error" (.obj [("message", .string message), ("type", .string "server_error")])
  | none => payload

def closeItems : ResponsesStreamRenderer × List WireFrame :=
  andThen (andThen renderer.closeReasoningItem closeTextItem) (closeToolItems serde)

def completeResponse (usage : Option Usage) (renderer : ResponsesStreamRenderer) :
    ResponsesStreamRenderer × List WireFrame :=
  let finished := { renderer with usage, terminated := true }
  let name := if finished.outputLimitReached then "response.incomplete" else "response.completed"
  (finished, [.event name (.obj [ ("type", .string name), ("response", finished.currentResponse serde)])])

def failResponse (message : String) (renderer : ResponsesStreamRenderer) : ResponsesStreamRenderer × List WireFrame :=
  ({ renderer with failure := some message, terminated := true }, [.event "response.failed" (.obj [
      ("type", .string "response.failed"),
      ("response", .obj [ ("id", .string renderer.id), ("object", .string "response"), ("status", .string "failed"),
        ("error", .obj [ ("message", .string message), ("type", .string "server_error")])])])])

def renderUnstamped (event : CodexEvent) : ResponsesStreamRenderer × List WireFrame :=
  if renderer.terminated then (renderer, [])
  else
    match event with
    | .created responseId =>
      let named :=
        if responseId.isEmpty then renderer
        else { renderer with
          id := if Text.startsWith "resp_" responseId then responseId else "resp_" ++ responseId }
      named.ensureCreatedFrame
    | .reasoningDelta delta => andThen renderer.ensureReasoningItem (·.reasoningDelta delta)
    | .reasoningSignature signature =>
      andThen renderer.ensureReasoningItem fun renderer =>
        ({ renderer with reasoningSignature := some signature }, [])
    | .reasoningRedacted =>
      andThen renderer.ensureReasoningItem fun renderer =>
        ({ renderer with reasoningRedacted := true }, [])
    | .textDelta delta => andThen (andThen renderer.ensureCreatedFrame ensureTextItem) (·.textDelta delta)
    | .toolCallBegin decoderIndex callId name =>
      andThen (andThen renderer.ensureCreatedFrame closeTextItem)
        (·.beginTool serde decoderIndex callId name)
    | .toolArgsDelta decoderIndex delta =>
      andThen renderer.ensureCreatedFrame fun renderer =>
        let added := addArguments decoderIndex delta renderer.tools
        ({ renderer with tools := added.1 }, added.2)
    | .outputLimitReached => ({ renderer with outputLimitReached := true }, [])
    | .completed usage =>
      andThen (andThen renderer.ensureCreatedFrame (closeItems serde))
        (completeResponse serde usage)
    | .failed message => andThen (renderer.closeItems serde) (failResponse message)

def stamped (rendered : ResponsesStreamRenderer × List WireFrame) : ResponsesStreamRenderer × List Bytes :=
  let numbered := stampSequence serde rendered.1.nextSequence (rendered.2.map (·.bytes serde))
  ({ rendered.1 with nextSequence := numbered.1 }, numbered.2)

def render (event : CodexEvent) : ResponsesStreamRenderer × List Bytes :=
  stamped serde (renderer.renderUnstamped serde event)

def closeUnterminated : ResponsesStreamRenderer × List Bytes :=
  stamped serde
    (renderer.renderUnstamped serde (.failed "upstream stream ended before completion"))

/-- The loop of `responses_response`: it stops behind the terminal event. -/
def renderUntilTerminated : ResponsesStreamRenderer → List CodexEvent → ResponsesStreamRenderer
  | renderer, [] => renderer
  | renderer, event :: events =>
    let rendered := (renderer.render serde event).1
    if rendered.terminated then rendered else renderUntilTerminated rendered events

end ResponsesStreamRenderer

def responsesResponse (serde : Serde) (events : List CodexEvent) (model : String) (created : Int) :
    Except String Value :=
  let renderer := ResponsesStreamRenderer.renderUntilTerminated serde (.new model created) events
  let renderer := if renderer.terminated then renderer else (renderer.closeUnterminated serde).1
  match renderer.failure with
  | some message => .error message
  | none => .ok (renderer.currentResponse serde)

end Mahoquot.Compat
