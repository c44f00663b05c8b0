import Mahoquot.Compat.Events
import Std.Data.ExtTreeMap

/-! The Messages stream of an Anthropic upstream, one data frame at a time. -/

set_option autoImplicit false

namespace Mahoquot.Compat
open Library

def stripCustomPrefix (name : String) : String :=
  if "custom_".toList.isPrefixOf name.toList then String.ofList (name.toList.drop 7) else name

/-- The tool calls that `anthropic_json_to_openai` lists of the content of a whole answer. -/
def openaiToolCalls (serde : Serde) (content : List Value) : List Value :=
  (content.filter fun block => (block.index "type").isStr "tool_use").map fun block =>
    .object [("function", .object [("arguments", .string (serde.toString (block.index "input"))),
        ("name", .string (((block.index "name").asStr.map stripCustomPrefix).getD "tool"))]),
      ("id", block.index "id"), ("type", .string "function")]

structure StreamDiagnostics where
  messageId : Option String
  stopReason : Option String
  outputTokensReported : Bool
  textDeltas : Nat
  thinkingDeltas : Nat
  toolCalls : Nat
deriving Repr, DecidableEq

def StreamDiagnostics.default : StreamDiagnostics := ⟨none, none, false, 0, 0, 0⟩

structure AnthropicDecoder where
  started : Bool
  terminated : Bool
  inputTokens : Nat
  outputTokens : Nat
  cacheReadTokens : Nat
  cacheWriteTokens : Nat
  cacheReadTokensKnown : Bool
  cacheWriteTokensKnown : Bool
  nextToolIndex : Nat
  /-- Content-block index of each client tool call, with its output index. -/
  toolBlocks : Std.ExtTreeMap Nat Nat
  /-- Content-block index of each tool the upstream runs, with its id and input. -/
  serverBlocks : Std.ExtTreeMap Nat (String × String)
  diagnostics : StreamDiagnostics

/-- The visible text of a search the upstream ran. -/
def webSearchResultText (block : Value) (query : Option String) : Option String :=
  let heading := match query with
    | some query => "\n[web_search: " ++ query ++ "]\n"
    | none => "\n[web_search]\n"
  match block.index "content" with
  | .array results =>
    let lines := results.filterMap fun result =>
      ((result.index "url").asStr).map fun url =>
        "- [" ++ ((result.index "title").asStr).getD url ++ "](" ++ url ++ ")\n"
    some (heading ++ String.join lines ++ "\n")
  | error =>
    ((error.index "error_code").asStr).map fun code =>
      heading ++ "- error: " ++ code ++ "\n" ++ "\n"

namespace AnthropicDecoder

def default : AnthropicDecoder :=
  ⟨false, false, 0, 0, 0, 0, false, false, 0, ∅, ∅, .default⟩

def messageStart (value : Value) : AnthropicDecoder × List CodexEvent :=
  let message := value.index "message"
  let usage := message.index "usage"
  let id := (message.index "id").asStr
  ({ default with
      started := true
      inputTokens := ((usage.index "input_tokens").asU64).getD 0
      cacheReadTokens := ((usage.index "cache_read_input_tokens").asU64).getD 0
      cacheWriteTokens := ((usage.index "cache_creation_input_tokens").asU64).getD 0
      cacheReadTokensKnown := ((usage.index "cache_read_input_tokens").asU64).isSome
      cacheWriteTokensKnown := ((usage.index "cache_creation_input_tokens").asU64).isSome
      diagnostics := { StreamDiagnostics.default with messageId := id } },
    [.created (id.getD "msg_anthropic")])

variable (decoder : AnthropicDecoder)

def countText : AnthropicDecoder :=
  { decoder with
    diagnostics :=
      { decoder.diagnostics with textDeltas := decoder.diagnostics.textDeltas + 1 } }

def contentBlockStart (serde : Serde) (decoder : AnthropicDecoder) (value : Value) :
    AnthropicDecoder × List CodexEvent :=
  let block := value.index "content_block"
  let index := (value.index "index").asU64
  if (block.index "type").isStr "server_tool_use" then
    match index with
    | some index =>
      ({ decoder with
          serverBlocks :=
            decoder.serverBlocks.insert index (((block.index "id").asStr).getD "", "") },
        [])
    | none => (decoder, [])
  else if (block.index "type").isStr "web_search_tool_result" then
    let server := decoder.serverBlocks.values.find? fun server =>
      (block.index "tool_use_id").asStr == some server.1
    let input := server.bind fun server => (serde.fromSlice (utf8 server.2)).toOption
    let query := input.bind fun input => (input.index "query").asStr
    match webSearchResultText block query with
    | some text => (decoder.countText, [.textDelta text])
    | none => (decoder, [])
  else if (block.index "type").isStr "tool_use" then
    let toolBlocks := match index with
      | some index => decoder.toolBlocks.insert index decoder.nextToolIndex
      | none => decoder.toolBlocks
    ({ decoder with
        toolBlocks
        nextToolIndex := decoder.nextToolIndex + 1
        diagnostics :=
          { decoder.diagnostics with toolCalls := decoder.diagnostics.toolCalls + 1 } },
      [.toolCallBegin decoder.nextToolIndex (((block.index "id").asStr).getD "toolu_anthropic")
        ((((block.index "name").asStr).map stripCustomPrefix).getD "tool")])
  else (decoder, [])

def inputJsonDelta (index : Option Nat) (delta : String) : AnthropicDecoder × List CodexEvent :=
  match index.bind fun index => (decoder.serverBlocks[index]?).map fun server => (index, server) with
  | some (index, (id, input)) =>
    ({ decoder with serverBlocks := decoder.serverBlocks.insert index (id, input ++ delta) }, [])
  | none =>
    let outputIndex := match index with
      | some index => decoder.toolBlocks[index]?
      | none => if decoder.nextToolIndex = 0 then none else some (decoder.nextToolIndex - 1)
    (decoder, (outputIndex.map fun index => .toolArgsDelta index delta).toList)

def contentBlockDelta (value : Value) : AnthropicDecoder × List CodexEvent :=
  let delta := value.index "delta"
  match (delta.index "type").asStr with
  | some "text_delta" =>
    match (delta.index "text").asStr with
    | some text => (if (Text.trim text).isEmpty then decoder else decoder.countText, [.textDelta text])
    | none => (decoder, [])
  | some "thinking_delta" | some "reasoning_delta" =>
    match ((delta.index "thinking").asStr).or (delta.index "text").asStr with
    | some text =>
      ({ decoder with
          diagnostics := { decoder.diagnostics with
            thinkingDeltas := decoder.diagnostics.thinkingDeltas + 1 } },
        [.reasoningDelta text])
    | none => (decoder, [])
  | some "signature_delta" => (decoder, ((delta.index "signature").asStr.map .reasoningSignature).toList)
  | some "input_json_delta" =>
    match (delta.index "partial_json").asStr with
    | some text => decoder.inputJsonDelta (value.index "index").asU64 text
    | none => (decoder, [])
  | _ => (decoder, [])

def messageDelta (value : Value) : AnthropicDecoder × List CodexEvent :=
  let stop := (value.pointer ["delta", "stop_reason"]).bind Value.asStr
  let usage := value.index "usage"
  let output := (usage.index "output_tokens").asU64
  let read := (usage.index "cache_read_input_tokens").asU64
  let write := (usage.index "cache_creation_input_tokens").asU64
  ({ decoder with
      outputTokens := output.getD 0
      -- Some relays report the real input counts only here.
      inputTokens := ((usage.index "input_tokens").asU64).getD decoder.inputTokens
      cacheReadTokens := read.getD decoder.cacheReadTokens
      cacheReadTokensKnown := read.isSome || decoder.cacheReadTokensKnown
      cacheWriteTokens := write.getD decoder.cacheWriteTokens
      cacheWriteTokensKnown := write.isSome || decoder.cacheWriteTokensKnown
      diagnostics := { decoder.diagnostics with
        stopReason := stop.or decoder.diagnostics.stopReason
        outputTokensReported := output.isSome } },
    if stop = some "max_tokens" then [.outputLimitReached] else [])

def messageStop : AnthropicDecoder × List CodexEvent :=
  ({ decoder with started := false, terminated := true }, [.completed (some
      { promptTokens := decoder.inputTokens
        completionTokens := decoder.outputTokens
        totalTokens := wrappingAdd decoder.inputTokens decoder.outputTokens
        cachedTokens := decoder.cacheReadTokens
        cachedTokensKnown := decoder.cacheReadTokensKnown
        reasoningTokens := 0
        cacheWriteTokens := decoder.cacheWriteTokens
        cacheWriteTokensKnown := decoder.cacheWriteTokensKnown })])

def decodeValue (serde : Serde) (decoder : AnthropicDecoder) (value : Value) : AnthropicDecoder × List CodexEvent :=
  match (value.get "type").bind Value.asStr with
  | some "message_start" => messageStart value
  | some "content_block_start" => decoder.contentBlockStart serde value
  | some "content_block_delta" => decoder.contentBlockDelta value
  | some "message_delta" => decoder.messageDelta value
  | some "message_stop" => decoder.messageStop
  | some "error" =>
    ({ decoder with terminated := true }, [.failed ((((value.index "error").index "message").asStr).getD
        "Anthropic upstream error")])
  | _ => (decoder, [])

/-- A terminated decoder only listens for the start of the next message. -/
def decode (serde : Serde) (decoder : AnthropicDecoder) (frame : Bytes) : AnthropicDecoder × List CodexEvent :=
  match serde.fromSlice frame with
  | .error _ => (decoder, [])
  | .ok value =>
    if decoder.terminated && !(value.index "type").isStr "message_start" then (decoder, [])
    else decoder.decodeValue serde value

def finish : AnthropicDecoder × List CodexEvent :=
  if decoder.terminated then (decoder, [])
  else
    ({ decoder with terminated := true, started := false }, [.failed "Anthropic stream ended before message_stop"])

end AnthropicDecoder
end Mahoquot.Compat
