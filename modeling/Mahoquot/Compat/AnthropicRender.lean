import Mahoquot.Compat.Events
import Std.Data.ExtTreeMap

/-! The Anthropic rendering of a streamed answer: a message of content blocks. -/

set_option autoImplicit false

namespace Mahoquot.Compat

structure AnthropicStreamRenderer where
  id : String
  model : String
  started : Bool
  currentTextIndex : Option Nat
  terminated : Bool
  toolIndex : Nat
  nextContentIndex : Nat
  /-- The block of each tool call, by its output index. -/
  toolIndices : Std.ExtTreeMap Nat Nat
  closedTools : List Nat
  thinkingIndex : Option Nat
  outputLimitReached : Bool

namespace AnthropicStreamRenderer

def new (model : String) (created : Int) : AnthropicStreamRenderer :=
  { id := s!"msg_{created}", model, started := false, currentTextIndex := none
    terminated := false, toolIndex := 0, nextContentIndex := 0, toolIndices := ∅
    closedTools := [], thinkingIndex := none, outputLimitReached := false }

def blockStart (index : Nat) (block : Value) : WireFrame :=
  .event "content_block_start" (.obj [
    ("type", .string "content_block_start"), ("index", .ofNat index), ("content_block", block)])

def blockDelta (index : Nat) (delta : Value) : WireFrame :=
  .event "content_block_delta" (.obj [
    ("type", .string "content_block_delta"), ("index", .ofNat index), ("delta", delta)])

def blockStop (index : Nat) : WireFrame :=
  .event "content_block_stop" (.obj [ ("type", .string "content_block_stop"), ("index", .ofNat index)])

variable (renderer : AnthropicStreamRenderer)

def messageStart : WireFrame :=
  .event "message_start" (.obj [ ("type", .string "message_start"), ("message", .obj [
      ("id", .string renderer.id), ("type", .string "message"), ("role", .string "assistant"),
      ("content", .array []), ("model", .string renderer.model), ("stop_reason", .null),
      ("stop_sequence", .null),
      ("usage", .obj [("input_tokens", .ofNat 0), ("output_tokens", .ofNat 0)])])])

def ensureStarted : AnthropicStreamRenderer × List WireFrame :=
  if renderer.started then (renderer, [])
  else ({ renderer with started := true }, [renderer.messageStart])

def closeText : AnthropicStreamRenderer × List WireFrame :=
  ({ renderer with currentTextIndex := none }, (renderer.currentTextIndex.map blockStop).toList)

def closeThinking : AnthropicStreamRenderer × List WireFrame :=
  ({ renderer with thinkingIndex := none }, (renderer.thinkingIndex.map blockStop).toList)

/-- The tools whose blocks are not stopped yet, in the order of their output index. -/
def openTools : List (Nat × Nat) :=
  renderer.toolIndices.toList.filter fun tool => !renderer.closedTools.contains tool.1

def closeOpenTools : AnthropicStreamRenderer × List WireFrame :=
  ({ renderer with closedTools := renderer.closedTools ++ renderer.openTools.map Prod.fst },
    renderer.openTools.map fun tool => blockStop tool.2)

def andThen (first : AnthropicStreamRenderer × List WireFrame)
    (second : AnthropicStreamRenderer → AnthropicStreamRenderer × List WireFrame) :
    AnthropicStreamRenderer × List WireFrame :=
  ((second first.1).1, first.2 ++ (second first.1).2)

def openBlock (block : Value) (remember : AnthropicStreamRenderer → AnthropicStreamRenderer) :
    AnthropicStreamRenderer × List WireFrame :=
  (remember { renderer with nextContentIndex := renderer.nextContentIndex + 1 },
    [blockStart renderer.nextContentIndex block])

def openTool (outputIndex : Nat) (block : Value) : AnthropicStreamRenderer × List WireFrame :=
  renderer.openBlock block fun grown => { grown with
    toolIndex := renderer.toolIndex + 1
    toolIndices := renderer.toolIndices.insert outputIndex renderer.nextContentIndex }

def ensureThinkingBlock : AnthropicStreamRenderer × List WireFrame :=
  if renderer.thinkingIndex.isSome then (renderer, [])
  else
    andThen (andThen renderer.closeOpenTools closeText) fun renderer =>
      renderer.openBlock (.obj [ ("type", .string "thinking"), ("thinking", .string ""), ("signature", .string "")])
        fun grown => { grown with thinkingIndex := some renderer.nextContentIndex }

def ensureTextBlock : AnthropicStreamRenderer × List WireFrame :=
  if renderer.currentTextIndex.isSome then (renderer, [])
  else
    renderer.openBlock (.obj [("type", .string "text"), ("text", .string "")])
      fun grown => { grown with currentTextIndex := some renderer.nextContentIndex }

def closeAll : AnthropicStreamRenderer × List WireFrame :=
  andThen (andThen renderer.closeThinking closeText) closeOpenTools

def stopReason : String :=
  if renderer.outputLimitReached then "max_tokens"
  else if renderer.toolIndex > 0 then "tool_use"
  else "end_turn"

def messageDelta (usage : Option Usage) : WireFrame :=
  .event "message_delta" (.obj [ ("type", .string "message_delta"),
    ("delta", .obj [("stop_reason", .string renderer.stopReason), ("stop_sequence", .null)]),
    ("usage", .obj [ ("input_tokens", .ofNat ((usage.map (·.promptTokens)).getD 0)),
      ("output_tokens", .ofNat ((usage.map (·.completionTokens)).getD 0))])])

def messageStop : WireFrame := .event "message_stop" (.obj [("type", .string "message_stop")])

def errorFrame (message : String) : WireFrame :=
  .event "error" (.obj [ ("type", .string "error"),
    ("error", .obj [("type", .string "api_error"), ("message", .string message)])])

def renderStarted : CodexEvent → AnthropicStreamRenderer × List WireFrame
  | .created responseId =>
    if responseId.isEmpty then (renderer, []) else ({ renderer with id := responseId }, [])
  | .textDelta text =>
    andThen (andThen (andThen renderer.closeThinking closeOpenTools) ensureTextBlock)
      fun renderer => (renderer, [blockDelta (renderer.currentTextIndex.getD 0) (.obj [
        ("type", .string "text_delta"), ("text", .string text)])])
  | .reasoningDelta text =>
    andThen renderer.ensureThinkingBlock fun renderer =>
      (renderer, [blockDelta (renderer.thinkingIndex.getD 0) (.obj [
        ("type", .string "thinking_delta"), ("thinking", .string text)])])
  | .reasoningSignature signature =>
    andThen renderer.ensureThinkingBlock fun renderer =>
      (renderer, [blockDelta (renderer.thinkingIndex.getD 0) (.obj [
        ("type", .string "signature_delta"), ("signature", .string signature)])])
  | .reasoningRedacted => (renderer, [])
  | .toolCallBegin outputIndex callId name =>
    -- The blocks of earlier tools stay open.
    andThen (andThen renderer.closeThinking closeText) fun renderer =>
      renderer.openTool outputIndex (.obj [
        ("type", .string "tool_use"), ("id", .string callId), ("name", .string name),
        ("input", .obj [])])
  | .toolArgsDelta outputIndex delta =>
    (renderer, [blockDelta (renderer.toolIndices.getD outputIndex 1) (.obj [
      ("type", .string "input_json_delta"), ("partial_json", .string delta)])])
  | .outputLimitReached => ({ renderer with outputLimitReached := true }, [])
  | .completed usage =>
    andThen renderer.closeAll fun renderer =>
      ({ renderer with terminated := true }, [renderer.messageDelta usage, messageStop])
  | .failed message =>
    andThen renderer.closeAll fun renderer =>
      ({ renderer with terminated := true }, [errorFrame message])

def render (event : CodexEvent) : AnthropicStreamRenderer × List WireFrame :=
  if renderer.terminated then (renderer, [])
  else andThen renderer.ensureStarted fun renderer => renderer.renderStarted event

def closeUnterminated : AnthropicStreamRenderer × List WireFrame :=
  if renderer.terminated then (renderer, [])
  else renderer.render (.failed "upstream stream ended before completion")

end AnthropicStreamRenderer
end Mahoquot.Compat
