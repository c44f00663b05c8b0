import Mahoquot.Compat.Claude
import Mahoquot.Compat.Cursor
import Mahoquot.Compat.Kiro

/-! The stream of an Antigravity upstream, one response object in each data frame and the
outcome decided at its end; and the parsers of all protocols as one. -/

set_option autoImplicit false

namespace Mahoquot.Compat
open Library

/-- The JSON library and the fresh id given to the n-th call of a stream that came
without one. -/
structure GeminiWire where
  serde : Serde
  syntheticCallId : Nat → String → String

structure GeminiDecoder where
  toolIndex : Nat
  usage : Option Usage
  completed : Bool
  sawFinishReason : Bool
  pendingSignature : Option String
deriving Repr, DecidableEq

namespace GeminiDecoder

def new : GeminiDecoder := ⟨0, none, false, false, none⟩

def parseUsageMetadata (usage : Value) : Usage :=
  let count := fun key => (usage.get key).bind Value.asU64
  let prompt := (count "promptTokenCount").getD 0
  let completion := (count "candidatesTokenCount").getD 0
  let cached := count "cachedContentTokenCount"
  { promptTokens := prompt
    completionTokens := completion
    totalTokens := (count "totalTokenCount").getD (wrappingAdd prompt completion)
    cachedTokens := cached.getD 0
    cachedTokensKnown := cached.isSome
    reasoningTokens := (count "thoughtsTokenCount").getD 0
    cacheWriteTokens := 0
    cacheWriteTokensKnown := false }

variable (wire : GeminiWire)

def decodeCall (decoder : GeminiDecoder) (call : Value) : GeminiDecoder × List CodexEvent :=
  let name := strOr "" (call.get "name")
  let args := ((call.get "args").map wire.serde.toString).getD "\x7b\x7d"
  let nativeId := ((call.get "id").bind Value.asStr).filter fun id => !id.isEmpty
  ({ decoder with toolIndex := decoder.toolIndex + 1 }, [.toolCallBegin decoder.toolIndex
        (nativeId.getD (wire.syntheticCallId decoder.toolIndex name)) name,
      .toolArgsDelta decoder.toolIndex args])

def decodeText (decoder : GeminiDecoder) (part : Value) : GeminiDecoder × List CodexEvent :=
  match (part.get "text").bind Value.asStr with
  | none => (decoder, [])
  | some text =>
    if ((part.get "thought").bind Value.asBool).getD false then
      (decoder, [.reasoningDelta text])
    else if text.isEmpty then (decoder, [])
    -- Text ends the block a signature belongs to.
    else ({ decoder with pendingSignature := none }, [.textDelta text])

def decodePart (decoder : GeminiDecoder) (part : Value) : GeminiDecoder × List CodexEvent :=
  match part.get "functionCall" with
  | some call => decoder.decodeCall wire call
  | none =>
    match (part.get "thoughtSignature").bind Value.asStr with
    | none => decoder.decodeText part
    | some signature =>
      let signed := { decoder with pendingSignature := some signature }
      if (part.get "text").isNone then (signed, [.reasoningSignature signature])
      else
        let spoken := signed.decodeText part
        (spoken.1, .reasoningSignature signature :: spoken.2)

def decodeCandidate (decoder : GeminiDecoder) (candidate : Value) : GeminiDecoder × List CodexEvent :=
  let parts := (((candidate.get "content").bind fun content => content.get "parts").bind
    Value.asArray).getD []
  let decoded := emitAll (decodePart wire) decoder parts
  match (candidate.get "finishReason").bind Value.asStr with
  | none => decoded
  | some reason =>
    ({ decoded.1 with sawFinishReason := true },
      decoded.2 ++ if reason = "MAX_TOKENS" then [.outputLimitReached] else [])

def decodeResponse (decoder : GeminiDecoder) (response : Value) : GeminiDecoder × List CodexEvent :=
  let created := (((response.get "responseId").bind Value.asStr).map .created).toList
  let counted := { decoder with
    usage := ((response.get "usageMetadata").map parseUsageMetadata).or decoder.usage }
  match ((response.get "candidates").bind Value.asArray).bind List.head? with
  | none => (counted, created)
  | some candidate =>
    let decoded := counted.decodeCandidate wire candidate
    (decoded.1, created ++ decoded.2)

def decode (decoder : GeminiDecoder) (payload : Bytes) : GeminiDecoder × List CodexEvent :=
  if decoder.completed then (decoder, [])
  else
    match fromUtf8 payload with
    | .error _ => (decoder, [])
    | .ok chars =>
      let text := Text.trim (String.ofList chars)
      if text.isEmpty || text = "[DONE]" then (decoder, [])
      else
        match wire.serde.fromSlice (utf8 text) with
        | .error _ => (decoder, [])
        | .ok value =>
          let response := (value.get "response").getD value
          match (value.get "error").or (response.get "error") with
          | some error =>
            ({ decoder with completed := true }, [.failed (strOr "upstream error" (error.get "message"))])
          | none => decoder.decodeResponse wire response

def finish (decoder : GeminiDecoder) : GeminiDecoder × List CodexEvent :=
  if decoder.completed then (decoder, [])
  else if decoder.sawFinishReason then
    ({ decoder with completed := true, usage := none }, [.completed decoder.usage])
  else
    ({ decoder with completed := true }, [.failed "stream truncated before finish reason"])

end GeminiDecoder

inductive Protocol where
  | codex
  | antigravity
  | anthropic
  | kiro
  | cursor
  | devin
deriving Repr, DecidableEq

/-- Everything outside the decoders that a stream is read with. -/
structure Wire where
  serde : Serde
  syntheticCallId : Nat → String → String
  serverMessage : Bytes → Except String (Option AgentServerMessage)
  osVersion : String
  shell : Option String
  accepts : Option (Nat → Bool)
  chatMessage : Bytes → Except String ChatMessageResponse

namespace Wire

def gemini (wire : Wire) : GeminiWire := ⟨wire.serde, wire.syntheticCallId⟩

def cursor (wire : Wire) : CursorWire :=
  ⟨wire.serde, wire.serverMessage, wire.osVersion, wire.shell, wire.accepts⟩

def devin (wire : Wire) : DevinWire := ⟨wire.serde, wire.chatMessage⟩

end Wire

structure ProtocolParser where
  sse : SseParser
  gemini : Option GeminiDecoder
  anthropic : Option AnthropicDecoder
  kiro : Option KiroDecoder
  cursor : Option CursorDecoder
  devin : Option DevinDecoder

def pushLimitFailure : Except SseLimitError Unit → List CodexEvent
  | .error error => [.failed error.message]
  | .ok () => []

namespace ProtocolParser

def new (protocol : Protocol) : ProtocolParser where
  sse := .default
  gemini := if protocol = .antigravity then some .new else none
  anthropic := if protocol = .anthropic then some .default else none
  kiro := if protocol = .kiro then some .new else none
  cursor := if protocol = .cursor then some .new else none
  devin := if protocol = .devin then some .new else none

def push (wire : Wire) (parser : ProtocolParser) (chunk : Bytes) : ProtocolParser × List CodexEvent :=
  match parser.cursor, parser.kiro, parser.devin, parser.anthropic, parser.gemini with
  | some decoder, _, _, _, _ =>
    let decoded := decoder.decode wire.cursor chunk
    ({ parser with cursor := some decoded.1 }, decoded.2)
  | none, some decoder, _, _, _ =>
    let decoded := decoder.decode wire.serde chunk
    ({ parser with kiro := some decoded.1 }, decoded.2)
  | none, none, some decoder, _, _ =>
    let decoded := decoder.decode wire.devin chunk
    ({ parser with devin := some decoded.1 }, decoded.2)
  | none, none, none, some decoder, _ =>
    let raw := parser.sse.pushRawData chunk
    let decoded := emitAll (AnthropicDecoder.decode wire.serde) decoder raw.2.1
    ({ parser with sse := raw.1, anthropic := some decoded.1 }, decoded.2 ++ pushLimitFailure raw.2.2)
  | none, none, none, none, some decoder =>
    let raw := parser.sse.pushRawData chunk
    let decoded := emitAll (GeminiDecoder.decode wire.gemini) decoder raw.2.1
    ({ parser with sse := raw.1, gemini := some decoded.1 }, decoded.2 ++ pushLimitFailure raw.2.2)
  | none, none, none, none, none =>
    let pushed := parser.sse.push wire.serde chunk
    ({ parser with sse := pushed.1 }, pushed.2)

def finish (wire : Wire) (parser : ProtocolParser) : ProtocolParser × List CodexEvent :=
  match parser.cursor, parser.kiro, parser.devin, parser.anthropic, parser.gemini with
  | some decoder, _, _, _, _ =>
    let finished := decoder.finish
    ({ parser with cursor := some finished.1 }, finished.2)
  | none, some decoder, _, _, _ =>
    let finished := decoder.finish
    ({ parser with kiro := some finished.1 }, finished.2)
  | none, none, some decoder, _, _ =>
    let finished := decoder.finish
    ({ parser with devin := some finished.1 }, finished.2)
  | none, none, none, some decoder, _ =>
    let raw := parser.sse.finishRawData
    let decoded := emitAll (AnthropicDecoder.decode wire.serde) decoder raw.2.1
    let finished := decoded.1.finish
    ({ parser with sse := raw.1, anthropic := some finished.1 }, decoded.2 ++ pushLimitFailure raw.2.2 ++ finished.2)
  | none, none, none, none, some decoder =>
    let raw := parser.sse.finishRawData
    let decoded := emitAll (GeminiDecoder.decode wire.gemini) decoder raw.2.1
    let finished := decoded.1.finish
    ({ parser with sse := raw.1, gemini := some finished.1 }, decoded.2 ++ pushLimitFailure raw.2.2 ++ finished.2)
  | none, none, none, none, none =>
    let finished := parser.sse.finish wire.serde
    ({ parser with sse := finished.1 }, finished.2)

def streamEvents (wire : Wire) (protocol : Protocol) (chunks : List Bytes) : List CodexEvent :=
  let pushed := emitAll (push wire) (new protocol) chunks
  pushed.2 ++ (pushed.1.finish wire).2

end ProtocolParser

end Mahoquot.Compat
