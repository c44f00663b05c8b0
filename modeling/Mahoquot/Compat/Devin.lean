import Mahoquot.Compat.Events
import Mahoquot.Library.Transducer

/-! The Connect stream of a Devin upstream: five-byte frame headers, data frames
with chat deltas, and one end-of-stream frame that carries the outcome. -/

set_option autoImplicit false

namespace Mahoquot.Compat
open Library

def maxFrameSize : Nat := 16 * 1024 * 1024

structure ChatToolCall where
  id : Option String
  name : Option String
  argumentsJson : Option String
deriving Repr, DecidableEq

structure ModelUsageStats where
  inputTokens : Option Nat
  outputTokens : Option Nat
  cacheWriteTokens : Option Nat
  cacheReadTokens : Option Nat
deriving Repr, DecidableEq

structure ChatMessageResponse where
  deltaText : Option String
  stopReason : Option Int
  deltaToolCalls : List ChatToolCall
  usage : Option ModelUsageStats
  deltaThinking : Option String
  deltaSignature : Option String
  thinkingRedacted : Option Bool
  actualModelUid : Option String
deriving Repr, DecidableEq

def ChatMessageResponse.empty : ChatMessageResponse :=
  ⟨none, none, [], none, none, none, none, none⟩

/-- The wire libraries: JSON and the protobuf of a chat message. -/
structure DevinWire where
  serde : Serde
  chatMessage : Bytes → Except String ChatMessageResponse

structure DevinOutcome where
  usage : Option Usage
  actualModelUid : Option String
  stopReason : Option Int
  errorCode : Option String
  errorMessage : Option String
  /-- A valid end-of-stream frame was consumed. -/
  terminated : Bool
deriving Repr, DecidableEq

structure ToolState where
  callId : Option String
  name : Option String
  args : String
  pendingArgs : List String
  blockIndex : Nat
  began : Bool
deriving Repr, DecidableEq

structure DevinDecoder where
  buf : Bytes
  nextBlock : Nat
  tools : List ToolState
  outcome : DevinOutcome
  failed : Bool
  finished : Bool
deriving Repr, DecidableEq

def normalizeConnectCode (raw : String) : Option String :=
  if ["canceled", "unknown", "invalid_argument", "deadline_exceeded", "not_found",
      "already_exists", "permission_denied", "resource_exhausted", "failed_precondition",
      "aborted", "out_of_range", "unimplemented", "internal", "unavailable", "data_loss",
      "unauthenticated"].contains raw then some raw
  else none

def defaultCodeDescription : String → String
  | "canceled" => "operation was canceled"
  | "unknown" => "unknown upstream error"
  | "invalid_argument" => "invalid argument provided to upstream"
  | "deadline_exceeded" => "upstream request timed out"
  | "not_found" => "requested resource not found upstream"
  | "already_exists" => "resource already exists upstream"
  | "permission_denied" => "permission denied by upstream"
  | "resource_exhausted" => "upstream quota or rate limit exhausted"
  | "failed_precondition" => "precondition check failed upstream"
  | "aborted" => "operation aborted upstream"
  | "out_of_range" => "operation out of range upstream"
  | "unimplemented" => "operation not implemented upstream"
  | "internal" => "internal server error from upstream"
  | "unavailable" => "upstream service unavailable"
  | "data_loss" => "data loss reported by upstream"
  | "unauthenticated" => "unauthenticated request to upstream"
  | _ => "unknown upstream error"

def u32FromBeBytes (bytes : Bytes) : Nat :=
  bytes.foldl (fun value byte => value * 256 + byte.toNat) 0

def nonEmpty (text : Option String) : Option String := text.filter fun text => !text.isEmpty

namespace ToolState

def new (callId : Option String) (blockIndex : Nat) : ToolState :=
  ⟨callId, none, "", [], blockIndex, false⟩

variable (tool : ToolState)

/-- Announce the call with the argument pieces that waited for it. -/
def begin (callId name : String) : ToolState × List CodexEvent :=
  ({ tool with began := true, pendingArgs := [] }, .toolCallBegin tool.blockIndex callId name ::
      tool.pendingArgs.map (.toolArgsDelta tool.blockIndex))

def beginIfKnown : ToolState × List CodexEvent :=
  match tool.began, tool.callId, tool.name with
  | false, some callId, some name => tool.begin callId name
  | _, _, _ => (tool, [])

def addArgs : Option String → ToolState × List CodexEvent
  | none => (tool, [])
  | some args =>
    if tool.began then (tool, [.toolArgsDelta tool.blockIndex args])
    else ({ tool with pendingArgs := tool.pendingArgs ++ [args] }, [])

/-- What a delta that was traced to this call adds to it. -/
def absorb (name args : Option String) : ToolState × List CodexEvent :=
  let named := { tool with name := name.or tool.name, args := tool.args ++ args.getD "" }
  let begun := named.beginIfKnown
  let added := begun.1.addArgs args
  (added.1, begun.2 ++ added.2)

end ToolState

namespace DevinDecoder

def new : DevinDecoder :=
  ⟨[], 0, [], ⟨none, none, none, none, none, false⟩, false, false⟩

variable (decoder : DevinDecoder)

def fail (message : String) : DevinDecoder × List CodexEvent :=
  ({ decoder with failed := true }, [.failed message])

def openTool (callId : Option String) : DevinDecoder :=
  { decoder with
    tools := decoder.tools ++ [.new callId decoder.nextBlock]
    nextBlock := decoder.nextBlock + 1 }

def pendingIndices : List Nat :=
  (List.range decoder.tools.length).filter fun index =>
    (decoder.tools[index]?).any fun tool => tool.callId.isNone

/-- The call a delta belongs to, with the table it leaves. -/
def resolveTool (id : Option String) : Except String (DevinDecoder × Nat) :=
  match id with
  | some id =>
    match decoder.tools.findIdx? fun tool => tool.callId == some id with
    | some index => .ok (decoder, index)
    | none =>
      match decoder.pendingIndices with
      | [] => .ok (decoder.openTool (some id), decoder.tools.length)
      | [index] => .ok ({ decoder with
          tools := decoder.tools.modify index fun tool => { tool with callId := some id } },
          index)
      | _ :: _ :: _ => .error "ambiguous tool ID resolution: multiple pending tools missing ID"
  | none =>
    match decoder.tools with
    | [] => .ok (decoder.openTool none, 0)
    | [_] => .ok (decoder, 0)
    | _ :: _ :: _ => .error "ambiguous ID-less tool delta: active tool call cannot be identified"

def decodeToolDelta (delta : ChatToolCall) : DevinDecoder × List CodexEvent :=
  match decoder.resolveTool (nonEmpty delta.id) with
  | .error message => decoder.fail message
  | .ok (resolved, index) =>
    match resolved.tools[index]? with
    | none => (resolved, [])
    | some tool =>
      let absorbed := tool.absorb (nonEmpty delta.name) (nonEmpty delta.argumentsJson)
      ({ resolved with tools := resolved.tools.set index absorbed.1 }, absorbed.2)

def decodeToolDeltas (decoder : DevinDecoder) : List ChatToolCall → DevinDecoder × List CodexEvent
  | [] => (decoder, [])
  | delta :: deltas =>
    let first := decoder.decodeToolDelta delta
    if first.1.failed then first
    else
      let rest := decodeToolDeltas first.1 deltas
      (rest.1, first.2 ++ rest.2)

def messageEvents (message : ChatMessageResponse) : List CodexEvent :=
  ((nonEmpty message.deltaThinking).map .reasoningDelta).toList ++
    (if message.thinkingRedacted = some true then [.reasoningRedacted] else []) ++
    ((nonEmpty message.deltaSignature).map .reasoningSignature).toList ++
    ((nonEmpty message.deltaText).map .textDelta).toList

def usageOf (usage : ModelUsageStats) : Usage :=
  let input := usage.inputTokens.getD 0
  let output := usage.outputTokens.getD 0
  { promptTokens := input
    completionTokens := output
    totalTokens := wrappingAdd input output
    cachedTokens := usage.cacheReadTokens.getD 0
    cachedTokensKnown := usage.cacheReadTokens.isSome
    reasoningTokens := 0
    cacheWriteTokens := usage.cacheWriteTokens.getD 0
    cacheWriteTokensKnown := usage.cacheWriteTokens.isSome }

/-- The last snapshot of the usage wins. -/
def recordOutcome (outcome : DevinOutcome) (message : ChatMessageResponse) : DevinOutcome :=
  { outcome with
    usage := (message.usage.map usageOf).or outcome.usage
    actualModelUid := (nonEmpty message.actualModelUid).or outcome.actualModelUid
    stopReason := (message.stopReason.filter (· != 0)).or outcome.stopReason }

def stopWith (stop : Int) : DevinDecoder × List CodexEvent :=
  if stop = 1 ∨ stop = 3 ∨ stop = 9 then (decoder, [.outputLimitReached])
  else if stop = 13 then decoder.fail "Devin stopped with STOP_REASON_ERROR"
  else (decoder, [])

def decodeData (wire : DevinWire) (decoder : DevinDecoder) (payload : Bytes) : DevinDecoder × List CodexEvent :=
  match wire.chatMessage payload with
  | .error error => decoder.fail ("malformed connect protobuf payload: " ++ error)
  | .ok message =>
    let called := decoder.decodeToolDeltas message.deltaToolCalls
    if called.1.failed then (called.1, messageEvents message ++ called.2)
    else
      let recorded := { called.1 with outcome := recordOutcome called.1.outcome message }
      let stopped := match message.stopReason with
        | some stop => recorded.stopWith stop
        | none => (recorded, [])
      (stopped.1, messageEvents message ++ called.2 ++ stopped.2)

def endWithError (error : Value) : DevinDecoder × List CodexEvent :=
  let known := normalizeConnectCode (((error.get "code").bind Value.asStr).getD "")
  let code := known.getD "unknown"
  let description := (known.map defaultCodeDescription).getD "unknown upstream error"
  let outcome := { decoder.outcome with
    errorCode := some code
    errorMessage := some description }
  ({ decoder with outcome } : DevinDecoder).fail (code ++ ": " ++ description)

def decodeEndStream (wire : DevinWire) (decoder : DevinDecoder) (payload : Bytes) : DevinDecoder × List CodexEvent :=
  if decoder.outcome.terminated then decoder.fail "duplicate EndStream frame in connect stream"
  else
    match wire.serde.fromSlice payload with
    | .error error => decoder.fail ("malformed EndStream JSON: " ++ error)
    | .ok value =>
      match value.asObject with
      | none => decoder.fail "malformed EndStream JSON: expected object"
      | some _ =>
        let ended := { decoder with outcome := { decoder.outcome with terminated := true } }
        match (value.get "error").filter fun error => !error.isNull with
        | none => (ended, [])
        | some error => ended.endWithError error

def trailing : String := "trailing data after EndStream frame"

/-- The loop over a chunk; each round but the last takes a whole frame. -/
def decodeLoop (wire : DevinWire) : Nat → DevinDecoder → Bytes → DevinDecoder × List CodexEvent
  | 0, decoder, _ => (decoder, [])
  | fuel + 1, decoder, bytes =>
    if bytes.isEmpty || decoder.failed then (decoder, [])
    else if decoder.outcome.terminated then decoder.fail trailing
    else
      let header := decoder.buf ++ bytes.take (5 - decoder.buf.length)
      let body := bytes.drop (5 - decoder.buf.length)
      if header.length < 5 then ({ decoder with buf := header }, [])
      else
        let flags := header.headD 0
        let len := u32FromBeBytes ((header.drop 1).take 4)
        if len > maxFrameSize then
          ({ decoder with buf := header } : DevinDecoder).fail ("connect frame too large: " ++
            toString len ++ " bytes > " ++ toString maxFrameSize)
        else
          let frame := header ++ body.take (5 + len - header.length)
          let rest := body.drop (5 + len - header.length)
          if frame.length < 5 + len then ({ decoder with buf := frame }, [])
          else
            let payload := (frame.take (5 + len)).drop 5
            let drained := { decoder with buf := frame.drop (5 + len) }
            if flags = 0 then
              let decoded := drained.decodeData wire payload
              let later := decodeLoop wire fuel decoded.1 rest
              (later.1, decoded.2 ++ later.2)
            else if flags = 2 then
              if !drained.buf.isEmpty || !rest.isEmpty then drained.fail trailing
              else drained.decodeEndStream wire payload
            else drained.fail "connect frame uses unnegotiated compression (flags != 0/2)"

def decode (wire : DevinWire) (decoder : DevinDecoder) (bytes : Bytes) : DevinDecoder × List CodexEvent :=
  if decoder.failed then (decoder, [])
  else decodeLoop wire (decoder.buf.length + bytes.length + 1) decoder bytes

def beginRemaining (tools : List ToolState) : List ToolState × List CodexEvent :=
  let begun := tools.map ToolState.beginIfKnown
  (begun.map Prod.fst, begun.flatMap Prod.snd)

def finish : DevinDecoder × List CodexEvent :=
  if decoder.failed || decoder.finished then (decoder, [])
  else
    let closed := { decoder with finished := true }
    if !decoder.buf.isEmpty then
      if decoder.outcome.terminated then closed.fail trailing
      else closed.fail "truncated connect frame at stream end"
    else if !decoder.outcome.terminated then
      closed.fail "connect stream ended without EndStream frame"
    else if decoder.tools.any fun tool => tool.callId.isNone || tool.name.isNone then
      closed.fail "unresolved tool missing ID or name at stream end"
    else
      let begun := beginRemaining decoder.tools
      ({ closed with tools := begun.1 }, begun.2 ++ [.completed decoder.outcome.usage])

end DevinDecoder
end Mahoquot.Compat
