import Mahoquot.Compat.Devin
import Std.Data.ExtTreeMap

/-! The Connect stream of a Cursor upstream. Some of its messages demand a
reply, which goes into a bounded queue. -/

set_option autoImplicit false

namespace Mahoquot.Compat
open Library

def maxCursorFrameBytes : Nat := 64 * 1024 * 1024

structure McpArgs where
  name : String
  toolName : String
deriving Repr, DecidableEq

structure TurnEndedUpdate where
  inputTokens : Nat
  outputTokens : Nat
  cacheReadTokens : Nat
  cacheWriteTokens : Nat
  reasoningTokens : Nat
deriving Repr, DecidableEq

/-- A tool call names its tool through two optional levels. -/
abbrev ToolCall := Option (Option McpArgs)

inductive InteractionUpdate where
  | textDelta (text : String)
  | thinkingDelta (text : String)
  | tokenDelta (tokens : Int)
  | toolCallStarted (callId : String) (toolCall : Option ToolCall)
  | partialToolCall (callId : String) (toolCall : Option ToolCall) (argsTextDelta : String)
  | toolCallCompleted (callId : String) (toolCall : Option ToolCall)
  | turnEnded (usage : TurnEndedUpdate)
deriving Repr, DecidableEq

inductive KvRequest where
  | getBlobArgs
  | setBlobArgs
deriving Repr, DecidableEq

inductive AgentServerMessage where
  | interactionUpdate (update : Option InteractionUpdate)
  | kvServerMessage (id : Nat) (message : Option KvRequest)
  | execServerMessage (id : Nat) (execId : String) (requestsContext : Bool)
  | conversationCheckpointUpdate
deriving Repr, DecidableEq

structure RequestContextEnv where
  osVersion : String
  workspacePaths : List String
  shell : String
  sandboxEnabled : Bool
  timeZone : String
deriving Repr, DecidableEq

inductive AgentClientMessage where
  | kvGetBlobResult (id : Nat)
  | kvSetBlobResult (id : Nat)
  | requestContextResult (id : Nat) (execId : String) (env : RequestContextEnv)
      (servedFromDiskCache : Bool)
deriving Repr, DecidableEq

/-- The libraries and surroundings of a stream: JSON, the protobuf of a server
message, the environment, and whether the queue takes the n-th reply (`none`
without a queue). -/
structure CursorWire where
  serde : Serde
  serverMessage : Bytes → Except String (Option AgentServerMessage)
  osVersion : String
  shell : Option String
  accepts : Option (Nat → Bool)

structure CursorDecoder where
  buffer : Bytes
  completed : Bool
  outputTokens : Nat
  openTools : Std.ExtTreeMap String (String × Nat)
  nextToolIndex : Nat
  replies : List AgentClientMessage

namespace CursorDecoder

def new : CursorDecoder := ⟨[], false, 0, ∅, 0, []⟩

variable (decoder : CursorDecoder)

def fail (message : String) : CursorDecoder × List CodexEvent :=
  ({ decoder with completed := true }, [.failed message])

variable (wire : CursorWire)

def sendReply (decoder : CursorDecoder) (message : AgentClientMessage) : CursorDecoder × List CodexEvent :=
  match wire.accepts with
  | none => (decoder, [])
  | some accepts =>
    if accepts decoder.replies.length then
      ({ decoder with replies := decoder.replies ++ [message] }, [])
    else decoder.fail "cursor reply queue full"

def replyToKv (decoder : CursorDecoder) (id : Nat) : Option KvRequest → CursorDecoder × List CodexEvent
  | some .getBlobArgs => decoder.sendReply wire (.kvGetBlobResult id)
  | some .setBlobArgs => decoder.sendReply wire (.kvSetBlobResult id)
  | none => (decoder, [])

def replyToExec (decoder : CursorDecoder) (id : Nat) (execId : String)
    (requestsContext : Bool) : CursorDecoder × List CodexEvent :=
  if requestsContext then
    decoder.sendReply wire (.requestContextResult id execId
      { osVersion := wire.osVersion
        workspacePaths := ["/"]
        shell := wire.shell.getD "/bin/sh"
        sandboxEnabled := false
        timeZone := "UTC" } false)
  else (decoder, [])

def toolName (tool : Option ToolCall) : String :=
  match tool.bind fun call => call.bind id with
  | some args => if args.toolName.isEmpty then args.name else args.toolName
  | none => "tool"

def startTool (callId : String) (tool : Option ToolCall) : CursorDecoder × List CodexEvent :=
  if decoder.openTools.contains callId then (decoder, [])
  else
    let name := toolName tool
    ({ decoder with
        openTools := decoder.openTools.insert callId (name, decoder.nextToolIndex)
        nextToolIndex := decoder.nextToolIndex + 1 },
      [.toolCallBegin decoder.nextToolIndex callId name])

def decodeUpdate : InteractionUpdate → CursorDecoder × List CodexEvent
  | .textDelta text => (decoder, if text.isEmpty then [] else [.textDelta text])
  | .thinkingDelta text => (decoder, if text.isEmpty then [] else [.reasoningDelta text])
  | .tokenDelta tokens =>
    ({ decoder with
        outputTokens := min (decoder.outputTokens + (max tokens 0).toNat) (2 ^ 64 - 1) },
      [])
  | .toolCallStarted callId tool => decoder.startTool callId tool
  | .partialToolCall callId tool delta =>
    let started := decoder.startTool callId tool
    (started.1, started.2 ++ ((started.1.openTools[callId]?).map fun opened => .toolArgsDelta opened.2 delta).toList)
  | .toolCallCompleted callId tool => decoder.startTool callId tool
  | .turnEnded usage =>
    ({ decoder with completed := true }, [.completed (some
        { promptTokens := usage.inputTokens
          completionTokens := usage.outputTokens
          totalTokens := wrappingAdd usage.inputTokens usage.outputTokens
          cachedTokens := usage.cacheReadTokens
          cachedTokensKnown := decide (usage.cacheReadTokens > 0)
          reasoningTokens := usage.reasoningTokens
          cacheWriteTokens := usage.cacheWriteTokens
          cacheWriteTokensKnown := decide (usage.cacheWriteTokens > 0) })])

def decodeMessage (decoder : CursorDecoder) : Option AgentServerMessage → CursorDecoder × List CodexEvent
  | none => (decoder, [])
  | some (.interactionUpdate (some update)) => decoder.decodeUpdate update
  | some (.interactionUpdate none) => (decoder, [])
  | some (.kvServerMessage id message) => decoder.replyToKv wire id message
  | some (.execServerMessage id execId requestsContext) => decoder.replyToExec wire id execId requestsContext
  | some .conversationCheckpointUpdate => (decoder, [])

def complete : CursorDecoder × List CodexEvent :=
  ({ decoder with completed := true }, [.completed (some
      { promptTokens := 0
        completionTokens := decoder.outputTokens
        totalTokens := decoder.outputTokens
        cachedTokens := 0
        cachedTokensKnown := false
        reasoningTokens := 0
        cacheWriteTokens := 0
        cacheWriteTokensKnown := false })])

def endError (payload : Bytes) : Option String :=
  ((wire.serde.fromSlice payload).toOption).bind fun value =>
    ((value.index "error").index "message").asStr

/-- The loop over the frames of the buffer; each round but the last takes one. -/
def decodeLoop (wire : CursorWire) : Nat → CursorDecoder → CursorDecoder × List CodexEvent
  | 0, decoder => (decoder, [])
  | fuel + 1, decoder =>
    let flags := decoder.buffer.headD 0
    let length := u32FromBeBytes ((decoder.buffer.drop 1).take 4)
    if decoder.buffer.length < 5 then (decoder, [])
    else if length > maxCursorFrameBytes then
      decoder.fail "Cursor frame exceeds the size limit"
    else if decoder.buffer.length < length + 5 then (decoder, [])
    else
      let payload := (decoder.buffer.take (5 + length)).drop 5
      let drained := { decoder with buffer := decoder.buffer.drop (5 + length) }
      if flags &&& 2 ≠ 0 then
        match endError wire payload with
        | some message => drained.fail message
        | none =>
          let ended := if drained.completed then (drained, []) else drained.complete
          let later := decodeLoop wire fuel ended.1
          (later.1, ended.2 ++ later.2)
      else
        match wire.serverMessage payload with
        | .error _ => decodeLoop wire fuel drained
        | .ok message =>
          let decoded := drained.decodeMessage wire message
          if decoded.1.completed then decoded
          else
            let later := decodeLoop wire fuel decoded.1
            (later.1, decoded.2 ++ later.2)

def decode (decoder : CursorDecoder) (bytes : Bytes) : CursorDecoder × List CodexEvent :=
  if decoder.completed then (decoder, [])
  else
    let buffer := decoder.buffer ++ bytes
    decodeLoop wire (buffer.length + 1) { decoder with buffer }

def finish : CursorDecoder × List CodexEvent :=
  if decoder.completed then (decoder, [])
  else decoder.fail "cursor stream ended before completion"

end CursorDecoder
end Mahoquot.Compat
