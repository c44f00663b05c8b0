import Mahoquot.Compat.Value
import Mahoquot.Types

/-! The events every upstream protocol is decoded into, and the server-sent events an
answer is written as. -/

set_option autoImplicit false

namespace Mahoquot.Compat

structure Usage where
  promptTokens : Nat
  completionTokens : Nat
  totalTokens : Nat
  cachedTokens : Nat
  cachedTokensKnown : Bool
  reasoningTokens : Nat
  cacheWriteTokens : Nat
  cacheWriteTokensKnown : Bool
deriving Repr, DecidableEq

inductive CodexEvent where
  | created (responseId : String)
  | textDelta (text : String)
  | reasoningDelta (text : String)
  | reasoningSignature (signature : String)
  | reasoningRedacted
  | toolCallBegin (outputIndex : Nat) (callId name : String)
  | toolArgsDelta (outputIndex : Nat) (delta : String)
  | outputLimitReached
  | completed (usage : Option Usage)
  | failed (message : String)
deriving Repr, DecidableEq

def CodexEvent.isTerminal : CodexEvent → Bool
  | .completed _ | .failed _ => true
  | _ => false

/-- What an event asks of the tools begun before it. -/
def toolsFit (begun : List Nat) : CodexEvent → Prop
  | .toolCallBegin outputIndex _ _ => outputIndex ∉ begun
  | .toolArgsDelta outputIndex _ => outputIndex ∈ begun
  | _ => True

def beginTools (begun : List Nat) : CodexEvent → List Nat
  | .toolCallBegin outputIndex _ _ => begun ++ [outputIndex]
  | _ => begun

/-- Each tool is begun once, and before its arguments. -/
def ToolsBegun : List Nat → List CodexEvent → Prop
  | _, [] => True
  | begun, event :: events => toolsFit begun event ∧ ToolsBegun (beginTools begun event) events

inductive WireFrame where
  | data (payload : Value)
  | event (name : String) (payload : Value)
  /-- The closing frame of a chat completion stream. -/
  | done
deriving Repr, DecidableEq

namespace WireFrame

def bytes (serde : Serde) : WireFrame → Bytes
  | data payload => utf8 "data: " ++ serde.toVec payload ++ utf8 "\n\n"
  | event name payload => utf8 "event: " ++ utf8 name ++ utf8 "\ndata: " ++ serde.toVec payload ++ utf8 "\n\n"
  | done => utf8 "data: [DONE]\n\n"

end WireFrame
end Mahoquot.Compat
