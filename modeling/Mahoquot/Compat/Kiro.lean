import Mahoquot.Compat.Sse
import Mahoquot.Compat.Devin
import Mahoquot.Compat.Utf8

/-! The stream of a Kiro upstream: bare JSON objects, or the same objects in AWS
event-stream frames, as the first byte that is not white space tells. The framed reading
comes also with the indices as the loop computes them: a read outside its array, where the
program would panic, gives `none`. -/

set_option autoImplicit false

namespace Mahoquot.Compat
open Library

def maxKiroFrameBytes : Nat := 64 * 1024 * 1024

def maxKiroJsonBufferBytes : Nat := 8 * 1024 * 1024

structure KiroDecoder where
  wire : Bytes
  framed : Option Bool
  buffer : List Char
  pending : Bytes
  completed : Bool
  currentTool : Option (String × String × Nat)
deriving Repr, DecidableEq

def isAsciiWhitespace (byte : UInt8) : Bool :=
  byte == 9 || byte == 10 || byte == 12 || byte == 13 || byte == 32

def kiroErrorMessage (value : Value) : Option String :=
  ([value.get "message", value.get "Message", value.pointer ["error", "message"],
    value.get "__type", value.get "error"].filterMap id).findSome? Value.asStr

/-- The scan behind `nextJsonObject`: the characters up to the brace that closes
the object, and those behind it. The depth is a `u32` and wraps. -/
def closeObject : Nat → Bool → Bool → List Char → Option (List Char × List Char)
  | _, _, _, [] => none
  | depth, inString, escaped, char :: rest =>
    let found := fun depth inString escaped =>
      (closeObject depth inString escaped rest).map fun split => (char :: split.1, split.2)
    if inString then
      if escaped then found depth true false
      else if char = '\\' then found depth true true
      else found depth (char != '"') false
    else if char = '"' then found depth true false
    else if char = '\x7b' then found ((depth + 1) % UInt32.size) false false
    else if char = '\x7d' then
      if depth = 1 then some ([char], rest) else found ((depth + UInt32.size - 1) % UInt32.size) false false
    else found depth false false

def nextJsonObject (input : List Char) : Option (List Char × List Char) :=
  closeObject 0 false false (input.dropWhile (· != '\x7b'))

inductive HeaderScan where
  | invalid
  | done (errorType : Option String)
deriving Repr, DecidableEq

/-- The headers of a frame, in order; the last error type wins. -/
def scanHeaders : Nat → Option String → Bytes → HeaderScan
  | 0, errorType, _ => .done errorType
  | _ + 1, errorType, [] => .done errorType
  | fuel + 1, errorType, nameLen :: rest =>
    let name := rest.take nameLen.toNat
    let behind := rest.drop nameLen.toNat
    if rest.length < nameLen.toNat + 3 || behind.headD 0 != 7 then .invalid
    else
      let len := u32FromBeBytes ((behind.drop 1).take 2)
      let body := behind.drop 3
      if body.length < len then .invalid
      else
        let value := body.take len
        let errorType :=
          if name = utf8 ":message-type" ∧ (value = utf8 "exception" ∨ value = utf8 "error") then
            some (String.ofList (fromUtf8Lossy value))
          else errorType
        scanHeaders fuel errorType (body.drop len)

namespace KiroDecoder

def new : KiroDecoder := ⟨[], none, [], [], false, none⟩

def fail (decoder : KiroDecoder) (message : String) : KiroDecoder × List CodexEvent :=
  ({ decoder with completed := true }, [.failed message])

/-- Characters held back only while they may still be completed. -/
def takeText (decoder : KiroDecoder) (bytes : Bytes) : KiroDecoder :=
  let pending := decoder.pending ++ bytes
  match fromUtf8 pending with
  | .ok text => { decoder with pending := [], buffer := decoder.buffer ++ text }
  | .error error =>
    if error.errorLen.isSome then
      { decoder with pending := [], buffer := decoder.buffer ++ fromUtf8Lossy pending }
    else
      { decoder with
        pending := error.remaining
        buffer := decoder.buffer ++ error.validUpTo }

variable (serde : Serde)

def beginTool (decoder : KiroDecoder) (name id : String) (value : Value) : KiroDecoder × List CodexEvent :=
  let index := (decoder.currentTool.map fun tool => tool.2.2 + 1).getD 0
  let args := (value.get "input").map fun input =>
    CodexEvent.toolArgsDelta index (input.asStr.getD (serde.toString input))
  ({ decoder with currentTool := some (id, name, index) }, .toolCallBegin index id name :: args.toList)

def decodeObject (decoder : KiroDecoder) (value : Value) : KiroDecoder × List CodexEvent :=
  let text := fun key => (value.get key).bind Value.asStr
  if (value.get "__type").isSome || (value.get "error").isSome then
    decoder.fail ((kiroErrorMessage value).getD "Kiro upstream error")
  else
    match text "content", text "name", text "toolUseId", text "input", text "text",
      text "signature" with
    | some content, _, _, _, _, _ => (decoder, [.textDelta content])
    | none, some name, some id, _, _, _ => decoder.beginTool serde name id value
    | none, _, _, some input, _, _ =>
      (decoder, (decoder.currentTool.map fun tool => .toolArgsDelta tool.2.2 input).toList)
    | none, _, _, none, some text, _ => (decoder, [.reasoningDelta text])
    | none, _, _, none, none, some signature => (decoder, [.reasoningSignature signature])
    | none, _, _, none, none, none =>
      if (value.get "stopReason").isSome then
        ({ decoder with completed := true }, [.completed none])
      else (decoder, [])

/-- Take the objects of the buffer; each round but the last removes one. -/
def drainObjects (serde : Serde) : Nat → KiroDecoder → KiroDecoder × List CodexEvent
  | 0, decoder => (decoder, [])
  | fuel + 1, decoder =>
    match nextJsonObject decoder.buffer with
    | none =>
      -- Only an object that never closes is bounded.
      if (utf8 (String.ofList decoder.buffer)).length > maxKiroJsonBufferBytes then
        decoder.fail "Kiro JSON buffer exceeds the size limit"
      else (decoder, [])
    | some (candidate, rest) =>
      let drained := { decoder with buffer := rest }
      match serde.fromSlice (utf8 (String.ofList candidate)) with
      | .error _ => drained.fail "Invalid Kiro JSON payload"
      | .ok value =>
        let decoded := drained.decodeObject serde value
        if decoded.1.completed then decoded
        else
          let later := drainObjects serde fuel decoded.1
          (later.1, decoded.2 ++ later.2)

def decodeJson (decoder : KiroDecoder) (bytes : Bytes) : KiroDecoder × List CodexEvent :=
  let taken := decoder.takeText bytes
  drainObjects serde (taken.buffer.length + 1) taken

/-- One frame whose length is settled: `payload` lies between the headers and the
checksum. -/
def decodeFrame (decoder : KiroDecoder) (frame : Bytes) (headers : Nat) : KiroDecoder × List CodexEvent :=
  let header := (frame.drop 12).take headers
  let payload := ((frame.take (frame.length - 4)).drop (12 + headers))
  match scanHeaders (header.length + 1) none header with
  | .invalid => decoder.fail "Invalid Kiro event-stream headers"
  | .done (some errorType) =>
    let value := ((serde.fromSlice payload).toOption).getD .null
    decoder.fail ((kiroErrorMessage value).getD errorType)
  | .done none => decoder.decodeJson serde payload

/-- The loop over the frames; each round but the last takes one of at least 16 bytes. -/
def decodeFrames (serde : Serde) : Nat → KiroDecoder → KiroDecoder × List CodexEvent
  | 0, decoder => (decoder, [])
  | fuel + 1, decoder =>
    if decoder.wire.length < 12 || decoder.completed then (decoder, [])
    else
      let total := u32FromBeBytes (decoder.wire.take 4)
      let headers := u32FromBeBytes ((decoder.wire.drop 4).take 4)
      if total > maxKiroFrameBytes then decoder.fail "Kiro frame exceeds the size limit"
      else if total < 16 || headers > total - 16 then
        decoder.fail "Invalid Kiro event-stream framing"
      else if decoder.wire.length < total then (decoder, [])
      else
        let drained := { decoder with wire := decoder.wire.drop total }
        let decoded := drained.decodeFrame serde (decoder.wire.take total) headers
        let later := decodeFrames serde fuel decoded.1
        (later.1, decoded.2 ++ later.2)

def decodeFramed (decoder : KiroDecoder) (framed : Bool) : KiroDecoder × List CodexEvent :=
  let settled := { decoder with framed := some framed }
  if framed then decodeFrames serde (decoder.wire.length + 1) settled
  else ({ settled with wire := [] } : KiroDecoder).decodeJson serde decoder.wire

def decode (decoder : KiroDecoder) (bytes : Bytes) : KiroDecoder × List CodexEvent :=
  if decoder.completed then (decoder, [])
  else
    let grown := { decoder with wire := decoder.wire ++ bytes }
    match grown.framed with
    | some framed => grown.decodeFramed serde framed
    | none =>
      match grown.wire.find? fun byte => !isAsciiWhitespace byte with
      | some first => grown.decodeFramed serde (first != 123)
      | none =>
        if grown.wire.length > maxKiroFrameBytes then
          grown.fail "Kiro stream exceeds the frame limit"
        else (grown, [])

def finish (decoder : KiroDecoder) : KiroDecoder × List CodexEvent :=
  if decoder.completed then (decoder, [])
  else if !decoder.wire.isEmpty || !decoder.pending.isEmpty ||
      !(Text.trim (String.ofList decoder.buffer)).isEmpty then
    decoder.fail "Truncated Kiro stream"
  else ({ decoder with completed := true }, [.completed none])

end KiroDecoder

/-- `bytes[start..stop]`. -/
def slice? (bytes : Bytes) (start stop : Nat) : Option Bytes :=
  if start ≤ stop ∧ stop ≤ bytes.length then some ((bytes.take stop).drop start) else none

def scanHeadersAt (frame : Bytes) (headerEnd : Nat) : Nat → Nat → Option String → Option HeaderScan
  | 0, _, errorType => some (.done errorType)
  | fuel + 1, cursor, errorType =>
    if cursor < headerEnd then do
      let nameLen := (← frame[cursor]?).toNat
      let cursor := cursor + 1
      if cursor + nameLen + 3 > headerEnd then
        return .invalid
      else if (← frame[cursor + nameLen]?) ≠ 7 then
        return .invalid
      else
        let name ← slice? frame cursor (cursor + nameLen)
        let cursor := cursor + nameLen + 1
        let len := u32FromBeBytes (← slice? frame cursor (cursor + 2))
        let cursor := cursor + 2
        if cursor + len > headerEnd then
          return .invalid
        else
          let value ← slice? frame cursor (cursor + len)
          let errorType :=
            if name = utf8 ":message-type" ∧
                (value = utf8 "exception" ∨ value = utf8 "error") then
              some (String.ofList (fromUtf8Lossy value))
            else errorType
          scanHeadersAt frame headerEnd fuel (cursor + len) errorType
    else some (.done errorType)

namespace KiroDecoder

def decodeFrameAt (serde : Serde) (decoder : KiroDecoder) (frame : Bytes) (total headers : Nat) :
    Option (KiroDecoder × List CodexEvent) := do
  let headerEnd := 12 + headers
  match ← scanHeadersAt frame headerEnd (headers + 1) 12 none with
  | .invalid => return decoder.fail "Invalid Kiro event-stream headers"
  | .done errorType =>
    let payload ← slice? frame headerEnd (total - 4)
    match errorType with
    | some errorType =>
      let value := ((serde.fromSlice payload).toOption).getD .null
      return decoder.fail ((kiroErrorMessage value).getD errorType)
    | none => return decoder.decodeJson serde payload

def decodeFramesAt (serde : Serde) : Nat → KiroDecoder → Option (KiroDecoder × List CodexEvent)
  | 0, decoder => some (decoder, [])
  | fuel + 1, decoder =>
    if decoder.wire.length < 12 || decoder.completed then some (decoder, [])
    else do
      let total := u32FromBeBytes (← slice? decoder.wire 0 4)
      let headers := u32FromBeBytes (← slice? decoder.wire 4 8)
      if total > maxKiroFrameBytes then
        return decoder.fail "Kiro frame exceeds the size limit"
      else if total < 16 || headers > total - 16 then
        return decoder.fail "Invalid Kiro event-stream framing"
      else if decoder.wire.length < total then
        return (decoder, [])
      else
        let frame ← slice? decoder.wire 0 total
        let drained := { decoder with wire := decoder.wire.drop total }
        let decoded ← drained.decodeFrameAt serde frame total headers
        let later ← decodeFramesAt serde fuel decoded.1
        return (later.1, decoded.2 ++ later.2)

def decodeFramedAt (serde : Serde) (decoder : KiroDecoder) (framed : Bool) : Option (KiroDecoder × List CodexEvent) :=
  let settled := { decoder with framed := some framed }
  if framed then decodeFramesAt serde (decoder.wire.length + 1) settled
  else some (({ settled with wire := [] } : KiroDecoder).decodeJson serde decoder.wire)

def decodeAt (serde : Serde) (decoder : KiroDecoder) (bytes : Bytes) : Option (KiroDecoder × List CodexEvent) :=
  if decoder.completed then some (decoder, [])
  else
    let grown := { decoder with wire := decoder.wire ++ bytes }
    match grown.framed with
    | some framed => grown.decodeFramedAt serde framed
    | none =>
      match grown.wire.findIdx? fun byte => !isAsciiWhitespace byte with
      | some index => do
        let first ← grown.wire[index]?
        grown.decodeFramedAt serde (first != 123)
      | none =>
        if grown.wire.length > maxKiroFrameBytes then
          some (grown.fail "Kiro stream exceeds the frame limit")
        else some (grown, [])

end KiroDecoder

end Mahoquot.Compat
