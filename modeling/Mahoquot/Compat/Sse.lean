import Mahoquot.Compat.Events
import Mahoquot.Library.Transducer

/-! Server-sent events: cutting a byte stream into data frames, and decoding the frames of
the Responses protocol. A reference parser sees the whole stream: line ends are made uniform,
the text is cut into lines and the lines into events. -/

set_option autoImplicit false

namespace Mahoquot.Compat
open Library

def maxSseLineBytes : Nat := 8 * 1024 * 1024

def maxSseFrameBytes : Nat := 32 * 1024 * 1024

inductive SseLimitError where
  | line
  | frame
deriving Repr, DecidableEq

def SseLimitError.message : SseLimitError → String
  | .line => "upstream SSE line exceeds the size limit"
  | .frame => "upstream SSE event exceeds the size limit"

def carriageReturn : UInt8 := 13

def lineFeed : UInt8 := 10

structure SseParser where
  buf : Bytes
  data : Bytes
  afterCr : Bool
  failure : Option SseLimitError
  terminal : Bool
deriving Repr, DecidableEq

/-- What a raw call leaves: the parser, the frames it completed, its result. -/
abbrev RawResult := SseParser × List Bytes × Except SseLimitError Unit

def stripBytes? : Bytes → Bytes → Option Bytes
  | [], bytes => some bytes
  | _ :: _, [] => none
  | first :: affix, byte :: bytes => if first = byte then stripBytes? affix bytes else none

namespace SseParser

def default : SseParser := ⟨[], [], false, none, false⟩

variable (parser : SseParser)

/-- The buffers are released with the breach. -/
def recordFailure (error : SseLimitError) : SseParser :=
  { parser with failure := some error, buf := [], data := [] }

def appendData (payload : Bytes) : RawResult :=
  let data := parser.data ++ payload ++ [lineFeed]
  if data.length > maxSseFrameBytes then ({ parser with data }, [], .error .frame)
  else ({ parser with data }, [], .ok ())

def consumeLine (line : Bytes) : RawResult :=
  if line.isEmpty then
    if parser.data.isEmpty then (parser, [], .ok ())
    else ({ parser with data := [] }, [parser.data.dropLast], .ok ())
  else
    match stripBytes? (utf8 "data:") line with
    | some payload => parser.appendData ((stripBytes? (utf8 " ") payload).getD payload)
    | none => if line = utf8 "data" then parser.appendData [] else (parser, [], .ok ())

def pushByte (byte : UInt8) : RawResult :=
  if parser.afterCr && byte == lineFeed then ({ parser with afterCr := false }, [], .ok ())
  else
    let marked := { parser with afterCr := byte == carriageReturn }
    if byte == carriageReturn || byte == lineFeed then
      match ({ marked with buf := [] } : SseParser).consumeLine marked.buf with
      | (parser, frames, .error error) => (parser.recordFailure error, frames, .error error)
      | (parser, frames, .ok ()) => (parser, frames, .ok ())
    else
      let grown := { marked with buf := marked.buf ++ [byte] }
      if grown.buf.length > maxSseLineBytes then (grown.recordFailure .line, [], .error .line)
      else (grown, [], .ok ())

/-- A breach ends the loop. -/
def pushBytes : SseParser → Bytes → RawResult
  | parser, [] => (parser, [], .ok ())
  | parser, byte :: rest =>
    match parser.pushByte byte with
    | (parser, frames, .error error) => (parser, frames, .error error)
    | (parser, frames, .ok ()) =>
      let later := pushBytes parser rest
      (later.1, frames ++ later.2.1, later.2.2)

/-- Once breached, later calls report nothing. -/
def pushRawData (chunk : Bytes) : RawResult :=
  if parser.failure.isSome then (parser, [], .ok ()) else pushBytes parser chunk

def finishEvent : RawResult :=
  match parser.consumeLine [] with
  | (parser, frames, .error error) => (parser.recordFailure error, frames, .error error)
  | (parser, frames, .ok ()) => ({ parser with afterCr := false }, frames, .ok ())

def finishRawData : RawResult :=
  if parser.failure.isSome then (parser, [], .ok ())
  else if parser.buf.isEmpty then parser.finishEvent
  else
    match ({ parser with buf := [] } : SseParser).consumeLine parser.buf with
    | (parser, frames, .error error) => (parser.recordFailure error, frames, .error error)
    | (parser, frames, .ok ()) =>
      let last := parser.finishEvent
      (last.1, frames ++ last.2.1, last.2.2)

end SseParser

def firstOf (options : List (Option Value)) : Option Value :=
  options.findSome? id

def parseUsage (usage : Value) : Usage :=
  let count := fun options => (firstOf options).bind Value.asU64
  let promptTokens := (count [usage.get "input_tokens", usage.get "prompt_tokens"]).getD 0
  let completionTokens := (count [usage.get "output_tokens", usage.get "completion_tokens"]).getD 0
  let totalTokens := (count [usage.get "total_tokens"]).getD (wrappingAdd promptTokens completionTokens)
  let cachedTokens := count [usage.pointer ["input_tokens_details", "cached_tokens"],
    usage.pointer ["prompt_tokens_details", "cached_tokens"],
    usage.get "cache_read_input_tokens", usage.get "cache_read_tokens"]
  let cacheWriteTokens := count [usage.pointer ["input_tokens_details", "cache_creation_tokens"],
    usage.pointer ["input_tokens_details", "cache_write_tokens"],
    usage.pointer ["prompt_tokens_details", "cache_creation_tokens"],
    usage.pointer ["prompt_tokens_details", "cache_write_tokens"],
    usage.get "cache_creation_input_tokens", usage.get "cache_write_tokens",
    usage.get "cache_creation_tokens"]
  let reasoningTokens := (count [usage.pointer ["output_tokens_details", "reasoning_tokens"],
    usage.pointer ["completion_tokens_details", "reasoning_tokens"],
    usage.get "reasoning_tokens"]).getD 0
  -- A total without its parts is filed as output.
  let totalOnly := promptTokens == 0 && completionTokens == 0 && decide (totalTokens > 0)
  { promptTokens := if totalOnly then 0 else promptTokens
    completionTokens := if totalOnly then totalTokens else completionTokens
    totalTokens
    cachedTokens := cachedTokens.getD 0
    cachedTokensKnown := cachedTokens.isSome
    reasoningTokens
    cacheWriteTokens := cacheWriteTokens.getD 0
    cacheWriteTokensKnown := cacheWriteTokens.isSome }

def strOr (fallback : String) (value : Option Value) : String :=
  (value.bind Value.asStr).getD fallback

def classifyItemAdded (value : Value) : Option CodexEvent :=
  match value.get "item" with
  | none => none
  | some item =>
    if (item.get "type").bind Value.asStr = some "function_call" then
      some (.toolCallBegin (((value.get "output_index").bind Value.asU64).getD 0)
        (strOr "" (item.get "call_id")) (strOr "" (item.get "name")))
    else none

def classify (value : Value) : Option CodexEvent :=
  match (value.get "type").bind Value.asStr with
  | none => none
  | some kind =>
    match kind with
    | "response.created" => some (.created (strOr "" (value.pointer ["response", "id"])))
    | "response.output_text.delta" => ((value.get "delta").bind Value.asStr).map .textDelta
    | "response.reasoning_summary_text.delta" | "response.reasoning_text.delta" =>
      ((value.get "delta").bind Value.asStr).map .reasoningDelta
    | "response.output_item.added" => classifyItemAdded value
    | "response.function_call_arguments.delta" =>
      some (.toolArgsDelta (((value.get "output_index").bind Value.asU64).getD 0) (strOr "" (value.get "delta")))
    | "response.completed" => some (.completed ((value.pointer ["response", "usage"]).map parseUsage))
    | "response.failed" | "response.incomplete" | "response.cancelled" =>
      some (.failed (strOr "upstream response failed" (firstOf [value.pointer ["response", "error", "message"],
          value.pointer ["response", "incomplete_details", "reason"],
          value.pointer ["response", "status"]])))
    | "error" =>
      some (.failed (strOr "upstream error" (firstOf [value.get "message", value.pointer ["error", "message"]])))
    | _ => none

/-- An incomplete response that only ran into its output limit. -/
def reachedOutputLimit (value : Value) : Bool :=
  ((value.get "type").bind Value.asStr == some "response.incomplete") &&
    (value.pointer ["response", "error"]).all Value.isNull &&
    ((value.pointer ["response", "incomplete_details", "reason"]).bind Value.asStr == some "max_output_tokens")

def decodeResponses (serde : Serde) (payload : Bytes) : List CodexEvent :=
  if payload = utf8 "[DONE]" then []
  else
    match serde.fromSlice payload with
    | .error _ => []
    | .ok value =>
      if reachedOutputLimit value then
        [.outputLimitReached, .completed ((value.pointer ["response", "usage"]).map parseUsage)]
      else (classify value).toList

namespace SseParser

def decodeCodex (serde : Serde) (parser : SseParser) (frame : Bytes) : SseParser × List CodexEvent :=
  if parser.terminal then (parser, [])
  else
    let events := decodeResponses serde frame
    ({ parser with terminal := events.any CodexEvent.isTerminal }, events)

/-- A breach fails the stream unless a frame before it ended it. -/
def surfaceLimit (parser : SseParser) (result : Except SseLimitError Unit) : SseParser × List CodexEvent :=
  if parser.terminal then (parser, [])
  else
    match result with
    | .error error => ({ parser with terminal := true }, [.failed error.message])
    | .ok () => (parser, [])

def push (serde : Serde) (parser : SseParser) (chunk : Bytes) : SseParser × List CodexEvent :=
  if parser.failure.isSome || parser.terminal then (parser, [])
  else
    let raw := parser.pushRawData chunk
    let decoded := emitAll (decodeCodex serde) raw.1 raw.2.1
    let surfaced := decoded.1.surfaceLimit raw.2.2
    (surfaced.1, decoded.2 ++ surfaced.2)

def finish (serde : Serde) (parser : SseParser) : SseParser × List CodexEvent :=
  if parser.terminal then (parser, [])
  else
    let raw := parser.finishRawData
    let decoded := emitAll (decodeCodex serde) raw.1 raw.2.1
    let surfaced := decoded.1.surfaceLimit raw.2.2
    let closing := if surfaced.1.terminal then []
      else [.failed "Responses stream ended before a terminal event"]
    ({ surfaced.1 with terminal := true }, decoded.2 ++ surfaced.2 ++ closing)

end SseParser

open List
variable {rest : Bytes} {line : Bytes}

/-- Every line end as a line feed. -/
def normalizeLineEnds : Bytes → Bytes
  | 13 :: 10 :: rest => 10 :: normalizeLineEnds rest
  | 13 :: rest => 10 :: normalizeLineEnds rest
  | byte :: rest => byte :: normalizeLineEnds rest
  | [] => []

/-- The last line is what follows the last line end. -/
def sseLines (stream : Bytes) : List Bytes := (normalizeLineEnds stream).splitOn lineFeed

def colon : UInt8 := 58

def fieldName (line : Bytes) : Bytes := line.takeWhile (· != colon)

/-- What follows the colon, less one space. -/
def fieldValue (line : Bytes) : Bytes :=
  let value := (line.dropWhile (· != colon)).drop 1
  (stripBytes? (utf8 " ") value).getD value

def dataField (line : Bytes) : Option Bytes :=
  if fieldName line = utf8 "data" then some (fieldValue line) else none

/-- The data of one event, joined with line feeds; no frame without data. -/
def eventFrame (values : List Bytes) : Option Bytes :=
  if values.isEmpty then none else some ([lineFeed].intercalate values)

/-- Blank lines separate events. -/
def framesOfLines (lines : List Bytes) : List Bytes :=
  (lines.splitOn []).filterMap fun event => eventFrame (event.filterMap dataField)

def referenceFrames (stream : Bytes) : List Bytes := framesOfLines (sseLines stream)

structure BelowCaps (stream : Bytes) : Prop where
  lines : ∀ line ∈ sseLines stream, line.length ≤ maxSseLineBytes
  /-- The buffered data of an event has one line feed more than its frame. -/
  frames : ∀ frame ∈ referenceFrames stream, frame.length < maxSseFrameBytes

def rawFrames (chunks : List Bytes) : List Bytes :=
  let pushed := emitAll (fun parser chunk =>
    ((parser.pushRawData chunk).1, (parser.pushRawData chunk).2.1)) SseParser.default chunks
  pushed.2 ++ pushed.1.finishRawData.2.1

theorem stripBytes?_eq_some {affix bytes : Bytes} :
    stripBytes? affix bytes = some rest ↔ bytes = affix ++ rest := by
  induction affix generalizing bytes with
  | nil => simp [stripBytes?]
  | cons first affix ih =>
    cases bytes with
    | nil => simp [stripBytes?]
    | cons byte bytes =>
      by_cases same : first = byte
      · simp [stripBytes?, same, ih]
      · simp [stripBytes?, same, Ne.symm same]

theorem dataField_of_strip {payload : Bytes} (stripped : stripBytes? (utf8 "data:") line = some payload) :
    dataField line = some ((stripBytes? (utf8 " ") payload).getD payload) := by
  obtain rfl := stripBytes?_eq_some.mp stripped
  rfl

theorem dataField_bare : dataField (utf8 "data") = some [] := by decide

theorem dataField_of_other (unstripped : stripBytes? (utf8 "data:") line = none)
    (named : line ≠ utf8 "data") : dataField line = none := by
  rw [dataField, if_neg]
  intro name
  have joined := takeWhile_append_dropWhile (p := (· != colon)) (l := line)
  rw [show line.takeWhile (· != colon) = utf8 "data" from name] at joined
  cases rest : line.dropWhile (· != colon) with
  | nil => exact named (by rw [← joined, rest, append_nil])
  | cons byte payload =>
    have stop : (byte != colon) = false := by
      have head := head?_dropWhile_not (· != colon) line
      rw [rest] at head
      simpa using head
    obtain rfl : byte = colon := by simpa using stop
    rw [rest] at joined
    have strips : stripBytes? (utf8 "data:") line = some payload := stripBytes?_eq_some.mpr (by rw [← joined]; rfl)
    rw [strips] at unstripped
    cases unstripped

/-- The line feed of a CRLF whose carriage return has ended the line. -/
def skipLineFeed (afterCr : Bool) : Bytes → Bytes
  | [] => []
  | byte :: rest => if afterCr && byte == lineFeed then rest else byte :: rest

@[simp] theorem skipLineFeed_false (bytes : Bytes) : skipLineFeed false bytes = bytes := by
  cases bytes <;> simp [skipLineFeed]

theorem normalizeLineEnds_cons (byte : UInt8) (rest : Bytes) : normalizeLineEnds (byte :: rest) =
      if byte == carriageReturn then lineFeed :: normalizeLineEnds (skipLineFeed true rest)
      else byte :: normalizeLineEnds rest := by
  by_cases carriage : byte = 13
  · subst carriage
    cases rest with
    | nil => rfl
    | cons next rest =>
      by_cases feed : next = 10
      · subst feed
        rfl
      · rw [normalizeLineEnds.eq_2 (next :: rest) fun tail same => feed (cons.inj same).1]
        simp [skipLineFeed, carriageReturn, lineFeed, feed]
  · rw [normalizeLineEnds.eq_3 byte rest (fun _ same => absurd same carriage) carriage]
    simp [carriageReturn, carriage]

namespace SseParser

theorem consumeLine_keeps (parser : SseParser) (line : Bytes) : (parser.consumeLine line).1.failure = parser.failure ∧
      (parser.consumeLine line).1.terminal = parser.terminal := by
  simp only [consumeLine, appendData]
  repeat' split
  all_goals exact ⟨rfl, rfl⟩

/-- A round fails exactly when it records a breach. -/
theorem pushByte_failure {parser : SseParser} (byte : UInt8) (alive : parser.failure = none) :
    (parser.pushByte byte).1.failure =
      match (parser.pushByte byte).2.2 with
      | .error error => some error
      | .ok () => none := by
  simp only [pushByte]
  split
  · exact alive
  · split
    · split
      next consumed => rfl
      next after frames consumed =>
        have kept := consumeLine_keeps { parser with afterCr := byte == carriageReturn, buf := [] } parser.buf
        rw [consumed] at kept
        exact kept.1.trans alive
    · split
      · rfl
      · exact alive

theorem pushBytes_append {parser : SseParser} (first second : Bytes) (alive : parser.failure = none) :
    (parser.pushBytes (first ++ second)).1 = ((parser.pushBytes first).1.pushRawData second).1 ∧
      (parser.pushBytes (first ++ second)).2.1 =
        (parser.pushBytes first).2.1 ++ ((parser.pushBytes first).1.pushRawData second).2.1 := by
  induction first generalizing parser with
  | nil => simp [pushBytes, pushRawData, alive]
  | cons byte first ih =>
    have failure := pushByte_failure byte alive
    simp only [cons_append, pushBytes]
    split
    next after frames error pushed =>
      rw [pushed] at failure
      have breached : after.failure = some error := failure
      simp [pushRawData, breached]
    next after frames pushed =>
      rw [pushed] at failure
      obtain ⟨state, outputs⟩ := ih failure
      exact ⟨state, by simp only [outputs, append_assoc]⟩

theorem pushRawData_append (parser : SseParser) (first second : Bytes) : (parser.pushRawData (first ++ second)).1 =
        ((parser.pushRawData first).1.pushRawData second).1 ∧ (parser.pushRawData (first ++ second)).2.1 =
        (parser.pushRawData first).2.1 ++ ((parser.pushRawData first).1.pushRawData second).2.1 := by
  cases failure : parser.failure with
  | some error => simp [pushRawData, failure]
  | none => simpa [pushRawData, failure] using pushBytes_append first second failure

end SseParser

theorem emitAll_pushRawData (parser : SseParser) (chunks : List Bytes) : emitAll (fun parser chunk =>
      ((parser.pushRawData chunk).1, (parser.pushRawData chunk).2.1)) parser chunks =
      ((parser.pushRawData chunks.flatten).1, (parser.pushRawData chunks.flatten).2.1) := by
  induction chunks generalizing parser with
  | nil =>
    simp only [SseParser.pushRawData]
    split <;> rfl
  | cons chunk chunks ih =>
    obtain ⟨state, frames⟩ := parser.pushRawData_append chunk chunks.flatten
    rw [emitAll_cons, ih, flatten_cons, state, frames]

section Reference

def framesFrom : List Bytes → List Bytes → List Bytes
  | values, [] => (eventFrame values).toList
  | values, line :: lines =>
    if line.isEmpty then (eventFrame values).toList ++ framesFrom [] lines
    else framesFrom (values ++ (dataField line).toList) lines

theorem framesFrom_eq (values lines : List Bytes) : framesFrom values lines = match lines.splitOn [] with
      | [] => []
      | event :: events => (eventFrame (values ++ event.filterMap dataField)).toList ++
          events.filterMap fun event => eventFrame (event.filterMap dataField) := by
  induction lines generalizing values with
  | nil => simp [framesFrom]
  | cons line lines ih =>
    rw [splitOn_cons_eq_if_modifyHead, framesFrom]
    cases line with
    | nil =>
      rw [ih []]
      cases split : lines.splitOn [] with
      | nil => exact absurd split (splitOn_ne_nil _ _)
      | cons event events => cases frame : eventFrame (event.filterMap dataField) <;> simp [frame]
    | cons byte line =>
      rw [if_neg (by simp), ih]
      cases split : lines.splitOn [] with
      | nil => exact absurd split (splitOn_ne_nil _ _)
      | cons event events => cases field : dataField (byte :: line) <;> simp [field]

theorem framesFrom_nil (lines : List Bytes) : framesFrom [] lines = framesOfLines lines := by
  rw [framesFrom_eq, framesOfLines]
  cases lines.splitOn [] with
  | nil => rfl
  | cons event events => cases frame : eventFrame (event.filterMap dataField) <;> simp [frame]

/-- The buffered form of an event: a line feed behind every value. -/
def buffered (values : List Bytes) : Bytes := values.flatMap fun value => value ++ [lineFeed]

@[simp] theorem buffered_append (first second : List Bytes) :
    buffered (first ++ second) = buffered first ++ buffered second := by
  simp [buffered]

variable {values : List Bytes}

theorem buffered_of_ne_nil (some : values ≠ []) : buffered values = [lineFeed].intercalate values ++ [lineFeed] := by
  induction values with
  | nil => exact absurd rfl some
  | cons value values ih =>
    cases values with
    | nil => simp [buffered]
    | cons next values =>
      have joined : buffered (value :: next :: values) =
          value ++ [lineFeed] ++ buffered (next :: values) := by simp [buffered]
      rw [joined, ih (by simp)]
      simp [intercalate]

theorem exists_frame_of_pending (lines : List Bytes) (some : values ≠ []) :
    ∃ frame ∈ framesFrom values lines, (buffered values).length ≤ frame.length + 1 := by
  have own : eventFrame values = .some ([lineFeed].intercalate values) := by
    simp [eventFrame, some]
  induction lines generalizing values with
  | nil =>
    refine ⟨[lineFeed].intercalate values, by simp [framesFrom, own], ?_⟩
    simp [buffered_of_ne_nil some]
  | cons line lines ih =>
    rw [framesFrom]
    split
    · refine ⟨[lineFeed].intercalate values, by simp [own], ?_⟩
      simp [buffered_of_ne_nil some]
    · have more : values ++ (dataField line).toList ≠ [] := by simp [some]
      obtain ⟨frame, member, bound⟩ := ih more (by simp [eventFrame, some])
      refine ⟨frame, member, ?_⟩
      rw [buffered_append, length_append] at bound
      omega

end Reference

namespace SseParser
variable {parser : SseParser} {values : List Bytes}

theorem consumeLine_blank (pending : parser.data = buffered values) :
    parser.consumeLine [] = ({ parser with data := [] }, (eventFrame values).toList, .ok ()) := by
  by_cases empty : values = []
  · have data : parser.data = [] := by rw [pending, empty]; rfl
    simp only [consumeLine, data, empty, eventFrame, isEmpty_nil, if_true, Option.toList_none]
    rw [← data]
  · simp [consumeLine, empty, eventFrame, pending, buffered_of_ne_nil empty]

theorem consumeLine_field (pending : parser.data = buffered values) (filled : line ≠ [])
    (fits : (buffered (values ++ (dataField line).toList)).length ≤ maxSseFrameBytes) : parser.consumeLine line =
      ({ parser with data := buffered (values ++ (dataField line).toList) }, [], .ok ()) := by
  have append {payload : Bytes} (field : dataField line = some payload) :
      parser.appendData payload =
        ({ parser with data := buffered (values ++ (dataField line).toList) }, [], .ok ()) := by
    have grown : parser.data ++ payload ++ [lineFeed] =
        buffered (values ++ (dataField line).toList) := by
      rw [pending, field]
      simp [buffered]
    simp only [appendData, grown]
    rw [if_neg (by omega)]
  simp only [consumeLine, List.isEmpty_iff, filled, if_false]
  split
  next payload stripped => exact append (dataField_of_strip stripped)
  next unstripped =>
    split
    next bare => exact append (by rw [bare]; exact dataField_bare)
    next other =>
      rw [dataField_of_other unstripped other]
      simp [← pending]

def linesAhead (parser : SseParser) (bytes : Bytes) : List Bytes :=
  (parser.buf ++ normalizeLineEnds (skipLineFeed parser.afterCr bytes)).splitOn lineFeed

/-- The parser has read `values` since the last blank line. -/
structure Carries (parser : SseParser) (values : List Bytes) : Prop where
  alive : parser.failure = none
  pending : parser.data = buffered values
  unbroken : lineFeed ∉ parser.buf

theorem linesAhead_of_end {byte : UInt8} (carries : parser.Carries values)
    (kept : ¬ (parser.afterCr && byte == lineFeed) = true)
    (ended : (byte == carriageReturn || byte == lineFeed) = true) : parser.linesAhead (byte :: rest) =
      parser.buf :: linesAhead { parser with afterCr := byte == carriageReturn, buf := [] } rest := by
  have ahead : normalizeLineEnds (byte :: rest) =
      lineFeed :: normalizeLineEnds (skipLineFeed (byte == carriageReturn) rest) := by
    rw [normalizeLineEnds_cons]
    by_cases carriage : byte = carriageReturn
    · simp [carriage]
    · have feed : byte = lineFeed := by simpa [carriage] using ended
      have plain : (byte == carriageReturn) = false := by simpa using carriage
      rw [plain, skipLineFeed_false, feed]
      rfl
  rw [linesAhead, skipLineFeed, if_neg kept, ahead, splitOn_append_cons_self_of_not_mem carries.unbroken]
  rfl

theorem linesAhead_of_inner {byte : UInt8}
    (inner : ¬ (byte == carriageReturn || byte == lineFeed) = true) : parser.linesAhead (byte :: rest) =
      linesAhead { parser with afterCr := byte == carriageReturn, buf := parser.buf ++ [byte] } rest := by
  obtain ⟨carriage, feed⟩ : ¬ byte = carriageReturn ∧ ¬ byte = lineFeed := by simpa using inner
  have plain : (byte == carriageReturn) = false := by simpa using carriage
  rw [linesAhead, skipLineFeed, if_neg (by simp [feed]), normalizeLineEnds_cons, linesAhead]
  simp [plain]

theorem exists_line_of_buf (carries : parser.Carries values) (bytes : Bytes) :
    ∃ line ∈ parser.linesAhead bytes, parser.buf.length ≤ line.length := by
  rw [linesAhead]
  generalize normalizeLineEnds (skipLineFeed parser.afterCr bytes) = ahead
  by_cases broken : lineFeed ∈ ahead
  · obtain ⟨front, later, rfl, whole⟩ := eq_append_cons_of_mem broken
    refine ⟨parser.buf ++ front, ?_, by simp⟩
    rw [← append_assoc, splitOn_append_cons_self_of_not_mem]
    · exact mem_cons_self
    · simp [carries.unbroken, whole]
  · refine ⟨parser.buf ++ ahead, ?_, by simp⟩
    rw [splitOn_eq_singleton (by simp [carries.unbroken, broken])]
    exact mem_cons_self

/-- What a finished line does to the carried event, below the caps. -/
theorem consumeLine_carries {lines : List Bytes} (carries : parser.Carries values)
    (empty : parser.buf = []) (small : ∀ frame ∈ framesFrom values (line :: lines), frame.length < maxSseFrameBytes) :
    ∃ after frames later, parser.consumeLine line = (after, frames, .ok ()) ∧
      after.Carries later ∧ after.buf = [] ∧ after.afterCr = parser.afterCr ∧
      framesFrom values (line :: lines) = frames ++ framesFrom later lines := by
  cases line with
  | nil =>
    refine ⟨_, _, [], consumeLine_blank carries.pending, ⟨carries.alive, rfl, ?_⟩, empty, rfl, rfl⟩
    exact carries.unbroken
  | cons byte line =>
    have fits : (buffered (values ++ (dataField (byte :: line)).toList)).length ≤
        maxSseFrameBytes := by
      by_cases none : values ++ (dataField (byte :: line)).toList = []
      · simp [none, buffered]
      · obtain ⟨frame, member, bound⟩ := exists_frame_of_pending lines none
        have := small frame member
        omega
    exact ⟨_, _, _, consumeLine_field carries.pending (by simp) fits, ⟨carries.alive, rfl, carries.unbroken⟩, empty, rfl, rfl⟩

theorem finishRawData_frames (carries : parser.Carries values)
    (small : ∀ frame ∈ framesFrom values [parser.buf], frame.length < maxSseFrameBytes) :
    parser.finishRawData.2.1 = framesFrom values [parser.buf] := by
  have dispatched {carrier : SseParser} {values : List Bytes}
      (pending : carrier.data = buffered values) :
      carrier.finishEvent.2.1 = (eventFrame values).toList := by
    rw [finishEvent, consumeLine_blank pending]
  rw [finishRawData, if_neg (by simp [carries.alive])]
  by_cases empty : parser.buf = []
  · rw [if_pos (by simp [empty]), dispatched carries.pending, empty]
    simp [framesFrom, eventFrame]
  · have emptied : ({ parser with buf := [] } : SseParser).Carries values := ⟨carries.alive, carries.pending, by simp⟩
    obtain ⟨after, frames, later, consumed, carried, _, _, split⟩ := consumeLine_carries emptied rfl small
    rw [if_neg (by simpa using empty), consumed, split]
    simp only [dispatched carried.pending, framesFrom]

theorem pushBytes_frames {bytes : Bytes} (carries : parser.Carries values)
    (short : ∀ line ∈ parser.linesAhead bytes, line.length ≤ maxSseLineBytes)
    (small : ∀ frame ∈ framesFrom values (parser.linesAhead bytes), frame.length < maxSseFrameBytes) :
    (parser.pushBytes bytes).2.1 ++ (parser.pushBytes bytes).1.finishRawData.2.1 =
      framesFrom values (parser.linesAhead bytes) := by
  induction bytes generalizing parser values with
  | nil =>
    have last : parser.linesAhead [] = [parser.buf] := by
      simp [linesAhead, skipLineFeed, normalizeLineEnds, splitOn_eq_singleton carries.unbroken]
    rw [last] at small ⊢
    exact finishRawData_frames carries small
  | cons byte rest ih =>
    simp only [pushBytes, pushByte]
    by_cases skipped : (parser.afterCr && byte == lineFeed) = true
    · have ahead : parser.linesAhead (byte :: rest) =
          linesAhead { parser with afterCr := false } rest := by
        rw [linesAhead, skipLineFeed, if_pos skipped, linesAhead, skipLineFeed_false]
      rw [ahead] at short small ⊢
      rw [if_pos skipped]
      exact ih ⟨carries.alive, carries.pending, carries.unbroken⟩ short small
    · rw [if_neg skipped]
      by_cases ended : (byte == carriageReturn || byte == lineFeed) = true
      · rw [linesAhead_of_end carries skipped ended] at short small ⊢
        have emptied : ({ parser with afterCr := byte == carriageReturn, buf := [] } :
            SseParser).Carries values := ⟨carries.alive, carries.pending, by simp⟩
        obtain ⟨after, frames, later, consumed, carried, empty, flag, split⟩ := consumeLine_carries emptied rfl small
        have ahead : after.linesAhead rest =
            linesAhead { parser with afterCr := byte == carriageReturn, buf := [] } rest := by
          rw [linesAhead, linesAhead, empty, flag]
        rw [split, ← ahead] at small ⊢
        rw [← ahead] at short
        rw [if_pos ended, consumed]
        simp only [append_assoc]
        rw [ih carried (fun line member => short line (.tail _ member))
          fun frame member => small frame (mem_append_right _ member)]
      · rw [linesAhead_of_inner ended] at short small ⊢
        have carried : ({ parser with
            afterCr := byte == carriageReturn
            buf := parser.buf ++ [byte] } : SseParser).Carries values := by
          refine ⟨carries.alive, carries.pending, ?_⟩
          have feed : byte ≠ lineFeed := by simpa using fun same => ended (by simp [same])
          simp [carries.unbroken, Ne.symm feed]
        obtain ⟨line, member, longer⟩ := exists_line_of_buf carried rest
        have := short line member
        rw [if_neg ended, if_neg (by simp only at longer ⊢; omega)]
        exact ih carried short small

end SseParser

inductive LineEnd where
  | lf
  | cr
  | crlf
deriving Repr, DecidableEq

def LineEnd.bytes : LineEnd → Bytes
  | .lf => [lineFeed]
  | .cr => [carriageReturn]
  | .crlf => [carriageReturn, lineFeed]

/-- A text with a choice of line end for each line. -/
structure SseText where
  lines : List (Bytes × LineEnd)
  last : Bytes
  plain : ∀ line ∈ lines.map Prod.fst ++ [last], carriageReturn ∉ line ∧ lineFeed ∉ line
  /-- A CR before a blank line that ends in LF would be read as one CRLF. -/
  readable : lines.IsChain fun first second => first.2 = .cr → second.1 = [] → second.2 ≠ .lf

def SseText.contents (text : SseText) : List Bytes := text.lines.map Prod.fst ++ [text.last]

def endedBytes (lines : List (Bytes × LineEnd)) : Bytes :=
  lines.flatMap fun line => line.1 ++ line.2.bytes

def SseText.bytes (text : SseText) : Bytes := endedBytes text.lines ++ text.last

theorem normalizeLineEnds_append (plain : carriageReturn ∉ line) (rest : Bytes) :
    normalizeLineEnds (line ++ rest) = line ++ normalizeLineEnds rest := by
  induction line with
  | nil => rfl
  | cons byte line ih =>
    obtain ⟨carriage, plain⟩ : carriageReturn ≠ byte ∧ carriageReturn ∉ line := by
      simpa using plain
    rw [cons_append, normalizeLineEnds_cons, if_neg (by simpa using carriage.symm), ih plain]
    rfl

theorem normalizeLineEnds_end (ending : LineEnd) (readable : ending = .cr → rest.head? ≠ some lineFeed) :
    normalizeLineEnds (ending.bytes ++ rest) = lineFeed :: normalizeLineEnds rest := by
  cases ending with
  | lf => rfl
  | crlf => rfl
  | cr =>
    have kept : skipLineFeed true rest = rest := by
      cases rest with
      | nil => rfl
      | cons byte rest =>
        have feed : byte ≠ lineFeed := by simpa using readable rfl
        simp [skipLineFeed, feed]
    rw [LineEnd.bytes, singleton_append, normalizeLineEnds_cons, kept]
    rfl

theorem head?_endedBytes {lines : List (Bytes × LineEnd)} {last : Bytes}
    (plain : ∀ line ∈ lines.map Prod.fst ++ [last], lineFeed ∉ line)
    (readable : ∀ next ∈ lines.head?, next.1 = [] → next.2 ≠ .lf) :
    (endedBytes lines ++ last).head? ≠ some lineFeed := by
  cases lines with
  | nil =>
    intro first
    exact plain last (by simp) (mem_of_head? first)
  | cons next lines =>
    obtain ⟨line, ending⟩ := next
    cases line with
    | cons byte line =>
      have other : lineFeed ∉ byte :: line := plain (byte :: line) (by simp)
      intro first
      exact other (by simp_all [endedBytes])
    | nil => cases ending <;> simp_all [endedBytes, LineEnd.bytes, carriageReturn, lineFeed]

theorem sseLines_endedBytes {lines : List (Bytes × LineEnd)} {last : Bytes}
    (plain : ∀ line ∈ lines.map Prod.fst ++ [last], carriageReturn ∉ line ∧ lineFeed ∉ line)
    (readable : lines.IsChain fun first second => first.2 = .cr → second.1 = [] → second.2 ≠ .lf) :
    sseLines (endedBytes lines ++ last) = lines.map Prod.fst ++ [last] := by
  induction lines with
  | nil =>
    obtain ⟨carriage, feed⟩ := plain last (by simp)
    have whole := normalizeLineEnds_append carriage []
    simp only [append_nil] at whole
    simp [sseLines, endedBytes, whole, normalizeLineEnds, splitOn_eq_singleton feed]
  | cons line lines ih =>
    have later := fun line member => plain line (.tail _ member)
    obtain ⟨carriage, feed⟩ := plain line.1 (by simp)
    have split : endedBytes (line :: lines) ++ last =
        line.1 ++ (line.2.bytes ++ (endedBytes lines ++ last)) := by
      simp [endedBytes]
    have unambiguous : line.2 = .cr → (endedBytes lines ++ last).head? ≠ some lineFeed := by
      intro returned
      refine head?_endedBytes (fun line member => (later line member).2) fun next first => ?_
      cases lines with
      | nil => cases first
      | cons second lines =>
        cases first
        exact (isChain_cons_cons.mp readable).1 returned
    rw [sseLines, split, normalizeLineEnds_append carriage, normalizeLineEnds_end _ unambiguous,
      splitOn_append_cons_self_of_not_mem feed]
    exact congrArg (line.1 :: ·) (ih later readable.of_cons)

/-- However a stream is cut into chunks and whichever line ends it uses, the
frames are those of the reference parser. -/
theorem rawFrames_eq_reference {chunks : List Bytes} (below : BelowCaps chunks.flatten) :
    rawFrames chunks = referenceFrames chunks.flatten ∧ ∀ text : SseText, text.bytes = chunks.flatten →
        rawFrames chunks = framesOfLines text.contents := by
  have fresh : SseParser.default.Carries [] := ⟨rfl, rfl, by simp [SseParser.default]⟩
  have ahead : SseParser.default.linesAhead chunks.flatten = sseLines chunks.flatten := by
    simp [SseParser.linesAhead, SseParser.default, sseLines]
  have frames := framesFrom_nil (sseLines chunks.flatten)
  have whole : rawFrames chunks = referenceFrames chunks.flatten := by
    rw [rawFrames, emitAll_pushRawData]
    refine (SseParser.pushBytes_frames fresh ?_ ?_).trans ?_
    · rw [ahead]
      exact below.lines
    · rw [ahead, frames]
      exact below.frames
    · rw [ahead, frames]
      rfl
  refine ⟨whole, fun text same => ?_⟩
  rw [whole, referenceFrames, ← same, SseText.bytes, sseLines_endedBytes text.plain text.readable]
  rfl

def cutStream : List Bytes :=
  [utf8 "data: a\r", utf8 "\nda", utf8 "ta:b\r\r: c\ndata", utf8 ":  d"]

theorem cutStream_frames : rawFrames cutStream = [utf8 "a\nb", utf8 " d"] := by
  have below : BelowCaps cutStream.flatten := ⟨by decide, by decide⟩
  exact (rawFrames_eq_reference below).1.trans (by decide)

end Mahoquot.Compat
