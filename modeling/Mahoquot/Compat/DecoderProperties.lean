import Mahoquot.Compat.Protocol
import Mahoquot.Compat.AnthropicRequest

/-! How each decoder opens and closes its stream: a closed decoder is silent, an open one
closes with the terminal event it emits last. Names of tools come back as they were sent,
unless they begin like a renamed one. -/

set_option autoImplicit false

namespace Mahoquot.Compat
open Library Value CodexEvent

def Plain (events : List CodexEvent) : Prop := ∀ event ∈ events, event.isTerminal = false

@[simp] theorem plain_nil : Plain [] := by simp [Plain]

@[simp] theorem plain_cons {event : CodexEvent} {events : List CodexEvent} :
    Plain (event :: events) ↔ event.isTerminal = false ∧ Plain events := List.forall_mem_cons

@[simp] theorem plain_append {first second : List CodexEvent} :
    Plain (first ++ second) ↔ Plain first ∧ Plain second := List.forall_mem_append

theorem plain_toList {α : Type} {held : Option α} (event : α → CodexEvent)
    (plain : ∀ value, (event value).isTerminal = false) : Plain (held.map event).toList := by
  cases held with
  | none => exact plain_nil
  | some value => simp [plain value]

abbrev Turns (closed : Bool) (events : List CodexEvent) (closed' : Bool) : Prop :=
  Moves isTerminal closed events closed'

abbrev Turning {δ : Type} (closed : δ → Bool) (before : δ) (after : δ × List CodexEvent) : Prop :=
  Turns (closed before) after.2 (closed after.1)

theorem turning_terminal {δ : Type} {closed : δ → Bool} {before after : δ} {event : CodexEvent}
    (running : closed before = false) (done : closed after = true)
    (terminal : event.isTerminal = true) : Turning closed before (after, [event]) := by
  rw [Turning, running, done]
  exact .of_terminal terminal

theorem turning_plain {δ : Type} {closed : δ → Bool} {before : δ} {after : δ × List CodexEvent}
    (kept : closed after.1 = closed before) (plain : Plain after.2)
    (running : closed before = false) : Turning closed before after := by
  rw [Turning, kept, running]
  exact .running plain

namespace SseParser
variable (parser : SseParser)

theorem pushByte_terminal (byte : UInt8) : (parser.pushByte byte).1.terminal = parser.terminal := by
  have consumed := (consumeLine_keeps { parser with afterCr := byte == carriageReturn, buf := [] } parser.buf).2
  simp only [pushByte]
  split
  · rfl
  · split
    · split <;>
      next line =>
        rw [line] at consumed
        exact consumed
    · split <;> rfl

theorem pushBytes_terminal (bytes : Bytes) : (parser.pushBytes bytes).1.terminal = parser.terminal := by
  induction bytes generalizing parser with
  | nil => rfl
  | cons byte bytes ih =>
    have first := pushByte_terminal parser byte
    simp only [pushBytes]
    split
    next pushed =>
      rw [pushed] at first
      exact first
    next pushed =>
      rw [pushed] at first
      exact (ih _).trans first

theorem pushRawData_terminal (chunk : Bytes) : (parser.pushRawData chunk).1.terminal = parser.terminal := by
  simp only [pushRawData]
  split
  · rfl
  · exact pushBytes_terminal parser chunk

theorem finishEvent_terminal : parser.finishEvent.1.terminal = parser.terminal := by
  have consumed := (consumeLine_keeps parser []).2
  simp only [finishEvent]
  split <;>
  next line =>
    rw [line] at consumed
    exact consumed

theorem finishRawData_terminal : parser.finishRawData.1.terminal = parser.terminal := by
  have consumed := (consumeLine_keeps { parser with buf := [] } parser.buf).2
  simp only [finishRawData]
  split
  · rfl
  · split
    · exact finishEvent_terminal parser
    · split
      next line =>
        rw [line] at consumed
        exact consumed
      next line =>
        rw [line] at consumed
        exact (finishEvent_terminal _).trans consumed

variable (serde : Serde)

/-- A frame is plain, or closes the stream with its last event. -/
theorem decodeResponses_turns (frame : Bytes) : Turns false (decodeResponses serde frame)
      ((decodeResponses serde frame).any isTerminal) := by
  simp only [decodeResponses]
  split
  · exact .refl false
  · split
    · exact .refl false
    next value _ =>
      split
      · exact .closing ⟨[.outputLimitReached], _, rfl, by simp [isTerminal], rfl⟩
      · cases classify value with
        | none => exact .refl false
        | some event =>
          cases closes : event.isTerminal with
          | true =>
            have any : ([event].any isTerminal) = true := by simp [closes]
            rw [Option.toList_some, any]
            exact .of_terminal closes
          | false =>
            have any : ([event].any isTerminal) = false := by simp [closes]
            rw [Option.toList_some, any]
            exact .running (by simpa using closes)

theorem decodeCodex_turns (parser : SseParser) (frame : Bytes) :
    Turning terminal parser (parser.decodeCodex serde frame) := by
  simp only [Turning, decodeCodex]
  cases closed : parser.terminal with
  | true =>
    rw [if_pos rfl, closed]
    exact .silent
  | false => exact decodeResponses_turns serde frame

theorem surfaceLimit_turns (result : Except SseLimitError Unit) :
    Turning terminal parser (parser.surfaceLimit result) := by
  simp only [Turning, surfaceLimit]
  cases closed : parser.terminal with
  | true =>
    rw [if_pos rfl, closed]
    exact .silent
  | false =>
    cases result with
    | error error => exact .of_terminal rfl
    | ok =>
      rw [if_neg Bool.false_ne_true, closed]
      exact .refl false

theorem decodeFrames_turns (parser : SseParser) (frames : List Bytes) :
    Turning terminal parser (emitAll (decodeCodex serde) parser frames) :=
  Moves.emitAll SseParser.terminal parser fun _ frame _ _ => decodeCodex_turns serde _ frame

theorem push_turns (parser : SseParser) (chunk : Bytes) : Turning terminal parser (parser.push serde chunk) := by
  simp only [push]
  split
  · exact .refl _
  · have decoded := decodeFrames_turns serde (parser.pushRawData chunk).1 (parser.pushRawData chunk).2.1
    rw [Turning, pushRawData_terminal] at decoded
    exact decoded.append (surfaceLimit_turns _ _)

theorem finish_turns (parser : SseParser) : Turns parser.terminal (parser.finish serde).2 true := by
  simp only [finish]
  split
  next closed =>
    rw [closed]
    exact .silent
  · have decoded := decodeFrames_turns serde parser.finishRawData.1 parser.finishRawData.2.1
    rw [Turning, finishRawData_terminal] at decoded
    have surfaced := decoded.append (surfaceLimit_turns _ parser.finishRawData.2.2)
    refine surfaced.append ?_
    split
    next closed =>
      rw [closed]
      exact .silent
    next running =>
      rw [Bool.not_eq_true] at running
      rw [running]
      exact .of_terminal rfl

end SseParser

attribute [local simp] CodexEvent.isTerminal

inductive FrameKind where
  | start
  | stop
  | other
deriving Repr, DecidableEq

def typeKind : Option String → FrameKind
  | some "message_start" => .start
  | some "message_stop" | some "error" => .stop
  | _ => .other

def frameKind (serde : Serde) (frame : Bytes) : FrameKind :=
  match serde.fromSlice frame with
  | .error _ => .other
  | .ok value => typeKind ((value.get "type").bind asStr)

def FrameKind.closes (closed : Bool) : FrameKind → Bool
  | .start => false
  | .stop => true
  | .other => closed

def FrameKind.reopens (closed : Bool) : FrameKind → Nat
  | .start => if closed then 1 else 0
  | .stop | .other => 0

/-- How many messages of a stream start behind the end of another. -/
def restarts (serde : Serde) : Bool → List Bytes → Nat
  | _, [] => 0
  | closed, frame :: frames =>
    (frameKind serde frame).reopens closed +
      restarts serde ((frameKind serde frame).closes closed) frames

def CodexEvent.isCreated : CodexEvent → Bool
  | .created _ => true
  | _ => false

theorem isStr_index (value : Value) (key text : String) :
    (value.index key).isStr text = ((value.get key).bind asStr == some text) := by
  simp only [index]
  cases value.get key with
  | none => rfl
  | some held => rfl

namespace AnthropicDecoder

/-- A frame inside a message leaves it open or closed as it is. -/
structure Inside (before : AnthropicDecoder) (after : AnthropicDecoder × List CodexEvent) : Prop where
  terminated : after.1.terminated = before.terminated
  plain : Plain after.2

variable (decoder : AnthropicDecoder)

theorem Inside.same : Inside decoder (decoder, []) :=
  ⟨rfl, by simp⟩

variable (serde : Serde)

theorem contentBlockStart_inside (decoder : AnthropicDecoder) (value : Value) :
    Inside decoder (decoder.contentBlockStart serde value) := by
  simp only [contentBlockStart]
  split
  · split
    · exact ⟨rfl, by simp⟩
    · exact .same decoder
  · split
    · split
      · exact ⟨rfl, by simp⟩
      · exact .same decoder
    · split
      · exact ⟨rfl, by simp⟩
      · exact .same decoder

theorem inputJsonDelta_inside (index : Option Nat) (delta : String) :
    Inside decoder (decoder.inputJsonDelta index delta) := by
  simp only [inputJsonDelta]
  split
  · exact ⟨rfl, by simp⟩
  · exact ⟨rfl, plain_toList _ fun _ => rfl⟩

theorem contentBlockDelta_inside (value : Value) : Inside decoder (decoder.contentBlockDelta value) := by
  simp only [contentBlockDelta]
  split
  · split
    · refine ⟨?_, by simp⟩
      split <;> rfl
    · exact .same decoder
  · split
    · exact ⟨rfl, by simp⟩
    · exact .same decoder
  · split
    · exact ⟨rfl, by simp⟩
    · exact .same decoder
  · exact ⟨rfl, plain_toList _ fun _ => rfl⟩
  · split
    · exact inputJsonDelta_inside decoder _ _
    · exact .same decoder
  · exact .same decoder

theorem messageDelta_inside (value : Value) : Inside decoder (decoder.messageDelta value) := by
  refine ⟨rfl, ?_⟩
  simp only [messageDelta]
  split <;> simp

theorem decodeValue_kind (decoder : AnthropicDecoder) (value : Value) :
    match typeKind ((value.get "type").bind asStr) with
    | .start => decoder.decodeValue serde value = messageStart value
    | .stop => (decoder.decodeValue serde value).1.terminated = true ∧
        ∃ event, (decoder.decodeValue serde value).2 = [event] ∧ event.isTerminal = true
    | .other => Inside decoder (decoder.decodeValue serde value) := by
  have start := contentBlockStart_inside serde decoder value
  have delta := contentBlockDelta_inside decoder value
  have message := messageDelta_inside decoder value
  simp only [decodeValue]
  generalize (value.get "type").bind asStr = kind
  split
  next started =>
    simp only [typeKind] at started
    split at started <;> simp_all
  next stopped =>
    simp only [typeKind] at stopped
    split at stopped <;> simp_all [messageStop]
  next other =>
    simp only [typeKind] at other
    split
    · simp at other
    · exact start
    · exact delta
    · exact message
    · simp at other
    · simp at other
    · exact .same decoder

theorem typeKind_start {kind : Option String} : typeKind kind = .start ↔ kind = some "message_start" := by
  unfold typeKind
  split <;> simp_all

theorem decode_start (decoder : AnthropicDecoder) {frame : Bytes} {value : Value}
    (parsed : serde.fromSlice frame = .ok value) (kind : typeKind ((value.get "type").bind asStr) = .start) :
    decoder.decode serde frame = messageStart value := by
  have kinds := decodeValue_kind serde decoder value
  rw [kind] at kinds
  simp only [decode, parsed, isStr_index, typeKind_start.mp kind, beq_self_eq_true, Bool.not_true, Bool.and_false]
  exact kinds

theorem decode_not_start (decoder : AnthropicDecoder) {frame : Bytes}
    {value : Value} (parsed : serde.fromSlice frame = .ok value)
    (kind : typeKind ((value.get "type").bind asStr) ≠ .start) : decoder.decode serde frame =
      if decoder.terminated then (decoder, []) else decoder.decodeValue serde value := by
  have unnamed : (((value.get "type").bind asStr == some "message_start")) = false := by
    simpa using fun named => kind (typeKind_start.mpr named)
  simp only [decode, parsed, isStr_index, unnamed, Bool.not_false, Bool.and_true]

theorem decode_episodes (decoder : AnthropicDecoder) (frame : Bytes) : (decoder.decode serde frame).1.terminated =
        (frameKind serde frame).closes decoder.terminated ∧ Episodes isTerminal isCreated decoder.terminated
        (decoder.decode serde frame).2 (decoder.decode serde frame).1.terminated
        ((frameKind serde frame).reopens decoder.terminated) := by
  cases parsed : serde.fromSlice frame with
  | error error =>
    simp only [decode, frameKind, parsed]
    exact ⟨rfl, .within (.refl _)⟩
  | ok value =>
    have read : frameKind serde frame = typeKind ((value.get "type").bind asStr) := by
      simp only [frameKind, parsed]
    rw [read]
    have kinds := decodeValue_kind serde decoder value
    generalize kindEq : typeKind ((value.get "type").bind asStr) = kind at kinds ⊢
    by_cases start : kind = .start
    · subst start
      rw [decode_start serde decoder parsed kindEq]
      refine ⟨rfl, ?_⟩
      have opened : Turns false (messageStart value).2 false := .running (plain_cons.mpr ⟨rfl, plain_nil⟩)
      cases decoder.terminated with
      | false => exact .within opened
      | true => exact .again (.within .silent) rfl opened
    rw [decode_not_start serde decoder parsed (kindEq ▸ start)]
    cases closed : decoder.terminated with
    | true =>
      rw [if_pos rfl, closed]
      cases kind with
      | start => exact absurd rfl start
      | stop | other => exact ⟨rfl, .within .silent⟩
    | false =>
      rw [if_neg Bool.false_ne_true]
      cases kind with
      | start => exact absurd rfl start
      | stop =>
        obtain ⟨terminated, event, events, terminal⟩ := kinds
        rw [terminated, events]
        exact ⟨rfl, .within (.of_terminal terminal)⟩
      | other =>
        rw [kinds.terminated, closed]
        exact ⟨rfl, .within (.running kinds.plain)⟩

theorem decodeFrames_episodes (decoder : AnthropicDecoder) (frames : List Bytes) :
    Episodes isTerminal isCreated decoder.terminated (emitAll (decode serde) decoder frames).2
      (emitAll (decode serde) decoder frames).1.terminated (restarts serde decoder.terminated frames) := by
  induction frames generalizing decoder with
  | nil => exact .within (.refl _)
  | cons frame frames ih =>
    obtain ⟨after, first⟩ := decode_episodes serde decoder frame
    have rest := ih (decoder.decode serde frame).1
    rw [restarts, ← after]
    exact first.append rest

theorem finish_turns : Turns decoder.terminated decoder.finish.2 true := by
  simp only [finish]
  cases closed : decoder.terminated with
  | true => exact .silent
  | false => exact .of_terminal rfl

end AnthropicDecoder

namespace GeminiDecoder

theorem decodeText_plain (decoder : GeminiDecoder) (part : Value) :
    (decoder.decodeText part).1.completed = decoder.completed ∧ Plain (decoder.decodeText part).2 := by
  simp only [decodeText]
  repeat' split
  all_goals exact ⟨rfl, by simp⟩

variable (wire : GeminiWire) (decoder : GeminiDecoder)

theorem decodePart_plain (part : Value) :
    (decoder.decodePart wire part).1.completed = decoder.completed ∧ Plain (decoder.decodePart wire part).2 := by
  simp only [decodePart]
  split
  · exact ⟨rfl, by simp [decodeCall]⟩
  · split
    · exact decodeText_plain decoder part
    next signature _ =>
      split
      · exact ⟨rfl, by simp⟩
      · obtain ⟨kept, plain⟩ := decodeText_plain { decoder with pendingSignature := some signature } part
        exact ⟨kept, plain_cons.mpr ⟨rfl, plain⟩⟩

theorem decodeParts_plain (parts : List Value) :
    (emitAll (decodePart wire) decoder parts).1.completed = decoder.completed ∧
      Plain (emitAll (decodePart wire) decoder parts).2 := by
  constructor
  · refine emitAll_invariant (fun state : GeminiDecoder => state.completed = decoder.completed) ?_ rfl parts
    intro state part kept
    exact (decodePart_plain wire state part).1.trans kept
  · exact emitAll_forall (fun state part => (decodePart_plain wire state part).2) decoder parts

theorem decodeCandidate_plain (candidate : Value) :
    (decoder.decodeCandidate wire candidate).1.completed = decoder.completed ∧
      Plain (decoder.decodeCandidate wire candidate).2 := by
  simp only [decodeCandidate]
  have parts := decodeParts_plain wire decoder
    ((((candidate.get "content").bind fun content => content.get "parts").bind asArray).getD [])
  split
  · exact parts
  · refine ⟨parts.1, plain_append.mpr ⟨parts.2, ?_⟩⟩
    split <;> simp

theorem decodeResponse_plain (response : Value) :
    (decoder.decodeResponse wire response).1.completed = decoder.completed ∧
      Plain (decoder.decodeResponse wire response).2 := by
  have created : Plain (((response.get "responseId").bind asStr).map .created).toList := plain_toList _ fun _ => rfl
  simp only [decodeResponse]
  split
  · exact ⟨rfl, created⟩
  next candidate _ =>
    obtain ⟨kept, plain⟩ := decodeCandidate_plain wire
      { decoder with
        usage := ((response.get "usageMetadata").map parseUsageMetadata).or decoder.usage } candidate
    exact ⟨kept, plain_append.mpr ⟨created, plain⟩⟩

theorem decode_turns (payload : Bytes) : Turning completed decoder (decoder.decode wire payload) := by
  simp only [decode]
  split
  · exact .refl _
  next open' =>
    rw [Bool.not_eq_true] at open'
    split
    · exact .refl _
    · split
      · exact .refl _
      · split
        · exact .refl _
        · split
          · exact turning_terminal open' rfl rfl
          · obtain ⟨kept, plain⟩ := decodeResponse_plain wire decoder _
            exact turning_plain kept plain open'

theorem finish_turns : Turns decoder.completed decoder.finish.2 true := by
  simp only [finish]
  cases decoder.completed with
  | true => exact .silent
  | false =>
    rw [if_neg Bool.false_ne_true]
    split <;> exact .of_terminal rfl

end GeminiDecoder

variable {name : String}

theorem stripCustomPrefix_plain (plain : Text.startsWith "custom_" name = false) : stripCustomPrefix name = name := by
  refine if_neg fun marked => ?_
  rw [List.isPrefixOf_iff_prefix, ← Text.startsWith_iff, plain] at marked
  cases marked

/-- A name comes back unless it begins like a renamed one. -/
theorem stripCustomPrefix_anthropicToolName :
    stripCustomPrefix (anthropicToolName name) = name ↔ Text.startsWith "custom_" name = false := by
  rw [← Bool.not_eq_true]
  constructor
  · intro back marked
    obtain ⟨rest, whole⟩ := Text.startsWith_iff.mp marked
    rw [anthropicToolName, marked, Bool.true_or, if_pos rfl, stripCustomPrefix, ← whole] at back
    have shorter := congrArg (·.toList.length) back
    simp [← whole] at shorter
    omega
  · intro plain
    rw [Bool.not_eq_true] at plain
    rw [anthropicToolName, plain]
    split
    · exact stripCustomPrefix_plain plain
    · rw [stripCustomPrefix, String.toList_append]
      exact String.ofList_toList

/-- The block in which the upstream calls the tool it knows by the name. -/
structure Uses (block : Value) (name : String) : Prop where
  type : block.index "type" = .string "tool_use"
  name : block.index "name" = .string name

/-- The frame in which it begins the call. -/
structure Calls (value : Value) (name : String) : Prop where
  type : (value.get "type").bind Value.asStr = some "content_block_start"
  block : Uses (value.index "content_block") name

theorem decodeValue_call (serde : Serde) (decoder : AnthropicDecoder) {value : Value} (calls : Calls value name) :
    ∃ index id, (decoder.decodeValue serde value).2 = [.toolCallBegin index id (stripCustomPrefix name)] := by
  simp [AnthropicDecoder.decodeValue, calls.type, AnthropicDecoder.contentBlockStart, calls.block.type, calls.block.name,
    Value.isStr]

theorem openaiToolCalls_use (serde : Serde) {block : Value} (uses : Uses block name) :
    (openaiToolCalls serde [block]).map (·.pointer ["function", "name"]) = [some (.string (stripCustomPrefix name))] := by
  simp [openaiToolCalls, uses.type, uses.name, Value.isStr, Value.pointer, Value.get]

def callOf (name : String) : Value :=
  .object [("type", .string "content_block_start"),
    ("content_block", .object [("type", .string "tool_use"), ("name", .string name)])]

theorem calls_callOf (name : String) : Calls (callOf name) name := ⟨rfl, rfl, rfl⟩

/-- The names of a request go out apart and come back as they were, in a stream and in a
whole answer, just when none of them begins like a renamed one. -/
theorem names_round_trip_iff (serde : Serde) (names : List String) :
    ((∀ first ∈ names, ∀ second ∈ names, anthropicToolName first = anthropicToolName second → first = second) ∧
      (∀ name ∈ names, ∀ (decoder : AnthropicDecoder) (value : Value), Calls value (anthropicToolName name) →
        ∃ index id, (decoder.decodeValue serde value).2 = [.toolCallBegin index id name]) ∧
      ∀ name ∈ names, ∀ block, Uses block (anthropicToolName name) →
        (openaiToolCalls serde [block]).map (·.pointer ["function", "name"]) = [some (.string name)]) ↔
      ∀ name ∈ names, Text.startsWith "custom_" name = false := by
  constructor
  · rintro ⟨-, back, -⟩ name member
    have calls := calls_callOf (anthropicToolName name)
    obtain ⟨index, id, reported⟩ := back name member .default _ calls
    obtain ⟨index', id', called⟩ := decodeValue_call serde .default calls
    have same := (CodexEvent.toolCallBegin.inj (List.cons.inj (reported.symm.trans called)).1).2.2
    exact stripCustomPrefix_anthropicToolName.mp same.symm
  · intro plain
    refine ⟨fun first here second there same => ?_, fun name member decoder value calls => ?_,
      fun name member block uses => ?_⟩
    · rw [← stripCustomPrefix_anthropicToolName.mpr (plain first here), same]
      exact stripCustomPrefix_anthropicToolName.mpr (plain second there)
    · have reported := decodeValue_call serde decoder calls
      rwa [stripCustomPrefix_anthropicToolName.mpr (plain name member)] at reported
    · rw [openaiToolCalls_use serde uses, stripCustomPrefix_anthropicToolName.mpr (plain name member)]

/-- Two names become one, and a call of it comes back under the other. -/
theorem renamed_name_taken : anthropicToolName "search" = anthropicToolName "custom_search" ∧
    (AnthropicDecoder.default.decodeValue ⟨fun _ => .error "", fun _ => ""⟩
        (callOf (anthropicToolName "custom_search"))).2 = [.toolCallBegin 0 "toolu_anthropic" "search"] :=
  ⟨rfl, rfl⟩

end Mahoquot.Compat
