import Mahoquot.Compat.CursorProperties
import Mahoquot.Compat.KiroProperties
import Mahoquot.Compat.DevinEndProperties

/-! One terminal event for each message a parser reads, over all protocols. Only an
Anthropic stream can hold more than one message: a `message_start` behind the end
of a message opens the next. -/

set_option autoImplicit false

namespace Mahoquot.Compat
open Library

section Frames
namespace SseParser
variable {parser : SseParser}

theorem pushBytes_failure (bytes : Bytes) (alive : parser.failure = none) : (parser.pushBytes bytes).1.failure =
      match (parser.pushBytes bytes).2.2 with
      | .error error => some error
      | .ok () => none := by
  induction bytes generalizing parser with
  | nil => exact alive
  | cons byte bytes ih =>
    have first := pushByte_failure byte alive
    simp only [pushBytes]
    split
    next pushed =>
      rw [pushed] at first
      exact first
    next pushed =>
      rw [pushed] at first
      exact ih first

/-- A parser without a breach has had none, and reports none. -/
theorem pushRawData_intact {chunk : Bytes} (intact : (parser.pushRawData chunk).1.failure = none) :
    parser.failure = none ∧ (parser.pushRawData chunk).2.2 = .ok () := by
  obtain ⟨buf, data, afterCr, failure, terminal⟩ := parser
  cases failure with
  | some error => cases intact
  | none =>
    have pushed : (⟨buf, data, afterCr, none, terminal⟩ : SseParser).pushRawData chunk =
      pushBytes ⟨buf, data, afterCr, none, terminal⟩ chunk := rfl
    rw [pushed] at intact ⊢
    rw [pushBytes_failure chunk rfl] at intact
    refine ⟨rfl, ?_⟩
    split at intact
    · cases intact
    next ok => exact ok

theorem finishEvent_failure (alive : parser.failure = none) : parser.finishEvent.1.failure =
      match parser.finishEvent.2.2 with
      | .error error => some error
      | .ok () => none := by
  have kept := (consumeLine_keeps parser []).1
  simp only [finishEvent]
  split
  next => rfl
  next line =>
    rw [line] at kept
    exact kept.trans alive

theorem finishRawData_intact (intact : parser.finishRawData.1.failure = none) :
    parser.failure = none ∧ parser.finishRawData.2.2 = .ok () := by
  obtain ⟨buf, data, afterCr, failure, terminal⟩ := parser
  cases failure with
  | some error => cases intact
  | none =>
    refine ⟨rfl, ?_⟩
    have kept := (consumeLine_keeps ⟨[], data, afterCr, none, terminal⟩ buf).1
    simp only [finishRawData, Option.isSome_none, Bool.false_eq_true, if_false] at intact ⊢
    split at intact
    next empty =>
      rw [if_pos empty]
      rw [finishEvent_failure rfl] at intact
      split at intact
      · cases intact
      next ok => exact ok
    next buffered =>
      rw [if_neg buffered]
      split at intact
      · cases intact
      next line =>
        rw [line] at kept
        rw [finishEvent_failure kept] at intact
        split at intact
        · cases intact
        next ok => exact ok

end SseParser

/-- No line and no event of the stream breaches its cap. -/
def SseIntact (chunks : List Bytes) : Prop :=
  (emitAll (fun parser chunk => ((parser.pushRawData chunk).1, (parser.pushRawData chunk).2.1))
    SseParser.default chunks).1.finishRawData.1.failure = none

instance (chunks : List Bytes) : Decidable (SseIntact chunks) := inferInstanceAs (Decidable (_ = _))

variable {δ : Type} (decode : δ → Bytes → δ × List CodexEvent)

/-- A decoder behind the line parser. -/
def framedPush (state : SseParser × δ) (chunk : Bytes) : (SseParser × δ) × List CodexEvent :=
  let raw := state.1.pushRawData chunk
  let decoded := emitAll decode state.2 raw.2.1
  ((raw.1, decoded.1), decoded.2 ++ pushLimitFailure raw.2.2)

variable {chunks : List Bytes}

section
variable {parser : SseParser} (intact : (emitAll (fun parser chunk =>
    ((parser.pushRawData chunk).1, (parser.pushRawData chunk).2.1)) parser chunks).1.failure = none)
include intact

theorem failure_before : parser.failure = none := by
  induction chunks generalizing parser with
  | nil => exact intact
  | cons chunk chunks ih => exact (SseParser.pushRawData_intact (ih intact)).1

/-- Without a breach, chunk by chunk is frame by frame. -/
theorem emitAll_framedPush (decoder : δ) : emitAll (framedPush decode) (parser, decoder) chunks =
      let raw := emitAll (fun parser chunk =>
        ((parser.pushRawData chunk).1, (parser.pushRawData chunk).2.1)) parser chunks
      let decoded := emitAll decode decoder raw.2
      ((raw.1, decoded.1), decoded.2) := by
  induction chunks generalizing parser decoder with
  | nil => rfl
  | cons chunk chunks ih =>
    have reported := (SseParser.pushRawData_intact (failure_before intact)).2
    have first : framedPush decode (parser, decoder) chunk =
        (((parser.pushRawData chunk).1, (emitAll decode decoder (parser.pushRawData chunk).2.1).1),
          (emitAll decode decoder (parser.pushRawData chunk).2.1).2) := by
      simp only [framedPush, reported, pushLimitFailure, List.append_nil]
    rw [emitAll_cons, first, ih intact]
    simp only [emitAll_cons, emitAll_append]

end

variable (closing : δ → List CodexEvent)

/-- The events of a decoder, from its first chunk to the finish. -/
def wholeEvents (decoder : δ) (chunks : List Bytes) : List CodexEvent :=
  let read := emitAll decode decoder chunks
  read.2 ++ closing read.1

theorem wholeEvents_turns (closed : δ → Bool) {closing : δ → List CodexEvent} {decoder : δ}
    (steps : ∀ front chunk rest, chunks = front ++ chunk :: rest →
      let before := (emitAll decode decoder front).1
      Turning closed before (decode before chunk))
    (closes : ∀ state, Turns (closed state) (closing state) true)
    (running : closed decoder = false) :
    Turns false (wholeEvents decode closing decoder chunks) true :=
  running ▸ (Moves.emitAll closed decoder steps).append (closes _)

def framedClosing (state : SseParser × δ) : List CodexEvent :=
  let raw := state.1.finishRawData
  let decoded := emitAll decode state.2 raw.2.1
  decoded.2 ++ pushLimitFailure raw.2.2 ++ closing decoded.1

theorem wholeEvents_framed (decoder : δ) (intact : SseIntact chunks) :
    wholeEvents (framedPush decode) (framedClosing decode closing) (.default, decoder) chunks =
      wholeEvents decode closing decoder (rawFrames chunks) := by
  obtain ⟨alive, reported⟩ := SseParser.finishRawData_intact intact
  simp only [wholeEvents, framedClosing, emitAll_framedPush decode alive, reported,
    pushLimitFailure, rawFrames, emitAll_append, List.append_nil, List.append_assoc]

end Frames

namespace ProtocolParser
variable (wire : Wire)

/-- A protocol's parser is its own decoder inside the common one. -/
theorem streamEvents_embed {τ : Type} (protocol : Protocol) (inner : τ → Bytes → τ × List CodexEvent)
    (closing : τ → List CodexEvent) (embed : τ → ProtocolParser) (start : τ) (begins : new protocol = embed start)
    (steps : ∀ state chunk, (embed state).push wire chunk = (embed (inner state chunk).1, (inner state chunk).2))
    (closes : ∀ state, ((embed state).finish wire).2 = closing state) (chunks : List Bytes) :
    streamEvents wire protocol chunks = wholeEvents inner closing start chunks := by
  simp only [streamEvents, wholeEvents, begins, emitAll_embed inner (push wire) embed steps, closes]

theorem streamEvents_anthropic (chunks : List Bytes) : streamEvents wire .anthropic chunks =
      wholeEvents (framedPush (AnthropicDecoder.decode wire.serde))
        (framedClosing (AnthropicDecoder.decode wire.serde) fun decoder => decoder.finish.2)
        (.default, .default) chunks :=
  streamEvents_embed wire .anthropic _ _
    (fun state => { new .anthropic with sse := state.1, anthropic := some state.2 })
    (.default, .default) rfl (fun _ _ => rfl) (fun _ => rfl) chunks

theorem streamEvents_antigravity (chunks : List Bytes) : streamEvents wire .antigravity chunks =
      wholeEvents (framedPush (GeminiDecoder.decode wire.gemini))
        (framedClosing (GeminiDecoder.decode wire.gemini) fun decoder => decoder.finish.2) (.default, .new) chunks :=
  streamEvents_embed wire .antigravity _ _
    (fun state => { new .antigravity with sse := state.1, gemini := some state.2 })
    (.default, .new) rfl (fun _ _ => rfl) (fun _ => rfl) chunks

/-- What keeps the frames of a stream apart from its ends: no breach of an SSE cap
where a decoder sits behind the line parser, and no Cursor frame behind the
end-of-stream frame of its buffer. -/
def Undisturbed (wire : Wire) : Protocol → List Bytes → Prop
  | .anthropic, chunks | .antigravity, chunks => SseIntact chunks
  | .cursor, chunks => ∀ front chunk rest, chunks = front ++ chunk :: rest →
      ¬ Overruns ((emitAll (CursorDecoder.decode wire.cursor) .new front).1.buffer ++ chunk)
  | .codex, _ | .kiro, _ | .devin, _ => True

/-- How many messages start behind the end of another. -/
def messageRestarts (wire : Wire) : Protocol → List Bytes → Nat
  | .anthropic, chunks => restarts wire.serde false (rawFrames chunks)
  | .codex, _ | .antigravity, _ | .kiro, _ | .cursor, _ | .devin, _ => 0

theorem streamEvents_episodes (wire : Wire) (protocol : Protocol) (chunks : List Bytes)
    (undisturbed : Undisturbed wire protocol chunks) :
    Episodes CodexEvent.isTerminal CodexEvent.isCreated false (streamEvents wire protocol chunks)
      true (messageRestarts wire protocol chunks) := by
  cases protocol with
  | codex =>
    rw [streamEvents_embed wire .codex (SseParser.push wire.serde)
      (fun sse => (sse.finish wire.serde).2) (fun sse => { new .codex with sse }) .default rfl
      (fun _ _ => rfl) (fun _ => rfl)]
    exact .within (wholeEvents_turns _ SseParser.terminal (fun _ chunk _ _ => SseParser.push_turns wire.serde _ chunk)
      (SseParser.finish_turns wire.serde) rfl)
  | antigravity =>
    rw [streamEvents_antigravity, wholeEvents_framed _ _ _ undisturbed]
    exact .within (wholeEvents_turns _ GeminiDecoder.completed
      (fun _ frame _ _ => GeminiDecoder.decode_turns wire.gemini _ frame)
      GeminiDecoder.finish_turns rfl)
  | anthropic =>
    rw [streamEvents_anthropic, wholeEvents_framed _ _ _ undisturbed]
    have frames := AnthropicDecoder.decodeFrames_episodes wire.serde .default (rawFrames chunks)
    exact frames.then_moves (AnthropicDecoder.finish_turns _)
  | kiro =>
    rw [streamEvents_embed wire .kiro (KiroDecoder.decode wire.serde)
      (fun decoder => decoder.finish.2) (fun decoder => { new .kiro with kiro := some decoder })
      .new rfl (fun _ _ => rfl) (fun _ => rfl)]
    exact .within (wholeEvents_turns _ KiroDecoder.completed
      (fun _ chunk _ _ => KiroDecoder.decode_turns wire.serde _ chunk) KiroDecoder.finish_turns rfl)
  | cursor =>
    rw [streamEvents_embed wire .cursor (CursorDecoder.decode wire.cursor)
      (fun decoder => decoder.finish.2) (fun decoder => { new .cursor with cursor := some decoder })
      .new rfl (fun _ _ => rfl) (fun _ => rfl)]
    refine .within (wholeEvents_turns _ CursorDecoder.completed ?_ CursorDecoder.finish_turns rfl)
    intro front chunk rest split
    exact CursorDecoder.decode_turns wire.cursor _ chunk (undisturbed front chunk rest split)
  | devin =>
    rw [streamEvents_embed wire .devin (DevinDecoder.decode wire.devin)
      (fun decoder => decoder.finish.2) (fun decoder => { new .devin with devin := some decoder })
      .new rfl (fun _ _ => rfl) (fun _ => rfl)]
    exact .within (.closing (DevinDecoder.transcript_endsOnce wire.devin chunks))

/-- The events of a stream are those of its messages, each with one terminal event
at its end; without a restart they are one message. -/
theorem one_terminal_per_message (wire : Wire) (protocol : Protocol) (chunks : List Bytes)
    (undisturbed : Undisturbed wire protocol chunks) : (messageRestarts wire protocol chunks = 0 →
        EndsOnce CodexEvent.isTerminal (streamEvents wire protocol chunks)) ∧ ∃ messages : List (List CodexEvent),
        streamEvents wire protocol chunks = messages.flatten ∧
        messages.length = messageRestarts wire protocol chunks + 1 ∧
        (∀ message ∈ messages, EndsOnce CodexEvent.isTerminal message) ∧
        ∀ message ∈ messages.tail, ∃ id rest, message = .created id :: rest := by
  obtain ⟨messages, joined, length, ends, opened⟩ := (streamEvents_episodes wire protocol chunks undisturbed).segments
  refine ⟨fun single => ?_, messages, joined, length, ends, fun message member => ?_⟩
  · rw [single] at length
    obtain ⟨message, rfl⟩ := List.length_eq_one_iff.mp length
    rw [joined, List.flatten_singleton]
    exact ends message (by simp)
  · obtain ⟨event, rest, shape, creates⟩ := opened message member
    cases event with
    | created id => exact ⟨id, rest, shape⟩
    | textDelta | reasoningDelta | reasoningSignature | reasoningRedacted | toolCallBegin
      | toolArgsDelta | outputLimitReached | completed | failed => cases creates

def messageWire : Wire where
  serde :=
    { fromSlice := fun payload =>
        if payload = utf8 "\x7b\"type\":\"message_stop\"\x7d" then
          .ok (.object [("type", .string "message_stop")])
        else if payload = utf8 "\x7b\"type\":\"message_start\"\x7d" then
          .ok (.object [("type", .string "message_start")])
        else .error "expected value"
      formatFloat := fun _ => "" }
  syntheticCallId := fun _ name => "call_" ++ name
  serverMessage := fun _ => .error "failed to decode Protobuf message"
  osVersion := "linux"
  shell := none
  accepts := none
  chatMessage := fun _ => .error "failed to decode Protobuf message"

def restartedStream : List Bytes :=
  [utf8 "data: \x7b\"type\":\"message_stop\"\x7d\n\n", utf8 "data: \x7b\"type\":\"message_start\"\x7d\n\n"]

theorem restartedStream_messages : ∃ messages : List (List CodexEvent),
      streamEvents messageWire .anthropic restartedStream = messages.flatten ∧
      messages.length = 2 ∧ ∀ message ∈ messages, EndsOnce CodexEvent.isTerminal message := by
  obtain ⟨_, messages, joined, length, ends, _⟩ :=
    one_terminal_per_message messageWire .anthropic restartedStream
      (show SseIntact restartedStream by decide +kernel)
  exact ⟨messages, joined, length.trans (by decide +kernel), ends⟩

/-- A message behind the end of another brings a second terminal event. -/
theorem restartedStream_two_terminals :
    (streamEvents messageWire .anthropic restartedStream).map CodexEvent.isTerminal = [true, false, true] := by
  decide +kernel

end ProtocolParser
end Mahoquot.Compat
