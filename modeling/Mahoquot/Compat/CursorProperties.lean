import Mahoquot.Compat.DecoderProperties
import Mahoquot.Library.Chunking

/-! When a Cursor stream means the same however it is cut. The loop goes on behind an
end-of-stream frame of its buffer, but not with the next chunk. -/

set_option autoImplicit false

namespace Mahoquot.Compat
open Library List
variable {decoder : CursorDecoder}

namespace CursorDecoder

/-- What a decoding step can do: it leaves the decoder as open as it was, or ends it with one
terminal event, and it does not look at the bytes behind its own. -/
structure Handles (decode : CursorDecoder → CursorDecoder × List CodexEvent) (decoder : CursorDecoder) : Prop where
  apart : ∀ buffer, decode { decoder with buffer := buffer } =
    ({ (decode decoder).1 with buffer := buffer }, (decode decoder).2)
  settles : (decode decoder).1.completed = decoder.completed ∧ Plain (decode decoder).2 ∨
    (decode decoder).1.completed = true ∧
      ∃ event, event.isTerminal = true ∧ (decode decoder).2 = [event]

variable (wire : CursorWire) {decoder : CursorDecoder}

theorem sendReply_handles (reply : AgentClientMessage) :
    Handles (fun decoder => decoder.sendReply wire reply) decoder := by
  constructor
  · intro buffer
    simp only [sendReply]
    repeat' split
    all_goals rfl
  · simp only [sendReply]
    repeat' split
    · exact .inl ⟨rfl, plain_nil⟩
    · exact .inl ⟨rfl, plain_nil⟩
    · exact .inr ⟨rfl, _, rfl, rfl⟩

theorem startTool_plain (decoder : CursorDecoder) (callId : String) (tool : Option ToolCall) :
    (decoder.startTool callId tool).1.completed = decoder.completed ∧ Plain (decoder.startTool callId tool).2 := by
  simp only [startTool]
  split
  · exact ⟨rfl, plain_nil⟩
  · exact ⟨rfl, by simp [CodexEvent.isTerminal]⟩

theorem startTool_apart (callId : String) (tool : Option ToolCall) (buffer : Bytes) :
    startTool { decoder with buffer := buffer } callId tool =
      ({ (decoder.startTool callId tool).1 with buffer := buffer }, (decoder.startTool callId tool).2) := by
  simp only [startTool]
  split <;> rfl

theorem decodeUpdate_handles (update : InteractionUpdate) :
    Handles (fun decoder => decoder.decodeUpdate update) decoder := by
  cases update with
  | textDelta | thinkingDelta =>
    refine ⟨fun _ => rfl, .inl ⟨rfl, ?_⟩⟩
    simp only [decodeUpdate]
    split <;> simp [CodexEvent.isTerminal]
  | tokenDelta tokens => exact ⟨fun _ => rfl, .inl ⟨rfl, plain_nil⟩⟩
  | toolCallStarted callId tool | toolCallCompleted callId tool =>
    exact ⟨startTool_apart callId tool, .inl (startTool_plain decoder callId tool)⟩
  | partialToolCall callId tool delta =>
    obtain ⟨kept, plain⟩ := startTool_plain decoder callId tool
    refine ⟨fun buffer => ?_, .inl ⟨kept, plain_append.mpr ⟨plain, plain_toList _ fun _ => rfl⟩⟩⟩
    simp only [decodeUpdate]
    rw [startTool_apart callId tool]
  | turnEnded usage => exact ⟨fun _ => rfl, .inr ⟨rfl, _, rfl, rfl⟩⟩

theorem decodeMessage_handles (message : Option AgentServerMessage) :
    Handles (fun decoder => decoder.decodeMessage wire message) decoder := by
  have idle : Handles (fun decoder => (decoder, [])) decoder := ⟨fun _ => rfl, .inl ⟨rfl, plain_nil⟩⟩
  simp only [decodeMessage]
  split
  · exact idle
  next update => exact decodeUpdate_handles update
  · exact idle
  next id request =>
    cases request with
    | none => exact idle
    | some request =>
      cases request with
      | getBlobArgs | setBlobArgs => exact sendReply_handles wire _
  · simp only [replyToExec]
    split
    · exact sendReply_handles wire _
    · exact idle
  · exact idle

theorem finish_turns (decoder : CursorDecoder) : Turns decoder.completed decoder.finish.2 true := by
  simp only [finish]
  cases closed : decoder.completed with
  | true => exact .silent
  | false => exact .of_terminal rfl

end CursorDecoder

/-- The first whole frame of a Cursor buffer. -/
def cursorFrame (buffer : Bytes) : Option (UInt8 × Bytes) :=
  let length := u32FromBeBytes ((buffer.drop 1).take 4)
  if buffer.length < 5 ∨ length > maxCursorFrameBytes ∨ buffer.length < length + 5 then none
  else some (buffer.headD 0, buffer.drop (5 + length))

/-- Another header follows an end-of-stream frame in the same buffer. -/
inductive Overruns : Bytes → Prop where
  | here {buffer rest : Bytes} {flags : UInt8} (read : cursorFrame buffer = some (flags, rest))
      (final : flags &&& 2 ≠ 0) (more : 5 ≤ rest.length) : Overruns buffer
  | later {buffer rest : Bytes} {flags : UInt8} (read : cursorFrame buffer = some (flags, rest))
      (data : ¬ flags &&& 2 ≠ 0) (behind : Overruns rest) : Overruns buffer

/-- What the loop sees at the head of its buffer. -/
inductive CursorHead where
  | waiting
  | oversized
  | frame (flags : UInt8) (payload rest : Bytes)

def cursorHead (buffer : Bytes) : CursorHead :=
  let length := u32FromBeBytes ((buffer.drop 1).take 4)
  if buffer.length < 5 then .waiting
  else if length > maxCursorFrameBytes then .oversized
  else if buffer.length < length + 5 then .waiting
  else .frame (buffer.headD 0) ((buffer.take (5 + length)).drop 5) (buffer.drop (5 + length))

theorem header_append {head : Bytes} (long : 5 ≤ head.length) (tail : Bytes) :
    ((head ++ tail).drop 1).take 4 = (head.drop 1).take 4 ∧ (head ++ tail).headD 0 = head.headD 0 := by
  constructor
  · exact take_drop_append long tail
  · cases head with
    | nil => cases long
    | cons byte head => rfl

theorem cursorHead_oversized {buffer : Bytes} (large : cursorHead buffer = .oversized)
    (more : Bytes) : cursorHead (buffer ++ more) = .oversized := by
  unfold cursorHead at large ⊢
  by_cases short : buffer.length < 5
  · rw [if_pos short] at large
    cases large
  rw [if_neg short] at large
  rw [if_neg (by rw [length_append]; omega), (header_append (by omega) more).1]
  split at large
  next early => exact if_pos early
  next =>
    split at large <;> cases large

theorem cursorFrame_of_head {buffer payload rest : Bytes} {flags : UInt8}
    (head : cursorHead buffer = .frame flags payload rest) : cursorFrame buffer = some (flags, rest) := by
  simp only [cursorHead] at head
  split at head
  · cases head
  next header =>
    split at head
    · cases head
    next small =>
      split at head <;> cases head
      next whole => simp only [cursorFrame, header, small, whole, or_self, if_false]

theorem cursorHead_frame {buffer payload rest : Bytes} {flags : UInt8}
    (head : cursorHead buffer = .frame flags payload rest) :
    ∃ bytes, buffer = bytes ++ rest ∧ rest.length < buffer.length ∧
      ∀ tail, cursorHead (bytes ++ tail) = .frame flags payload tail := by
  unfold cursorHead at head
  by_cases short : buffer.length < 5
  · rw [if_pos short] at head
    cases head
  rw [if_neg short] at head
  generalize size : u32FromBeBytes ((buffer.drop 1).take 4) = length at head
  split at head
  · cases head
  next small =>
    split at head
    · cases head
    next whole =>
      cases head
      have long : (buffer.take (5 + length)).length = 5 + length := length_take_of_le (by omega)
      have header := header_append (show 5 ≤ (buffer.take (5 + length)).length by omega)
      refine ⟨buffer.take (5 + length), (take_append_drop _ _).symm, ?_, ?_⟩
      · rw [length_drop]
        omega
      · intro tail
        have same := header (buffer.drop (5 + length))
        rw [take_append_drop] at same
        have length' : u32FromBeBytes (((buffer.take (5 + length) ++ tail).drop 1).take 4) =
            length := by
          rw [(header tail).1, ← same.1, size]
        unfold cursorHead
        rw [length', (header tail).2, ← same.2]
        rw [if_neg (by rw [length_append]; omega), if_neg small,
          if_neg (by rw [length_append]; omega), take_left' long, drop_left' long]

namespace CursorDecoder
variable (wire : CursorWire)

def takeFrame (decoder : CursorDecoder) (flags : UInt8) (payload : Bytes) : (CursorDecoder × List CodexEvent) × Bool :=
  if flags &&& 2 ≠ 0 then
    match endError wire payload with
    | some message => (decoder.fail message, false)
    | none => (if decoder.completed then (decoder, []) else decoder.complete, true)
  else
    match wire.serverMessage payload with
    | .error _ => ((decoder, []), true)
    | .ok message => (decoder.decodeMessage wire message, !(decoder.decodeMessage wire message).1.completed)

def drain (decoder : CursorDecoder) : CursorDecoder × List CodexEvent :=
  decodeLoop wire (decoder.buffer.length + 1) decoder

theorem takeFrame_over (decoder : CursorDecoder) (flags : UInt8) (payload buffer : Bytes) :
    takeFrame wire { decoder with buffer := buffer } flags payload =
      (({ (takeFrame wire decoder flags payload).1.1 with buffer := buffer },
        (takeFrame wire decoder flags payload).1.2), (takeFrame wire decoder flags payload).2) := by
  unfold takeFrame
  split
  · split
    · rfl
    · split <;> rfl
  · split
    · rfl
    · rw [(decodeMessage_handles wire _).apart]

theorem takeFrame_buffer (decoder : CursorDecoder) (flags : UInt8) (payload : Bytes) :
    (takeFrame wire decoder flags payload).1.1.buffer = decoder.buffer :=
  congrArg (·.1.1.buffer) (takeFrame_over wire decoder flags payload decoder.buffer)

def frameRound (decoder : CursorDecoder) : Round CursorDecoder CodexEvent :=
  match cursorHead decoder.buffer with
  | .waiting => .stop (decoder, [])
  | .oversized => .stop (decoder.fail "Cursor frame exceeds the size limit")
  | .frame flags payload rest =>
    let taken := takeFrame wire { decoder with buffer := rest } flags payload
    if taken.2 then .go taken.1.1 taken.1.2 else .stop taken.1

theorem drains : Drains (frameRound wire) (·.buffer.length) (decodeLoop wire) where
  succ fuel decoder := by
    rw [decodeLoop, frameRound, cursorHead]
    generalize u32FromBeBytes ((decoder.buffer.drop 1).take 4) = length
    by_cases header : decoder.buffer.length < 5
    · rw [if_pos header, if_pos header]
    rw [if_neg header, if_neg header]
    by_cases large : length > maxCursorFrameBytes
    · rw [if_pos large, if_pos large]
    rw [if_neg large, if_neg large]
    by_cases part : decoder.buffer.length < length + 5
    · rw [if_pos part, if_pos part]
    rw [if_neg part, if_neg part]
    unfold takeFrame
    by_cases final : decoder.buffer.headD 0 &&& 2 ≠ 0
    · simp only [if_pos final]
      cases endError wire ((decoder.buffer.take (5 + length)).drop 5) with
      | some message => rfl
      | none => rfl
    · simp only [if_neg final]
      cases wire.serverMessage ((decoder.buffer.take (5 + length)).drop 5) with
      | error _ => rfl
      | ok message =>
        dsimp only
        by_cases done : (decodeMessage wire
            { decoder with buffer := decoder.buffer.drop (5 + length) } message).1.completed = true
        · rw [if_pos done, if_neg (by rw [done]; exact Bool.false_ne_true)]
        · rw [if_neg done, if_pos (by rw [Bool.eq_false_iff.mpr done]; rfl)]
          rfl
  shrinks {decoder _ _} goes := by
    unfold frameRound at goes
    cases head : cursorHead decoder.buffer with
    | waiting | oversized =>
      rw [head] at goes
      cases goes
    | frame flags payload rest =>
      obtain ⟨_, _, shorter, -⟩ := cursorHead_frame head
      simp only [head] at goes
      split at goes <;> cases goes
      rw [takeFrame_buffer]
      exact shorter

/-- A head that is there is taken whatever comes behind it. -/
theorem frameRound_append (more : Bytes) (settled : cursorHead decoder.buffer ≠ .waiting) :
    frameRound wire { decoder with buffer := decoder.buffer ++ more } =
      (frameRound wire decoder).map fun after => { after with buffer := after.buffer ++ more } := by
  unfold frameRound
  cases head : cursorHead decoder.buffer with
  | waiting => exact absurd head settled
  | oversized => simp only [cursorHead_oversized head more, Round.map, fail]
  | frame flags payload rest =>
    obtain ⟨bytes, split, -, read⟩ := cursorHead_frame head
    simp only [split, append_assoc, read]
    rw [takeFrame_over wire { decoder with buffer := rest } flags payload (rest ++ more)]
    dsimp only
    split <;> simp only [Round.map, takeFrame_buffer]

variable {decoder : CursorDecoder} {flags : UInt8} {payload : Bytes}

theorem decodeMessage_completed (done : decoder.completed = true) (message : Option AgentServerMessage) :
    (decoder.decodeMessage wire message).1.completed = true := by
  obtain ⟨kept, -⟩ | ⟨closed, -⟩ := (decodeMessage_handles wire message).settles
  · exact kept.trans done
  · exact closed

theorem takeFrame_completed (done : decoder.completed = true) (flags : UInt8) (payload : Bytes) :
    (takeFrame wire decoder flags payload).1.1.completed = true := by
  unfold takeFrame
  split
  · split
    · rfl
    · exact done
  · split
    · exact done
    · exact decodeMessage_completed wire done _

theorem takeFrame_stops (stops : (takeFrame wire decoder flags payload).2 = false) :
    (takeFrame wire decoder flags payload).1.1.completed = true := by
  unfold takeFrame at stops ⊢
  split at stops
  next final =>
    rw [if_pos final]
    split at stops
    · rfl
    · cases stops
  next data =>
    rw [if_neg data]
    split at stops
    · cases stops
    · simpa using stops

/-- A frame of data behind which the loop goes on leaves the decoder open. -/
theorem takeFrame_goes (running : decoder.completed = false) (data : ¬ flags &&& 2 ≠ 0)
    (goes : (takeFrame wire decoder flags payload).2 = true) :
    (takeFrame wire decoder flags payload).1.1.completed = false := by
  unfold takeFrame at goes ⊢
  rw [if_neg data] at goes ⊢
  split at goes
  · exact running
  · simpa using goes

/-- The loop goes on behind an end-of-stream frame that reports no error. -/
theorem takeFrame_ends (running : decoder.completed = false) (final : flags &&& 2 ≠ 0)
    (clean : endError wire payload = none) : takeFrame wire decoder flags payload = (decoder.complete, true) := by
  rw [takeFrame, if_pos final, clean, if_neg (by rw [running]; exact Bool.false_ne_true)]

theorem takeFrame_final (final : flags &&& 2 ≠ 0)
    (goes : (takeFrame wire decoder flags payload).2 = true) : endError wire payload = none := by
  rw [takeFrame, if_pos final] at goes
  split at goes
  · cases goes
  next clean => exact clean

section Equations
variable (decoder : CursorDecoder)

theorem drain_waiting (head : cursorHead decoder.buffer = .waiting) : drain wire decoder = (decoder, []) :=
  (drains wire).stop (by rw [frameRound, head]) _

variable {flags : UInt8} {payload rest : Bytes}
  (head : cursorHead decoder.buffer = .frame flags payload rest)

include head

theorem drain_goes (goes : (takeFrame wire { decoder with buffer := rest } flags payload).2 = true) :
    drain wire decoder = followed (takeFrame wire { decoder with buffer := rest } flags payload).1 (drain wire) :=
  (drains wire).go (by
    rw [frameRound, head]
    exact if_pos goes)

end Equations

theorem frameRound_completed (done : decoder.completed = true) :
    (frameRound wire decoder).Leads completed (·.completed = true) := by
  unfold frameRound
  cases cursorHead decoder.buffer with
  | waiting => exact done
  | oversized => rfl
  | frame flags payload rest =>
    have closed := @takeFrame_completed wire { decoder with buffer := rest } done flags payload
    dsimp only
    split <;> exact closed

theorem drain_completed (done : decoder.completed = true) : (drain wire decoder).1.completed = true := by
  revert done
  refine (drains wire).rule (fun decoder => decoder.completed = true → (drain wire decoder).1.completed = true) ?_ ?_ decoder
  · intro decoder outcome taken done
    have closed := frameRound_completed wire done
    rw [taken] at closed
    rw [drain, (drains wire).stop taken]
    exact closed
  · intro decoder next outputs taken ih done
    have closed := frameRound_completed wire done
    rw [taken] at closed
    rw [drain, (drains wire).go taken]
    exact ih closed

/-- If nothing behind a completed stream is heard, no part of it is. -/
theorem drain_quiet (more : Bytes) (quiet : (drain wire { decoder with buffer := decoder.buffer ++ more }).2 = []) :
    (drain wire decoder).2 = [] := by
  revert quiet
  refine (drains wire).rule (fun decoder => (drain wire { decoder with buffer := decoder.buffer ++ more }).2 = [] →
    (drain wire decoder).2 = []) ?_ ?_ decoder
  · intro decoder outcome taken quiet
    by_cases waits : cursorHead decoder.buffer = .waiting
    · rw [drain_waiting wire decoder waits]
    · have longer := frameRound_append wire more waits
      rw [taken] at longer
      rw [drain, (drains wire).stop longer] at quiet
      rw [drain, (drains wire).stop taken]
      exact quiet
  · intro decoder next outputs taken ih quiet
    have longer := frameRound_append wire more (fun waits => by rw [frameRound, waits] at taken; cases taken)
    rw [taken] at longer
    rw [drain, (drains wire).go longer] at quiet
    rw [drain, (drains wire).go taken]
    obtain ⟨first, later⟩ := append_eq_nil_iff.mp quiet
    exact append_eq_nil_iff.mpr ⟨first, ih later⟩

/-- The decoder stands behind its first end-of-stream frame, with the bytes after
the frame in its buffer. -/
inductive EndsAt : CursorDecoder → CursorDecoder → Prop where
  | here {decoder : CursorDecoder} {flags : UInt8} {payload rest : Bytes}
      (head : cursorHead decoder.buffer = .frame flags payload rest) (final : flags &&& 2 ≠ 0)
      (clean : endError wire payload = none) :
      EndsAt decoder (complete { decoder with buffer := rest }).1
  | later {decoder ended : CursorDecoder} {flags : UInt8} {payload rest : Bytes}
      (head : cursorHead decoder.buffer = .frame flags payload rest) (data : ¬ flags &&& 2 ≠ 0)
      (goes : (takeFrame wire { decoder with buffer := rest } flags payload).2 = true)
      (behind : EndsAt (takeFrame wire { decoder with buffer := rest } flags payload).1.1 ended) :
      EndsAt decoder ended

/-- What the loop still decodes behind the end of the stream emits nothing. -/
def Unheard (decoder : CursorDecoder) : Prop :=
  ∀ ended, EndsAt wire decoder ended → (drain wire ended).2 = []

theorem decode_completed (done : decoder.completed = true) (bytes : Bytes) :
    decoder.decode wire bytes = (decoder, []) := by
  rw [decode, if_pos done]

theorem decode_running (running : decoder.completed = false) (bytes : Bytes) :
    decoder.decode wire bytes = drain wire { decoder with buffer := decoder.buffer ++ bytes } := by
  rw [decode, if_neg (by rw [running]; exact Bool.false_ne_true)]
  rfl

/-- The stream up to its end decodes alone, and the whole as that and what is
still decoded behind. -/
theorem EndsAt.split {ended : CursorDecoder} (ends : EndsAt wire decoder ended)
    (running : decoder.completed = false) : ∃ front events, decoder.buffer = front ++ ended.buffer ∧
      drain wire { decoder with buffer := front } = ({ ended with buffer := [] }, events) ∧
      drain wire decoder = ((drain wire ended).1, events ++ (drain wire ended).2) ∧ ended.completed = true := by
  induction ends with
  | @here decoder flags payload rest head final clean =>
    obtain ⟨bytes, split, -, read⟩ := cursorHead_frame head
    have alone := read []
    rw [append_nil] at alone
    have taken (buffer : Bytes) := takeFrame_ends wire
      (show ({ decoder with buffer := buffer } : CursorDecoder).completed = false from running)
      final clean
    refine ⟨bytes, (complete { decoder with buffer := rest }).2, split, ?_, ?_, rfl⟩
    · rw [drain_goes wire { decoder with buffer := bytes } alone (by rw [taken]), taken]
      rfl
    · rw [drain_goes wire _ head (by rw [taken]), taken]
      rfl
  | @later decoder ended flags payload rest head data goes behind ih =>
    obtain ⟨bytes, split, -, read⟩ := cursorHead_frame head
    have kept := takeFrame_buffer wire { decoder with buffer := rest } flags payload
    obtain ⟨front, events, divided, alone, whole, done⟩ := ih (takeFrame_goes wire running data goes)
    have unheard := takeFrame_over wire { decoder with buffer := rest } flags payload front
    refine ⟨bytes ++ front, (takeFrame wire { decoder with buffer := rest } flags payload).1.2 ++ events, ?_, ?_, ?_, done⟩
    · rw [split, append_assoc, ← divided, kept]
    · rw [drain_goes wire { decoder with buffer := bytes ++ front } (read front) (by rw [unheard]; exact goes), unheard,
        followed]
      dsimp only
      rw [alone]
    · rw [drain_goes wire _ head goes, followed, whole, append_assoc]

def drainThen (decoder : CursorDecoder) (chunk : Bytes) : CursorDecoder × List CodexEvent :=
  (((drain wire decoder).1.decode wire chunk).1, (drain wire decoder).2 ++ ((drain wire decoder).1.decode wire chunk).2)

/-- A stream cut in two, at any byte. -/
theorem drain_cut (decoder : CursorDecoder) (chunk more : Bytes) (running : decoder.completed = false)
    (unheard : Unheard wire { decoder with buffer := decoder.buffer ++ (chunk ++ more) }) :
    Agree completed (drain wire { decoder with buffer := decoder.buffer ++ chunk }) (drainThen wire decoder chunk) := by
  refine (drains wire).cut (fun done => decode_completed wire done chunk)
    (fun after => { after with buffer := after.buffer ++ chunk }) (fun _ => rfl)
    (fun after => after.completed = false ∧ Unheard wire { after with buffer := after.buffer ++ (chunk ++ more) } ∨
      Agree completed (drain wire { after with buffer := after.buffer ++ chunk }) (drainThen wire after chunk))
    ?_ decoder (.inl ⟨running, unheard⟩)
  intro after fits
  obtain ⟨running, unheard⟩ | known := fits
  on_goal 2 => exact .inl known
  by_cases waits : cursorHead after.buffer = .waiting
  · exact .inl ((drains wire).waits (by rw [frameRound, waits]) (decode_running wire running chunk))
  refine .inr ⟨frameRound_append wire chunk waits, ?_⟩
  unfold frameRound
  cases head : cursorHead after.buffer with
  | waiting => exact absurd head waits
  | oversized => rfl
  | frame flags payload rest =>
    obtain ⟨bytes, split, -, read⟩ := cursorHead_frame head
    have longer : cursorHead (after.buffer ++ (chunk ++ more)) = .frame flags payload (rest ++ (chunk ++ more)) := by
      rw [split, append_assoc]
      exact read _
    have open' : ({ after with buffer := rest } : CursorDecoder).completed = false := running
    have same := takeFrame_over wire { after with buffer := rest } flags payload (rest ++ (chunk ++ more))
    have kept := takeFrame_buffer wire { after with buffer := rest } flags payload
    dsimp only
    split
    next goes =>
      by_cases final : flags &&& 2 ≠ 0
      · have clean := takeFrame_final wire final goes
        have behind := unheard _ (.here longer final clean)
        rw [takeFrame_ends wire open' final clean]
        have none := @drain_quiet wire (complete { after with buffer := rest }).1 (chunk ++ more) behind
        have part := @drain_quiet wire (complete { after with buffer := rest ++ chunk }).1 more (by
          rw [← append_assoc] at behind
          exact behind)
        have done := @drain_completed wire (complete { after with buffer := rest }).1 rfl
        refine .inr ⟨?_, .inr ⟨drain_completed wire rfl, ?_⟩⟩
        · rw [drainThen, decode_completed wire done, none]
          exact part
        · rw [drainThen, decode_completed wire done]
          exact done
      · refine .inl ⟨takeFrame_goes wire open' final goes, fun ended ends => unheard ended (.later longer final ?_ ?_)⟩
        · rw [same]
          exact goes
        · rw [same]
          rw [kept] at ends
          exact ends
    next stops => exact takeFrame_stops wire (Bool.eq_false_iff.mpr stops)

theorem takeFrame_turns (running : decoder.completed = false)
    (flags : UInt8) (payload : Bytes) : Turning completed decoder (takeFrame wire decoder flags payload).1 := by
  unfold takeFrame
  split
  · split
    · exact turning_terminal running rfl rfl
    · rw [running]
      exact turning_terminal running rfl rfl
  · split
    · exact .refl _
    next message _ =>
      obtain ⟨kept, plain⟩ | ⟨closed, event, terminal, single⟩ := (decodeMessage_handles wire message).settles
      · exact turning_plain kept plain running
      · have turns := turning_terminal running closed terminal
        rwa [← single] at turns

theorem drain_turns (running : decoder.completed = false) (unheard : Unheard wire decoder) :
    Turning completed decoder (drain wire decoder) := by
  revert running unheard
  refine (drains wire).rule (fun decoder => decoder.completed = false → Unheard wire decoder →
    Turning completed decoder (drain wire decoder)) ?_ ?_ decoder
  · intro decoder outcome taken running unheard
    rw [drain, (drains wire).stop taken]
    simp only [frameRound] at taken
    split at taken
    · cases taken
      exact .refl _
    · cases taken
      exact turning_terminal running rfl rfl
    next flags payload rest head =>
      split at taken <;> cases taken
      exact @takeFrame_turns wire { decoder with buffer := rest } running flags payload
  · intro decoder next outputs taken ih running unheard
    rw [drain, (drains wire).go taken]
    simp only [frameRound] at taken
    split at taken
    · cases taken
    · cases taken
    next flags payload rest head =>
      have open' : ({ decoder with buffer := rest } : CursorDecoder).completed = false := running
      split at taken <;> cases taken
      next goes =>
        refine (takeFrame_turns wire open' flags payload).append ?_
        by_cases final : flags &&& 2 ≠ 0
        · have clean := takeFrame_final wire final goes
          change Turning completed _ (drain wire _)
          rw [takeFrame_ends wire open' final clean, Turning, unheard _ (.here head final clean), drain_completed wire rfl]
          exact .silent
        · exact ih (takeFrame_goes wire open' final goes) (fun ended ends => unheard ended (.later head final goes ends))

theorem EndsAt.short {ended : CursorDecoder} (ends : EndsAt wire decoder ended)
    (within : ¬ Overruns decoder.buffer) : ended.buffer.length < 5 := by
  induction ends with
  | here head final clean =>
    by_contra long
    exact within (.here (cursorFrame_of_head head) final (Nat.le_of_not_lt long))
  | later head data goes behind ih =>
    refine ih fun beyond => within (.later (cursorFrame_of_head head) data ?_)
    rwa [takeFrame_buffer] at beyond

/-- Where no header stands behind the end-of-stream frame, nothing is decoded behind it. -/
theorem decode_turns (decoder : CursorDecoder) (bytes : Bytes) (within : ¬ Overruns (decoder.buffer ++ bytes)) :
    Turning completed decoder (decoder.decode wire bytes) := by
  cases open' : decoder.completed with
  | true =>
    rw [decode_completed wire open']
    exact .refl _
  | false =>
    rw [decode_running wire open']
    refine @drain_turns wire { decoder with buffer := decoder.buffer ++ bytes } open' ?_
    intro ended ends
    rw [drain_waiting wire ended (if_pos (ends.short wire within))]

def transcript (chunks : List Bytes) : List CodexEvent :=
  let read := emitAll (decode wire) new chunks
  read.2 ++ read.1.finish.2

theorem transcript_flatten {chunks : List Bytes} (unheard : Unheard wire { new with buffer := chunks.flatten }) :
    transcript wire chunks = transcript wire [chunks.flatten] := by
  have agree : Agree completed (decode wire new chunks.flatten)
      (emitAll (decode wire) new chunks) := by
    refine emitAll_chunks (fun _ bytes done => decode_completed wire done bytes) ?_ ?_
      (prefix_rfl : chunks.flatten <+: chunks.flatten)
    · exact drain_waiting wire new rfl
    · rintro front chunk ⟨rest, whole⟩
      rw [← whole, append_assoc] at unheard
      exact drain_cut wire { new with buffer := front } chunk rest rfl unheard
  have single : emitAll (decode wire) new [chunks.flatten] = decode wire new chunks.flatten := by
    rw [emitAll_cons, emitAll_nil, append_nil]
  unfold transcript
  rw [single]
  dsimp only
  rcases agree.2 with same | ⟨done, done'⟩
  · rw [agree.1, same]
  · rw [agree.1, finish, if_pos done', finish, if_pos done]

/-- Nothing in a stream follows its end: all cuts give the same events, the last
of them and no other is terminal, and what follows a completed front is silent. -/
structure Coherent (stream : Bytes) : Prop where
  cuts : ∀ first second : List Bytes, first.flatten = stream → second.flatten = stream →
    transcript wire first = transcript wire second
  terminal : ∀ chunks : List Bytes, chunks.flatten = stream →
    EndsOnce CodexEvent.isTerminal (transcript wire chunks)
  silent : ∀ (chunks : List Bytes) (front back : Bytes), chunks.flatten = stream →
    front ++ back = stream → (decode wire new front).1.completed = true →
      transcript wire chunks = (decode wire new front).2

theorem transcript_completed {front : Bytes} (back : Bytes) (done : (decode wire new front).1.completed = true) :
    transcript wire [front, back] = (decode wire new front).2 := by
  simp only [transcript, emitAll_cons, emitAll_nil, decode_completed wire done, append_nil, finish, if_pos done]

theorem coherent_iff_unheard (stream : Bytes) : Coherent wire stream ↔ Unheard wire { new with buffer := stream } := by
  constructor
  · intro holds ended ends
    obtain ⟨front, events, split, alone, whole, done⟩ := ends.split wire rfl
    have first : decode wire new front = ({ ended with buffer := [] }, events) := alone
    have second : decode wire new stream = ((drain wire ended).1, events ++ (drain wire ended).2) := whole
    have closed : (decode wire new front).1.completed = true := by
      rw [first]
      exact done
    have inTwo := transcript_completed wire ended.buffer closed
    have inOne : transcript wire [stream] = events ++ (drain wire ended).2 := by
      simp only [transcript, emitAll_cons, emitAll_nil, second, append_nil, finish, if_pos (drain_completed wire done)]
    have cut : [front, ended.buffer].flatten = stream := by
      rw [flatten_cons, flatten_singleton]
      exact split.symm
    have same := holds.cuts [front, ended.buffer] [stream] cut (flatten_singleton)
    rw [inTwo, inOne, first] at same
    exact self_eq_append_right.mp same
  · intro unheard
    have inOne {chunks : List Bytes} (cut : chunks.flatten = stream) :
        transcript wire chunks = transcript wire [stream] := by
      subst cut
      exact transcript_flatten wire unheard
    refine ⟨?_, ?_, ?_⟩
    · intro first second cutFirst cutSecond
      rw [inOne cutFirst, inOne cutSecond]
    · intro chunks cut
      have turns := drain_turns wire rfl unheard
      have read : transcript wire [stream] = (drain wire { new with buffer := stream }).2 ++
          (drain wire { new with buffer := stream }).1.finish.2 := by
        have whole : decode wire new stream = drain wire { new with buffer := stream } := rfl
        simp only [transcript, emitAll_cons, emitAll_nil, append_nil, whole]
      rw [inOne cut, read]
      exact (turns.append (finish_turns _)).endsOnce
    · intro chunks front back cut split done
      have two : [front, back].flatten = stream := by
        rw [flatten_cons, flatten_singleton]
        exact split
      rw [inOne cut, ← inOne two, transcript_completed wire back done]

/-- The reply a message asks for finds no queue, or room in it. -/
def Takes (decoder : CursorDecoder) : Prop :=
  ∀ accepts, wire.accepts = some accepts → accepts decoder.replies.length = true

/-- A server message without an event: an empty text, a tool that is open already, a request
whose reply fits, or one of the messages that only count or are ignored. -/
def Mute (decoder : CursorDecoder) : Option AgentServerMessage → Prop
  | some (.interactionUpdate (some (.textDelta text))) | some (.interactionUpdate (some (.thinkingDelta text))) =>
    text.isEmpty = true
  | some (.interactionUpdate (some (.toolCallStarted callId _)))
  | some (.interactionUpdate (some (.toolCallCompleted callId _))) => decoder.openTools.contains callId = true
  | some (.interactionUpdate (some (.partialToolCall ..))) | some (.interactionUpdate (some (.turnEnded _))) => False
  | some (.kvServerMessage _ request) => request.isSome = true → Takes wire decoder
  | some (.execServerMessage _ _ requestsContext) => requestsContext = true → Takes wire decoder
  | none | some (.interactionUpdate none) | some (.interactionUpdate (some (.tokenDelta _)))
  | some .conversationCheckpointUpdate => True

/-- The frames in the buffer of a decoder that has ended: end-of-stream frames without an
error and frames that cannot be read, up to the first server message, which is mute, or to
a frame that is not whole. No header is oversized. -/
inductive Silent : CursorDecoder → Prop where
  | waiting {decoder : CursorDecoder} (head : cursorHead decoder.buffer = .waiting) : Silent decoder
  | ended {decoder : CursorDecoder} {flags : UInt8} {payload rest : Bytes}
      (head : cursorHead decoder.buffer = .frame flags payload rest) (final : flags &&& 2 ≠ 0)
      (clean : endError wire payload = none) (behind : Silent { decoder with buffer := rest }) : Silent decoder
  | unread {decoder : CursorDecoder} {flags : UInt8} {payload rest : Bytes} {error : String}
      (head : cursorHead decoder.buffer = .frame flags payload rest) (data : ¬ flags &&& 2 ≠ 0)
      (garbled : wire.serverMessage payload = .error error) (behind : Silent { decoder with buffer := rest }) :
      Silent decoder
  | mute {decoder : CursorDecoder} {flags : UInt8} {payload rest : Bytes} {message : Option AgentServerMessage}
      (head : cursorHead decoder.buffer = .frame flags payload rest) (data : ¬ flags &&& 2 ≠ 0)
      (read : wire.serverMessage payload = .ok message) (mute : Mute wire decoder message) : Silent decoder

/-- Behind its first end-of-stream frame the stream is silent. -/
def Quiet (decoder : CursorDecoder) : Prop :=
  ∀ ended, EndsAt wire decoder ended → Silent wire ended

theorem sendReply_mute (reply : AgentClientMessage) : (decoder.sendReply wire reply).2 = [] ↔ Takes wire decoder := by
  unfold sendReply Takes
  cases wire.accepts with
  | none => simp
  | some accepts =>
    dsimp only
    split <;> simp_all [fail]

theorem startTool_mute (callId : String) (tool : Option ToolCall) :
    (decoder.startTool callId tool).2 = [] ↔ decoder.openTools.contains callId = true := by
  unfold startTool
  split <;> simp_all

theorem startTool_opens (callId : String) (tool : Option ToolCall) :
    callId ∈ (decoder.startTool callId tool).1.openTools := by
  unfold startTool
  split
  next known => exact known
  next => exact Std.ExtTreeMap.mem_insert_self

theorem decodeMessage_mute (message : Option AgentServerMessage) :
    (decoder.decodeMessage wire message).2 = [] ↔ Mute wire decoder message := by
  unfold Mute
  split
  · simp [decodeMessage, decodeUpdate]
  · simp [decodeMessage, decodeUpdate]
  · exact startTool_mute _ _
  · exact startTool_mute _ _
  next callId tool delta =>
    have opened := @startTool_opens decoder callId tool
    simp [decodeMessage, decodeUpdate, Std.ExtTreeMap.getElem?_eq_some_getElem opened]
  · simp [decodeMessage, decodeUpdate]
  next id request =>
    cases request with
    | none => simp [decodeMessage, replyToKv]
    | some request => cases request <;> simp [decodeMessage, replyToKv, sendReply_mute]
  next id execId asks => cases asks <;> simp [decodeMessage, replyToExec, sendReply_mute]
  all_goals simp [decodeMessage, decodeUpdate]

/-- A decoder that has ended says nothing more exactly if its frames are silent. -/
theorem drain_silent (done : decoder.completed = true) : (drain wire decoder).2 = [] ↔ Silent wire decoder := by
  revert done
  refine (drains wire).rule (fun decoder => decoder.completed = true → ((drain wire decoder).2 = [] ↔ Silent wire decoder))
    ?_ ?_ decoder
  · intro decoder outcome taken done
    rw [drain, (drains wire).stop taken]
    simp only [frameRound, takeFrame] at taken
    split at taken
    next head =>
      cases taken
      exact iff_of_true rfl (.waiting head)
    next head =>
      cases taken
      refine iff_of_false (by simp [fail]) fun silent => ?_
      cases silent <;> simp_all
    next flags payload rest head =>
      have apart (message : Option AgentServerMessage) : (decodeMessage wire { decoder with buffer := rest } message).2 =
          (decoder.decodeMessage wire message).2 := by
        rw [(decodeMessage_handles wire message).apart]
      by_cases final : flags &&& 2 ≠ 0
      · simp only [if_pos final] at taken
        split at taken <;> cases taken
        refine iff_of_false (by simp [fail]) fun silent => ?_
        cases silent <;> simp_all
      · simp only [if_neg final] at taken
        cases read : wire.serverMessage payload with
        | error _ => simp [read] at taken
        | ok message =>
          simp only [read] at taken
          split at taken <;> cases taken
          rw [apart, decodeMessage_mute]
          refine ⟨.mute head final read, fun silent => ?_⟩
          cases silent <;> simp_all
  · intro decoder next outputs taken ih done
    rw [drain, (drains wire).go taken]
    simp only [frameRound, takeFrame] at taken
    split at taken
    · cases taken
    · cases taken
    next flags payload rest head =>
      by_cases final : flags &&& 2 ≠ 0
      · simp only [if_pos final] at taken
        cases clean : endError wire payload with
        | some message => simp [clean] at taken
        | none =>
          simp only [clean, if_pos done, if_true] at taken
          cases taken
          refine (ih done).trans ⟨.ended head final clean, fun silent => ?_⟩
          cases silent <;> simp_all
      · simp only [if_neg final] at taken
        cases read : wire.serverMessage payload with
        | error _ =>
          simp only [read, if_true] at taken
          cases taken
          refine (ih done).trans ⟨.unread head final read, fun silent => ?_⟩
          cases silent <;> simp_all
        | ok message =>
          have closed := @decodeMessage_completed wire { decoder with buffer := rest } done message
          simp [read, closed] at taken

theorem EndsAt.completed {ended : CursorDecoder} (ends : EndsAt wire decoder ended) : ended.completed = true := by
  induction ends with
  | here => rfl
  | later _ _ _ _ ih => exact ih

/-- A stream means the same in every cut, and ends in its one terminal event, exactly if the
frames behind its first end-of-stream frame are silent. -/
theorem coherent_iff_quiet (stream : Bytes) : Coherent wire stream ↔ Quiet wire { new with buffer := stream } :=
  (coherent_iff_unheard wire stream).trans
    (forall_congr' fun _ => forall_congr' fun ends => drain_silent wire (ends.completed wire))

namespace Sample

def endFrame : Bytes := [2, 0, 0, 0, 0]

def textFrame : Bytes := [0, 0, 0, 0, 1, 7]

def lateText : CursorWire where
  serde := { fromSlice := fun _ => .error "no text", formatFloat := fun _ => "" }
  serverMessage payload :=
    if payload = [7] then .ok (some (.interactionUpdate (some (.textDelta "late")))) else .error ""
  osVersion := ""
  shell := none
  accepts := none

/-- In one chunk with the end-of-stream frame the text is heard behind the
terminal event, in a chunk of its own it is not. -/
theorem text_behind_end_heard :
    (transcript lateText [endFrame ++ textFrame]).map CodexEvent.isTerminal = [true, false] ∧
      (transcript lateText [endFrame, textFrame]).map CodexEvent.isTerminal = [true] ∧
      ¬ Coherent lateText (endFrame ++ textFrame) := by
  have one : (transcript lateText [endFrame ++ textFrame]).map CodexEvent.isTerminal = [true, false] := by
    decide +kernel
  have two : (transcript lateText [endFrame, textFrame]).map CodexEvent.isTerminal = [true] := by
    decide +kernel
  refine ⟨one, two, fun holds => ?_⟩
  have same := holds.cuts [endFrame ++ textFrame] [endFrame, textFrame] rfl rfl
  rw [same] at one
  cases one

end Sample
end CursorDecoder
end Mahoquot.Compat
