import Mahoquot.Compat.DevinCallProperties
import Mathlib.Data.List.Induction

/-! A Devin stream read as one byte string. A run over chunks is a run over the frames of
the whole stream with one exception: bytes behind the end-of-stream frame are noticed
before that frame is read when they share its chunk, and after it when they do not. -/

set_option autoImplicit false

namespace Mahoquot.Compat
open Library List
variable {bytes : Bytes}

inductive FrameRead where
  | incomplete
  | oversized (len : Nat)
  | whole (flags : UInt8) (payload rest : Bytes)
deriving Repr, DecidableEq

def readFrame (stream : Bytes) : FrameRead :=
  let len := u32FromBeBytes ((stream.drop 1).take 4)
  if stream.length < 5 then .incomplete
  else if len > maxFrameSize then .oversized len
  else if stream.length < 5 + len then .incomplete
  else .whole (stream.headD 0) ((stream.take (5 + len)).drop 5) (stream.drop (5 + len))

variable (extra : Bytes) {stream payload rest : Bytes} {flags : UInt8}

theorem headD_append (header : 5 ≤ stream.length) : (stream ++ extra).headD 0 = stream.headD 0 := by
  cases stream with
  | nil => simp at header
  | cons byte stream => rfl

theorem len_append (header : 5 ≤ stream.length) : ((stream ++ extra).drop 1).take 4 = (stream.drop 1).take 4 := by
  rw [drop_append_of_le_length (by omega), take_append_of_le_length (by simp; omega)]

structure Frame (flags : UInt8) (payload frame : Bytes) : Prop where
  flags : frame.headD 0 = flags
  small : u32FromBeBytes ((frame.drop 1).take 4) ≤ maxFrameSize
  length : frame.length = 5 + u32FromBeBytes ((frame.drop 1).take 4)
  payload : frame.drop 5 = payload

theorem readFrame_eq_whole :
    readFrame stream = .whole flags payload rest ↔ ∃ front, stream = front ++ rest ∧ Frame flags payload front := by
  simp only [readFrame]
  constructor
  · intro whole
    split at whole
    · cases whole
    split at whole
    · cases whole
    split at whole
    · cases whole
    cases whole
    generalize lenEq : u32FromBeBytes ((stream.drop 1).take 4) = len at *
    have length : (stream.take (5 + len)).length = 5 + len := by
      rw [length_take]
      omega
    have five : 5 ≤ (stream.take (5 + len)).length := by omega
    have cut := len_append (stream.drop (5 + len)) five
    have first := headD_append (stream.drop (5 + len)) five
    rw [take_append_drop] at cut first
    rw [cut] at lenEq
    exact ⟨_, (take_append_drop _ _).symm, first.symm, by omega, by omega, rfl⟩
  · rintro ⟨front, rfl, frame⟩
    have length := frame.length
    rw [len_append rest (by omega), headD_append rest (by omega), frame.flags]
    have small := frame.small
    rw [length_append, if_neg (by omega), if_neg (by omega), if_neg (by omega), ← length, take_left, drop_left, frame.payload]

theorem readFrame_append (whole : readFrame stream = .whole flags payload rest) :
    readFrame (stream ++ extra) = .whole flags payload (rest ++ extra) := by
  obtain ⟨front, rfl, frame⟩ := readFrame_eq_whole.1 whole
  exact readFrame_eq_whole.2 ⟨front, append_assoc .., frame⟩

theorem readFrame_append_oversized {len : Nat} (oversized : readFrame stream = .oversized len) :
    readFrame (stream ++ extra) = .oversized len ∧ (stream ++ extra).take 5 = stream.take 5 := by
  simp only [readFrame] at oversized
  split at oversized
  · cases oversized
  next header =>
    split at oversized
    next large =>
      cases oversized
      have header : 5 ≤ stream.length := by omega
      simp only [readFrame, len_append extra header]
      rw [if_neg (by simp; omega), if_pos large]
      exact ⟨rfl, take_append_of_le_length header⟩
    · split at oversized <;> cases oversized

theorem length_rest (whole : readFrame stream = .whole flags payload rest) : rest.length < stream.length := by
  obtain ⟨front, rfl, frame⟩ := readFrame_eq_whole.1 whole
  rw [length_append, frame.length]
  omega

namespace DevinDecoder

def drained (decoder : DevinDecoder) : DevinDecoder := { decoder with buf := [] }

def tooLarge (len : Nat) : String :=
  "connect frame too large: " ++ toString len ++ " bytes > " ++ toString maxFrameSize

/-- Read a stream frame by frame; `decoder` has nothing buffered of it. -/
def consume (wire : DevinWire) (decoder : DevinDecoder) (stream : Bytes) : DevinDecoder × List CodexEvent :=
  match _read : readFrame stream with
  | .incomplete => ({ decoder with buf := stream }, [])
  | .oversized len => fail { decoder with buf := stream.take 5 } (tooLarge len)
  | .whole flags payload rest =>
    if flags = 0 then
      let decoded := decoder.drained.decodeData wire payload
      if decoded.1.failed then decoded
      else
        let later := consume wire decoded.1 rest
        (later.1, decoded.2 ++ later.2)
    else if flags = 2 then
      if rest.isEmpty then decoder.drained.decodeEndStream wire payload
      else decoder.drained.fail trailing
    else decoder.drained.fail "connect frame uses unnegotiated compression (flags != 0/2)"
termination_by stream.length
decreasing_by exact length_rest (by assumption)

/-- A decoder between chunks that has not ended: it holds less than a frame. -/
structure Waiting (decoder : DevinDecoder) : Prop where
  unfailed : decoder.failed = false
  unterminated : decoder.outcome.terminated = false
  partway : readFrame decoder.buf = .incomplete

theorem readFrame_nil : readFrame [] = .incomplete := rfl

theorem readFrame_incomplete (incomplete : readFrame stream = .incomplete)
    (header : 5 ≤ stream.length) : u32FromBeBytes ((stream.drop 1).take 4) ≤ maxFrameSize ∧
      stream.length < 5 + u32FromBeBytes ((stream.drop 1).take 4) := by
  simp only [readFrame] at incomplete
  rw [if_neg (by omega)] at incomplete
  split at incomplete
  · cases incomplete
  next small =>
    split at incomplete
    next short => exact ⟨by omega, short⟩
    · cases incomplete

theorem header_fits {buf header : Bytes} (partway : readFrame buf = .incomplete)
    (headerEq : buf ++ bytes.take (5 - buf.length) = header) (enough : 5 ≤ header.length) :
    (u32FromBeBytes ((header.drop 1).take 4) > maxFrameSize → header.length = 5) ∧
      (u32FromBeBytes ((header.drop 1).take 4) ≤ maxFrameSize →
        header.length ≤ 5 + u32FromBeBytes ((header.drop 1).take 4)) := by
  by_cases buffered : 5 ≤ buf.length
  · have same : header = buf := by
      rw [← headerEq, Nat.sub_eq_zero_of_le buffered, take_zero, append_nil]
    obtain ⟨small, short⟩ := readFrame_incomplete partway buffered
    rw [same]
    exact ⟨fun large => absurd small (Nat.not_le_of_gt large), fun _ => Nat.le_of_lt short⟩
  · have five : header.length = 5 := by
      rw [← headerEq] at enough ⊢
      simp only [length_append, length_take] at enough ⊢
      omega
    exact ⟨fun _ => five, fun _ => by omega⟩

variable {decoder : DevinDecoder}

variable (wire : DevinWire)

/-- One round of the loop takes the first frame of what is buffered and what came. -/
theorem decodeLoop_succ (waiting : decoder.Waiting) (fuel : Nat) (more : bytes ≠ []) :
    decodeLoop wire (fuel + 1) decoder bytes =
      match readFrame (decoder.buf ++ bytes) with
      | .incomplete => ({ decoder with buf := decoder.buf ++ bytes }, [])
      | .oversized len => fail { decoder with buf := (decoder.buf ++ bytes).take 5 } (tooLarge len)
      | .whole flags payload rest =>
        if flags = 0 then
          let decoded := decoder.drained.decodeData wire payload
          let later := decodeLoop wire fuel decoded.1 rest
          (later.1, decoded.2 ++ later.2)
        else if flags = 2 then
          if rest.isEmpty then decoder.drained.decodeEndStream wire payload
          else decoder.drained.fail trailing
        else decoder.drained.fail "connect frame uses unnegotiated compression (flags != 0/2)" := by
  obtain ⟨buf, nextBlock, tools, outcome, failed, finished⟩ := decoder
  obtain ⟨unfailed, unterminated, partway⟩ := waiting
  simp only at unfailed unterminated partway
  subst unfailed
  have nonempty : bytes.isEmpty = false := by simpa using more
  simp only [decodeLoop, nonempty, unterminated, Bool.or_self, Bool.false_eq_true, if_false]
  generalize headerEq : buf ++ bytes.take (5 - buf.length) = header
  generalize bodyEq : bytes.drop (5 - buf.length) = body
  have joined : buf ++ bytes = header ++ body := by
    rw [← headerEq, ← bodyEq, append_assoc, take_append_drop]
  have headerLength : header.length = buf.length + min (5 - buf.length) bytes.length := by
    rw [← headerEq]; simp
  rw [joined]
  by_cases short : header.length < 5
  · have whole : body = [] := by
      rw [← bodyEq]
      exact drop_eq_nil_of_le (by omega)
    have incomplete : readFrame header = .incomplete := by
      simp only [readFrame]
      rw [if_pos short]
    rw [whole, append_nil, incomplete, if_pos short]
  · have enough : 5 ≤ header.length := by omega
    have fits := header_fits partway headerEq enough
    generalize lenEq : u32FromBeBytes ((header.drop 1).take 4) = len at fits ⊢
    rw [if_neg short]
    by_cases large : len > maxFrameSize
    · have oversized : readFrame (header ++ body) = .oversized len := by
        simp only [readFrame, len_append body enough, lenEq]
        rw [if_neg (by simp; omega), if_pos large]
      have cut : (header ++ body).take 5 = header := by
        rw [take_append_of_le_length enough, take_of_length_le (Nat.le_of_eq (fits.1 large))]
      rw [if_pos large, oversized]
      simp only [cut]
      rfl
    · have fits := fits.2 (by omega)
      have frameEq : header ++ body.take (5 + len - header.length) =
          (header ++ body).take (5 + len) := by
        rw [take_append, take_of_length_le fits]
      have restEq : body.drop (5 + len - header.length) = (header ++ body).drop (5 + len) := by
        rw [drop_append, drop_eq_nil_of_le fits, nil_append]
      rw [if_neg large, frameEq, restEq, take_take, Nat.min_self]
      by_cases cut : (header ++ body).length < 5 + len
      · have incomplete : readFrame (header ++ body) = .incomplete := by
          simp only [readFrame, len_append body enough, lenEq]
          rw [if_neg (by simp; omega), if_neg large, if_pos cut]
        rw [incomplete, if_pos (by simp only [length_take]; omega), take_of_length_le (by omega)]
      · have whole : readFrame (header ++ body) = .whole (header.headD 0)
            (((header ++ body).take (5 + len)).drop 5) ((header ++ body).drop (5 + len)) := by
          simp only [readFrame, len_append body enough, lenEq, headD_append body enough]
          rw [if_neg (by simp; omega), if_neg large, if_neg cut]
        have drainedBuf : ((header ++ body).take (5 + len)).drop (5 + len) = [] :=
          drop_eq_nil_of_le (by simp only [length_take]; omega)
        rw [whole, if_neg (by simp only [length_take]; omega), drainedBuf]
        dsimp only
        cases ((header ++ body).drop (5 + len)).isEmpty <;> rfl

theorem decodeLoop_failed (fuel : Nat) (failed : decoder.failed = true) (bytes : Bytes) :
    decodeLoop wire fuel decoder bytes = (decoder, []) := by
  cases fuel with
  | zero => rfl
  | succ fuel => simp [decodeLoop, failed]

theorem decodeLoop_nil (fuel : Nat) (decoder : DevinDecoder) : decodeLoop wire fuel decoder [] = (decoder, []) := by
  cases fuel with
  | zero => rfl
  | succ fuel => rfl

theorem consume_incomplete (decoder : DevinDecoder) (read : readFrame stream = .incomplete) :
    consume wire decoder stream = ({ decoder with buf := stream }, []) := by
  rw [consume]
  split <;> simp_all

theorem consume_oversized (decoder : DevinDecoder) {len : Nat} (read : readFrame stream = .oversized len) :
    consume wire decoder stream = fail { decoder with buf := stream.take 5 } (tooLarge len) := by
  rw [consume]
  split <;> simp_all

theorem consume_whole (decoder : DevinDecoder) (read : readFrame stream = .whole flags payload rest) :
    consume wire decoder stream =
      if flags = 0 then
        let decoded := decoder.drained.decodeData wire payload
        if decoded.1.failed then decoded
        else
          let later := consume wire decoded.1 rest
          (later.1, decoded.2 ++ later.2)
      else if flags = 2 then
        if rest.isEmpty then decoder.drained.decodeEndStream wire payload
        else decoder.drained.fail trailing
      else decoder.drained.fail "connect frame uses unnegotiated compression (flags != 0/2)" := by
  rw [consume]
  split <;> simp_all

/-- A data frame that does not fail leaves the decoder waiting for the next one. -/
theorem waiting_decodeData (payload : Bytes) (unfailed : decoder.failed = false)
    (unterminated : decoder.outcome.terminated = false)
    (running : (decoder.drained.decodeData wire payload).1.failed = false) :
    (decoder.drained.decodeData wire payload).1.Waiting := by
  have decodes := decodeData_decodes wire decoder.drained unfailed payload
  exact ⟨running, decodes.terminated.trans unterminated, by rw [decodes.buf]; rfl⟩

theorem decodeLoop_eq_consume (fuel : Nat) (waiting : decoder.Waiting)
    (enough : (decoder.buf ++ bytes).length < fuel) :
    decodeLoop wire fuel decoder bytes = consume wire decoder (decoder.buf ++ bytes) := by
  induction fuel generalizing decoder bytes with
  | zero => omega
  | succ fuel ih =>
    by_cases more : bytes = []
    · rw [more, decodeLoop_nil, append_nil, consume_incomplete wire decoder waiting.partway]
    · rw [decodeLoop_succ wire waiting fuel more]
      cases read : readFrame (decoder.buf ++ bytes) with
      | incomplete => rw [consume_incomplete wire decoder read]
      | oversized len => rw [consume_oversized wire decoder read]
      | whole flags payload rest =>
        rw [consume_whole wire decoder read]
        dsimp only
        split
        · split
          next failed => rw [decodeLoop_failed wire fuel failed]; simp
          next running =>
            have next := waiting_decodeData wire payload waiting.unfailed waiting.unterminated (by simpa using running)
            have drained : (decoder.drained.decodeData wire payload).1.buf = [] :=
              (decodeData_decodes wire decoder.drained waiting.unfailed payload).buf
            have shorter := length_rest read
            rw [ih next (by rw [drained, nil_append]; omega), drained, nil_append]
        · rfl

/-- A chunk is read as part of the stream its predecessors left. -/
theorem decode_eq_consume (waiting : decoder.Waiting) (bytes : Bytes) :
    decoder.decode wire bytes = consume wire decoder (decoder.buf ++ bytes) := by
  rw [decode, waiting.unfailed]
  exact decodeLoop_eq_consume wire _ waiting (by simp only [length_append]; omega)

/-- What each kind of frame does, and what two stretches do in a row, a stream does. -/
theorem consume_rule (Holds : DevinDecoder → DevinDecoder × List CodexEvent → Prop)
    (stop : ∀ decoder : DevinDecoder, decoder.failed = false → ∀ buf, Holds decoder ({ decoder with buf }, []))
    (failing : ∀ decoder : DevinDecoder, decoder.failed = false →
      ∀ buf message, Holds decoder (fail { decoder with buf } message))
    (data : ∀ decoder : DevinDecoder, decoder.failed = false →
      ∀ payload, Holds decoder (decoder.drained.decodeData wire payload))
    (final : ∀ decoder : DevinDecoder, decoder.failed = false → decoder.outcome.terminated = false →
      ∀ payload, Holds decoder (decoder.drained.decodeEndStream wire payload))
    (compose : ∀ first second third, Holds first second → Holds second.1 third →
      Holds first (third.1, second.2 ++ third.2)) (decoder : DevinDecoder) (stream : Bytes)
    (running : decoder.failed = false) (unterminated : decoder.outcome.terminated = false) :
    Holds decoder (consume wire decoder stream) := by
  fun_induction consume wire decoder stream with
  | case1 decoder stream read => exact stop decoder running stream
  | case2 decoder stream len read => exact failing decoder running _ _
  | case3 decoder stream payload rest => exact data decoder running payload
  | case4 decoder stream payload rest decoded unfailed later read ih =>
    have next := waiting_decodeData wire payload running unterminated (by simpa using unfailed)
    exact compose _ _ _ (data decoder running payload) (ih next.unfailed next.unterminated)
  | case5 decoder stream payload rest => exact final decoder running unterminated payload
  | case6 | case7 => exact failing _ running [] _

theorem consume_buf (decoder : DevinDecoder) (buf stream : Bytes) :
    consume wire { decoder with buf } stream = consume wire decoder stream := by
  cases read : readFrame stream with
  | incomplete => simp only [consume_incomplete wire _ read]
  | oversized len => simp only [consume_oversized wire _ read]
  | whole flags payload rest =>
    rw [consume_whole wire _ read, consume_whole wire _ read]
    rfl

/-- Bytes follow the end-of-stream frame the decoder reaches. -/
inductive EndsEarly (wire : DevinWire) : DevinDecoder → Bytes → Prop where
  | here {decoder : DevinDecoder} {stream payload rest : Bytes}
      (read : readFrame stream = .whole 2 payload rest) (more : rest ≠ []) :
      EndsEarly wire decoder stream
  | later {decoder : DevinDecoder} {stream payload rest : Bytes}
      (read : readFrame stream = .whole 0 payload rest)
      (running : (decoder.drained.decodeData wire payload).1.failed = false)
      (early : EndsEarly wire (decoder.drained.decodeData wire payload).1 rest) :
      EndsEarly wire decoder stream

theorem EndsEarly.append {wire : DevinWire} (early : EndsEarly wire decoder stream)
    (extra : Bytes) : EndsEarly wire decoder (stream ++ extra) := by
  induction early with
  | here read more => exact .here (readFrame_append extra read) (by simp [more])
  | later read running _ ih => exact .later (readFrame_append extra read) running ih

theorem EndsEarly.fails {wire : DevinWire}
    (early : EndsEarly wire decoder stream) : (consume wire decoder stream).1.failed = true := by
  induction early with
  | here read more => simp [consume_whole wire _ read, more, fail]
  | later read running _ ih => simpa [consume_whole wire _ read, running] using ih

def resume (decoder : DevinDecoder) (extra : Bytes) : DevinDecoder × List CodexEvent :=
  if decoder.failed then (decoder, []) else consume wire decoder (decoder.buf ++ extra)

theorem resume_nil (partway : readFrame decoder.buf = .incomplete) : resume wire decoder [] = (decoder, []) := by
  simp only [resume]
  split
  · rfl
  · rw [append_nil, consume_incomplete wire decoder partway]

theorem resume_failed (failed : decoder.failed = true) (extra : Bytes) : resume wire decoder extra = (decoder, []) := by
  rw [resume, if_pos failed]

/-- An end-of-stream payload that reports success. -/
def EndsWell (payload : Bytes) : Prop :=
  ∃ value fields, wire.serde.fromSlice payload = .ok value ∧ value.asObject = some fields ∧
    ((value.get "error").filter fun error => !error.isNull) = none

def terminate (decoder : DevinDecoder) : DevinDecoder :=
  { decoder with outcome := { decoder.outcome with terminated := true } }

theorem malformed_ne_trailing (error : String) : "malformed EndStream JSON: " ++ error ≠ trailing := by
  intro same
  have first := congrArg (fun text => text.toList.head?) same
  simp [trailing] at first

theorem decodeEndStream_cases (decoder : DevinDecoder) (payload : Bytes)
    (unterminated : decoder.outcome.terminated = false) :
    (EndsWell wire payload ∧ decoder.decodeEndStream wire payload = (decoder.terminate, [])) ∨
      (¬ EndsWell wire payload ∧ ((∃ error, decoder.decodeEndStream wire payload =
            decoder.fail ("malformed EndStream JSON: " ++ error)) ∨
          ∃ error, decoder.decodeEndStream wire payload = decoder.terminate.endWithError error)) := by
  simp only [decodeEndStream, unterminated]
  cases parsed : wire.serde.fromSlice payload with
  | error error => exact .inr ⟨by simp [EndsWell, parsed], .inl ⟨error, rfl⟩⟩
  | ok value =>
    dsimp only
    cases shape : value.asObject with
    | none => exact .inr ⟨by simp [EndsWell, parsed, shape], .inl ⟨"expected object", rfl⟩⟩
    | some fields =>
      cases reported : (value.get "error").filter fun error => !error.isNull with
      | none => exact .inl ⟨⟨value, fields, parsed, shape, reported⟩, rfl⟩
      | some error =>
        refine .inr ⟨?_, .inr ⟨error, rfl⟩⟩
        rintro ⟨other, _, read, _, clean⟩
        cases parsed.symm.trans read
        cases reported.symm.trans clean

theorem decodeEndStream_leaves (decoder : DevinDecoder) (payload : Bytes)
    (unterminated : decoder.outcome.terminated = false) :
    (decoder.decodeEndStream wire payload).1.buf = decoder.buf ∧ ((decoder.decodeEndStream wire payload).1.failed = true ∨
      (decoder.decodeEndStream wire payload).1.outcome.terminated = true) := by
  rcases decodeEndStream_cases wire decoder payload unterminated with
    ⟨_, ended⟩ | ⟨_, ⟨error, ended⟩ | ⟨error, ended⟩⟩ <;> rw [ended]
  · exact ⟨rfl, .inr rfl⟩
  all_goals exact ⟨rfl, .inl rfl⟩

/-- Reading a stream in two parts, the cut anywhere but behind the end frame. -/
theorem consume_append (decoder : DevinDecoder) (stream extra : Bytes)
    (unfailed : decoder.failed = false) (unterminated : decoder.outcome.terminated = false)
    (cut : (consume wire decoder stream).1.Waiting ∨ ¬ EndsEarly wire decoder (stream ++ extra)) :
    consume wire decoder (stream ++ extra) = ((resume wire (consume wire decoder stream).1 extra).1,
        (consume wire decoder stream).2 ++ (resume wire (consume wire decoder stream).1 extra).2) := by
  fun_induction consume wire decoder stream with
  | case1 decoder stream read =>
    rw [resume, if_neg (by simp [unfailed]), consume_buf wire decoder stream, nil_append]
  | case2 decoder stream len read =>
    obtain ⟨longer, header⟩ := readFrame_append_oversized extra read
    rw [consume_oversized wire decoder longer, header, resume_failed wire rfl]
    simp
  | case3 decoder stream payload rest decoded failed read =>
    rw [consume_whole wire decoder (readFrame_append extra read), if_pos rfl, if_pos failed,
      resume_failed wire failed, append_nil]
  | case4 decoder stream payload rest decoded running later read ih =>
    have running : (decoder.drained.decodeData wire payload).1.failed = false := by
      simpa using running
    have next := waiting_decodeData wire payload unfailed unterminated running
    have longer := readFrame_append extra read
    rw [consume_whole wire decoder longer, if_pos rfl, if_neg (by simp [running]), ih next.unfailed next.unterminated ?_]
    · simp [later, decoded]
    · rcases cut with waiting | calm
      · exact .inl waiting
      · exact .inr fun early => calm (.later longer running early)
  | case5 decoder stream payload rest last read =>
    have longer := readFrame_append extra read
    rw [isEmpty_iff.1 last] at longer
    obtain ⟨buf, ends⟩ := decodeEndStream_leaves wire decoder.drained payload unterminated
    have none : extra = [] := by
      rcases cut with waiting | calm
      · simp [waiting.unfailed, waiting.unterminated] at ends
      · by_contra more
        exact calm (.here longer more)
    subst none
    rw [resume_nil wire (by rw [buf]; rfl), consume_whole wire decoder longer]
    simp
  | case6 decoder stream payload rest last read =>
    have further : (rest ++ extra).isEmpty = false := by simp at last; simp [last]
    rw [consume_whole wire decoder (readFrame_append extra read), further, resume_failed wire rfl]
    simp
  | case7 decoder stream flags payload rest read data final =>
    rw [consume_whole wire decoder (readFrame_append extra read), if_neg data, if_neg final,
      resume_failed wire rfl, append_nil]

theorem consume_leaves (decoder : DevinDecoder) (stream : Bytes) (unfailed : decoder.failed = false)
    (unterminated : decoder.outcome.terminated = false) :
    (consume wire decoder stream).1.Waiting ∨ (consume wire decoder stream).1.failed = true ∨
      ((consume wire decoder stream).1.outcome.terminated = true ∧ (consume wire decoder stream).1.buf = [] ∧
        ∀ extra, extra ≠ [] → EndsEarly wire decoder (stream ++ extra)) := by
  fun_induction consume wire decoder stream with
  | case1 decoder stream read => exact .inl ⟨unfailed, unterminated, read⟩
  | case2 | case6 | case7 => exact .inr (.inl rfl)
  | case3 decoder stream payload rest decoded failed => exact .inr (.inl failed)
  | case4 decoder stream payload rest decoded running later read ih =>
    have running : (decoder.drained.decodeData wire payload).1.failed = false := by
      simpa using running
    have next := waiting_decodeData wire payload unfailed unterminated running
    rcases ih next.unfailed next.unterminated with
      waiting | failed | ⟨terminated, drained, early⟩
    · exact .inl waiting
    · exact .inr (.inl failed)
    · exact .inr (.inr ⟨terminated, drained, fun extra more =>
        .later (readFrame_append extra read) running (early extra more)⟩)
  | case5 decoder stream payload rest last read =>
    rw [isEmpty_iff.1 last] at read
    obtain ⟨buf, failed | terminated⟩ := decodeEndStream_leaves wire decoder.drained payload unterminated
    · exact .inr (.inl failed)
    · exact .inr (.inr ⟨terminated, buf, fun extra more =>
        .here (readFrame_append extra read) (by simpa using more)⟩)

theorem waiting_new : new.Waiting := ⟨rfl, rfl, rfl⟩

theorem decode_failed (failed : decoder.failed = true) (bytes : Bytes) : decoder.decode wire bytes = (decoder, []) := by
  rw [decode, if_pos failed]

theorem decode_nil (decoder : DevinDecoder) : decoder.decode wire [] = (decoder, []) := by
  rw [decode, decodeLoop_nil, ite_self]

theorem decode_trailing (running : decoder.failed = false)
    (terminated : decoder.outcome.terminated = true) (more : bytes ≠ []) :
    decoder.decode wire bytes = decoder.fail trailing := by
  have nonempty : bytes.isEmpty = false := by simpa using more
  simp only [decode, decodeLoop, running, nonempty, terminated, Bool.or_self, Bool.false_eq_true, if_false, if_true]

theorem decode_terminated (terminated : decoder.outcome.terminated = true)
    (more : bytes ≠ []) : (decoder.decode wire bytes).1 = { decoder with failed := true } := by
  cases failed : decoder.failed with
  | true => rw [decode_failed wire failed, ← failed]
  | false =>
    rw [decode_trailing wire failed terminated more]
    rfl

/-- A run over chunks reads the stream they hold, until one of them goes on
behind the end frame; that chunk fails the decoder. -/
theorem run_eq_consume (chunks : List Bytes) : (¬ EndsEarly wire .new chunks.flatten →
        emitAll (decode wire) .new chunks = consume wire .new chunks.flatten) ∧
      (EndsEarly wire .new chunks.flatten → (emitAll (decode wire) .new chunks).1.failed = true) := by
  induction chunks using reverseRecOn with
  | nil =>
    refine ⟨fun _ => ?_, fun early => ?_⟩
    · rw [flatten_nil, consume_incomplete wire _ readFrame_nil]
      rfl
    · have fails := early.fails
      rw [flatten_nil, consume_incomplete wire _ readFrame_nil] at fails
      cases fails
  | append_singleton chunks chunk ih =>
    rw [flatten_append, flatten_singleton, emitAll_append, emitAll_cons, emitAll_nil]
    simp only [append_nil]
    by_cases before : EndsEarly wire .new chunks.flatten
    · refine ⟨fun calm => absurd (before.append chunk) calm, fun _ => ?_⟩
      have failed := ih.2 before
      rw [decode_failed wire failed]
      exact failed
    · rw [ih.1 before]
      have split := consume_append wire .new chunks.flatten chunk rfl rfl
      rcases consume_leaves wire .new chunks.flatten rfl rfl with
        waiting | failed | ⟨terminated, drained, early⟩
      · have whole := split (.inl waiting)
        have same : decode wire (consume wire .new chunks.flatten).1 chunk =
            resume wire (consume wire .new chunks.flatten).1 chunk := by
          rw [decode_eq_consume wire waiting, resume, if_neg (by simp [waiting.unfailed])]
        rw [same, ← whole]
        refine ⟨fun _ => rfl, fun early => ?_⟩
        have fails := early.fails
        rw [whole] at fails
        exact fails
      · rw [decode_failed wire failed]
        refine ⟨fun calm => ?_, fun _ => failed⟩
        rw [split (.inr calm), resume_failed wire failed]
      · by_cases more : chunk = []
        · subst more
          rw [decode_nil]
          rw [append_nil, append_nil]
          exact ⟨fun _ => rfl, fun early => absurd early before⟩
        · refine ⟨fun calm => absurd (early chunk more) calm, fun _ => ?_⟩
          rw [decode_terminated wire terminated more]

/-- What a caller sees of a stream: the events, the error code and whether an
end-of-stream frame was taken. -/
def transcript (wire : DevinWire) (chunks : List Bytes) : List CodexEvent × Option String × Bool :=
  let run := emitAll (decode wire) .new chunks
  let ended := run.1.finish
  (run.2 ++ ended.2, ended.1.outcome.errorCode, ended.1.outcome.terminated)

theorem finish_outcome (decoder : DevinDecoder) : decoder.finish.1.outcome = decoder.outcome := by
  simp only [finish]
  repeat' split
  all_goals rfl

theorem finish_failed (failed : decoder.failed = true) : decoder.finish = (decoder, []) := by
  simp [finish, failed]

theorem readFrame_front (whole : readFrame stream = .whole flags payload rest) :
    ∃ front, stream = front ++ rest ∧ readFrame front = .whole flags payload [] := by
  obtain ⟨front, joined, frame⟩ := readFrame_eq_whole.1 whole
  exact ⟨front, joined, readFrame_eq_whole.2 ⟨front, (append_nil front).symm, frame⟩⟩

/-- A stream that goes on behind its end frame, cut there. -/
theorem EndsEarly.split {wire : DevinWire} (early : EndsEarly wire decoder stream) (unfailed : decoder.failed = false)
    (unterminated : decoder.outcome.terminated = false) : ∃ front rest events payload, ∃ last : DevinDecoder,
      stream = front ++ rest ∧ rest ≠ [] ∧ last.outcome.terminated = false ∧ consume wire decoder stream =
          ((last.fail trailing).1, events ++ (last.fail trailing).2) ∧ consume wire decoder front =
          ((last.decodeEndStream wire payload).1, events ++ (last.decodeEndStream wire payload).2) := by
  induction early with
  | @here decoder stream payload rest read more =>
    obtain ⟨front, joined, final⟩ := readFrame_front read
    refine ⟨front, rest, [], payload, decoder.drained, joined, more, unterminated, ?_, ?_⟩
    · simp [consume_whole wire _ read, more]
    · simp [consume_whole wire _ final]
  | @later decoder stream payload rest read running _ ih =>
    have next := waiting_decodeData wire payload unfailed unterminated running
    obtain ⟨front, behind, events, final, last, joined, more, unended, whole, cut⟩ := ih next.unfailed next.unterminated
    obtain ⟨first, whole0, alone⟩ := readFrame_front read
    refine ⟨first ++ front, behind, (decoder.drained.decodeData wire payload).2 ++ events, final,
      last, ?_, more, unended, ?_, ?_⟩
    · rw [whole0, joined, append_assoc]
    · simp [consume_whole wire _ read, running, whole]
    · have longer := readFrame_append front alone
      simp [consume_whole wire _ longer, running, cut]

theorem transcript_of_calm (wire : DevinWire) {chunks : List Bytes} (calm : ¬ EndsEarly wire .new chunks.flatten) :
    transcript wire chunks =
      let run := consume wire .new chunks.flatten
      (run.2 ++ run.1.finish.2, run.1.outcome.errorCode, run.1.outcome.terminated) := by
  simp only [transcript, finish_outcome, (run_eq_consume wire chunks).1 calm]

theorem EndsEarly.disagree {wire : DevinWire} (early : EndsEarly wire .new stream) :
    ∃ front rest, stream = front ++ rest ∧ transcript wire [stream] ≠ transcript wire [front, rest] := by
  obtain ⟨front, rest, events, payload, last, joined, more, unended, whole, cut⟩ := early.split rfl rfl
  refine ⟨front, rest, joined, fun same => ?_⟩
  have wholeRun : decode wire .new stream = consume wire .new stream := decode_eq_consume wire waiting_new stream
  have frontRun : decode wire .new front = consume wire .new front := decode_eq_consume wire waiting_new front
  simp only [transcript, finish_outcome, emitAll_cons, emitAll_nil, wholeRun, frontRun, whole, cut, Prod.mk.injEq] at same
  obtain ⟨sameEvents, _, sameTerminated⟩ := same
  rcases decodeEndStream_cases wire last payload unended with
    ⟨_, ended⟩ | ⟨_, ⟨error, ended⟩ | ⟨error, ended⟩⟩
  · rw [ended, decode_terminated wire rfl more] at sameTerminated
    rw [show (last.fail trailing).1.outcome.terminated = false from unended] at sameTerminated
    cases sameTerminated
  · rw [ended, decode_failed wire rfl, finish_failed rfl, finish_failed rfl] at sameEvents
    simp [fail] at sameEvents
    exact malformed_ne_trailing error sameEvents.symm
  · rw [ended] at sameTerminated
    rw [show (last.fail trailing).1.outcome.terminated = false from unended] at sameTerminated
    cases sameTerminated

/-- All chunkings of a stream read the same exactly when nothing follows the end
frame that the decoder reaches. -/
theorem chunkings_agree_iff (wire : DevinWire) (stream : Bytes) :
    (∀ first second : List Bytes, first.flatten = stream → second.flatten = stream →
        transcript wire first = transcript wire second) ↔ ¬ EndsEarly wire .new stream := by
  constructor
  · intro agree early
    obtain ⟨front, rest, joined, differ⟩ := early.disagree
    exact differ (agree [stream] [front, rest] (by simp) (by simp [joined]))
  · intro calm first second whole same
    rw [transcript_of_calm wire (by rw [whole]; exact calm), transcript_of_calm wire (by rw [same]; exact calm), whole, same]

def sampleWire (bytes : Bytes) (message : ChatMessageResponse) : DevinWire where
  serde :=
    { fromSlice := fun payload =>
        if payload = utf8 "\x7b\x7d" then .ok (.object []) else .error "expected value"
      formatFloat := fun _ => "" }
  chatMessage := fun payload =>
    if payload = bytes then .ok message else .error "failed to decode Protobuf message"

/-- One byte behind an end frame: in its chunk it hides the frame. -/
theorem chunkings_disagree : let cut := [[2, 0, 0, 0, 2, 123, 125], [0]]
    transcript (sampleWire [] .empty) [cut.flatten] = ([.failed trailing], none, false) ∧
      transcript (sampleWire [] .empty) cut = ([.failed trailing], none, true) := by
  decide

end DevinDecoder
end Mahoquot.Compat
