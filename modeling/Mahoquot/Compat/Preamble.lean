import Mahoquot.Library.Framing
import Mahoquot.Compat.LossyProperties

/-! The gate that holds back an OpenAI-shaped stream until it has something to say, so that
a request whose answer turns out empty can go to another account. It takes a terminal frame
before one with content for the end, and does not judge a frame that the end leaves open. -/

set_option autoImplicit false

namespace Mahoquot.Compat
open Library

def codexPreambleCap : Nat := 32 * 1024

inductive CodexPreamble where
  | pending
  | served
  | empty
deriving Repr, DecidableEq

def isNonBlank (value : Option Value) : Bool :=
  (value.bind Value.asStr).any fun text => !(Text.trim text).isEmpty

def isNonEmptyStr (value : Option Value) : Bool :=
  (value.bind Value.asStr).any fun text => !text.isEmpty

def partHasContent (part : Value) : Bool :=
  isNonBlank (part.get "content") || isNonBlank (part.get "refusal") ||
    ((part.get "tool_calls").bind Value.asArray).any fun calls => !calls.isEmpty

def choiceHasContent (choice : Value) : Bool :=
  isNonBlank (choice.get "text") ||
    ["delta", "message"].any fun holder => (choice.get holder).any partHasContent

def isFinished (choice : Value) : Bool :=
  (choice.get "finish_reason").any fun reason => !reason.isNull

/-- The loop over the choices: it ends at the first that has content or is finished. -/
def choicesHaveContent : List Value → Bool
  | [] => false
  | choice :: choices =>
    if choiceHasContent choice then true
    else if isFinished choice then false
    else choicesHaveContent choices

def outputHasContent (items : List Value) : Bool :=
  items.any fun item =>
    ((item.get "type").bind Value.asStr) == some "function_call" ||
      ((item.get "content").bind Value.asArray).any fun parts =>
        parts.any fun part => isNonBlank (part.get "text")

def codexFrameHasContent (value : Value) : Option Bool :=
  if value.asStr == some "[DONE]" then some false
  else
    match (value.get "choices").bind Value.asArray with
    | some choices => some (choicesHaveContent choices)
    | none =>
      match (value.get "type").bind Value.asStr with
      | some "response.output_text.delta" => some (isNonEmptyStr (value.get "delta"))
      | some "response.output_item.added" =>
        some (((value.pointer ["item", "type"]).bind Value.asStr) == some "function_call")
      | some "response.function_call_arguments.delta" => some (isNonEmptyStr (value.get "delta"))
      | some "response.reasoning_summary_text.delta" => some false
      | some "response.reasoning_text.delta" => some false
      | some "response.created" => some false
      | some "response.in_progress" => some false
      | some "response.completed" =>
        some (((value.pointer ["response", "output"]).bind Value.asArray).any outputHasContent)
      | some "response.incomplete" => some false
      | some "response.cancelled" => some false
      | some "error" => some true
      | some "response.failed" => some true
      | _ => none

/-- `str::lines`: a carriage return before a line feed belongs to the line ending. -/
def lines (text : List Char) : List (List Char) :=
  let pieces := Text.splitChars (· == '\n') text
  let ended := pieces.dropLast.map fun line =>
    match line.reverse with
    | '\r' :: rest => rest.reverse
    | _ => line
  match pieces.getLast? with
  | some (char :: rest) => ended ++ [char :: rest]
  | _ => ended

def frameData (frame : List Char) : String :=
  String.ofList (((lines frame).filterMap (Text.stripChars? "data:".toList)).flatMap
    fun line => line.dropWhile Text.isWhitespace)

def streamText (buf : Bytes) : List Char :=
  Framing.replacePairs '\r' '\n' '\n' (fromUtf8Lossy buf)

/-- The frames whose delimiter has come, and the piece behind the last of them. -/
def splitFrames (buf : Bytes) : List (List Char) × List Char :=
  Framing.cutPairs '\n' '\n' (streamText buf)

/-- A frame that ends the answer, whatever else it says. -/
def isTerminalFrame (value : Value) : Bool :=
  ((value.get "type").bind Value.asStr).any (fun kind =>
      ["response.completed", "response.incomplete", "response.cancelled"].contains kind) ||
    ((value.get "choices").bind Value.asArray).any fun choices => choices.any isFinished

section Classify
variable (serde : Serde)

/-- The loop over the frames, with whether a terminal one has been seen. -/
def classifyFrames : Bool → List (List Char) → CodexPreamble
  | terminal, [] => if terminal then .empty else .pending
  | terminal, frame :: frames =>
    let trimmed := Text.trim (frameData frame)
    if trimmed.isEmpty then classifyFrames terminal frames
    else if trimmed = "[DONE]" then classifyFrames true frames
    else
      match serde.fromSlice (utf8 trimmed) with
      | .error _ => .served
      | .ok value =>
        if codexFrameHasContent value = some true then .served
        else classifyFrames (terminal || isTerminalFrame value) frames

def classifyCodexPreamble (buf : Bytes) : CodexPreamble :=
  classifyFrames serde false (splitFrames buf).1

/-- What the upstream does next; the end of the list is the end of the stream. -/
inductive Arrival where
  | chunk (bytes : Bytes)
  | failed (message : String)
  /-- The deadline passes before the next chunk. -/
  | elapsed
deriving Repr, DecidableEq

def emptyResponse : String :=
  "empty_response: upstream stream ended without text or tool calls"

/-- What the bytes held so far decide: the bytes released, with the rest of the
stream, or an error. -/
def decided? (buf : Bytes) (arrivals : List Arrival) : Option (Except String (Bytes × List Arrival)) :=
  match classifyCodexPreamble serde buf with
  | .served => some (.ok (buf, arrivals))
  | .empty => some (.error emptyResponse)
  | .pending => if codexPreambleCap ≤ buf.length then some (.ok (buf, arrivals)) else none

def holdCodexPreamble (buf : Bytes) : List Arrival → Except String (Bytes × List Arrival)
  | [] => (decided? serde buf []).getD (.error emptyResponse)
  | .chunk bytes :: rest =>
    (decided? serde buf (.chunk bytes :: rest)).getD (holdCodexPreamble (buf ++ bytes) rest)
  | .failed message :: rest => (decided? serde buf (.failed message :: rest)).getD (.error message)
  | .elapsed :: rest => (decided? serde buf (.elapsed :: rest)).getD (.ok (buf, rest))

end Classify

open List

theorem newline_notMem_junk {tail : List Char} (junk : ∀ char ∈ tail, char = replacement) : '\n' ∉ tail :=
  fun inside => absurd (junk _ inside) (by decide)

/-- A frame that is complete stays so, whatever bytes follow. -/
theorem splitFrames_prefix (buf more : Bytes) : (splitFrames buf).1 <+: (splitFrames (buf ++ more)).1 := by
  obtain ⟨solid, tail, longer, now, later, junk⟩ := fromUtf8Lossy_append buf more
  obtain ⟨text, rest, grown, textNow, textLater, left⟩ :=
    @Framing.replacePairs_append _ _ _ '\r' '\n' '\n' solid longer (newline_notMem_junk junk)
  have clear : '\n' ∉ rest := by
    intro inside
    rcases left _ inside with half | inTail
    · exact absurd half (by decide)
    · exact newline_notMem_junk junk inTail
  rw [splitFrames, streamText, now, textNow, splitFrames, streamText, later, textLater,
    Framing.cutPairs_append_clear text clear]
  exact Framing.cutPairs_prefix text grown

/-- The frames come one at a time: some beginning of the bytes has each number of them. -/
theorem splitFrames_take (buf : Bytes) (count : Nat) : ∃ before behind, buf = before ++ behind ∧
      (splitFrames before).1 = (splitFrames buf).1.take count := by
  obtain ⟨front, back, text, taken⟩ := @Framing.cutPairs_take _ _ '\n' '\n' (streamText buf) count
  obtain ⟨chars, others, read, written⟩ := Framing.replacePairs_lift text
  obtain ⟨before, behind, bytes, lossy⟩ := fromUtf8Lossy_lift read
  refine ⟨before, behind, bytes, ?_⟩
  rw [splitFrames, streamText, lossy, written, taken]
  rfl

section Judge
variable (serde : Serde)

/-- What one frame says to the gate. -/
inductive Judgement where
  | nothing
  | terminal
  | served
deriving Repr, DecidableEq

def judge (frame : List Char) : Judgement :=
  let trimmed := Text.trim (frameData frame)
  if trimmed.isEmpty then .nothing
  else if trimmed = "[DONE]" then .terminal
  else
    match serde.fromSlice (utf8 trimmed) with
    | .error _ => .served
    | .ok value =>
      if codexFrameHasContent value = some true then .served
      else if isTerminalFrame value then .terminal
      else .nothing

/-- A frame with text, a refusal, a tool call or an error. -/
def BearsContent (frame : List Char) : Prop :=
  let trimmed := Text.trim (frameData frame)
  trimmed.isEmpty = false ∧ trimmed ≠ "[DONE]" ∧
    ∃ value, serde.fromSlice (utf8 trimmed) = .ok value ∧ codexFrameHasContent value = some true

variable {serde}

theorem judge_of_bearsContent {frame : List Char} (bears : BearsContent serde frame) : judge serde frame = .served := by
  obtain ⟨some, other, value, parsed, content⟩ := bears
  simp [judge, some, other, parsed, content]

theorem classifyFrames_cons (terminal : Bool) (frame : List Char) (frames : List (List Char)) :
    classifyFrames serde terminal (frame :: frames) =
      match judge serde frame with
      | .nothing => classifyFrames serde terminal frames
      | .terminal => classifyFrames serde true frames
      | .served => .served := by
  rw [classifyFrames, judge]
  split
  · rfl
  · split
    · rfl
    · cases serde.fromSlice (utf8 (Text.trim (frameData frame))) with
      | error _ => rfl
      | ok value =>
        dsimp only
        split
        · rfl
        · cases isTerminalFrame value <;> simp

theorem classifyFrames_eq (terminal : Bool) (frames : List (List Char)) : classifyFrames serde terminal frames =
      if ∃ frame ∈ frames, judge serde frame = .served then .served
      else if terminal = true ∨ ∃ frame ∈ frames, judge serde frame = .terminal then .empty else .pending := by
  induction frames generalizing terminal with
  | nil => simp [classifyFrames]
  | cons frame frames ih =>
    rw [classifyFrames_cons]
    cases judged : judge serde frame <;> simp [ih, judged]

theorem classify_served_iff (buf : Bytes) : classifyCodexPreamble serde buf = .served ↔
      ∃ frame ∈ (splitFrames buf).1, judge serde frame = .served := by
  rw [classifyCodexPreamble, classifyFrames_eq]
  split
  · next served => exact iff_of_true rfl served
  next unserved =>
    refine iff_of_false ?_ unserved
    split <;> decide

theorem classify_empty_iff (buf : Bytes) : classifyCodexPreamble serde buf = .empty ↔
      (¬ ∃ frame ∈ (splitFrames buf).1, judge serde frame = .served) ∧
        ∃ frame ∈ (splitFrames buf).1, judge serde frame = .terminal := by
  rw [classifyCodexPreamble, classifyFrames_eq]
  split
  · next served => exact iff_of_false (by decide) fun claims => claims.1 served
  · next unserved => simp only [unserved, false_or, not_false_eq_true,
      true_and, ite_eq_left_iff, reduceCtorEq, imp_false, not_not]

end Judge

section Hold
variable {serde : Serde}

def heldBytes (first : Bytes) (chunks : List Bytes) (count : Nat) : Bytes :=
  first ++ (chunks.take count).flatten

/-- Below the cap and with chunks alone, the gate waits until the frames decide. It
releases what it holds where they say so, and fails where they do not. -/
inductive Holds (serde : Serde) (first : Bytes) (chunks : List Bytes) :
    Except String (Bytes × List Arrival) → Prop where
  | released (count : Nat)
      (served : classifyCodexPreamble serde (heldBytes first chunks count) = .served) :
      Holds serde first chunks
        (.ok (heldBytes first chunks count, (chunks.drop count).map .chunk))
  | failed (count : Nat) (within : count ≤ chunks.length)
      (unserved : classifyCodexPreamble serde (heldBytes first chunks count) ≠ .served)
      (decided : classifyCodexPreamble serde (heldBytes first chunks count) = .empty ∨ count = chunks.length) :
      Holds serde first chunks (.error emptyResponse)

variable (first : Bytes)

theorem hold_chunks (chunks : List Bytes) (below : (first ++ chunks.flatten).length < codexPreambleCap) :
    Holds serde first chunks (holdCodexPreamble serde first (chunks.map .chunk)) := by
  induction chunks generalizing first with
  | nil =>
    have here : heldBytes first [] 0 = first := by simp [heldBytes]
    rw [flatten_nil, append_nil] at below
    rw [map_nil, holdCodexPreamble, decided?]
    cases judged : classifyCodexPreamble serde first with
    | served =>
      have released : Holds serde first [] _ := .released 0 (by rw [here, judged])
      rw [here] at released
      exact released
    | empty => exact .failed 0 (Nat.le_refl _) (by rw [here, judged]; decide) (.inr rfl)
    | pending =>
      rw [if_neg (Nat.not_le.mpr below)]
      exact .failed 0 (Nat.le_refl _) (by rw [here, judged]; decide) (.inr rfl)
  | cons chunk chunks ih =>
    have here : heldBytes first (chunk :: chunks) 0 = first := by simp [heldBytes]
    have later (count : Nat) :
        heldBytes first (chunk :: chunks) (count + 1) =
          heldBytes (first ++ chunk) chunks count := by
      simp [heldBytes]
    have shorter : first.length < codexPreambleCap := by
      rw [length_append] at below
      omega
    rw [map_cons, holdCodexPreamble, decided?]
    cases judged : classifyCodexPreamble serde first with
    | served =>
      have released : Holds serde first (chunk :: chunks) _ := .released 0 (by rw [here, judged])
      rw [here] at released
      exact released
    | empty => exact .failed 0 (Nat.zero_le _) (by rw [here, judged]; decide) (.inl (by rw [here, judged]))
    | pending =>
      rw [if_neg (Nat.not_le.mpr shorter)]
      rw [flatten_cons, ← append_assoc] at below
      have rest := ih (first ++ chunk) below
      generalize holdCodexPreamble serde (first ++ chunk) (chunks.map .chunk) = result at rest
      cases rest with
      | released count served =>
        rw [← later] at served ⊢
        exact .released (count + 1) served
      | failed count within unserved decided =>
        rw [← later] at unserved decided
        exact .failed (count + 1) (Nat.succ_le_succ within) unserved (decided.imp_right fun last => congrArg (· + 1) last)

theorem heldBytes_all (chunks : List Bytes) : heldBytes first chunks chunks.length = first ++ chunks.flatten := by
  simp [heldBytes]

/-- What is held at any time has frames that the whole stream begins with. -/
theorem heldBytes_frames (chunks : List Bytes) (count : Nat) : (splitFrames (heldBytes first chunks count)).1 <+:
      (splitFrames (first ++ chunks.flatten)).1 := by
  have whole : first ++ chunks.flatten =
      heldBytes first chunks count ++ (chunks.drop count).flatten := by
    rw [heldBytes, append_assoc, ← flatten_append, take_append_drop]
  rw [whole]
  exact splitFrames_prefix _ _

end Hold

section Faithful

/-- A stream as it comes: a first chunk and the chunks behind it. -/
structure Cut (stream : Bytes) where
  first : Bytes
  chunks : List Bytes
  whole : first ++ chunks.flatten = stream

def Cut.hold {stream : Bytes} (serde : Serde) (cut : Cut stream) : Except String (Bytes × List Arrival) :=
  holdCodexPreamble serde cut.first (cut.chunks.map .chunk)

variable (serde : Serde) (stream : Bytes)

/-- The gate on a stream, cut into chunks in whatever way: it calls the answer empty
only if no frame bears content, it decides alike for every cut, and what it releases
goes on to be the stream. -/
structure Faithful : Prop where
  honest : ∀ cut : Cut stream, cut.hold serde = .error emptyResponse →
    ∀ frame ∈ (splitFrames stream).1 ++ [(splitFrames stream).2], ¬ BearsContent serde frame
  stable : ∀ cut other : Cut stream, (cut.hold serde).isOk = (other.hold serde).isOk
  whole : ∀ (cut : Cut stream) released rest, cut.hold serde = .ok (released, rest) →
    ∃ left : List Bytes, rest = left.map .chunk ∧ released ++ left.flatten = stream

/-- Either the first frame that says anything is served, or none of the complete
frames is and the piece behind them bears no content. -/
def Settled : Prop :=
  (∃ quiet frame rest, (splitFrames stream).1 = quiet ++ frame :: rest ∧
      (∀ other ∈ quiet, judge serde other = .nothing) ∧ judge serde frame = .served) ∨
    ((∀ frame ∈ (splitFrames stream).1, judge serde frame ≠ .served) ∧ ¬ BearsContent serde (splitFrames stream).2)

variable {serde stream}

namespace Cut
variable (cut : Cut stream)

theorem frames (count : Nat) : (splitFrames (heldBytes cut.first cut.chunks count)).1 <+: (splitFrames stream).1 := by
  have prefixed := heldBytes_frames cut.first cut.chunks count
  rwa [cut.whole] at prefixed

section
variable (below : stream.length < codexPreambleCap)
include below

theorem holds : Holds serde cut.first cut.chunks (cut.hold serde) :=
  hold_chunks cut.first cut.chunks (by rwa [cut.whole])

theorem released_whole {released : Bytes} {rest : List Arrival} (result : cut.hold serde = .ok (released, rest)) :
    ∃ left : List Bytes, rest = left.map .chunk ∧ released ++ left.flatten = stream := by
  have holds : Holds serde cut.first cut.chunks (cut.hold serde) := cut.holds below
  rw [result] at holds
  cases holds with
  | released count served =>
    refine ⟨cut.chunks.drop count, rfl, ?_⟩
    rw [heldBytes, append_assoc, ← flatten_append, take_append_drop, cut.whole]

theorem served_of_first {quiet rest : List (List Char)}
    {frame : List Char} (frames : (splitFrames stream).1 = quiet ++ frame :: rest)
    (silent : ∀ other ∈ quiet, judge serde other = .nothing)
    (served : judge serde frame = .served) : (cut.hold serde).isOk = true := by
  have holds : Holds serde cut.first cut.chunks (cut.hold serde) := cut.holds below
  generalize cut.hold serde = result at holds
  cases holds with
  | released count served => rfl
  | failed count within unserved decided =>
    exfalso
    have begins := cut.frames count
    rw [frames] at begins
    rw [Ne, classify_served_iff] at unserved
    rcases decided with empty | all
    · obtain ⟨other, member, terminal⟩ := ((classify_empty_iff _).mp empty).2
      have upTo : quiet ++ [frame] <+: quiet ++ frame :: rest := by simp
      rcases prefix_or_prefix_of_prefix begins upTo with short | long
      · -- The frames held are silent, or the one that is served.
        rcases mem_append.mp (short.subset member) with early | last
        · rw [silent other early] at terminal
          cases terminal
        · rw [mem_singleton.mp last, served] at terminal
          cases terminal
      · exact unserved ⟨frame, long.subset (by simp), served⟩
    · apply unserved
      rw [all, heldBytes_all, cut.whole, frames]
      exact ⟨frame, by simp, served⟩

theorem failed_of_none (none : ∀ frame ∈ (splitFrames stream).1, judge serde frame ≠ .served) : cut.hold serde = .error emptyResponse := by
  have holds : Holds serde cut.first cut.chunks (cut.hold serde) := cut.holds below
  generalize cut.hold serde = result at holds
  cases holds with
  | failed count within unserved decided => rfl
  | released count served =>
    obtain ⟨frame, member, judged⟩ := (classify_served_iff _).mp served
    exact absurd judged (none frame ((cut.frames count).subset member))

end

/-- A stream whose first word is a terminal frame fails when it is cut behind it. -/
theorem exists_failed {quiet rest : List (List Char)} {frame : List Char}
    (frames : (splitFrames stream).1 = quiet ++ frame :: rest)
    (silent : ∀ other ∈ quiet, judge serde other = .nothing) (terminal : judge serde frame = .terminal) :
    ∃ cut : Cut stream, cut.hold serde = .error emptyResponse := by
  obtain ⟨before, behind, split, taken⟩ := splitFrames_take stream (quiet.length + 1)
  have held : (splitFrames before).1 = quiet ++ [frame] := by
    rw [taken, frames, ← singleton_append, ← append_assoc]
    exact take_left' (by simp)
  have empty : classifyCodexPreamble serde before = .empty := by
    rw [classify_empty_iff, held]
    refine ⟨?_, frame, by simp, terminal⟩
    rintro ⟨other, member, served⟩
    rcases mem_append.mp member with early | last
    · rw [silent other early] at served
      cases served
    · rw [mem_singleton.mp last, terminal] at served
      cases served
  refine ⟨⟨before, [behind], by rw [split]; simp⟩, ?_⟩
  rw [hold, map_singleton, holdCodexPreamble, decided?, empty]
  rfl

end Cut

end Faithful

namespace PreambleSample

def stopped : String := "\x7b\"choices\":[\x7b\"finish_reason\":\"stop\"\x7d]\x7d"

def spoken : String := "\x7b\"choices\":[\x7b\"text\":\"a\"\x7d]\x7d"

def library : Serde where
  fromSlice bytes :=
    if bytes = utf8 stopped then .ok (.object [("choices", .array [.object [("finish_reason", .string "stop")]])])
    else if bytes = utf8 spoken then .ok (.object [("choices", .array [.object [("text", .string "a")]])])
    else .error "unknown payload"
  formatFloat _ := ""

def finished : String := "data: " ++ stopped ++ "\n\n"

def speaking : String := "data: " ++ spoken ++ "\n\n"

def stream : Bytes := utf8 finished ++ utf8 speaking

def frameByFrame : Cut stream := ⟨utf8 finished, [utf8 speaking], by simp [stream]⟩

def atOnce : Cut stream := ⟨stream, [], by simp⟩

end PreambleSample
end Mahoquot.Compat
