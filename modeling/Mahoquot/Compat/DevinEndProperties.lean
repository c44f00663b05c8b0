import Mahoquot.Compat.DevinProperties

/-! How a Devin stream ends, and which streams end in a completion. -/

set_option autoImplicit false

namespace Mahoquot.Compat
open Library List
namespace DevinDecoder
variable {decoder : DevinDecoder} {events : List CodexEvent} {tool : ToolState}

variable (wire : DevinWire)

theorem decodeEndStream_takes (decoder : DevinDecoder) (running : decoder.failed = false)
    (unterminated : decoder.outcome.terminated = false) (payload : Bytes) :
    Takes decoder (decoder.decodeEndStream wire payload) := by
  rcases decodeEndStream_cases wire decoder payload unterminated with
    ⟨_, ended⟩ | ⟨_, ⟨error, ended⟩ | ⟨error, ended⟩⟩
  · rw [ended]
    exact takes_nil rfl rfl rfl rfl
  · rw [ended]
    exact takes_fail decoder running _
  · rw [ended]
    exact ⟨rfl, running ▸ .failed _, fun ledger => (ledger.append fun _ => rfl).of_tools rfl rfl⟩

theorem consume_takes (decoder : DevinDecoder) (stream : Bytes) (running : decoder.failed = false)
    (unterminated : decoder.outcome.terminated = false) : Takes decoder (consume wire decoder stream) := by
  have drains (decoder : DevinDecoder) (buf : Bytes) : Takes decoder ({ decoder with buf }, []) := takes_nil rfl rfl rfl rfl
  apply consume_rule wire Takes
  · intro decoder _ buf
    exact drains decoder buf
  · intro decoder running buf message
    exact (drains decoder buf).trans (takes_fail { decoder with buf } running message)
  · intro decoder running payload
    exact (drains decoder []).trans (decodeData_decodes wire decoder.drained running payload).toTakes
  · intro decoder running unterminated payload
    exact (drains decoder []).trans (decodeEndStream_takes wire decoder.drained running unterminated payload)
  · intro first second third left right
    exact left.trans right
  · exact running
  · exact unterminated

/-- Where a run of chunks can leave the decoder. -/
inductive Rests (decoder : DevinDecoder) : Prop where
  | waiting (waiting : decoder.Waiting)
  | failed (failed : decoder.failed = true)
  | terminated (running : decoder.failed = false)
      (terminated : decoder.outcome.terminated = true) (drained : decoder.buf = [])

theorem decode_rests (rests : decoder.Rests) (bytes : Bytes) : (decoder.decode wire bytes).1.Rests ∧
      Runs decoder.failed (decoder.decode wire bytes).2 (decoder.decode wire bytes).1.failed := by
  cases rests with
  | waiting waiting =>
    rw [decode_eq_consume wire waiting]
    refine ⟨?_, (consume_takes wire decoder _ waiting.unfailed waiting.unterminated).runs⟩
    cases failed : (consume wire decoder (decoder.buf ++ bytes)).1.failed with
    | true => exact .failed failed
    | false =>
      rcases consume_leaves wire decoder (decoder.buf ++ bytes) waiting.unfailed
        waiting.unterminated with waiting | other | ⟨terminated, drained, _⟩
      · exact .waiting waiting
      · exact .failed other
      · exact .terminated failed terminated drained
  | failed failed =>
    rw [decode_failed wire failed]
    exact ⟨.failed failed, .refl _⟩
  | terminated running terminated drained =>
    by_cases more : bytes = []
    · rw [more, decode_nil]
      exact ⟨.terminated running terminated drained, .refl _⟩
    · rw [decode_trailing wire running terminated more]
      exact ⟨.failed rfl, (takes_fail decoder running _).runs⟩

theorem run_runs (rests : decoder.Rests) (chunks : List Bytes) :
    Runs decoder.failed (emitAll (decode wire) decoder chunks).2 (emitAll (decode wire) decoder chunks).1.failed := by
  induction chunks generalizing decoder with
  | nil => exact .refl _
  | cons chunk chunks ih =>
    obtain ⟨next, runs⟩ := decode_rests wire rests chunk
    exact runs.append (ih next)

/-- A stream of data frames that do not fail, closed by an end-of-stream frame that
reports no error and has nothing behind it. -/
inductive ReadsToEnd (wire : DevinWire) : DevinDecoder → Bytes → DevinDecoder → Prop where
  | last {decoder : DevinDecoder} {stream payload : Bytes}
      (read : readFrame stream = .whole 2 payload []) (well : EndsWell wire payload) :
      ReadsToEnd wire decoder stream decoder.drained.terminate
  | data {decoder final : DevinDecoder} {stream payload rest : Bytes}
      (read : readFrame stream = .whole 0 payload rest)
      (running : (decoder.drained.decodeData wire payload).1.failed = false)
      (ends : ReadsToEnd wire (decoder.drained.decodeData wire payload).1 rest final) :
      ReadsToEnd wire decoder stream final

theorem ReadsToEnd.consume {wire : DevinWire} {final : DevinDecoder} {stream : Bytes}
    (ends : ReadsToEnd wire decoder stream final) (running : decoder.failed = false)
    (unterminated : decoder.outcome.terminated = false) :
    (consume wire decoder stream).1 = final ∧ final.failed = false ∧ final.buf = [] ∧
      final.outcome.terminated = true := by
  induction ends with
  | @last decoder stream payload read well =>
    rw [consume_whole wire decoder read]
    rcases decodeEndStream_cases wire decoder.drained payload unterminated with
      ⟨_, ended⟩ | ⟨unwell, _⟩
    · simp only [ended]
      exact ⟨rfl, running, rfl, rfl⟩
    · exact absurd well unwell
  | @data decoder final stream payload rest read open' ends ih =>
    have next := waiting_decodeData wire payload running unterminated open'
    rw [consume_whole wire decoder read]
    simpa [open'] using ih next.unfailed next.unterminated

theorem readsToEnd_of_consume (decoder : DevinDecoder) (stream : Bytes) (running : decoder.failed = false)
    (unterminated : decoder.outcome.terminated = false) (unfailed : (consume wire decoder stream).1.failed = false)
    (terminated : (consume wire decoder stream).1.outcome.terminated = true) :
    ReadsToEnd wire decoder stream (consume wire decoder stream).1 := by
  fun_induction consume wire decoder stream with
  | case1 decoder stream read => exact absurd terminated (by simp [unterminated])
  | case2 | case6 | case7 => cases unfailed
  | case3 decoder stream payload rest decoded failed => exact absurd unfailed (by simp [failed])
  | case4 decoder stream payload rest decoded open' later read ih =>
    have open' : (decoder.drained.decodeData wire payload).1.failed = false := by
      simpa using open'
    have next := waiting_decodeData wire payload running unterminated open'
    exact .data read open' (ih next.unfailed next.unterminated unfailed terminated)
  | case5 decoder stream payload rest last read =>
    rw [isEmpty_iff.1 last] at read
    rcases decodeEndStream_cases wire decoder.drained payload unterminated with
      ⟨well, ended⟩ | ⟨_, ⟨error, ended⟩ | ⟨error, ended⟩⟩
    · rw [ended]
      exact .last read well
    · rw [ended] at unfailed
      cases unfailed
    · rw [ended] at unfailed
      cases unfailed

def Resolved (tool : ToolState) : Prop := tool.callId.isSome ∧ tool.name.isSome

theorem finish_waiting (waiting : decoder.Waiting) (unfinished : decoder.finished = false) :
    ∃ message, decoder.finish.2 = [.failed message] := by
  simp only [finish, waiting.unfailed, unfinished, waiting.unterminated, Bool.or_self, Bool.false_eq_true, if_false]
  split <;> exact ⟨_, rfl⟩

theorem finish_terminated (running : decoder.failed = false) (unfinished : decoder.finished = false)
    (drained : decoder.buf = []) (terminated : decoder.outcome.terminated = true) :
    ((∀ tool ∈ decoder.tools, Resolved tool) ∧
        decoder.finish.2 = (decoder.tools.flatMap fun tool => tool.beginIfKnown.2) ++
          [.completed decoder.outcome.usage]) ∨
      (¬ (∀ tool ∈ decoder.tools, Resolved tool) ∧ ∃ message, decoder.finish.2 = [.failed message]) := by
  simp only [finish, running, unfinished, drained, terminated, Bool.or_self, Bool.false_eq_true,
    if_false, isEmpty_nil, Bool.not_true]
  split
  next unresolved =>
    refine .inr ⟨fun resolved => ?_, _, rfl⟩
    obtain ⟨tool, member, missing⟩ := any_eq_true.mp unresolved
    obtain ⟨known, named⟩ := resolved tool member
    simp only [Bool.or_eq_true, Option.isNone_iff_eq_none] at missing
    rcases missing with absent | absent
    · rw [absent] at known
      cases known
    · rw [absent] at named
      cases named
  next resolved =>
    refine .inl ⟨fun tool member => ?_, ?_⟩
    · have present : ¬ (tool.callId.isNone || tool.name.isNone) = true := fun missing =>
        resolved (any_eq_true.mpr ⟨tool, member, missing⟩)
      simpa [Resolved, Option.isSome_iff_ne_none] using present
    · simp [beginRemaining, flatMap_map]

/-- The stream reads to its end and leaves no call without id or name. -/
def EndsCleanly (stream : Bytes) : Prop :=
  ∃ last, ReadsToEnd wire .new stream last ∧ ∀ tool ∈ last.tools, Resolved tool

theorem EndsCleanly.running {wire : DevinWire} {stream : Bytes} (clean : EndsCleanly wire stream) :
    (consume wire .new stream).1.failed = false ∧ (consume wire .new stream).1.outcome.terminated = true ∧
      ∀ tool ∈ (consume wire .new stream).1.tools, Resolved tool := by
  obtain ⟨last, ends, resolved⟩ := clean
  obtain ⟨same, running, _, terminated⟩ := ends.consume rfl rfl
  rw [same]
  exact ⟨running, terminated, resolved⟩

theorem Runs.open_plain (runs : Runs false events false) : ∀ event ∈ events, event.isTerminal = false := by
  cases runs.moves with
  | running plain => exact plain

theorem Runs.ends_failed (runs : Runs false events true) : ∃ front message, events = front ++ [.failed message] ∧
      ∀ event ∈ front, event.isTerminal = false := by
  obtain ⟨front, last, rfl, plain, terminal⟩ := runs.moves.endsOnce
  cases last with
  | failed message => exact ⟨front, message, rfl, plain⟩
  | completed usage => exact absurd (by simp) (runs.uncompleted usage)
  | created | textDelta | reasoningDelta | reasoningSignature | reasoningRedacted
    | toolCallBegin | toolArgsDelta | outputLimitReached => cases terminal

theorem transcript_cases (chunks : List Bytes) : (¬ EndsCleanly wire chunks.flatten ∧ ∃ front message,
        (transcript wire chunks).1 = front ++ [.failed message] ∧ ∀ event ∈ front, event.isTerminal = false) ∨
      (EndsCleanly wire chunks.flatten ∧ ∃ usage, (transcript wire chunks).1 = (consume wire .new chunks.flatten).2 ++
            ((consume wire .new chunks.flatten).1.tools.flatMap fun tool => tool.beginIfKnown.2) ++ [.completed usage] ∧
          ∀ event ∈ (consume wire .new chunks.flatten).2, event.isTerminal = false) := by
  have runs := run_runs wire (.waiting waiting_new) chunks
  have whole := run_eq_consume wire chunks
  simp only [transcript]
  cases failed : (emitAll (decode wire) .new chunks).1.failed with
  | true =>
    rw [failed] at runs
    refine .inl ⟨fun clean => ?_, ?_⟩
    · by_cases early : EndsEarly wire .new chunks.flatten
      · have fails := early.fails
        rw [clean.running.1] at fails
        cases fails
      · rw [whole.1 early, clean.running.1] at failed
        cases failed
    · rw [finish_failed failed, append_nil]
      exact runs.ends_failed
  | false =>
    rw [failed] at runs
    have calm : ¬ EndsEarly wire .new chunks.flatten := fun early => by
      rw [whole.2 early] at failed
      cases failed
    rw [whole.1 calm] at failed runs ⊢
    have unfinished := (consume_takes wire .new chunks.flatten rfl rfl).finished
    rcases consume_leaves wire .new chunks.flatten rfl rfl with
      waiting | other | ⟨terminated, drained, _⟩
    · obtain ⟨message, closes⟩ := finish_waiting waiting unfinished
      refine .inl ⟨fun clean => ?_, _, message, by rw [closes], runs.open_plain⟩
      have terminated := clean.running.2.1
      rw [waiting.unterminated] at terminated
      cases terminated
    · rw [failed] at other
      cases other
    · rcases finish_terminated failed unfinished drained terminated with
        ⟨resolved, closes⟩ | ⟨unresolved, message, closes⟩
      · refine .inr ⟨⟨_, readsToEnd_of_consume wire .new _ rfl rfl failed terminated, resolved⟩,
          (consume wire .new chunks.flatten).1.outcome.usage, ?_, runs.open_plain⟩
        rw [closes, append_assoc]
      · exact .inl ⟨fun clean => unresolved clean.running.2.2, _, message, by rw [closes], runs.open_plain⟩

theorem quiet_begun {tools : List ToolState} (plain : ∀ event ∈ events, event.isTerminal = false) :
    ∀ event ∈ events ++ tools.flatMap (fun tool => tool.beginIfKnown.2), event.isTerminal = false := by
  refine forall_mem_append.mpr ⟨plain, fun event later => ?_⟩
  obtain ⟨tool, _, held⟩ := mem_flatMap.mp later
  exact beginIfKnown_plain tool event held

theorem transcript_endsOnce (chunks : List Bytes) : EndsOnce CodexEvent.isTerminal (transcript wire chunks).1 := by
  rcases transcript_cases wire chunks with ⟨_, front, message, shape, plain⟩ | ⟨_, usage, shape, plain⟩
  · rw [shape]
    exact ⟨front, _, rfl, plain, rfl⟩
  · rw [shape]
    exact ⟨_, _, rfl, quiet_begun plain, rfl⟩

theorem beginIfKnown_resolved (resolved : Resolved tool) :
    tool.beginIfKnown.1.began = true ∧ tool.beginIfKnown.1.callId = tool.callId ∧
      tool.beginIfKnown.1.args = tool.args := by
  obtain ⟨callId, name, args, pendingArgs, blockIndex, began⟩ := tool
  obtain ⟨known, named⟩ := resolved
  cases began with
  | true => exact ⟨rfl, rfl, rfl⟩
  | false =>
    cases callId with
    | none => cases known
    | some callId =>
      cases name with
      | none => cases named
      | some name => exact ⟨rfl, rfl, rfl⟩

theorem argPieces_flatMap_apart {index : Nat} {tools : List ToolState}
    (apart : ∀ tool ∈ tools, tool.blockIndex ≠ index) :
    argPieces index (tools.flatMap fun tool => tool.beginIfKnown.2) = [] := by
  induction tools with
  | nil => rfl
  | cons tool tools ih =>
    rw [flatMap_cons, argPieces_append, ih fun other member => apart other (by simp [member]),
      (hands_beginIfKnown tool []).apart index (Ne.symm (apart tool (by simp))), append_nil]

/-- Every call the table holds at a clean end is announced with all its pieces. -/
theorem Ledger.announced (ledger : Ledger decoder events)
    (resolved : ∀ tool ∈ decoder.tools, Resolved tool) (member : tool ∈ decoder.tools) :
    let closed := events ++ decoder.tools.flatMap fun tool => tool.beginIfKnown.2
    (∃ callId name, tool.callId = some callId ∧ .toolCallBegin tool.blockIndex callId name ∈ closed) ∧
      chars (argPieces tool.blockIndex closed) = tool.args.toList := by
  obtain ⟨front, back, split⟩ := append_of_mem member
  obtain ⟨block, handed⟩ := ledger.placed front.length tool (by rw [split]; simp)
  have before : ∀ other ∈ front, other.blockIndex ≠ front.length := by
    intro other held
    obtain ⟨place, short, rfl⟩ := getElem_of_mem held
    have found : decoder.tools[place]? = some front[place] := by
      rw [split, getElem?_append_left short, getElem?_eq_getElem short]
    rw [(ledger.placed place _ found).1]
    omega
  have behind : ∀ other ∈ back, other.blockIndex ≠ front.length := by
    intro other held
    obtain ⟨place, short, rfl⟩ := getElem_of_mem held
    have found : decoder.tools[front.length + (place + 1)]? = some back[place] := by
      rw [split, getElem?_append_right (by omega), Nat.add_sub_cancel_left, getElem?_cons_succ, getElem?_eq_getElem short]
    rw [(ledger.placed _ _ found).1]
    omega
  have hands := hands_beginIfKnown tool []
  have after := hands.handed events handed
  obtain ⟨began, known, args⟩ := beginIfKnown_resolved (resolved tool member)
  obtain ⟨drained, callId, name, identified, announced⟩ := after.begun began
  have pieces := after.pieces
  rw [drained, hands.block, args, append_nil, append_nil, argPieces_append] at pieces
  rw [hands.block] at announced
  rw [split, flatMap_append, flatMap_cons]
  refine ⟨⟨callId, name, known.symm.trans identified, ?_⟩, ?_⟩
  · rcases mem_append.mp announced with earlier | begun
    · exact mem_append_left _ earlier
    · exact mem_append_right _ (mem_append_right _ (mem_append_left _ begun))
  · rw [block] at pieces ⊢
    rw [argPieces_append, argPieces_append, argPieces_append, argPieces_flatMap_apart before,
      argPieces_flatMap_apart behind, append_nil]
    exact pieces

/-- A Devin stream ends in one terminal event. It is a completion exactly for a
clean end, and then every call was announced with its id and all its pieces. -/
theorem stream_ends_truthfully (chunks : List Bytes) : let events := (transcript wire chunks).1
    EndsOnce CodexEvent.isTerminal events ∧
      ((∃ usage, .completed usage ∈ events) ↔ EndsCleanly wire chunks.flatten) ∧
      ((∃ message, .failed message ∈ events) ↔ ¬ EndsCleanly wire chunks.flatten) ∧
      ∀ last, ReadsToEnd wire .new chunks.flatten last → (∀ tool ∈ last.tools, Resolved tool) →
        ∀ tool ∈ last.tools,
          (∃ callId name, tool.callId = some callId ∧ .toolCallBegin tool.blockIndex callId name ∈ events) ∧
          chars (argPieces tool.blockIndex events) = tool.args.toList := by
  refine ⟨transcript_endsOnce wire chunks, ?_⟩
  rcases transcript_cases wire chunks with
    ⟨unclean, front, message, shape, plain⟩ | ⟨clean, usage, shape, plain⟩
  · rw [shape]
    refine ⟨?_, ?_, ?_⟩
    · refine ⟨?_, fun clean => absurd clean unclean⟩
      rintro ⟨usage, member⟩
      rcases mem_append.mp member with earlier | last
      · exact absurd (plain _ earlier) (by simp [CodexEvent.isTerminal])
      · simp at last
    · exact ⟨fun _ => unclean, fun _ => ⟨message, by simp⟩⟩
    · intro last ends resolved
      exact absurd ⟨last, ends, resolved⟩ unclean
  · rw [shape]
    refine ⟨?_, ?_, ?_⟩
    · exact ⟨fun _ => clean, fun _ => ⟨usage, by simp⟩⟩
    · refine ⟨?_, fun unclean => absurd clean unclean⟩
      rintro ⟨message, member⟩
      rcases mem_append.mp member with earlier | last
      · exact absurd (quiet_begun plain _ earlier) (by simp [CodexEvent.isTerminal])
      · simp at last
    · intro last ends resolved tool member
      obtain ⟨rfl, _⟩ := ends.consume rfl rfl
      have ledger := (consume_takes wire .new chunks.flatten rfl rfl).ledger ledger_new
      obtain ⟨⟨callId, name, known, announced⟩, pieces⟩ := ledger.announced resolved member
      refine ⟨⟨callId, name, known, mem_append_left _ announced⟩, ?_⟩
      rw [argPieces_append, show argPieces tool.blockIndex [.completed usage] = [] from rfl, append_nil]
      exact pieces

/-- A call whose arguments stop after their opening brace. -/
theorem unclosedArgs_completes : let payload := [50, 9, 10, 1, 97, 18, 1, 102, 26, 1, 123]
    let wire := sampleWire payload
      { ChatMessageResponse.empty with deltaToolCalls := [⟨some "a", some "f", some "\x7b"⟩] }
    (transcript wire [[0, 0, 0, 0, 11] ++ payload ++ [2, 0, 0, 0, 2, 123, 125]]).1 =
      [.toolCallBegin 0 "a" "f", .toolArgsDelta 0 "\x7b", .completed none] := by
  decide

end DevinDecoder
end Mahoquot.Compat
