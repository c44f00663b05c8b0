import Mahoquot.Compat.AnthropicRender
import Mahoquot.Library.Transducer
import Mathlib.Data.List.Nodup

/-! Which events keep the blocks of a streamed Anthropic message in order. A tool
call that begins does not stop the block of the tool call before it, and the
arguments of a tool whose block is stopped are still sent to that block. -/

set_option autoImplicit false

namespace Mahoquot.Compat
open Library Value List
variable {outputIndex : Nat}

/-- Where a message stands: not begun, in its blocks with the next index and the
block that is open, behind its last delta, or over. -/
inductive Phase where
  | fresh
  | streaming (next : Nat) (opened : Option Nat)
  | closing
  | ended
deriving Repr, DecidableEq

/-- The frames a message may go on with. -/
def Phase.walk (phase : Phase) : WireFrame → Option Phase
  | .event name payload =>
    let index := (payload.get "index").bind asU64
    match phase with
    | fresh => if name = "message_start" then some (streaming 0 none) else none
    | streaming next none =>
      if name = "content_block_start" then
        if index = some next then some (streaming (next + 1) (some next)) else none
      else if name = "message_delta" then some closing
      else if name = "error" then some ended
      else none
    | streaming next (some block) =>
      if name = "content_block_delta" then
        if index = some block then some phase else none
      else if name = "content_block_stop" then
        if index = some block then some (streaming next none) else none
      else none
    | closing => if name = "message_stop" then some ended else none
    | ended => none
  | _ => none

/-- A message that starts, has its blocks one at a time and in order, and ends. -/
def Disciplined (frames : List WireFrame) : Prop :=
  frames.foldlM Phase.walk .fresh = some .ended

namespace Phase
open AnthropicStreamRenderer

variable {next block : Nat}

@[simp] theorem walk_blockStart (content : Value) : walk (streaming next none) (blockStart next content) =
      some (streaming (next + 1) (some next)) := by
  simp [walk, blockStart, obj, ofNat, asU64]

@[simp] theorem walk_blockStart_open (index : Nat) (content : Value) :
    walk (streaming next (some block)) (blockStart index content) = none := by
  simp [walk, blockStart]

@[simp] theorem walk_blockDelta (delta : Value) : walk (streaming next (some block)) (blockDelta block delta) =
      some (streaming next (some block)) := by
  simp [walk, blockDelta, obj, ofNat, asU64]

theorem walk_blockDelta_other {opened : Option Nat} {index : Nat} (other : opened ≠ some index)
    (delta : Value) : walk (streaming next opened) (blockDelta index delta) = none := by
  cases opened with
  | none => simp [walk, blockDelta]
  | some block =>
    have different : index ≠ block := fun same => other (congrArg some same.symm)
    simp [walk, blockDelta, obj, ofNat, asU64, different]

@[simp] theorem walk_blockStop : walk (streaming next (some block)) (blockStop block) = some (streaming next none) := by
  simp [walk, blockStop, obj, ofNat, asU64]

@[simp] theorem walk_messageDelta (renderer : AnthropicStreamRenderer) (usage : Option Usage) :
    walk (streaming next none) (renderer.messageDelta usage) = some closing := by
  simp [walk, messageDelta]

@[simp] theorem walk_messageStop : walk closing messageStop = some ended := by
  simp [walk, messageStop]

@[simp] theorem walk_errorFrame (message : String) : walk (streaming next none) (errorFrame message) = some ended := by
  simp [walk, errorFrame]

end Phase

inductive Block where
  | idle
  | text (index : Nat)
  | thinking (index : Nat)
  | tool (outputIndex index : Nat)
deriving Repr, DecidableEq

namespace Block

def index? : Block → Option Nat
  | idle => none
  | text index | thinking index | tool _ index => some index

def text? : Block → Option Nat
  | text index => some index
  | _ => none

def thinking? : Block → Option Nat
  | thinking index => some index
  | _ => none

def tool? : Block → Option (Nat × Nat)
  | tool outputIndex index => some (outputIndex, index)
  | _ => none

def closeText : Block → Block
  | text _ => idle
  | block => block

def closeThinking : Block → Block
  | thinking _ => idle
  | block => block

def closeTools : Block → Block
  | tool _ _ => idle
  | block => block

def opened (block : Block) : Option Nat := block.tool?.map Prod.fst

end Block

/-- What an event asks of the tool whose block is open. -/
def blockFits (opened : Option Nat) : CodexEvent → Prop
  | .toolCallBegin _ _ _ => opened = none
  | .toolArgsDelta outputIndex _ => opened = some outputIndex
  | _ => True

def openAfter (opened : Option Nat) : CodexEvent → Option Nat
  | .toolCallBegin outputIndex _ _ => some outputIndex
  | .textDelta _ | .reasoningDelta _ | .reasoningSignature _ => none
  | _ => opened

/-- Up to the first terminal event no tool begins while the block of another is
open, and the arguments that come are those of the open one. -/
def Sequential : Option Nat → List CodexEvent → Prop
  | _, [] => True
  | opened, event :: events =>
    event.isTerminal = true ∨ blockFits opened event ∧ Sequential (openAfter opened event) events

namespace AnthropicStreamRenderer

/-- A renderer whose message has started and has the given block open. -/
structure Stands (renderer : AnthropicStreamRenderer) (begun : List Nat) (block : Block) : Prop where
  started : renderer.started = true
  running : renderer.terminated = false
  text : renderer.currentTextIndex = block.text?
  thinking : renderer.thinkingIndex = block.thinking?
  tools : renderer.openTools = block.tool?.toList
  keys : ∀ outputIndex, outputIndex ∈ renderer.toolIndices ↔ outputIndex ∈ begun
  closed : ∀ outputIndex ∈ renderer.closedTools, outputIndex ∈ begun
  below : ∀ index, block.index? = some index → index < renderer.nextContentIndex
  tool : ∀ outputIndex index, renderer.toolIndices[outputIndex]? = some index →
    index < renderer.nextContentIndex ∧
      (block.index? = some index → block.tool? = some (outputIndex, index))

/-- The renderer moves to another block, and its frames take the message there. -/
structure Shifts (before : AnthropicStreamRenderer) (begun : List Nat) (block : Block)
    (after : AnthropicStreamRenderer × List WireFrame) (begun' : List Nat) (block' : Block) : Prop where
  stands : after.1.Stands begun' block'
  walks : after.2.foldlM Phase.walk (.streaming before.nextContentIndex block.index?) =
    some (.streaming after.1.nextContentIndex block'.index?)

namespace Shifts
variable {first : AnthropicStreamRenderer} {begun begun' begun'' : List Nat}
  {block block' block'' : Block}

theorem refl (stands : first.Stands begun block) : Shifts first begun block (first, []) begun block :=
  ⟨stands, rfl⟩

theorem andThen {middle : AnthropicStreamRenderer × List WireFrame}
    {next : AnthropicStreamRenderer → AnthropicStreamRenderer × List WireFrame}
    (left : Shifts first begun block middle begun' block')
    (right : Shifts middle.1 begun' block' (next middle.1) begun'' block'') :
    Shifts first begun block (AnthropicStreamRenderer.andThen middle next) begun'' block'' := by
  refine ⟨right.stands, ?_⟩
  rw [AnthropicStreamRenderer.andThen, foldlM_append, left.walks]
  exact right.walks

end Shifts

variable {renderer : AnthropicStreamRenderer} {begun : List Nat} {block : Block}

/-- Stopping the open block leaves none open; what a renderer remembers of its
tools is only kept. -/
theorem Stands.idle {after : AnthropicStreamRenderer} (stands : renderer.Stands begun block)
    (started : after.started = renderer.started) (running : after.terminated = renderer.terminated)
    (text : after.currentTextIndex = none) (thinking : after.thinkingIndex = none)
    (tools : after.openTools = []) (kept : after.toolIndices = renderer.toolIndices)
    (closed : ∀ outputIndex ∈ after.closedTools, outputIndex ∈ begun)
    (next : after.nextContentIndex = renderer.nextContentIndex) : after.Stands begun .idle where
  started := started.trans stands.started
  running := running.trans stands.running
  text := text
  thinking := thinking
  tools := tools
  keys outputIndex := by
    rw [kept]
    exact stands.keys outputIndex
  closed := closed
  below index open' := by cases open'
  tool outputIndex index found := by
    rw [kept] at found
    rw [next]
    exact ⟨(stands.tool outputIndex index found).1, fun open' => by cases open'⟩

theorem closeText_shifts (stands : renderer.Stands begun block) :
    Shifts renderer begun block renderer.closeText begun block.closeText := by
  have text := stands.text
  refine ⟨?_, ?_⟩
  · cases block with
    | text => exact stands.idle rfl rfl rfl stands.thinking stands.tools rfl stands.closed rfl
    | idle | thinking | tool => exact { stands with text := rfl }
  · unfold AnthropicStreamRenderer.closeText
    cases block <;> simp [text, Block.text?, Block.index?, Block.closeText]

theorem closeThinking_shifts (stands : renderer.Stands begun block) :
    Shifts renderer begun block renderer.closeThinking begun block.closeThinking := by
  have thinking := stands.thinking
  refine ⟨?_, ?_⟩
  · cases block with
    | thinking => exact stands.idle rfl rfl stands.text rfl stands.tools rfl stands.closed rfl
    | idle | text | tool => exact { stands with thinking := rfl }
  · unfold AnthropicStreamRenderer.closeThinking
    cases block <;> simp [thinking, Block.thinking?, Block.index?, Block.closeThinking]

theorem openTools_closeOpenTools (renderer : AnthropicStreamRenderer) : renderer.closeOpenTools.1.openTools = [] := by
  unfold openTools
  rw [filter_eq_nil_iff]
  intro tool member
  rw [Bool.not_eq_true, Bool.not_eq_false', contains_iff_mem]
  refine mem_append.mpr ?_
  by_cases stopped : tool.1 ∈ renderer.closedTools
  · exact .inl stopped
  · refine .inr (mem_map.mpr ⟨tool, mem_filter.mpr ⟨member, ?_⟩, rfl⟩)
    simpa using stopped

theorem mem_openTools {tool : Nat × Nat} (member : tool ∈ renderer.openTools) :
    renderer.toolIndices[tool.1]? = some tool.2 ∧ tool.1 ∉ renderer.closedTools := by
  obtain ⟨held, open'⟩ := mem_filter.mp member
  exact ⟨Std.ExtTreeMap.mem_toList_iff_getElem?_eq_some.mp held, by simpa using open'⟩

theorem closeOpenTools_shifts (stands : renderer.Stands begun block) :
    Shifts renderer begun block renderer.closeOpenTools begun block.closeTools := by
  have tools := stands.tools
  have other (none : renderer.openTools = []) : renderer.closeOpenTools = (renderer, []) := by
    unfold closeOpenTools
    rw [none, map_nil, append_nil, map_nil]
  cases block with
  | tool outputIndex index =>
    refine ⟨stands.idle rfl rfl stands.text stands.thinking (openTools_closeOpenTools renderer) rfl ?_ rfl, ?_⟩
    · intro closed member
      rcases mem_append.mp member with earlier | now
      · exact stands.closed closed earlier
      · obtain ⟨tool, open', rfl⟩ := mem_map.mp now
        rw [← stands.keys]
        exact Std.ExtTreeMap.mem_iff_isSome_getElem?.mpr (by rw [(mem_openTools open').1]; rfl)
    · unfold closeOpenTools
      rw [tools]
      simp [Block.tool?, Block.index?, Block.closeTools]
  | idle | text | thinking =>
    rw [other tools]
    exact .refl stands

theorem Stands.tool_below (stands : renderer.Stands begun .idle) {index : Nat}
    (found : renderer.toolIndices[outputIndex]? = some index) {open' : Prop} :
    index < renderer.nextContentIndex + 1 ∧ (some renderer.nextContentIndex = some index → open') := by
  have below := (stands.tool outputIndex index found).1
  refine ⟨Nat.lt_succ_of_lt below, fun same => ?_⟩
  cases same
  exact absurd below (Nat.lt_irrefl _)

theorem openText_shifts (stands : renderer.Stands begun .idle) (content : Value) : Shifts renderer begun .idle
      (renderer.openBlock content fun grown => { grown with currentTextIndex := some renderer.nextContentIndex })
      begun (.text renderer.nextContentIndex) where
  stands := {
    stands with
    text := rfl
    below := fun index open' => by
      cases open'
      exact Nat.lt_succ_self _
    tool := fun outputIndex index found => stands.tool_below found }
  walks := by simp [openBlock, Block.index?]

theorem openThinking_shifts (stands : renderer.Stands begun .idle) (content : Value) : Shifts renderer begun .idle
      (renderer.openBlock content fun grown => { grown with thinkingIndex := some renderer.nextContentIndex })
      begun (.thinking renderer.nextContentIndex) where
  stands := {
    stands with
    thinking := rfl
    below := fun index open' => by
      cases open'
      exact Nat.lt_succ_self _
    tool := fun outputIndex index found => stands.tool_below found }
  walks := by simp [openBlock, Block.index?]

theorem nodup_openTools (renderer : AnthropicStreamRenderer) : renderer.openTools.Nodup := by
  refine Nodup.filter _ (Pairwise.imp ?_ renderer.toolIndices.distinct_keys_toList)
  rintro first second different rfl
  exact different Std.ReflCmp.compare_self

theorem openTool_openTools (stands : renderer.Stands begun .idle)
    (fresh : outputIndex ∉ begun) (content : Value) : (renderer.openTool outputIndex content).1.openTools =
      [(outputIndex, renderer.nextContentIndex)] := by
  have none : renderer.openTools = [] := stands.tools
  rw [← perm_singleton, perm_ext_iff_of_nodup (nodup_openTools _) (nodup_singleton _)]
  intro tool
  rw [mem_singleton]
  constructor
  · intro member
    obtain ⟨held, open'⟩ := mem_openTools member
    rw [openTool, openBlock, Std.ExtTreeMap.getElem?_insert] at held
    split at held
    next same =>
      rw [Std.LawfulEqCmp.compare_eq_iff_eq] at same
      exact Prod.ext same.symm (Option.some.inj held).symm
    next other =>
      have stopped : tool.1 ∉ renderer.closedTools := open'
      have before : tool ∈ renderer.openTools := mem_filter.mpr
        ⟨Std.ExtTreeMap.mem_toList_iff_getElem?_eq_some.mpr held, by simpa using stopped⟩
      rw [none] at before
      cases before
  · rintro rfl
    refine mem_filter.mpr ⟨Std.ExtTreeMap.mem_toList_iff_getElem?_eq_some.mpr ?_, ?_⟩
    · rw [openTool, openBlock, Std.ExtTreeMap.getElem?_insert_self]
    · have open' : outputIndex ∉ renderer.closedTools := fun member =>
        fresh (stands.closed outputIndex member)
      simpa [openTool, openBlock] using open'

theorem openTool_shifts (stands : renderer.Stands begun .idle)
    (fresh : outputIndex ∉ begun) (content : Value) :
    Shifts renderer begun .idle (renderer.openTool outputIndex content) (begun ++ [outputIndex])
      (.tool outputIndex renderer.nextContentIndex) where
  stands := {
    stands with
    tools := openTool_openTools stands fresh content
    keys := fun other => by
      rw [openTool, openBlock, Std.ExtTreeMap.mem_insert, stands.keys,
        Std.LawfulEqCmp.compare_eq_iff_eq, mem_append, mem_singleton]
      exact or_comm.trans (or_congr_right eq_comm)
    closed := fun other member => mem_append_left _ (stands.closed other member)
    below := fun index open' => by
      cases open'
      exact Nat.lt_succ_self _
    tool := fun other index found => by
      rw [openTool, openBlock, Std.ExtTreeMap.getElem?_insert] at found
      split at found
      next same =>
        rw [Std.LawfulEqCmp.compare_eq_iff_eq] at same
        cases same
        cases found
        exact ⟨Nat.lt_succ_self _, fun _ => rfl⟩
      next => exact stands.tool_below found }
  walks := by simp [openTool, openBlock, Block.index?]

section
variable (stands : renderer.Stands begun block)
include stands

theorem delta_shifts {index : Nat} (open' : block.index? = some index) (delta : Value) :
    Shifts renderer begun block (renderer, [blockDelta index delta]) begun block := by
  refine ⟨stands, ?_⟩
  rw [open']
  simp

theorem closeAll_shifts : Shifts renderer begun block renderer.closeAll begun .idle := by
  have first := closeThinking_shifts stands
  have second := closeText_shifts first.stands
  have whole := (first.andThen second).andThen (closeOpenTools_shifts second.stands)
  cases block <;> exact whole

theorem text_shifts : ∃ index, Shifts renderer begun block
      (andThen (andThen renderer.closeThinking closeOpenTools) ensureTextBlock) begun (.text index) := by
  have first := closeThinking_shifts stands
  have closed := first.andThen (closeOpenTools_shifts first.stands)
  have open' := closed.stands.text
  cases block with
  | text index =>
    refine ⟨index, closed.andThen ?_⟩
    rw [ensureTextBlock, if_pos (by rw [open']; rfl)]
    exact .refl closed.stands
  | idle | thinking | tool =>
    refine ⟨(andThen renderer.closeThinking closeOpenTools).1.nextContentIndex, closed.andThen ?_⟩
    rw [ensureTextBlock, if_neg (by rw [open']; exact Bool.false_ne_true)]
    exact openText_shifts closed.stands _

theorem thinking_shifts : ∃ index, Shifts renderer begun block renderer.ensureThinkingBlock begun
      (.thinking index) := by
  have open' := stands.thinking
  have first := closeOpenTools_shifts stands
  have closed := first.andThen (closeText_shifts first.stands)
  cases block with
  | thinking index =>
    rw [ensureThinkingBlock, if_pos (by rw [open']; rfl)]
    exact ⟨index, .refl stands⟩
  | idle | text | tool =>
    rw [ensureThinkingBlock, if_neg (by rw [open']; exact Bool.false_ne_true)]
    exact ⟨_, closed.andThen (openThinking_shifts closed.stands _)⟩

theorem tool_found (open' : block.opened = some outputIndex) :
    ∃ index, block = .tool outputIndex index ∧ renderer.toolIndices[outputIndex]? = some index := by
  cases block with
  | tool other index =>
    cases open'
    have member : (other, index) ∈ renderer.openTools := by
      rw [stands.tools]
      exact mem_singleton_self _
    exact ⟨index, rfl, (mem_openTools member).1⟩
  | idle | text | thinking => cases open'

variable {event : CodexEvent}

/-- An event that comes in order takes the message to the block it leaves open. -/
theorem renderStarted_shifts (plain : event.isTerminal = false) (tools : toolsFit begun event)
    (fits : blockFits block.opened event) : ∃ block', Shifts renderer begun block (renderer.renderStarted event)
        (beginTools begun event) block' ∧ block'.opened = openAfter block.opened event := by
  cases event with
  | created responseId =>
    refine ⟨block, ⟨?_, ?_⟩, rfl⟩
    · dsimp only [renderStarted]
      split
      · exact stands
      · exact { stands with }
    · dsimp only [renderStarted]
      split <;> rfl
  | textDelta text =>
    obtain ⟨index, shifts⟩ := text_shifts stands
    refine ⟨.text index, ?_, rfl⟩
    dsimp only [renderStarted]
    refine shifts.andThen ?_
    rw [shifts.stands.text]
    exact delta_shifts shifts.stands rfl _
  | reasoningDelta | reasoningSignature =>
    obtain ⟨index, shifts⟩ := thinking_shifts stands
    refine ⟨.thinking index, ?_, rfl⟩
    dsimp only [renderStarted]
    refine shifts.andThen ?_
    rw [shifts.stands.thinking]
    exact delta_shifts shifts.stands rfl _
  | reasoningRedacted => exact ⟨block, .refl stands, rfl⟩
  | outputLimitReached => exact ⟨block, ⟨{ stands with }, rfl⟩, rfl⟩
  | toolCallBegin outputIndex callId name =>
    have first := closeThinking_shifts stands
    have closed := first.andThen (closeText_shifts first.stands)
    cases block with
    | tool => cases fits
    | idle | text | thinking =>
      refine ⟨.tool outputIndex (andThen renderer.closeThinking closeText).1.nextContentIndex, ?_, rfl⟩
      dsimp only [renderStarted]
      exact closed.andThen (openTool_shifts closed.stands tools _)
  | toolArgsDelta outputIndex delta =>
    obtain ⟨index, rfl, found⟩ := tool_found stands fits
    refine ⟨.tool outputIndex index, ?_, rfl⟩
    dsimp only [renderStarted]
    rw [Std.ExtTreeMap.getD_eq_getD_getElem?, found]
    exact delta_shifts stands rfl _
  | completed usage => cases plain
  | failed message => cases plain

/-- An event out of order breaks the message. -/
theorem renderStarted_breaks (tools : toolsFit begun event) (misfits : ¬ blockFits block.opened event) :
    (renderer.renderStarted event).2.foldlM Phase.walk (.streaming renderer.nextContentIndex block.index?) = none := by
  cases event with
  | toolCallBegin outputIndex callId name =>
    cases block with
    | tool other index =>
      have first := closeThinking_shifts stands
      have closed := first.andThen (closeText_shifts first.stands)
      dsimp only [renderStarted]
      rw [andThen, foldlM_append, closed.walks]
      simp [openTool, openBlock, Block.index?, Block.closeText, Block.closeThinking]
    | idle | text | thinking => exact absurd rfl misfits
  | toolArgsDelta outputIndex delta =>
    have held := (stands.keys outputIndex).mpr tools
    obtain ⟨index, found⟩ := Option.isSome_iff_exists.mp (Std.ExtTreeMap.mem_iff_isSome_getElem?.mp held)
    have other : block.index? ≠ some index := by
      intro same
      refine misfits ?_
      rw [Block.opened, (stands.tool outputIndex index found).2 same]
      rfl
    dsimp only [renderStarted]
    rw [Std.ExtTreeMap.getD_eq_getD_getElem?, found, foldlM_cons, Option.getD_some, Phase.walk_blockDelta_other other]
    rfl
  | _ => exact absurd trivial misfits

theorem renderStarted_ends (terminal : event.isTerminal = true) : (renderer.renderStarted event).2.foldlM Phase.walk
        (.streaming renderer.nextContentIndex block.index?) = some .ended ∧
      (renderer.renderStarted event).1.terminated = true := by
  have closed := closeAll_shifts stands
  cases event with
  | completed | failed =>
    dsimp only [renderStarted]
    rw [andThen, foldlM_append, closed.walks]
    simp [Block.index?]
  | _ => cases terminal

end

def transcript (renderer : AnthropicStreamRenderer) (events : List CodexEvent) : List WireFrame :=
  let read := emitAll render renderer events
  read.2 ++ read.1.closeUnterminated.2

theorem transcript_cons (renderer : AnthropicStreamRenderer) (event : CodexEvent) (events : List CodexEvent) :
    transcript renderer (event :: events) =
      (renderer.render event).2 ++ transcript (renderer.render event).1 events := by
  exact append_assoc _ _ _

theorem transcript_terminated
    (done : renderer.terminated = true) (events : List CodexEvent) : transcript renderer events = [] := by
  induction events with
  | nil => exact (congrArg Prod.snd (if_pos done) : renderer.closeUnterminated.2 = [])
  | cons event events ih =>
    have silent : renderer.render event = (renderer, []) := if_pos done
    rw [transcript_cons, silent, ih]
    rfl

theorem render_started (stands : renderer.Stands begun block) (event : CodexEvent) :
    renderer.render event = renderer.renderStarted event := by
  rw [render, if_neg (by rw [stands.running]; exact Bool.false_ne_true), ensureStarted, if_pos stands.started]
  rfl

theorem transcript_iff (stands : renderer.Stands begun block) {events : List CodexEvent}
    (tools : ToolsBegun begun events) : (transcript renderer events).foldlM Phase.walk
        (.streaming renderer.nextContentIndex block.index?) = some .ended ↔ Sequential block.opened events := by
  induction events generalizing renderer begun block with
  | nil =>
    have closes : transcript renderer [] = (renderer.renderStarted
        (.failed "upstream stream ended before completion")).2 := by
      have going : ¬ renderer.terminated = true := by
        rw [stands.running]
        exact Bool.false_ne_true
      rw [← render_started stands]
      exact (congrArg Prod.snd (if_neg going) : renderer.closeUnterminated.2 = _)
    rw [closes, (renderStarted_ends stands rfl).1]
    exact ⟨fun _ => trivial, fun _ => rfl⟩
  | cons event events ih =>
    rw [transcript_cons, render_started stands, foldlM_append]
    cases terminal : event.isTerminal with
    | true =>
      obtain ⟨ends, done⟩ := renderStarted_ends stands terminal
      rw [ends, transcript_terminated done]
      exact ⟨fun _ => .inl terminal, fun _ => rfl⟩
    | false =>
      by_cases fits : blockFits block.opened event
      · obtain ⟨block', shifts, opened⟩ := renderStarted_shifts stands terminal tools.1 fits
        rw [shifts.walks, Option.bind_eq_bind, Option.bind_some, ih shifts.stands tools.2, opened]
        exact ⟨fun rest => .inr ⟨fits, rest⟩, fun holds => by
          rcases holds with ended | ⟨-, rest⟩
          · rw [terminal] at ended
            cases ended
          · exact rest⟩
      · rw [renderStarted_breaks stands tools.1 fits]
        refine ⟨fun impossible => (by cases impossible), fun holds => ?_⟩
        rcases holds with ended | ⟨now, -⟩
        · rw [terminal] at ended
          cases ended
        · exact absurd now fits

theorem stands_new (model : String) (created : Int) : Stands { new model created with started := true } [] .idle where
  started := rfl
  running := rfl
  text := rfl
  thinking := rfl
  tools := by simp [openTools, new, Block.tool?]
  keys outputIndex := by simp [new]
  closed outputIndex member := by cases member
  below index open' := by cases open'
  tool outputIndex index found := by simp [new] at found

theorem transcript_new (model : String) (created : Int) (events : List CodexEvent) :
    transcript (new model created) events = (new model created).messageStart ::
      transcript { new model created with started := true } events := by
  cases events <;> rfl

/-- The frames keep the discipline of blocks exactly if the tool calls come one
after the other. -/
theorem disciplined_iff_sequential (model : String) (created : Int) {events : List CodexEvent}
    (tools : ToolsBegun [] events) : Disciplined (transcript (new model created) events) ↔ Sequential none events := by
  unfold Disciplined
  rw [transcript_new, foldlM_cons]
  exact transcript_iff (stands_new model created) tools

namespace Sample

def twoCalls : List CodexEvent :=
  [.toolCallBegin 0 "a" "find", .toolArgsDelta 0 "\x7b\x7d", .toolCallBegin 1 "b" "open",
    .toolArgsDelta 1 "\x7b\x7d", .completed none]

/-- The second block starts before the first is stopped. -/
theorem second_call_starts_inside_first : ToolsBegun [] twoCalls ∧ ¬ Disciplined (transcript (new "m" 0) twoCalls) := by
  refine ⟨by simp [twoCalls, ToolsBegun, toolsFit, beginTools], ?_⟩
  unfold Disciplined
  decide +kernel

def oneCall : List CodexEvent :=
  [.reasoningDelta "so", .textDelta "look", .toolCallBegin 0 "a" "find",
    .toolArgsDelta 0 "\x7b\x7d", .textDelta "done", .completed none]

theorem one_call_disciplined : Disciplined (transcript (new "m" 0) oneCall) :=
  (disciplined_iff_sequential "m" 0
    (by simp [oneCall, ToolsBegun, toolsFit, beginTools])).mpr
    (by simp [oneCall, Sequential, blockFits, openAfter])

end Sample
end AnthropicStreamRenderer
end Mahoquot.Compat
