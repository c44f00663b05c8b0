import Mahoquot.Compat.Replay
import Mahoquot.Compat.Responses
import Mathlib.Data.List.Nodup

/-! What a client has heard of the items of a Responses stream, before its end. -/

set_option autoImplicit false

namespace Mahoquot.Compat
open Library ReplayItem List

attribute [local simp] Value.obj Value.set

namespace ResponsesStreamRenderer

theorem itemEvent_itemAdded (index : Nat) (item : Value) : (itemAdded index item).itemEvent = .added index := by
  simp [itemAdded, WireFrame.itemEvent, Value.ofNat, Value.asU64]

theorem itemEvent_itemDone (index : Nat) (item : Value) : (itemDone index item).itemEvent = .done index item := by
  simp [itemDone, WireFrame.itemEvent, Value.ofNat, Value.asU64, deltaNames, Value.index]

theorem itemEvent_argumentsDone (tool : ToolCallItem) :
    (argumentsDone tool).itemEvent = .argumentsDone tool.outputIndex tool.arguments := by
  simp [argumentsDone, WireFrame.itemEvent, Value.ofNat, Value.asU64, deltaNames, WireFrame.text]

/-- The three frames that carry a piece of text name it and its item alike. -/
theorem itemEvent_delta {name piece : String} {payload : Value} {index : Nat}
    (known : name ∈ deltaNames) (place : payload.get "output_index" = some (.ofNat index))
    (spoken : payload.get "delta" = some (.string piece)) :
    (WireFrame.event name payload).itemEvent = .delta index piece := by
  have other : name ≠ "response.output_item.added" := by
    rintro rfl
    revert known
    decide
  simp [WireFrame.itemEvent, WireFrame.text, place, spoken, known, other, Value.ofNat, Value.asU64]

/-- Where a renderer keeps the item of an output index. -/
inductive Slot where
  | reasoning (text : String)
  | message (text : String)
  | closed (item : Value)
  | call (tool : ToolCallItem)

def Slot.entry : Slot → ReplayItem
  | reasoning text => ⟨text, none⟩
  | message text => ⟨text, none⟩
  | closed item => ⟨(heldText item).getD "", some item⟩
  | call tool => ⟨tool.arguments, none⟩

def Holds (renderer : ResponsesStreamRenderer) (index : Nat) : Slot → Prop
  | .reasoning text => renderer.reasoningIndex = some index ∧ text = renderer.reasoningAccumulator
  | .message text => (∃ itemId, renderer.textState = .opened itemId index) ∧ text = renderer.textAccumulator
  | .closed item => renderer.closedText[index]? = some item
  | .call tool => tool ∈ renderer.tools ∧ tool.outputIndex = index

/-- Each output index given out so far is held in one place, and no other is. -/
structure Lays (renderer : ResponsesStreamRenderer) (slots : List Slot) : Prop where
  running : renderer.terminated = false
  unfailed : renderer.failure = none
  next : renderer.nextOutputIndex = slots.length
  holds : ∀ (index : Nat) slot, slots[index]? = some slot ↔ renderer.Holds index slot
  worded : ∀ (index : Nat) item, renderer.closedText[index]? = some item →
    ∃ text, heldText item = some text
  distinct : (renderer.tools.map (·.outputIndex)).Nodup
  fresh : ∀ tool ∈ renderer.tools, tool.argsDoneEmitted = false ∧ tool.itemDoneEmitted = false
  unreasoned : renderer.reasoningIndex = none → renderer.reasoningAccumulator = ""
  unopened : (∀ itemId index, renderer.textState ≠ .opened itemId index) →
    renderer.textAccumulator = ""

theorem lays_new (model : String) (created : Int) : Lays (new model created) [] where
  running := rfl
  unfailed := rfl
  next := rfl
  holds index slot := by cases slot <;> simp [Holds, new]
  worded := by simp [new]
  distinct := nodup_nil
  fresh := by simp [new]
  unreasoned _ := rfl
  unopened _ := rfl

variable {serde : Serde} {renderer : ResponsesStreamRenderer} {slots : List Slot}

namespace Lays
variable {changed : ResponsesStreamRenderer} {index : Nat} {slot other : Slot}

section
variable (lays : Lays renderer slots)
include lays

theorem unique (here : renderer.Holds index slot) (other : Slot)
    (there : renderer.Holds index other) : other = slot := by
  rw [← lays.holds] at here there
  exact Option.some.inj (there.symm.trans here)

theorem entry_eq (here : renderer.Holds index slot) : (slots.map Slot.entry)[index]? = some slot.entry := by
  rw [getElem?_map, (lays.holds index slot).mpr here]
  rfl

theorem hears (here : renderer.Holds index slot) {new : Slot} {text piece : String}
    {frame : WireFrame} (event : frame.itemEvent = .delta index piece)
    (before : slot.entry = ⟨text, none⟩) (behind : new.entry = ⟨text ++ piece, none⟩) :
    replay (slots.map Slot.entry) [frame] = some ((slots.set index new).map Slot.entry) := by
  have opened : (slots.map Slot.entry)[index]? = some ⟨text, none⟩ := before ▸ lays.entry_eq here
  rw [map_set, behind]
  apply replay_cons
  rw [event, read_delta opened]

theorem adds (slot : Slot) (item : Value) (frames : List WireFrame) (fresh : slot.entry = ⟨"", none⟩) :
    replay (slots.map Slot.entry) (itemAdded renderer.nextOutputIndex item :: frames) =
      replay ((slots ++ [slot]).map Slot.entry) frames := by
  apply replay_cons
  simp [itemEvent_itemAdded, ReplayItem.read, lays.next, fresh]

theorem next_free (slot : Slot) : ¬ renderer.Holds slots.length slot := by
  rw [← lays.holds]
  simp

theorem holds_push (more : ∀ place other, changed.Holds place other ↔
      renderer.Holds place other ∨ (place = slots.length ∧ other = slot)) (place : Nat)
    (other : Slot) : (slots ++ [slot])[place]? = some other ↔ changed.Holds place other := by
  rw [more, ← lays.holds]
  rcases Nat.lt_trichotomy place slots.length with before | rfl | behind
  · simp [getElem?_append_left before, Nat.ne_of_lt before]
  · simp [eq_comm]
  · have outside : (slots ++ [slot]).length ≤ place := by
      rw [length_append]
      exact behind
    simp [getElem?_eq_none outside, getElem?_eq_none (Nat.le_of_lt behind), Nat.ne_of_gt behind]

theorem holds_set (before : renderer.Holds index slot) {new : Slot} (moved : ∀ place other, changed.Holds place other ↔
    (renderer.Holds place other ∧ ¬ (place = index ∧ other = slot)) ∨
    (place = index ∧ other = new)) (place : Nat) (other : Slot) :
    (slots.set index new)[place]? = some other ↔ changed.Holds place other := by
  have bound : index < slots.length := (List.getElem?_eq_some_iff.mp ((lays.holds index slot).mpr before)).1
  rw [moved]
  by_cases same : place = index
  · subst same
    have only := lays.unique before other
    rw [getElem?_set_self bound]
    constructor
    · rintro ⟨⟩
      exact .inr ⟨rfl, rfl⟩
    · rintro (⟨here, other⟩ | ⟨_, rfl⟩)
      · exact absurd ⟨rfl, only here⟩ other
      · rfl
  · rw [getElem?_set_ne (Ne.symm same), lays.holds]
    simp [same]

end
end Lays

/-- The client follows a change, and the items are laid out behind it. -/
def Keeps (slots : List Slot) (changed : ResponsesStreamRenderer × List WireFrame) : Prop :=
  ∃ after, replay (slots.map Slot.entry) changed.2 = some (after.map Slot.entry) ∧
    Lays changed.1 after

namespace Keeps
variable {first : ResponsesStreamRenderer × List WireFrame}
  {second : ResponsesStreamRenderer → ResponsesStreamRenderer × List WireFrame}

theorem andThen (before : Keeps slots first) (behind : ∀ slots, Lays first.1 slots → Keeps slots (second first.1)) :
    Keeps slots (andThen first second) := by
  obtain ⟨middle, heard, lays⟩ := before
  obtain ⟨after, heardMore, laysAfter⟩ := behind middle lays
  exact ⟨after, (replay_append heard _).trans heardMore, laysAfter⟩

theorem quiet (lays : Lays renderer slots) : Keeps slots (renderer, []) :=
  ⟨slots, rfl, lays⟩

end Keeps

section
variable (lays : Lays renderer slots)
include lays

theorem ensureCreatedFrame_keeps : Keeps slots renderer.ensureCreatedFrame := by
  unfold ensureCreatedFrame
  split
  · exact .quiet lays
  · refine ⟨slots, ?_, { lays with }⟩
    apply replay_cons
    simp [WireFrame.itemEvent, ReplayItem.read]

theorem ensureReasoningItem_keeps : Keeps slots renderer.ensureReasoningItem := by
  refine (ensureCreatedFrame_keeps lays).andThen fun slots lays => ?_
  generalize renderer.ensureCreatedFrame.1 = renderer at lays
  split
  · exact .quiet lays
  · rename_i missing
    have absent : renderer.reasoningIndex = none := by simpa using missing
    refine ⟨slots ++ [.reasoning ""], ?_, ?_⟩
    · exact lays.adds (.reasoning "") _ [] rfl
    · exact { lays with
        next := by simp [lays.next]
        holds := by
          apply lays.holds_push
          intro place other
          cases other <;>
            simp [Holds, absent, lays.unreasoned absent, lays.next, eq_comm]
        unreasoned := by simp }

theorem reasoningDelta_keeps (delta : String) : Keeps slots (renderer.reasoningDelta delta) := by
  unfold reasoningDelta
  cases at_ : renderer.reasoningIndex with
  | none => exact .quiet lays
  | some index =>
    have here : renderer.Holds index (.reasoning renderer.reasoningAccumulator) := ⟨at_, rfl⟩
    refine ⟨slots.set index (.reasoning (renderer.reasoningAccumulator ++ delta)), ?_, ?_⟩
    · exact lays.hears here (itemEvent_delta (by decide) (by simp) (by simp)) rfl rfl
    · exact { lays with
        next := by simp [lays.next]
        holds := by
          apply lays.holds_set here
          intro place other
          cases other with
          | reasoning text =>
            simp only [Holds, at_, Option.some.injEq, Slot.reasoning.injEq, @eq_comm _ index place, and_not_self, false_or]
          | _ => simp [Holds]
        unreasoned := by simp }

theorem ensureTextItem_keeps : Keeps slots renderer.ensureTextItem := by
  unfold ensureTextItem
  split
  · exact .quiet lays
  · rename_i closed
    have empty : renderer.textAccumulator = "" := lays.unopened closed
    refine ⟨slots ++ [.message ""], ?_, ?_⟩
    · refine (lays.adds (.message "") _ _ rfl).trans ?_
      apply replay_cons
      simp [WireFrame.itemEvent, deltaNames, Value.ofNat, Value.asU64, ReplayItem.read]
    · exact { lays with
        next := by simp [lays.next]
        holds := by
          apply lays.holds_push
          intro place other
          cases other with
          | message text =>
            have unheld : ¬ ∃ itemId, renderer.textState = .opened itemId place := by
              rintro ⟨itemId, held⟩
              exact closed itemId place held
            simp [Holds, empty, unheld, lays.next, eq_comm]
          | _ => simp [Holds]
        unopened := by simp }

theorem textDelta_keeps (delta : String) : Keeps slots (renderer.textDelta delta) := by
  unfold textDelta
  split
  · rename_i itemId index at_
    have here : renderer.Holds index (.message renderer.textAccumulator) := ⟨⟨itemId, at_⟩, rfl⟩
    refine ⟨slots.set index (.message (renderer.textAccumulator ++ delta)), ?_, ?_⟩
    · exact lays.hears here (itemEvent_delta (by decide) (by simp) (by simp)) rfl rfl
    · exact { lays with
        next := by simp [lays.next]
        holds := by
          apply lays.holds_set here
          intro place other
          cases other with
          | message text =>
            simp only [Holds, at_, TextItemState.opened.injEq, exists_eq_left', Slot.message.injEq,
              @eq_comm _ index place, and_not_self, false_or]
          | _ => simp [Holds]
        unopened := by simp_all }
  · exact .quiet lays

end

theorem heldText_textItem (renderer : ResponsesStreamRenderer) (itemId : String) :
    heldText (renderer.textItem itemId) = some renderer.textAccumulator := by
  have kind : (renderer.textItem itemId).get "type" = some (.string "message") := by
    unfold textItem
    split <;> split <;> split <;> simp
  have content : (renderer.textItem itemId).get "content" = some (.array [.obj [
      ("type", .string "output_text"), ("text", .string renderer.textAccumulator)]]) := by
    unfold textItem
    split <;> split <;> split <;> simp
  simp [heldText, kind, content, Value.asArray]

theorem closeTextItem_keeps (lays : Lays renderer slots) : Keeps slots renderer.closeTextItem := by
  unfold closeTextItem
  split
  · rename_i itemId index at_
    have here : renderer.Holds index (.message renderer.textAccumulator) := ⟨⟨itemId, at_⟩, rfl⟩
    have held := heldText_textItem renderer itemId
    refine ⟨slots.set index (.closed (renderer.textItem itemId)), ?_, ?_⟩
    · rw [map_set, Slot.entry, held]
      apply replay_cons
      rw [itemEvent_itemDone, read_done (lays.entry_eq here)]
      rfl
    · exact { lays with
        next := by simp [lays.next]
        holds := by
          apply lays.holds_set here
          intro place other
          cases other with
          | message text => simp [Holds, at_, eq_comm]
          | closed item =>
            simp only [Holds, Std.ExtTreeMap.getElem?_insert]
            by_cases same : place = index
            · subst same
              have unheld : renderer.closedText[place]? ≠ some item :=
                fun held => nomatch lays.unique here (.closed item) held
              simp [unheld, eq_comm]
            · simp [same, Ne.symm same]
          | _ => simp [Holds]
        worded := by
          intro place item
          rw [Std.ExtTreeMap.getElem?_insert]
          split
          · rintro ⟨⟩
            exact ⟨_, held⟩
          · exact lays.worded place item
        unopened := by simp }
  · exact .quiet lays

theorem beginTool_keeps (lays : Lays renderer slots) (decoderIndex : Nat)
    (callId name : String) : Keeps slots (renderer.beginTool serde decoderIndex callId name) := by
  unfold beginTool
  dsimp only
  generalize added : ToolCallItem.mk _ renderer.nextOutputIndex decoderIndex callId name "" false
    false = tool
  have place : tool.outputIndex = slots.length := by rw [← added, ← lays.next]
  have unused : ∀ other ∈ renderer.tools, other.outputIndex ≠ slots.length :=
    fun other member same => lays.next_free (.call other) ⟨member, same⟩
  refine ⟨slots ++ [.call tool], lays.adds _ _ [] (by rw [← added]; rfl), ?_⟩
  exact { lays with
    next := by simp [lays.next]
    holds := by
      apply lays.holds_push
      intro index other
      cases other with
      | call other =>
        simp only [Holds, mem_append, mem_singleton, Slot.call.injEq, or_and_right]
        refine or_congr_right ⟨fun ⟨new, here⟩ => ⟨?_, new⟩, fun ⟨here, new⟩ => ⟨new, ?_⟩⟩
        · rw [← here, new, place]
        · rw [here, new, place]
      | _ => simp [Holds]
    distinct := by
      rw [map_append, map_singleton, place, ← concat_eq_append]
      apply Nodup.concat _ lays.distinct
      simpa using unused
    fresh := by
      rw [← added]
      exact forall_mem_append.mpr ⟨lays.fresh, forall_mem_singleton.mpr ⟨rfl, rfl⟩⟩ }

theorem addArguments_cases (decoderIndex : Nat) (delta : String) (tools : List ToolCallItem) :
    addArguments decoderIndex delta tools = (tools, []) ∨
      ∃ before tool behind frame, tools = before ++ tool :: behind ∧ addArguments decoderIndex delta tools =
          (before ++ { tool with arguments := tool.arguments ++ delta } :: behind, [frame]) ∧
        frame.itemEvent = .delta tool.outputIndex delta := by
  induction tools with
  | nil => exact .inl rfl
  | cons tool tools ih =>
    rw [addArguments]
    split
    · exact .inr ⟨[], tool, tools, _, rfl, rfl, itemEvent_delta (by decide) (by simp) (by simp)⟩
    · rcases ih with none | ⟨before, found, behind, frame, split, added, event⟩
      · rw [none]
        exact .inl rfl
      · rw [added]
        exact .inr ⟨tool :: before, found, behind, frame, by rw [split]; rfl, rfl, event⟩

theorem addArguments_keeps (lays : Lays renderer slots) (decoderIndex : Nat) (delta : String) :
    Keeps slots ({ renderer with tools := (addArguments decoderIndex delta renderer.tools).1 },
      (addArguments decoderIndex delta renderer.tools).2) := by
  rcases addArguments_cases decoderIndex delta renderer.tools with
    none | ⟨before, tool, behind, frame, split, added, event⟩
  · rw [none]
    exact .quiet lays
  · rw [added]
    have here : renderer.Holds tool.outputIndex (.call tool) := ⟨by simp [split], rfl⟩
    have apart : tool ∉ before ∧ tool ∉ behind := by
      have distinct := lays.distinct
      rw [split, map_append, map_cons, nodup_middle, nodup_cons, ← map_append] at distinct
      constructor <;> intro again <;>
        exact distinct.1 (mem_map_of_mem (by simp [again]))
    refine ⟨slots.set tool.outputIndex (.call { tool with arguments := tool.arguments ++ delta }),
      lays.hears here event rfl rfl, ?_⟩
    exact { lays with
      next := by simp [lays.next]
      holds := by
        apply lays.holds_set here
        intro place other
        cases other with
        | call other =>
          simp only [Holds, split, mem_append, mem_cons, Slot.call.injEq]
          constructor
          · rintro ⟨old | rfl | old, here⟩
            · exact .inl ⟨⟨.inl old, here⟩, fun ⟨_, same⟩ => apart.1 (same ▸ old)⟩
            · exact .inr ⟨here.symm, rfl⟩
            · exact .inl ⟨⟨.inr (.inr old), here⟩, fun ⟨_, same⟩ => apart.2 (same ▸ old)⟩
          · rintro (⟨⟨old | rfl | old, there⟩, other⟩ | ⟨there, rfl⟩)
            · exact ⟨.inl old, there⟩
            · exact absurd ⟨there.symm, rfl⟩ other
            · exact ⟨.inr (.inr old), there⟩
            · exact ⟨.inr (.inl rfl), there.symm⟩
        | _ => simp [Holds]
      distinct := by
        have distinct := lays.distinct
        rw [split] at distinct
        simpa using distinct
      fresh := by
        have fresh := lays.fresh
        simp only [split, forall_mem_append, forall_mem_cons] at fresh ⊢
        exact fresh }

/-- The client follows every event that does not end the answer. -/
theorem renderUnstamped_keeps (lays : Lays renderer slots) {event : CodexEvent}
    (going : event.isTerminal = false) : Keeps slots (renderer.renderUnstamped serde event) := by
  have running : ¬ renderer.terminated = true := by rw [lays.running]; decide
  unfold renderUnstamped
  rw [if_neg running]
  cases event with
  | created responseId =>
    dsimp only
    split
    · exact ensureCreatedFrame_keeps lays
    · exact ensureCreatedFrame_keeps { lays with }
  | reasoningDelta delta =>
    exact (ensureReasoningItem_keeps lays).andThen fun _ lays => reasoningDelta_keeps lays delta
  | reasoningSignature | reasoningRedacted =>
    exact (ensureReasoningItem_keeps lays).andThen fun _ lays => .quiet { lays with }
  | textDelta delta =>
    exact ((ensureCreatedFrame_keeps lays).andThen fun _ lays =>
      ensureTextItem_keeps lays).andThen fun _ lays => textDelta_keeps lays delta
  | toolCallBegin decoderIndex callId name =>
    exact ((ensureCreatedFrame_keeps lays).andThen fun _ lays =>
      closeTextItem_keeps lays).andThen fun _ lays =>
        beginTool_keeps lays decoderIndex callId name
  | toolArgsDelta decoderIndex delta =>
    exact (ensureCreatedFrame_keeps lays).andThen fun _ lays =>
      addArguments_keeps lays decoderIndex delta
  | outputLimitReached => exact .quiet { lays with }
  | completed usage => cases going
  | failed message => cases going

end ResponsesStreamRenderer
end Mahoquot.Compat
