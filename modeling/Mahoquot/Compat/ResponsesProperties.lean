import Mahoquot.Compat.ResponsesItemProperties
import Mahoquot.Library.Tables

/-! A Responses stream against itself: numbers, items and the response of its last frame. -/

set_option autoImplicit false

namespace Mahoquot.Compat
open Library ReplayItem Value WireFrame List
variable {frames : List WireFrame}

namespace WireFrame

/-- A frame of an object, under a name on one line. -/
def Plain : WireFrame → Prop
  | event name payload => '\n' ∉ name.toList ∧ ∃ entries, payload = .object entries
  | _ => False

/-- The library reads back the payload that it wrote. -/
def ReadBack (serde : Serde) : WireFrame → Prop
  | event _ payload => serde.fromSlice (serde.toVec payload) = .ok payload
  | _ => True

def number (frame : WireFrame) (sequence : Nat) : WireFrame :=
  match frame with
  | event name payload => event name (payload.set "sequence_number" (.ofNat sequence))
  | other => other

/-- Frames under the numbers 0, 1, 2 and on. -/
def numberAll (frames : List WireFrame) : List WireFrame :=
  frames.zipIdx.map fun (frame, sequence) => frame.number sequence

def sequenceNumber : WireFrame → Option Nat
  | event _ payload => (payload.get "sequence_number").bind Value.asU64
  | _ => none

theorem sequenceNumber_number {frame : WireFrame} (plain : frame.Plain) (sequence : Nat) :
    (frame.number sequence).sequenceNumber = some sequence := by
  cases frame with
  | event name payload =>
    obtain ⟨_, entries, rfl⟩ := plain
    simp [number, sequenceNumber, Value.ofNat, Value.asU64]
  | _ => exact False.elim plain

theorem sequenceNumber_numberAll (plain : ∀ frame ∈ frames, frame.Plain) :
    (numberAll frames).map sequenceNumber = (range (numberAll frames).length).map some := by
  have each : (numberAll frames).map sequenceNumber = (frames.zipIdx.map Prod.snd).map some := by
    rw [numberAll, map_map, map_map]
    apply map_congr_left
    rintro ⟨frame, sequence⟩ member
    exact sequenceNumber_number (plain frame (fst_mem_of_mem_zipIdx member)) sequence
  rw [each, range_eq_range']
  simp [numberAll]

end WireFrame

section Stamp
variable (serde : Serde)

theorem bytes_event (name : String) (payload : Value) : (event name payload).bytes serde =
      encodeChars ("event: ".toList ++ name.toList ++
        ("\ndata: ".toList ++ (payload.render serde.formatFloat ++ ['\n', '\n']))) := by
  simp only [encodeChars_append, bytes, Serde.toVec, Serde.toString, utf8, String.toList_ofList, append_assoc]
  rfl

theorem trimEndNewlines_object (entries : List (String × Value)) :
    trimEndNewlines ((Value.object entries).render serde.formatFloat ++ ['\n', '\n']) =
      (Value.object entries).render serde.formatFloat := by
  have closing : (Value.object entries).render serde.formatFloat =
      ('\x7b' :: renderEntries serde.formatFloat entries) ++ ['\x7d'] := by
    rw [Value.render]
  rw [trimEndNewlines, closing]
  simp

theorem stampFrame_event {name : String} {payload : Value} (next : Nat) (plain : (event name payload).Plain)
    (readBack : (event name payload).ReadBack serde) : stampFrame serde next ((event name payload).bytes serde) =
      (next + 1, [((event name payload).number next).bytes serde]) := by
  obtain ⟨oneLine, entries, rfl⟩ := plain
  have clear : '\n' ∉ "event: ".toList ++ name.toList := by
    rw [mem_append]
    rintro (inside | inside)
    · revert inside
      decide
    · exact oneLine inside
  have read : serde.fromSlice (utf8 (String.ofList
      ((Value.object entries).render serde.formatFloat))) = .ok (.object entries) := readBack
  have found : Text.findChars? "\ndata: ".toList (fromUtf8Lossy ((event name (.object entries)).bytes serde)) =
        some ("event: ".toList ++ name.toList,
          (Value.object entries).render serde.formatFloat ++ ['\n', '\n']) := by
    rw [bytes_event, fromUtf8Lossy_encodeChars]
    exact Text.findChars?_first clear "data: ".toList _
  rw [stampFrame, found]
  dsimp only
  rw [trimEndNewlines_object, read]
  simp [WireFrame.number, bytes, Value.set, utf8]

/-- Frames that are read back go out under the next numbers, one each. -/
theorem stampSequence_eq (next : Nat)
    (plain : ∀ frame ∈ frames, frame.Plain) (readBack : ∀ frame ∈ frames, frame.ReadBack serde) :
    stampSequence serde next (frames.map (·.bytes serde)) = (next + frames.length,
        (frames.zipIdx next).map fun (frame, sequence) => (frame.number sequence).bytes serde) := by
  induction frames generalizing next with
  | nil => rfl
  | cons frame frames ih =>
    have first : stampFrame serde next (frame.bytes serde) =
        (next + 1, [(frame.number next).bytes serde]) := by
      have here := plain frame mem_cons_self
      cases frame with
      | event name payload => exact stampFrame_event serde next here (readBack _ mem_cons_self)
      | data payload => exact absurd here id
      | done => exact absurd here id
    have rest := ih (next + 1) (fun frame member => plain frame (mem_cons_of_mem _ member))
      fun frame member => readBack frame (mem_cons_of_mem _ member)
    rw [stampSequence] at rest ⊢
    rw [map_cons, emitAll_cons, first, rest, zipIdx_cons, Nat.add_assoc, Nat.add_comm 1]
    rfl

theorem stampSequence_numberAll (plain : ∀ frame ∈ frames, frame.Plain)
    (readBack : ∀ frame ∈ frames, frame.ReadBack serde) : (stampSequence serde 0 (frames.map (·.bytes serde))).2 =
      (numberAll frames).map (·.bytes serde) := by
  rw [stampSequence_eq serde 0 plain readBack, numberAll, map_map]
  rfl

end Stamp

namespace ResponsesStreamRenderer
variable {serde : Serde} {renderer : ResponsesStreamRenderer} {slots : List Slot}

theorem plain_obj {name : String} {entries : List (String × Value)}
    (oneLine : '\n' ∉ name.toList) : (event name (.obj entries)).Plain :=
  ⟨oneLine, _, rfl⟩

theorem plain_ensureCreatedFrame : ∀ frame ∈ renderer.ensureCreatedFrame.2, frame.Plain := by
  unfold ensureCreatedFrame
  split <;> simp +decide [plain_obj]

theorem plain_addArguments (decoderIndex : Nat) (delta : String) (tools : List ToolCallItem) :
    ∀ frame ∈ (addArguments decoderIndex delta tools).2, frame.Plain := by
  fun_induction addArguments with
  | case1 => simp
  | case2 => simpa using plain_obj (by decide)
  | case3 _ _ _ _ ih => exact ih

theorem plain_closeItems : ∀ frame ∈ (renderer.closeItems serde).2, frame.Plain := by
  have done (index : Nat) (item : Value) : (itemDone index item).Plain := plain_obj (by decide)
  have arguments (tool : ToolCallItem) : (argumentsDone tool).Plain := plain_obj (by decide)
  simp only [closeItems, andThen, forall_mem_append]
  refine ⟨⟨?_, ?_⟩, ?_⟩
  · unfold closeReasoningItem
    cases renderer.reasoningIndex <;> simp [done]
  · unfold closeTextItem
    split <;> simp [done]
  · simp only [closeToolItems, closeToolItem]
    grind

theorem plain_renderUnstamped (event : CodexEvent) :
    ∀ frame ∈ (renderer.renderUnstamped serde event).2, frame.Plain := by
  unfold renderUnstamped
  split
  · simp
  · cases event with
    | toolArgsDelta => exact forall_mem_append.mpr ⟨plain_ensureCreatedFrame, plain_addArguments _ _ _⟩
    | completed =>
      simp only [andThen, forall_mem_append]
      refine ⟨⟨plain_ensureCreatedFrame, plain_closeItems⟩, ?_⟩
      unfold completeResponse
      dsimp only
      split <;> simp +decide [plain_obj]
    | failed =>
      simp only [andThen, failResponse, forall_mem_append, forall_mem_singleton]
      exact ⟨plain_closeItems, plain_obj (by decide)⟩
    | _ =>
      simp only [andThen, ensureCreatedFrame, ensureReasoningItem, reasoningDelta, ensureTextItem,
        textDelta, beginTool, closeTextItem, itemAdded, itemDone]
      repeat' split
      all_goals simp +decide [plain_obj]

theorem renderUnstamped_nextSequence (event : CodexEvent) :
    (renderer.renderUnstamped serde event).1.nextSequence = renderer.nextSequence := by
  unfold renderUnstamped
  split
  · rfl
  · cases event <;>
      simp only [andThen, ensureCreatedFrame, ensureReasoningItem, reasoningDelta, ensureTextItem,
        textDelta, beginTool, closeItems, closeTextItem, closeReasoningItem, closeToolItems,
        completeResponse, failResponse]
    all_goals grind

variable (serde) (renderer)

def reasoningPlace : Option (Nat × Slot) :=
  renderer.reasoningIndex.map fun index => (index, .reasoning renderer.reasoningAccumulator)

def messagePlace : Option (Nat × Slot) :=
  match renderer.textState with
  | .opened _ index => some (index, .message renderer.textAccumulator)
  | _ => none

def callPlaces : List (Nat × Slot) :=
  renderer.tools.map fun tool => (tool.outputIndex, .call tool)

/-- The indices whose items the end of the answer finishes, in its order. -/
def openPlaces : List (Nat × Slot) :=
  renderer.reasoningPlace.toList ++ renderer.messagePlace.toList ++ renderer.callPlaces

def finalItem (index : Nat) : Slot → Value
  | .reasoning _ => renderer.reasoningItem index
  | .message _ =>
    match renderer.textState with
    | .opened itemId _ => renderer.textItem itemId
    | _ => .null
  | .closed item => item
  | .call tool => tool.value serde renderer.itemStatus

def finalEntry (index : Nat) (slot : Slot) : ReplayItem :=
  ⟨slot.entry.text, some (renderer.finalItem serde index slot)⟩

def closing (place : Nat × Slot) : Closing where
  index := place.1
  item := renderer.finalItem serde place.1 place.2
  frames :=
    (match place.2 with
      | .call tool => [argumentsDone tool]
      | _ => []) ++ [itemDone place.1 (renderer.finalItem serde place.1 place.2)]

variable {serde} {renderer} {index : Nat}

theorem mem_openPlaces {slot : Slot} : (index, slot) ∈ renderer.openPlaces ↔
      renderer.Holds index slot ∧ slot.entry.finished = none := by
  have message : renderer.messagePlace = some (index, slot) ↔
      (∃ itemId, renderer.textState = .opened itemId index) ∧
        slot = .message renderer.textAccumulator := by
    unfold messagePlace
    cases renderer.textState <;> simp [eq_comm]
  simp only [openPlaces, mem_append, Option.mem_toList, message, reasoningPlace, callPlaces]
  cases slot <;> simp [Holds, Slot.entry, eq_comm]

theorem openPlaces_nodup (lays : Lays renderer slots) : renderer.openPlaces.Nodup := by
  have calls : renderer.callPlaces.Nodup := by
    apply Nodup.of_map Prod.fst
    rw [callPlaces, map_map]
    exact lays.distinct
  rw [callPlaces] at calls
  unfold openPlaces reasoningPlace messagePlace callPlaces
  cases renderer.reasoningIndex <;> cases renderer.textState <;> simp [calls]

/-- The end of the answer has one closing for each open index. -/
theorem closings_distinct (lays : Lays renderer slots) :
    ((renderer.openPlaces.map (renderer.closing serde)).map (·.index)).Nodup := by
  rw [map_map]
  apply Nodup.map_on _ (openPlaces_nodup lays)
  rintro ⟨index, slot⟩ here ⟨place, other⟩ there same
  obtain rfl : index = place := same
  rw [lays.unique (mem_openPlaces.mp here).1 other (mem_openPlaces.mp there).1]

theorem closing_closes {slot : Slot} (place : (index, slot) ∈ renderer.openPlaces) :
    (renderer.closing serde (index, slot)).Closes slot.entry.text := by
  obtain ⟨holds, _⟩ := mem_openPlaces.mp place
  cases slot with
  | call tool =>
    right
    simp [closing, itemEvent_argumentsDone, itemEvent_itemDone, holds.2, Slot.entry]
  | _ =>
    left
    simp [closing, itemEvent_itemDone]

/-- The client follows the closings, and has every item finished behind them. -/
theorem replay_openPlaces (lays : Lays renderer slots) :
    replay (slots.map Slot.entry) ((renderer.openPlaces.map (renderer.closing serde)).flatMap
      (·.frames)) = some (slots.mapIdx (renderer.finalEntry serde)) := by
  have opened : ∀ closing ∈ renderer.openPlaces.map (renderer.closing serde), ∃ text,
      (slots.map Slot.entry)[closing.index]? = some ⟨text, none⟩ ∧ closing.Closes text := by
    rintro _ member
    obtain ⟨⟨index, slot⟩, place, rfl⟩ := mem_map.mp member
    obtain ⟨holds, unfinished⟩ := mem_openPlaces.mp place
    refine ⟨slot.entry.text, ?_, closing_closes place⟩
    rw [← unfinished]
    exact lays.entry_eq holds
  obtain ⟨finished, replayed, closed, kept⟩ := replay_closings (closings_distinct lays) opened
  have untouched (index : Nat) (none : ∀ slot, (index, slot) ∉ renderer.openPlaces) :
      finished[index]? = (slots.map Slot.entry)[index]? := by
    apply kept
    rw [map_map]
    intro member
    obtain ⟨⟨_, slot⟩, place, rfl⟩ := mem_map.mp member
    exact none slot place
  rw [replayed, Option.some.injEq]
  apply ext_getElem?
  intro index
  rw [getElem?_mapIdx]
  cases found : slots[index]? with
  | none =>
    rw [untouched, getElem?_map, found]
    · rfl
    · intro slot place
      have holds := (mem_openPlaces.mp place).1
      rw [← lays.holds, found] at holds
      cases holds
  | some slot =>
    have holds := (lays.holds index slot).mp found
    cases state : slot.entry.finished with
    | none =>
      have place := mem_openPlaces.mpr ⟨holds, state⟩
      obtain ⟨text, before, behind⟩ := closed _ (mem_map_of_mem place)
      have heard : slot.entry = ⟨text, none⟩ := Option.some.inj ((lays.entry_eq holds).symm.trans before)
      refine behind.trans ?_
      rw [Option.map_some, finalEntry, heard]
      rfl
    | some item =>
      rw [untouched, lays.entry_eq holds]
      · cases slot with
        | closed item => rfl
        | _ => cases state
      · intro other place
        obtain ⟨holdsToo, unfinished⟩ := mem_openPlaces.mp place
        rw [lays.unique holds other holdsToo, state] at unfinished
        cases unfinished

theorem closeItems_frames (lays : Lays renderer slots) : (renderer.closeItems serde).2 =
      (renderer.openPlaces.map (renderer.closing serde)).flatMap (·.frames) := by
  have reasoning : renderer.closeReasoningItem.2 =
      (renderer.reasoningPlace.toList.map (renderer.closing serde)).flatMap (·.frames) := by
    unfold closeReasoningItem reasoningPlace
    cases renderer.reasoningIndex <;> rfl
  have message : renderer.closeTextItem.2 =
      (renderer.messagePlace.toList.map (renderer.closing serde)).flatMap (·.frames) := by
    unfold closeTextItem messagePlace
    cases state : renderer.textState with
    | opened itemId index => simp [closing, finalItem, state]
    | _ => rfl
  have same : renderer.closeTextItem.1.itemStatus = renderer.itemStatus ∧
      renderer.closeTextItem.1.tools = renderer.tools := by
    unfold closeTextItem
    cases renderer.textState <;> exact ⟨rfl, rfl⟩
  have calls : (renderer.closeTextItem.1.closeToolItems serde).2 =
      (renderer.callPlaces.map (renderer.closing serde)).flatMap (·.frames) := by
    rw [closeToolItems, callPlaces, map_map, flatMap_map, same.2]
    apply flatMap_congr
    intro tool member
    simp [closeToolItem, closing, finalItem, lays.fresh tool member, same.1]
  rw [openPlaces, map_append, map_append, flatMap_append, flatMap_append, ← reasoning, ← message, ← calls]
  rfl

theorem getElem?_outputItems_call {tool : ToolCallItem}
    (distinct : (renderer.tools.map (·.outputIndex)).Nodup) (member : tool ∈ renderer.tools) :
    (renderer.outputItems serde)[tool.outputIndex]? = some (tool.value serde renderer.itemStatus) := by
  exact getElem?_foldl_insert_of_mem distinct member

theorem getElem?_outputItems_other (uncalled : index ∉ renderer.tools.map (·.outputIndex))
    (unopened : ∀ itemId place, renderer.textState ≠ .opened itemId place) : (renderer.outputItems serde)[index]? =
      if renderer.reasoningIndex = some index then some (renderer.reasoningItem index)
      else renderer.closedText[index]? := by
  unfold outputItems
  rw [getElem?_foldl_insert_of_notMem uncalled]
  split
  · next itemId place opened => exact absurd opened (unopened itemId place)
  · cases renderer.reasoningIndex with
    | none => rw [if_neg nofun]
    | some place =>
      rw [Std.ExtTreeMap.getElem?_insert]
      by_cases same : place = index
      · simp [same]
      · simp [same]

/-- What closing the items leaves of a renderer. -/
structure Closed (renderer closed : ResponsesStreamRenderer) : Prop where
  unopened : ∀ itemId index, closed.textState ≠ .opened itemId index
  reasoningIndex : closed.reasoningIndex = renderer.reasoningIndex
  reasoningItem : closed.reasoningItem = renderer.reasoningItem
  itemStatus : closed.itemStatus = renderer.itemStatus
  tools : closed.tools = renderer.tools.map fun tool =>
    { tool with argsDoneEmitted := true, itemDoneEmitted := true }
  failure : closed.failure = renderer.failure
  message : ∀ itemId (index : Nat), renderer.textState = .opened itemId index →
    closed.closedText[index]? = some (renderer.textItem itemId)
  others : ∀ index : Nat, (∀ itemId, renderer.textState ≠ .opened itemId index) →
    closed.closedText[index]? = renderer.closedText[index]?

theorem closeItems_closed : Closed renderer (renderer.closeItems serde).1 := by
  unfold closeItems andThen closeReasoningItem closeToolItems closeTextItem
  cases state : renderer.textState with
  | opened itemId place =>
    refine ⟨nofun, rfl, rfl, rfl, rfl, rfl, ?_, ?_⟩
    · intro itemId index same
      cases state.symm.trans same
      exact Std.ExtTreeMap.getElem?_insert_self
    · intro index elsewhere
      have other : place ≠ index := fun same => elsewhere itemId (same ▸ state)
      simp [Std.ExtTreeMap.getElem?_insert, other]
  | _ => exact ⟨by simp [state], rfl, rfl, rfl, rfl, rfl, by simp [state], fun _ _ => rfl⟩

/-- The output of a response whose items are closed is the items the client has. -/
theorem outputItems_closeItems (lays : Lays renderer slots) (index : Nat) :
    ((renderer.closeItems serde).1.outputItems serde)[index]? = slots[index]?.map (renderer.finalItem serde index) := by
  have closed : Closed renderer (renderer.closeItems serde).1 := closeItems_closed
  generalize (renderer.closeItems serde).1 = after at closed
  have indices : after.tools.map (·.outputIndex) = renderer.tools.map (·.outputIndex) := by
    rw [closed.tools, map_map]
    rfl
  by_cases called : index ∈ renderer.tools.map (·.outputIndex)
  · obtain ⟨tool, member, rfl⟩ := mem_map.mp called
    have slot := (lays.holds tool.outputIndex (.call tool)).mpr ⟨member, rfl⟩
    have flagged : { tool with argsDoneEmitted := true, itemDoneEmitted := true } ∈
        after.tools := by
      rw [closed.tools]
      exact mem_map_of_mem member
    refine (getElem?_outputItems_call (indices ▸ lays.distinct) flagged).trans ?_
    rw [slot, closed.itemStatus]
    rfl
  · rw [getElem?_outputItems_other (indices ▸ called) closed.unopened, closed.reasoningIndex, closed.reasoningItem]
    cases found : slots[index]? with
    | none =>
      have free (slot : Slot) : ¬ renderer.Holds index slot := by simp [← lays.holds, found]
      have unread : renderer.closedText[index]? = none :=
        Option.eq_none_iff_forall_ne_some.mpr fun item => free (.closed item)
      rw [if_neg fun reasons => free (.reasoning _) ⟨reasons, rfl⟩,
        closed.others index fun itemId opened => free (.message _) ⟨⟨itemId, opened⟩, rfl⟩, unread]
      rfl
    | some slot =>
      have holds := (lays.holds index slot).mp found
      cases slot with
      | reasoning text =>
        rw [if_pos holds.1]
        rfl
      | message text =>
        obtain ⟨itemId, opened⟩ := holds.1
        rw [if_neg, closed.message itemId index opened, Option.map_some, finalItem, opened]
        intro reasons
        cases lays.unique holds (.reasoning _) ⟨reasons, rfl⟩
      | closed item =>
        rw [if_neg, closed.others, holds]
        · rfl
        · intro itemId opened
          cases lays.unique holds (.message _) ⟨⟨itemId, opened⟩, rfl⟩
        · intro reasons
          cases lays.unique holds (.reasoning _) ⟨reasons, rfl⟩
      | call tool => exact absurd (holds.2 ▸ mem_map_of_mem holds.1) called

theorem heldText_reasoningItem (index : Nat) :
    heldText (renderer.reasoningItem index) = some renderer.reasoningAccumulator := by
  have kind : (renderer.reasoningItem index).get "type" = some (.string "reasoning") := by
    unfold reasoningItem
    cases renderer.reasoningSignature <;> simp [Value.obj]
  have summary : (renderer.reasoningItem index).get "summary" =
      some (if renderer.reasoningAccumulator.isEmpty then .array []
        else .array [.obj [("type", .string "summary_text"),
          ("text", .string renderer.reasoningAccumulator)]]) := by
    unfold reasoningItem
    cases renderer.reasoningSignature <;> simp [Value.obj]
  by_cases empty : renderer.reasoningAccumulator.isEmpty = true
  · have none : renderer.reasoningAccumulator = "" := by simpa using empty
    simp [heldText, kind, summary, none, asArray]
  · simp [heldText, kind, summary, empty, asArray, obj]

theorem finalEntry_spelled (lays : Lays renderer slots) {slot : Slot}
    (holds : renderer.Holds index slot) : (renderer.finalEntry serde index slot).Spelled := by
  cases slot with
  | reasoning text =>
    refine ⟨_, rfl, .inl ?_⟩
    rw [holds.2]
    exact heldText_reasoningItem index
  | message text =>
    obtain ⟨⟨itemId, opened⟩, rfl⟩ := holds
    refine ⟨_, rfl, .inl ?_⟩
    rw [finalItem, opened]
    exact heldText_textItem renderer itemId
  | closed item =>
    obtain ⟨text, held⟩ := lays.worded index item holds
    refine ⟨_, rfl, .inl ?_⟩
    simp [finalItem, finalEntry, Slot.entry, held]
  | call tool =>
    refine ⟨_, rfl, ?_⟩
    simp only [finalItem, finalEntry, Slot.entry, ToolCallItem.value]
    split
    · simp [obj]
    · simp [heldText, obj]

/-- How a stream ends: the last frame carries the response that a call without a
stream returns, with the items the client has, or the message that it fails with. -/
def Ends (serde : Serde) (renderer : ResponsesStreamRenderer) (items : List ReplayItem) : WireFrame → Prop
  | .event name payload =>
    match renderer.failure with
    | none =>
      (name = "response.completed" ∨ name = "response.incomplete") ∧
        payload.get "response" = some (renderer.currentResponse serde) ∧
        ∃ output, (renderer.currentResponse serde).get "output" = some (.array output) ∧
          items.map (·.finished) = output.map some
    | some message =>
      name = "response.failed" ∧
        payload.pointer ["response", "error", "message"] = some (.string message)
  | _ => False

/-- A renderer behind its last frame. -/
structure Ended (serde : Serde) (slots : List Slot) (rendered : ResponsesStreamRenderer × List WireFrame) : Prop where
  halted : rendered.1.terminated = true
  ending : ∃ frames last items, rendered.2 = frames ++ [last] ∧
    replay (slots.map Slot.entry) rendered.2 = some items ∧ (∀ item ∈ items, item.Spelled) ∧
    Ends serde rendered.1 items last

theorem get_output (renderer : ResponsesStreamRenderer) : (renderer.currentResponse serde).get "output" =
      some (.array ((renderer.outputItems serde).toList.map Prod.snd)) := by
  unfold currentResponse
  cases renderer.failure <;> cases renderer.outputLimitReached <;>
    simp [Value.obj, Value.set]

theorem replay_closeItems (lays : Lays renderer slots) : replay (slots.map Slot.entry) (renderer.closeItems serde).2 =
      some (slots.mapIdx (renderer.finalEntry serde)) := by
  rw [closeItems_frames lays]
  exact replay_openPlaces lays

theorem spelled_closeItems (lays : Lays renderer slots) :
    ∀ item ∈ slots.mapIdx (renderer.finalEntry serde), item.Spelled := by
  intro item member
  obtain ⟨index, bound, rfl⟩ := mem_mapIdx.mp member
  exact finalEntry_spelled lays ((lays.holds index _).mp (getElem?_eq_getElem bound))

/-- An answer ends with its items closed, and one frame behind them. -/
theorem ended_of_last (lays : Lays renderer slots)
    {final : ResponsesStreamRenderer → ResponsesStreamRenderer × List WireFrame} {last : WireFrame}
    (halted : (final (renderer.closeItems serde).1).1.terminated = true)
    (only : (final (renderer.closeItems serde).1).2 = [last]) (aside : last.itemEvent = .other)
    (ends : Ends serde (final (renderer.closeItems serde).1).1 (slots.mapIdx (renderer.finalEntry serde)) last) :
    Ended serde slots (andThen (renderer.closeItems serde) final) := by
  refine ⟨halted, (renderer.closeItems serde).2, last, slots.mapIdx (renderer.finalEntry serde), ?_,
    ?_, spelled_closeItems lays, ends⟩
  · rw [andThen, only]
  · rw [andThen, only]
    refine (replay_append (replay_closeItems lays) _).trans ?_
    apply replay_cons
    rw [aside]
    rfl

theorem completed_ends (lays : Lays renderer slots) (usage : Option Usage) :
    Ended serde slots (andThen (renderer.closeItems serde) (completeResponse serde usage)) := by
  apply ended_of_last lays rfl rfl
  · simp [itemEvent, obj]
  · have unfailed : (renderer.closeItems serde).1.failure = none := closeItems_closed.failure.trans lays.unfailed
    have items (index : Nat) : ((renderer.closeItems serde).1.outputItems serde)[index]? =
        slots[index]?.map (renderer.finalItem serde index) := outputItems_closeItems lays index
    simp only [completeResponse, unfailed]
    refine ⟨?_, by simp [obj], slots.mapIdx (renderer.finalItem serde), ?_, ?_⟩
    · split
      · exact .inr rfl
      · exact .inl rfl
    · rw [get_output]
      refine congrArg (some ∘ array) (map_snd_toList fun index => ?_)
      rw [getElem?_mapIdx]
      exact items index
    · apply ext_getElem?
      simp [finalEntry, Function.comp_def]

theorem failed_ends (lays : Lays renderer slots) (message : String) :
    Ended serde slots (andThen (renderer.closeItems serde) (failResponse message)) := by
  apply ended_of_last lays rfl rfl
  · simp [itemEvent, obj]
  · exact ⟨rfl, by simp [pointer, obj]⟩

variable (serde)

def draft (renderer : ResponsesStreamRenderer) (event : CodexEvent) : ResponsesStreamRenderer × List WireFrame :=
  ((renderer.render serde event).1, (renderer.renderUnstamped serde event).2)

def unfinished : CodexEvent := .failed "upstream stream ended before completion"

def drafts (events : List CodexEvent) (model : String) (created : Int) : List WireFrame :=
  (emitAll (draft serde) (new model created) (events ++ [unfinished])).2

def streamed (events : List CodexEvent) (model : String) (created : Int) : List Bytes :=
  let rendered := emitAll (render serde) (new model created) events
  rendered.2 ++ (rendered.1.closeUnterminated serde).2

variable {serde}

theorem streamed_eq (events : List CodexEvent) (model : String) (created : Int) : streamed serde events model created =
      (emitAll (render serde) (new model created) (events ++ [unfinished])).2 := by
  rw [emitAll_append, emitAll_cons, emitAll_nil, append_nil]
  rfl

theorem emitAll_draft_state (renderer : ResponsesStreamRenderer) (events : List CodexEvent) :
    (emitAll (draft serde) renderer events).1 = (emitAll (render serde) renderer events).1 := by
  induction events generalizing renderer with
  | nil => rfl
  | cons event events ih => exact ih _

/-- The bytes of a run are its frames, numbered from where the renderer stands. -/
theorem emitAll_render_bytes (renderer : ResponsesStreamRenderer) (events : List CodexEvent) :
    (emitAll (render serde) renderer events).2 = (stampSequence serde renderer.nextSequence
        ((emitAll (draft serde) renderer events).2.map (·.bytes serde))).2 := by
  induction events generalizing renderer with
  | nil => rfl
  | cons event events ih =>
    have stamp : ((renderer.render serde event).1.nextSequence, (renderer.render serde event).2) =
        stampSequence serde renderer.nextSequence ((renderer.renderUnstamped serde event).2.map (·.bytes serde)) := by
      rw [render, stamped, renderUnstamped_nextSequence]
    obtain ⟨next, here⟩ := Prod.ext_iff.mp stamp
    dsimp only at next here
    rw [emitAll_cons, emitAll_cons, ih, here, next, map_append]
    simp only [stampSequence, emitAll_append]
    rfl

theorem emitAll_draft_plain (renderer : ResponsesStreamRenderer) (events : List CodexEvent) :
    ∀ frame ∈ (emitAll (draft serde) renderer events).2, frame.Plain := by
  apply emitAll_forall
  intro renderer event
  exact plain_renderUnstamped event

theorem render_over (halted : renderer.terminated = true) (event : CodexEvent) :
    renderer.render serde event = (renderer, []) := by
  unfold render renderUnstamped
  rw [if_pos halted]
  rfl

theorem draft_over (halted : renderer.terminated = true) (event : CodexEvent) :
    renderer.draft serde event = (renderer, []) := by
  unfold draft renderUnstamped
  rw [render_over halted, if_pos halted]

theorem renderUntilTerminated_eq (renderer : ResponsesStreamRenderer) (events : List CodexEvent) :
    renderUntilTerminated serde renderer events = (emitAll (render serde) renderer events).1 := by
  induction events generalizing renderer with
  | nil => rfl
  | cons event events ih =>
    rw [renderUntilTerminated, emitAll_cons]
    split
    · next halted => rw [emitAll_still (render_over halted)]
    · exact ih _

/-- A call without a stream runs the same renderer over the same events. -/
theorem responsesResponse_eq (events : List CodexEvent) (model : String) (created : Int) :
    responsesResponse serde events model created =
      let final := (emitAll (draft serde) (new model created) (events ++ [unfinished])).1
      match final.failure with
      | some message => .error message
      | none => .ok (final.currentResponse serde) := by
  have closed : (emitAll (draft serde) (new model created) (events ++ [unfinished])).1 =
      let renderer := (emitAll (render serde) (new model created) events).1
      if renderer.terminated then renderer else (renderer.closeUnterminated serde).1 := by
    rw [emitAll_draft_state, emitAll_append, emitAll_cons]
    dsimp only
    split
    · next halted => rw [render_over halted]; rfl
    · rfl
  rewrite [responsesResponse, renderUntilTerminated_eq, closed]
  rfl

namespace Ended
variable {rendered : ResponsesStreamRenderer × List WireFrame}

theorem prepend {after : List Slot} (heard : replay (slots.map Slot.entry) frames = some (after.map Slot.entry))
    (ended : Ended serde after rendered) : Ended serde slots (rendered.1, frames ++ rendered.2) := by
  obtain ⟨halted, before, last, items, split, replayed, spelled, ends⟩ := ended
  refine ⟨halted, frames ++ before, last, items, ?_, ?_, spelled, ends⟩
  · rw [split, append_assoc]
  · exact (replay_append heard _).trans replayed

/-- The numbers do not change how an answer ends. -/
theorem stamped (ended : Ended serde slots rendered) : Ended serde slots ((stamped serde rendered).1, rendered.2) :=
  ⟨ended.halted, ended.ending⟩

end Ended

theorem renderUnstamped_ends (lays : Lays renderer slots) {event : CodexEvent}
    (terminal : event.isTerminal = true) : Ended serde slots (renderer.renderUnstamped serde event) := by
  have running : ¬ renderer.terminated = true := by rw [lays.running]; decide
  unfold renderUnstamped
  rw [if_neg running]
  cases event with
  | completed usage =>
    obtain ⟨after, heard, laysAfter⟩ := ensureCreatedFrame_keeps lays
    have ended : Ended serde after _ := completed_ends laysAfter usage
    simpa only [andThen, append_assoc] using ended.prepend heard
  | failed message => exact failed_ends lays message
  | _ => cases terminal

/-- Every run of a renderer that its client follows ends as it should. -/
theorem run_ends (lays : Lays renderer slots) (events : List CodexEvent) :
    Ended serde slots (emitAll (draft serde) renderer (events ++ [unfinished])) := by
  induction events generalizing renderer slots with
  | nil =>
    have ended : Ended serde slots (renderer.draft serde unfinished) := (renderUnstamped_ends lays rfl).stamped
    simpa [emitAll_cons] using ended
  | cons event events ih =>
    rw [cons_append, emitAll_cons]
    cases terminal : event.isTerminal with
    | true =>
      have ended : Ended serde slots (renderer.draft serde event) := (renderUnstamped_ends lays terminal).stamped
      rw [emitAll_still (draft_over ended.halted), append_nil]
      exact ended
    | false =>
      have keeps : Keeps slots (renderer.renderUnstamped serde event) := renderUnstamped_keeps lays terminal
      obtain ⟨after, heard, laysAfter⟩ := keeps
      have numbered : Lays (renderer.draft serde event).1 after := { laysAfter with }
      exact (ih numbered).prepend heard

theorem itemEvent_number {frame : WireFrame} (plain : frame.Plain) (sequence : Nat) :
    (frame.number sequence).itemEvent = frame.itemEvent := by
  cases frame with
  | event name payload =>
    obtain ⟨_, entries, rfl⟩ := plain
    simp [WireFrame.number, WireFrame.itemEvent, WireFrame.text, index]
  | _ => exact False.elim plain

theorem replay_numberAll (plain : ∀ frame ∈ frames, frame.Plain) :
    replay [] (numberAll frames) = replay [] frames := by
  have events : (numberAll frames).map (·.itemEvent) =
      (frames.zipIdx.map Prod.fst).map (·.itemEvent) := by
    rw [numberAll, map_map, map_map]
    apply map_congr_left
    rintro ⟨frame, sequence⟩ member
    exact itemEvent_number (plain frame (fst_mem_of_mem_zipIdx member)) sequence
  rw [replay, replay, events, zipIdx_map_fst]

/-- The frames of a stream are numbered 0, 1, 2 and on; a client rebuilds from them every
item, done once and holding the text that was streamed of it; and a call that does not
stream returns the response of the last frame, or fails with its message. -/
theorem stream_self_consistent (serde : Serde) (events : List CodexEvent) (model : String)
    (created : Int) (readBack : ∀ frame ∈ drafts serde events model created, frame.ReadBack serde) :
    ∃ (frames : List WireFrame) (items : List ReplayItem) (name : String) (payload : Value),
      streamed serde events model created = frames.map (·.bytes serde) ∧
      frames.map (·.sequenceNumber) = (range frames.length).map some ∧
      replay [] frames = some items ∧ (∀ item ∈ items, item.Spelled) ∧
      frames.getLast? = some (.event name payload) ∧
      match responsesResponse serde events model created with
      | .ok response =>
        (name = "response.completed" ∨ name = "response.incomplete") ∧
          payload.get "response" = some response ∧
          ∃ output, response.get "output" = some (.array output) ∧
            items.map (·.finished) = output.map some
      | .error message =>
        name = "response.failed" ∧
          payload.pointer ["response", "error", "message"] = some (.string message) := by
  have plain : ∀ frame ∈ drafts serde events model created, frame.Plain := emitAll_draft_plain _ _
  obtain ⟨_, before, last, items, split, heard, spelled, ends⟩ :=
    (run_ends (lays_new model created) events : Ended serde [] _)
  change drafts serde events model created = before ++ [last] at split
  have numbered : streamed serde events model created =
      (numberAll (drafts serde events model created)).map (·.bytes serde) := by
    rw [streamed_eq, emitAll_render_bytes]
    exact stampSequence_numberAll serde plain readBack
  have lastPlain : last.Plain := plain last (by rw [split]; simp)
  cases last with
  | event name payload =>
    obtain ⟨_, entries, rfl⟩ := lastPlain
    refine ⟨_, items, name, (object entries).set "sequence_number" (.ofNat before.length),
      numbered, sequenceNumber_numberAll plain, (replay_numberAll plain).trans heard,
      spelled, ?_, ?_⟩
    · rw [split, WireFrame.numberAll]
      simp [WireFrame.number]
    · rw [responsesResponse_eq]
      dsimp only [Ends] at ends ⊢
      generalize (emitAll (draft serde) (new model created) (events ++ [unfinished])).1 =
        final at ends ⊢
      cases failure : final.failure with
      | none =>
        rw [failure] at ends
        obtain ⟨named, carried, output⟩ := ends
        exact ⟨named, by rw [get_set, if_neg (by decide), carried], output⟩
      | some message =>
        rw [failure] at ends
        obtain ⟨named, carried⟩ := ends
        refine ⟨named, ?_⟩
        rw [pointer, foldlM_cons, get_set]
        exact carried
  | _ => exact False.elim lastPlain

namespace Sample

def message (status : String) (content : List Value) : Value :=
  .object [("content", .array content), ("id", .string "msg_0"), ("role", .string "assistant"),
    ("status", .string status), ("type", .string "message")]

def said (text : String) : Value :=
  .object [("text", .string text), ("type", .string "output_text")]

def payloads : List Value :=
  [.object [("response", .object [("id", .string "resp_0"), ("model", .string "m"), ("object", .string "response"),
      ("status", .string "in_progress")]), ("type", .string "response.created")],
    .object [("item", message "in_progress" []), ("output_index", .ofNat 0),
      ("type", .string "response.output_item.added")],
    .object [("content_index", .ofNat 0), ("item_id", .string "msg_0"), ("output_index", .ofNat 0),
      ("part", said ""), ("type", .string "response.content_part.added")],
    .object [("content_index", .ofNat 0), ("delta", .string "hi"), ("item_id", .string "msg_0"),
      ("output_index", .ofNat 0), ("type", .string "response.output_text.delta")],
    .object [("item", message "completed" [said "hi"]), ("output_index", .ofNat 0),
      ("type", .string "response.output_item.done")],
    .object [("response", .object [("created_at", .ofNat 0), ("id", .string "resp_0"), ("model", .string "m"),
        ("object", .string "response"), ("output", .array [message "completed" [said "hi"]]),
        ("status", .string "completed"), ("usage", .null)]), ("type", .string "response.completed")]]

/-- The library knows these payloads by their bytes. -/
def library : Serde where
  fromSlice bytes :=
    match payloads.find? fun payload => encodeChars (payload.render fun _ => "") == bytes with
    | some payload => .ok payload
    | none => .error "unknown payload"
  formatFloat _ := ""

def greeting : List CodexEvent := [.textDelta "hi", .completed none]

def readsBack : WireFrame → Bool
  | .event _ payload =>
    (library.fromSlice (encodeChars (payload.render library.formatFloat))).toOption == some payload
  | _ => true

theorem readBack_of_readsBack {frame : WireFrame} (reads : readsBack frame = true) : frame.ReadBack library := by
  cases frame with
  | event name payload =>
    have bytes : library.toVec payload = encodeChars (payload.render library.formatFloat) := by
      simp [Serde.toVec, Serde.toString, utf8, encodeChars]
    rw [ReadBack, bytes]
    cases found : library.fromSlice (encodeChars (payload.render library.formatFloat)) with
    | ok value =>
      obtain rfl : value = payload := by simpa [readsBack, found, Except.toOption] using reads
      rfl
    | error _ => simp [readsBack, found, Except.toOption] at reads
  | _ => trivial

theorem greeting_consistent : (∀ frame ∈ drafts library greeting "m" 0, frame.ReadBack library) ∧
      ∃ (frames : List WireFrame) (items : List ReplayItem) (name : String) (payload : Value),
        streamed library greeting "m" 0 = frames.map (·.bytes library) ∧
        frames.map (·.sequenceNumber) = (range frames.length).map some ∧
        replay [] frames = some items ∧ (∀ item ∈ items, item.Spelled) ∧
        frames.getLast? = some (.event name payload) ∧
        match responsesResponse library greeting "m" 0 with
        | .ok response =>
          (name = "response.completed" ∨ name = "response.incomplete") ∧
            payload.get "response" = some response ∧
            ∃ output, response.get "output" = some (.array output) ∧
              items.map (·.finished) = output.map some
        | .error message =>
          name = "response.failed" ∧
            payload.pointer ["response", "error", "message"] = some (.string message) := by
  have readBack : ∀ frame ∈ drafts library greeting "m" 0, frame.ReadBack library := by
    have reads : (drafts library greeting "m" 0).all readsBack = true := by decide +kernel
    intro frame member
    exact readBack_of_readsBack (all_eq_true.mp reads frame member)
  exact ⟨readBack, stream_self_consistent library greeting "m" 0 readBack⟩

def broken : List CodexEvent := [.textDelta "hi", .failed "x"]

/-- A failed answer has an item done, a last frame without an output, and no response. -/
theorem failed_answer_without_output : (replay [] (drafts library broken "m" 0)).map (·.map (·.finished)) =
        some [some (message "completed" [said "hi"])] ∧
      ((drafts library broken "m" 0).getLast?.map fun frame =>
        match frame with
        | .event name payload => (name, payload.pointer ["response", "output"])
        | _ => ("", none)) = some ("response.failed", none) ∧
      (responsesResponse library broken "m" 0).toOption = none := by
  decide +kernel

end Sample
end ResponsesStreamRenderer
end Mahoquot.Compat
