import Mahoquot.Compat.Events

/-! A client that rebuilds the items of a Responses stream from its frames. It gives
up where a frame is about an item that is not open. -/

set_option autoImplicit false

namespace Mahoquot.Compat
open List

/-- What a frame says about an item. -/
inductive ItemEvent where
  | added (index : Nat)
  | delta (index : Nat) (text : String)
  | argumentsDone (index : Nat) (arguments : String)
  | done (index : Nat) (item : Value)
  | other

/-- The frames that carry a piece of the text of an item. -/
def deltaNames : List String :=
  ["response.output_text.delta", "response.reasoning_text.delta", "response.function_call_arguments.delta"]

namespace WireFrame

def text (payload : Value) (key : String) : String :=
  ((payload.get key).bind Value.asStr).getD ""

def itemEvent : WireFrame → ItemEvent
  | event name payload =>
    match (payload.get "output_index").bind Value.asU64 with
    | none => .other
    | some index =>
      if name = "response.output_item.added" then .added index
      else if name ∈ deltaNames then .delta index (text payload "delta")
      else if name = "response.function_call_arguments.done" then
        .argumentsDone index (text payload "arguments")
      else if name = "response.output_item.done" then .done index (payload.index "item")
      else .other
  | _ => .other

end WireFrame

/-- An item as the client has it: the pieces it has heard, and the item itself once
it is done. -/
structure ReplayItem where
  text : String
  finished : Option Value
deriving Repr, DecidableEq

namespace ReplayItem

/-- Change an item that is not done. -/
def change (items : List ReplayItem) (index : Nat) (change : String → Option ReplayItem) : Option (List ReplayItem) :=
  match items[index]? with
  | some ⟨text, none⟩ => (change text).map (items.set index)
  | _ => none

/-- Items are added in the order of their indices, each is done once and changes
only before, and arguments that are done are those heard. -/
def read (items : List ReplayItem) : ItemEvent → Option (List ReplayItem)
  | .added index => if index = items.length then some (items ++ [⟨"", none⟩]) else none
  | .delta index piece => change items index fun text => some ⟨text ++ piece, none⟩
  | .argumentsDone index arguments =>
    change items index fun text => if text = arguments then some ⟨text, none⟩ else none
  | .done index item => change items index fun text => some ⟨text, some item⟩
  | .other => some items

def replay (items : List ReplayItem) (frames : List WireFrame) : Option (List ReplayItem) :=
  (frames.map (·.itemEvent)).foldlM read items

/-- The text an item holds. A search of the upstream holds none. -/
def heldText (item : Value) : Option String :=
  match (item.get "type").bind Value.asStr with
  | some "message" =>
    ((item.get "content").bind Value.asArray).bind fun parts =>
      (parts.head?.bind (·.get "text")).bind Value.asStr
  | some "function_call" => (item.get "arguments").bind Value.asStr
  | some "reasoning" =>
    ((item.get "summary").bind Value.asArray).bind fun parts =>
      match parts with
      | [] => some ""
      | part :: _ => (part.get "text").bind Value.asStr
  | _ => none

/-- The text of a finished item is what was heard of it. -/
def Spelled (entry : ReplayItem) : Prop :=
  ∃ item, entry.finished = some item ∧
    (heldText item = some entry.text ∨ item.get "type" = some (.string "web_search_call"))

section Replay
variable {items : List ReplayItem} {index : Nat} {text : String}

section
variable (here : items[index]? = some ⟨text, none⟩)
include here

theorem change_eq {update : String → Option ReplayItem} {entry : ReplayItem} (changed : update text = some entry) :
    change items index update = some (items.set index entry) := by
  rw [change, here]
  dsimp only
  rw [changed]
  rfl

theorem read_delta (piece : String) : read items (.delta index piece) = some (items.set index ⟨text ++ piece, none⟩) :=
  change_eq here rfl

theorem read_argumentsDone : read items (.argumentsDone index text) = some items := by
  rw [read, change_eq here (if_pos rfl)]
  obtain ⟨_, same⟩ := List.getElem?_eq_some_iff.mp here
  rw [← same, set_getElem_self]

theorem read_done (item : Value) : read items (.done index item) = some (items.set index ⟨text, some item⟩) :=
  change_eq here rfl

end

theorem replay_cons {frame : WireFrame} {next : List ReplayItem}
    (first : read items frame.itemEvent = some next) (frames : List WireFrame) :
    replay items (frame :: frames) = replay next frames := by
  rw [replay, map_cons, foldlM_cons, first]
  rfl

theorem replay_append {frames : List WireFrame} {next : List ReplayItem}
    (first : replay items frames = some next) (more : List WireFrame) :
    replay items (frames ++ more) = replay next more := by
  rw [replay] at first
  rw [replay, map_append, foldlM_append, first]
  rfl

end Replay

section Closing

/-- What closes an item: the frame of its arguments, where it has them, and its own. -/
structure Closing where
  index : Nat
  item : Value
  frames : List WireFrame

/-- The frames of a closing, where the client has heard a text of the item. -/
def Closing.Closes (closing : Closing) (text : String) : Prop :=
  closing.frames.map (·.itemEvent) = [.done closing.index closing.item] ∨
    closing.frames.map (·.itemEvent) =
      [.argumentsDone closing.index text, .done closing.index closing.item]

variable {items : List ReplayItem}

theorem Closing.replay_frames {closing : Closing} {text : String} (closes : closing.Closes text)
    (here : items[closing.index]? = some ⟨text, none⟩) :
    replay items closing.frames = some (items.set closing.index ⟨text, some closing.item⟩) := by
  rw [replay]
  rcases closes with only | both
  · rw [only, foldlM_cons, read_done here]
    rfl
  · rw [both, foldlM_cons, read_argumentsDone here, Option.bind_eq_bind, Option.bind_some, foldlM_cons, read_done here]
    rfl

/-- Closings of different open items finish these, and no other item. -/
theorem replay_closings {closings : List Closing} (distinct : (closings.map (·.index)).Nodup)
    (opened : ∀ closing ∈ closings, ∃ text, items[closing.index]? = some ⟨text, none⟩ ∧ closing.Closes text) :
    ∃ finished, replay items (closings.flatMap (·.frames)) = some finished ∧
      (∀ closing ∈ closings, ∃ text, items[closing.index]? = some ⟨text, none⟩ ∧
        finished[closing.index]? = some ⟨text, some closing.item⟩) ∧
      ∀ index, index ∉ closings.map (·.index) → finished[index]? = items[index]? := by
  induction closings generalizing items with
  | nil => exact ⟨items, rfl, by simp, fun _ _ => rfl⟩
  | cons closing closings ih =>
    rw [map_cons, nodup_cons] at distinct
    obtain ⟨text, here, closes⟩ := opened closing mem_cons_self
    have bound : closing.index < items.length := (List.getElem?_eq_some_iff.mp here).1
    -- The other items are open behind the first closing as they were before it.
    have apart (other : Closing) (member : other ∈ closings) :
        closing.index ≠ other.index := by
      intro same
      exact distinct.1 (same ▸ mem_map_of_mem member)
    have kept : ∀ other ∈ closings,
        (items.set closing.index ⟨text, some closing.item⟩)[other.index]? =
          items[other.index]? :=
      fun other member => getElem?_set_ne (apart other member)
    have still : ∀ other ∈ closings, ∃ heard,
        (items.set closing.index ⟨text, some closing.item⟩)[other.index]? = some ⟨heard, none⟩ ∧
          other.Closes heard := by
      intro other member
      rw [kept other member]
      exact opened other (mem_cons_of_mem _ member)
    obtain ⟨finished, replayed, closed, rest⟩ := ih distinct.2 still
    refine ⟨finished, ?_, ?_, ?_⟩
    · rw [flatMap_cons, replay_append (Closing.replay_frames closes here), replayed]
    · intro other member
      rcases mem_cons.mp member with rfl | later
      · refine ⟨text, here, ?_⟩
        rw [rest _ distinct.1, getElem?_set_self bound]
      · obtain ⟨heard, before, after⟩ := closed other later
        rw [kept other later] at before
        exact ⟨heard, before, after⟩
    · intro index outside
      rw [map_cons, mem_cons, not_or] at outside
      rw [rest index outside.2, getElem?_set_ne (Ne.symm outside.1)]

end Closing
end ReplayItem
end Mahoquot.Compat
