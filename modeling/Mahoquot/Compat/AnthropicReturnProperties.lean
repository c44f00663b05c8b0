import Mathlib.Data.List.Induction
import Mahoquot.Compat.AnthropicRequest
import Mahoquot.Library.Checks

/-! What the tool results of a request are after it went to the OpenAI shape and back. -/

set_option autoImplicit false

namespace Mahoquot.Compat
open Library Value Translation List Option

attribute [local simp] Value.obj Value.set

variable {decodeBase64 : String → Option Bytes}

theorem index_type (part : Value) : (part.index "type").asStr = blockType part := by
  unfold index blockType
  cases part.get "type" with
  | none => rfl
  | some type => rfl

theorem blockType_set {key : String} (other : key ≠ "type") (block new : Value) :
    blockType (block.set key new) = blockType block := by
  unfold blockType
  cases block with
  | object entries => rw [get_set, if_neg (Ne.symm other)]
  | null => simp [Value.isNull, Value.get, other]
  | _ => rfl

theorem blockType_withCacheControl (source block : Value) :
    blockType (withCacheControl source block) = blockType block := by
  unfold withCacheControl
  cases (source.get "cache_control").filter isObject with
  | none => rfl
  | some marker => exact blockType_set (by decide) block marker

variable {part block : Value}

theorem blockType_imageBlock (made : imageBlock part = .ok block) : blockType block = some "image" := by
  unfold imageBlock at made
  split at made
  · cases made
  · split at made
    · split at made
      · cases made
        simp [blockType]
      · cases made
    · split at made
      · cases made
        simp [blockType]
      · cases made

theorem blockType_documentBlock
    (made : documentBlock decodeBase64 part = .ok block) : blockType block = some "document" := by
  unfold documentBlock at made
  dsimp only at made
  split at made
  · cases made
  · split at made
    · cases made
    · obtain ⟨source, -, rfl⟩ := map_eq_ok.1 made
      split
      · simp [blockType]
      · simp [blockType]

theorem isToolResult_converted (made : openaiContentToAnthropic decodeBase64 part = .ok block)
    (other : isToolResult part = false) : isToolResult block = false := by
  obtain ⟨plain, given, rfl⟩ := map_eq_ok.1 made
  unfold isToolResult at *
  rw [blockType_withCacheControl]
  unfold contentBlock at given
  split at given
  next =>
    cases given
    simp [blockType]
  next => rw [blockType_imageBlock given]; rfl
  next => rw [blockType_documentBlock given]; rfl
  iterate 4 next => exact Except.ok.inj given ▸ other
  all_goals cases given

theorem isToolResult_toolUse (serde : Serde) (call : Value) : isToolResult (toolUse serde call) = false := by
  simp [isToolResult, blockType, toolUse]

def textBlock (text : String) : Value := .obj [("type", .string "text"), ("text", .string text)]

def pictureBlock (mediaType data : String) : Value :=
  .obj [("type", .string "image"), ("source", .obj [("type", .string "base64"),
    ("media_type", .string mediaType), ("data", .string data)])]

/-- An item of a tool result that comes back as it was: a text with nothing but a cache
marker, an image of a known type with nothing but its bytes, or a block that is handed
on whole. -/
inductive Portable : Value → Prop where
  | text (text : String) : Portable (textBlock text)
  | marked (text : String) {marker : Value} (object : isObject marker = true) :
      Portable ((textBlock text).set "cache_control" marker)
  | picture {mediaType : String} (known : mediaType ∈ claudeImageTypes) (data : String) :
      Portable (pictureBlock mediaType data)
  | whole {item : Value} (kind : blockType item ∈
      [some "image", some "document", some "tool_result", some "tool_use"])
      (elsewhere : isPicture item = false) : Portable item

variable {item : Value}

theorem toolResultItem_of_isPicture (picture : isPicture item = true) :
    toolResultItem item = imageUrl (item.index "source") := by
  obtain ⟨type, bytes⟩ := Bool.and_eq_true_iff.1 picture
  rw [toolResultItem, index_type, beq_iff_eq.1 type]
  exact if_pos bytes

theorem toolResultItem_of_not_isPicture (other : isPicture item = false) : toolResultItem item = item := by
  unfold toolResultItem
  rw [index_type]
  split
  next type =>
    rw [isPicture, type, beq_self_eq_true, Bool.true_and] at other
    rw [other]
    rfl
  next => rfl

theorem withCacheControl_self (ordered : item.KeyOrdered) : withCacheControl item item = item := by
  unfold withCacheControl
  cases found : (item.get "cache_control").filter isObject with
  | none => rfl
  | some marker => exact set_self ordered (filter_eq_some_iff.1 found).1

theorem withCacheControl_imageUrl (source block : Value) : withCacheControl (imageUrl source) block = block := by
  simp [withCacheControl, imageUrl]

theorem contentBlock_imageUrl (source : Value) :
    contentBlock decodeBase64 (imageUrl source) = imageBlock (imageUrl source) := by
  have type : ((imageUrl source).index "type").asStr = some "image_url" := by
    simp [imageUrl, index]
  simp [contentBlock, type]

theorem exists_converted_imageUrl (source : Value) :
    (∃ block, openaiContentToAnthropic decodeBase64 (imageUrl source) = .ok block) ↔
      ∃ sent, imageBlock (imageUrl source) = .ok sent := by
  rw [openaiContentToAnthropic, exists_map_eq_ok, contentBlock_imageUrl]

theorem splitDataUrl_known {mediaType : String} (known : mediaType ∈ claudeImageTypes) (data : String) :
    splitDataUrl ("data:" ++ mediaType ++ ";base64," ++ data) = some (mediaType, data) := by
  have clear : ';' ∉ mediaType.toList := by
    revert mediaType
    decide
  have stripped : Text.stripChars? "data:".toList
      ("data:" ++ mediaType ++ ";base64," ++ data).toList =
        some (mediaType.toList ++ (";base64,".toList ++ data.toList)) := by
    rw [Text.stripChars?_eq_some]
    simp only [String.toList_append, append_assoc]
  have literal : ";base64,".toList = ';' :: "base64,".toList := by decide
  have whole : (String.ofList (mediaType.toList ++ (";base64,".toList ++ data.toList))).toList =
      mediaType.toList ++ (";base64,".toList ++ data.toList) := String.toList_ofList
  rw [splitDataUrl, Text.stripPrefix?, stripped, map_some, bind_some, Text.splitAt?,
    whole, literal, Text.findChars?_first clear, map_some, String.ofList_toList,
    String.ofList_toList]

theorem converted_text (text : String) :
    openaiContentToAnthropic decodeBase64 (textBlock text) = .ok (textBlock text) := by
  simp [openaiContentToAnthropic, contentBlock, withCacheControl, textBlock, index, Except.map]

theorem converted_picture {mediaType : String} (known : mediaType ∈ claudeImageTypes) (data : String) :
    openaiContentToAnthropic decodeBase64 (toolResultItem (pictureBlock mediaType data)) =
      .ok (pictureBlock mediaType data) := by
  have source : (pictureBlock mediaType data).index "source" = .obj [("type", .string "base64"),
      ("media_type", .string mediaType), ("data", .string data)] := by
    simp [pictureBlock, index]
  have picture : isPicture (pictureBlock mediaType data) = true := by
    rw [isPicture]
    simp [blockType, isBase64, pictureBlock, index, isStr]
  have url : ((imageUrl ((pictureBlock mediaType data).index "source")).index "image_url").index
      "url" = .string ("data:" ++ mediaType ++ ";base64," ++ data) := by
    rw [source]
    simp [imageUrl, index]
  rw [toolResultItem_of_isPicture picture, openaiContentToAnthropic, contentBlock_imageUrl, imageBlock, url, asStr, some_or]
  dsimp only
  rw [splitDataUrl_known known]
  dsimp only
  rw [if_pos (contains_iff_mem.2 known)]
  exact congrArg _ (withCacheControl_imageUrl _ _)

theorem converted_whole (ordered : item.KeyOrdered) (kind : blockType item ∈
    [some "image", some "document", some "tool_result", some "tool_use"]) (elsewhere : isPicture item = false) :
    openaiContentToAnthropic decodeBase64 (toolResultItem item) = .ok item := by
  have given : contentBlock decodeBase64 item = .ok item := by
    simp only [mem_cons, not_mem_nil, or_false] at kind
    obtain kind | kind | kind | kind := kind <;> simp [contentBlock, index_type, kind]
  rw [toolResultItem_of_not_isPicture elsewhere, openaiContentToAnthropic, given]
  exact congrArg _ (withCacheControl_self ordered)

theorem portable_of_isPicture (picture : isPicture item = true)
    (made : openaiContentToAnthropic decodeBase64 (toolResultItem item) = .ok item) : Portable item := by
  rw [toolResultItem_of_isPicture picture] at made
  obtain ⟨plain, given, same⟩ := map_eq_ok.1 made
  rw [withCacheControl_imageUrl] at same
  obtain rfl := same
  rw [contentBlock_imageUrl] at given
  unfold imageBlock at given
  split at given
  · cases given
  · split at given
    · split at given
      next known =>
        rw [← Except.ok.inj given]
        exact .picture (contains_iff_mem.1 known) _
      next => cases given
    · split at given
      · -- an address is no picture
        rw [← Except.ok.inj given] at picture
        simp [isPicture, isBase64, index, isStr] at picture
      · cases given

theorem portable_of_not_isPicture (other : isPicture item = false)
    (made : openaiContentToAnthropic decodeBase64 (toolResultItem item) = .ok item) : Portable item := by
  rw [toolResultItem_of_not_isPicture other] at made
  obtain ⟨plain, given, same⟩ := map_eq_ok.1 made
  have type : blockType plain = blockType item := (blockType_withCacheControl item plain).symm.trans (congrArg blockType same)
  unfold contentBlock at given
  rw [index_type] at given
  split at given
  next =>
    cases given
    unfold withCacheControl at same
    split at same
    next found =>
      rw [← same]
      exact .marked _ (filter_eq_some_iff.1 found).2
    next =>
      rw [← same]
      exact .text _
  next kind => simp [blockType_imageBlock given, kind] at type
  next kind => simp [blockType_documentBlock given, kind] at type
  iterate 4 next kind => exact .whole (by simp [kind]) other
  all_goals cases given

theorem converted_eq_iff (ordered : item.KeyOrdered) :
    openaiContentToAnthropic decodeBase64 (toolResultItem item) = .ok item ↔ Portable item := by
  constructor
  · intro made
    cases picture : isPicture item with
    | true => exact portable_of_isPicture picture made
    | false => exact portable_of_not_isPicture picture made
  · intro portable
    cases portable with
    | text text =>
      rw [toolResultItem_of_not_isPicture (by
        simp [isPicture, blockType, textBlock])]
      exact converted_text text
    | marked text object =>
      rw [toolResultItem_of_not_isPicture (by
        simp [isPicture, blockType, textBlock])]
      simp [openaiContentToAnthropic, contentBlock, withCacheControl, textBlock, index, Except.map, filter_some, object]
    | picture known data => exact converted_picture known data
    | whole kind elsewhere => exact converted_whole ordered kind elsewhere

variable (decodeBase64) (serde : Serde)

def carry (content : Value) : Except String Value :=
  match toolResultOutput content with
  | .array parts => (parts.mapM (openaiContentToAnthropic decodeBase64)).map .array
  | other => .ok other

theorem resultContent_toolResult (block : Value) :
    resultContent decodeBase64 (toolResult block) = carry decodeBase64 (toolResultContent block) := by
  unfold resultContent carry
  rw [content_toolResult]
  cases toolResultOutput (toolResultContent block) <;> rfl

/-- Every part of a message is of a kind that can be translated. -/
def Accepted (message : Value) : Prop :=
  ∀ part ∈ blocksOf message, ∃ block, openaiContentToAnthropic decodeBase64 part = .ok block

theorem exists_content_iff (message : Value) :
    ((∃ content, resultContent decodeBase64 message = .ok content) ↔ Accepted decodeBase64 message) ∧
      ((∃ content, spokenContent decodeBase64 message = .ok content) ↔ Accepted decodeBase64 message) := by
  unfold resultContent spokenContent Accepted blocksOf
  cases message.get "content" with
  | none => exact ⟨iff_of_true ⟨_, rfl⟩ nofun, iff_of_true ⟨_, rfl⟩ nofun⟩
  | some content =>
    cases content with
    | array parts =>
      dsimp only
      rw [← exists_mapM_eq_ok]
      exact ⟨exists_map_eq_ok, .rfl⟩
    | _ => exact ⟨iff_of_true ⟨_, rfl⟩ nofun, iff_of_true ⟨_, rfl⟩ nofun⟩

variable {message : Value}

theorem exists_push_iff (role : roleOf message ≠ "system" ∧ roleOf message ≠ "developer") (before : Translation) :
    (∃ after, before.push decodeBase64 serde message = .ok after) ↔ Accepted decodeBase64 message := by
  unfold push
  rw [if_neg (not_or.2 role)]
  split
  · rw [← (exists_content_iff decodeBase64 message).1]
    exact exists_map_eq_ok
  · rw [← (exists_content_iff decodeBase64 message).2]
    exact exists_map_eq_ok

/-- A message that a turn speaks: no part of it is a tool result. -/
structure Spoken (message : Value) : Prop where
  role : roleOf message = "user" ∨ roleOf message = "assistant"
  parts : ∀ part ∈ blocksOf message, isToolResult part = false

theorem spoken_assistantMessage (parts : TurnParts) : Spoken (assistantMessage parts) where
  role := .inr (roleOf_assistantMessage parts)
  parts := by
    rw [blocksOf, content_assistantMessage]
    nofun

theorem blocksOf_plainMessage (role : String) (parts : TurnParts) :
    blocksOf (plainMessage role parts) = if parts.imageParts.isEmpty then [] else
      (if parts.textParts.isEmpty then [] else [textBlock (String.join parts.textParts)]) ++ parts.imageParts := by
  have content : (plainMessage role parts).get "content" = some (if parts.imageParts.isEmpty then
      .string (String.join parts.textParts) else .array
        ((if parts.textParts.isEmpty then [] else [textBlock (String.join parts.textParts)]) ++
          parts.imageParts)) := by
    simp [plainMessage, textBlock]
  rw [blocksOf, content]
  cases parts.imageParts.isEmpty <;> rfl

theorem mem_blocksOf_plainMessage {role : String} {parts : TurnParts}
    (member : part ∈ blocksOf (plainMessage role parts)) :
    part = textBlock (String.join parts.textParts) ∨ part ∈ parts.imageParts := by
  rw [blocksOf_plainMessage] at member
  split at member
  · cases member
  · obtain member | member := mem_append.1 member
    · split at member
      · cases member
      · exact .inl (mem_singleton.1 member)
    · exact .inr member

theorem spoken_plainMessage {role : String} {parts : TurnParts} (given : role = "user" ∨ role = "assistant")
    (images : ∀ part ∈ parts.imageParts, ∃ source, part = imageUrl source) : Spoken (plainMessage role parts) where
  role := by rwa [roleOf_plainMessage]
  parts := by
    intro part member
    obtain rfl | member := mem_blocksOf_plainMessage member
    · simp [isToolResult, blockType, textBlock]
    · obtain ⟨source, rfl⟩ := images part member
      simp [isToolResult, blockType, imageUrl]

/-- What a turn without tools says is sent as it is spoken. -/
theorem spoken_of_spokenMessage {sent : Value} (role : roleOf message = "user" ∨ roleOf message = "assistant")
    (untooled : ∀ block ∈ blocksOf message, isToolUse block = false)
    (voiced : spokenMessage (roleOf message) (turnParts serde message) = some sent) : Spoken sent := by
  have none : (turnParts serde message).toolCalls.isEmpty = true := by
    rw [turnParts_toolCalls, List.isEmpty_map, List.isEmpty_iff, List.filter_eq_nil_iff]
    exact fun block member => by simp [untooled block member]
  unfold spokenMessage at voiced
  split at voiced
  · cases voiced
    exact spoken_assistantMessage _
  · rw [if_neg (by simp [none])] at voiced
    split at voiced
    · cases voiced
      refine spoken_plainMessage role fun part member => ?_
      rw [turnParts_imageParts] at member
      obtain ⟨block, -, same⟩ := mem_map.1 member
      exact ⟨_, same.symm⟩
    · cases voiced

variable {decodeBase64}

theorem spokenContent_toolResults (spoken : Spoken message) {content : List Value}
    (made : spokenContent decodeBase64 message = .ok content) : ∀ block ∈ content, isToolResult block = false := by
  unfold spokenContent at made
  split at made
  · cases made
    intro block member
    obtain rfl := mem_singleton.1 member
    simp [isToolResult, blockType]
  next given =>
    intro block member
    have parts := spoken.parts
    rw [blocksOf, given] at parts
    obtain ⟨part, found, converted⟩ := exists_of_mem_mapM made member
    exact isToolResult_converted converted (parts part found)
  · cases made
    intro block member
    cases member

variable {before after : Translation}

/-- A spoken message is added to the end, or left out where it is empty. -/
theorem push_spoken (spoken : Spoken message) (pushed : before.push decodeBase64 serde message = .ok after) :
    (∃ content, after.out = before.out ++ [⟨roleOf message, content⟩] ∧ ∀ block ∈ content, isToolResult block = false) ∨
      after.out = before.out ∧ (((message.get "tool_calls").bind asArray).getD []) = [] := by
  have system : ¬ (roleOf message = "system" ∨ roleOf message = "developer") := by
    obtain role | role := spoken.role <;> simp [role]
  have tool : roleOf message ≠ "tool" := by
    obtain role | role := spoken.role <;> simp [role]
  unfold push at pushed
  dsimp only at pushed
  rw [if_neg system, if_neg tool] at pushed
  obtain ⟨content, made, rfl⟩ := map_eq_ok.1 pushed
  split
  next empty =>
    refine .inr ⟨rfl, ?_⟩
    rw [List.isEmpty_iff, List.filter_eq_nil_iff] at empty
    refine eq_nil_iff_forall_not_mem.2 fun call member => ?_
    refine empty (toolUse serde call) (mem_append_right _ (mem_map_of_mem member)) ?_
    simp [isSent, blockType, toolUse]
  next =>
    refine .inl ⟨_, rfl, fun block member => ?_⟩
    obtain member | member := mem_append.1 (mem_of_mem_filter member)
    · exact spokenContent_toolResults spoken made block member
    · obtain ⟨call, -, rfl⟩ := mem_map.1 member
      exact isToolResult_toolUse serde call

variable (decodeBase64)

/-- A block that gives a tool result back. -/
structure Returns (result block : Value) : Prop where
  kind : isToolResult block = true
  id : toolResultId block = toolResultId result
  content : carry decodeBase64 (toolResultContent result) = .ok (toolResultContent block)

theorem returns_resultBlock {result content : Value}
    (made : resultContent decodeBase64 (toolResult result) = .ok content) :
    Returns decodeBase64 result (resultBlock (toolResult result) content) := by
  rw [resultContent_toolResult] at made
  have id := toolCallId_toolResult result
  rw [toolCallId] at id
  unfold resultBlock
  rw [id]
  cases (toolResult result).get "cache_control" with
  | none | some marker =>
    constructor
    · simp [isToolResult, blockType]
    · simp [toolResultId]
    · simpa [toolResultContent] using made

variable {decodeBase64}

theorem push_toolResult {result : Value} (pushed : before.push decodeBase64 serde (toolResult result) = .ok after) :
    ∃ block, after.out = pushResult before.out block ∧ Returns decodeBase64 result block := by
  unfold push at pushed
  rw [roleOf_toolResult, if_neg (by simp)] at pushed
  obtain ⟨content, made, rfl⟩ := map_eq_ok.1 pushed
  exact ⟨_, rfl, returns_resultBlock decodeBase64 made⟩

theorem push_toolResults {results : List Value}
    (pushed : (results.map toolResult).foldlM (push decodeBase64 serde) before = .ok after) :
    ∃ blocks, after.out = blocks.foldl pushResult before.out ∧ Forall₂ (Returns decodeBase64) results blocks := by
  induction results generalizing before with
  | nil =>
    cases pushed
    exact ⟨[], rfl, .nil⟩
  | cons result results ih =>
    rw [map_cons, foldlM_cons, bind_eq_ok] at pushed
    obtain ⟨between, first, rest⟩ := pushed
    obtain ⟨block, placed, returns⟩ := push_toolResult serde first
    obtain ⟨blocks, out, others⟩ := ih rest
    exact ⟨block :: blocks, by rw [out, placed, foldl_cons], .cons returns others⟩

/-- The first result begins a message behind the one that calls, and the others join it. -/
theorem foldl_pushResult {sent : List AnthropicMessage} {content blocks : List Value} (filled : blocks ≠ []) :
    blocks.foldl pushResult (sent ++ [⟨"assistant", content⟩]) = sent ++ [⟨"assistant", content⟩] ++ [⟨"user", blocks⟩] := by
  induction blocks using reverseRecOn with
  | nil => exact absurd rfl filled
  | append_singleton blocks block ih =>
    rw [foldl_append]
    cases blocks with
    | nil => simp [pushResult]
    | cons first blocks =>
      rw [ih (cons_ne_nil _ _)]
      simp [pushResult]

def held (block : Value) : String × Value := (toolResultId block, toolResultContent block)

def resultsOf (blocks : List Value) : List (String × Value) :=
  (blocks.filter isToolResult).map held

def resultTurns (turns : List (List Value)) : List (List (String × Value)) :=
  (turns.map resultsOf).filter fun results => !results.isEmpty

def ResultsFirst (blocks : List Value) : Prop :=
  blocks.Pairwise fun first second => ¬ (blockType first = some "text" ∧ isToolResult second = true)

/-- What the way back owes: the results of each turn with the same ids and contents,
in the same order, and before the text. -/
structure Restores (messages : List Value) (translation : Translation) : Prop where
  order : ∀ message ∈ translation.out, message.role = "user" → ResultsFirst message.content
  results : resultTurns (translation.out.map AnthropicMessage.content) =
    resultTurns (messages.map blocksOf)

variable {blocks messages results : List Value} {added : List AnthropicMessage}

theorem resultsOf_eq_nil (none : ∀ block ∈ blocks, isToolResult block = false) : resultsOf blocks = [] := by
  rw [resultsOf, filter_eq_nil_iff.2 fun block member => by simp [none block member], map_nil]

theorem resultTurns_cons_nil (none : ∀ block ∈ blocks, isToolResult block = false)
    (turns : List (List Value)) : resultTurns (blocks :: turns) = resultTurns turns := by
  rw [resultTurns, map_cons, resultsOf_eq_nil none]
  rfl

theorem resultTurns_cons (found : ∃ block ∈ blocks, isToolResult block = true) (turns : List (List Value)) :
    resultTurns (blocks :: turns) = resultsOf blocks :: resultTurns turns := by
  obtain ⟨block, member, result⟩ := found
  have filled : (resultsOf blocks).isEmpty = false := by
    rw [resultsOf, isEmpty_map, isEmpty_eq_false_iff_exists_mem]
    exact ⟨block, mem_filter.2 ⟨member, result⟩⟩
  rw [resultTurns, map_cons, filter_cons_of_pos (by rw [filled]; rfl)]
  rfl

theorem resultsFirst_of_none (none : ∀ block ∈ blocks, isToolResult block = false) : ResultsFirst blocks := by
  refine pairwise_of_forall_mem_list fun first _ second member both => ?_
  simp [none second member] at both

theorem resultsFirst_of_all (all : ∀ block ∈ blocks, isToolResult block = true) : ResultsFirst blocks := by
  refine pairwise_of_forall_mem_list fun first member _ _ both => ?_
  have kind := all first member
  rw [isToolResult, both.1] at kind
  cases kind

variable (decodeBase64)

/-- A result as it is after both translations. -/
def Carried (given got : String × Value) : Prop :=
  given.1 = got.1 ∧ carry decodeBase64 given.2 = .ok got.2

variable {decodeBase64}

theorem resultsOf_returns (returned : Forall₂ (Returns decodeBase64) results blocks) :
    Forall₂ (Carried decodeBase64) (results.map held) (resultsOf blocks) := by
  unfold resultsOf
  induction returned with
  | nil => exact .nil
  | @cons result block results blocks returns _ ih =>
    rw [filter_cons_of_pos returns.kind, map_cons]
    exact .cons ⟨returns.id.symm, returns.content⟩ ih

theorem isToolResult_returns (returned : Forall₂ (Returns decodeBase64) results blocks) :
    ∀ block ∈ blocks, isToolResult block = true := by
  induction returned with
  | nil => nofun
  | cons returns _ ih => exact forall_mem_cons.2 ⟨returns.kind, ih⟩

variable (decodeBase64)

/-- What the turns add to the messages of the way back. -/
structure Adds (messages : List Value) (added : List AnthropicMessage) : Prop where
  order : ∀ message ∈ added, ResultsFirst message.content
  results : Forall₂ (Forall₂ (Carried decodeBase64)) (resultTurns (messages.map blocksOf))
    (resultTurns (added.map AnthropicMessage.content))

variable {decodeBase64}

theorem Adds.unsent (adds : Adds decodeBase64 messages added)
    (untooled : ∀ block ∈ blocksOf message, isToolResult block = false) :
    Adds decodeBase64 (message :: messages) added where
  order := adds.order
  results := by
    rw [map_cons, resultTurns_cons_nil untooled]
    exact adds.results

theorem Adds.sent (adds : Adds decodeBase64 messages added)
    (untooled : ∀ block ∈ blocksOf message, isToolResult block = false) {sent : AnthropicMessage}
    (none : ∀ block ∈ sent.content, isToolResult block = false) :
    Adds decodeBase64 (message :: messages) (sent :: added) where
  order := forall_mem_cons.2 ⟨resultsFirst_of_none none, adds.order⟩
  results := by
    rw [map_cons, resultTurns_cons_nil untooled, map_cons, resultTurns_cons_nil none]
    exact adds.results

theorem Adds.answered (adds : Adds decodeBase64 messages added) {role : String}
    (given : (blocksOf message).filter isToolResult = results) (filled : ∃ block, block ∈ results)
    (returned : Forall₂ (Returns decodeBase64) results blocks) :
    Adds decodeBase64 (message :: messages) (⟨role, blocks⟩ :: added) where
  order := forall_mem_cons.2
    ⟨resultsFirst_of_all (isToolResult_returns returned), adds.order⟩
  results := by
    obtain ⟨block, member⟩ := filled
    have here : ∃ block ∈ blocksOf message, isToolResult block = true := ⟨block, mem_filter.1 (given ▸ member)⟩
    have there : ∃ block ∈ blocks, isToolResult block = true := by
      cases returned with
      | nil => cases member
      | cons returns _ => exact ⟨_, mem_cons_self, returns.kind⟩
    rw [map_cons, resultTurns_cons here, map_cons, resultTurns_cons there]
    refine .cons ?_ adds.results
    rw [resultsOf, given]
    exact resultsOf_returns returned

theorem run_adds (answered : Answered messages) (quiet : Quiet messages)
    (ran : (messages.flatMap (turnMessages serde)).foldlM (push decodeBase64 serde) before = .ok after) :
    ∃ added, after.out = before.out ++ added ∧ Adds decodeBase64 messages added := by
  induction answered generalizing before with
  | nil =>
    cases ran
    exact ⟨[], (append_nil _).symm, ⟨nofun, .nil⟩⟩
  | @plain message rest role untooled next ih =>
    have later := ((quiet_cons message rest).1 quiet).2
    have unanswering := fun block member => (untooled block member).2
    rw [flatMap_cons, turnMessages_plain serde untooled] at ran
    cases voiced : spokenMessage (roleOf message) (turnParts serde message) with
    | none =>
      rw [voiced] at ran
      obtain ⟨added, out, adds⟩ := ih later ran
      exact ⟨added, out, adds.unsent unanswering⟩
    | some sent =>
      rw [voiced, toList_some, singleton_append, foldlM_cons, bind_eq_ok] at ran
      obtain ⟨between, first, ran⟩ := ran
      have spoken := spoken_of_spokenMessage serde role (fun block member => (untooled block member).1) voiced
      obtain ⟨added, out, adds⟩ := ih later ran
      obtain ⟨content, placed, none⟩ | ⟨same, -⟩ := push_spoken serde spoken first
      · refine ⟨⟨roleOf sent, content⟩ :: added, ?_, adds.sent unanswering none⟩
        rw [out, placed, append_assoc, singleton_append]
      · exact ⟨added, by rw [out, same], adds.unsent unanswering⟩
  | @exchange calling answering results others rest assistant uses unanswering user blocks answers
      behind matched next ih =>
      obtain ⟨-, quiet⟩ := (quiet_cons calling _).1 quiet
      obtain ⟨silent, later⟩ := (quiet_cons answering rest).1 quiet
      have filled := exists_result uses matched
      have kept := filter_isToolResult blocks answers behind
      rw [flatMap_cons, flatMap_cons, turnMessages_calling serde assistant uses unanswering,
        turnMessages_answering serde blocks answers behind user, if_pos, singleton_append, foldlM_cons, bind_eq_ok] at ran
      · obtain ⟨called, calls, ran⟩ := ran
        rw [foldlM_append, bind_eq_ok] at ran
        obtain ⟨between, placing, ran⟩ := ran
        obtain ⟨added, out, adds⟩ := ih later ran
        obtain ⟨content, placed, none⟩ | ⟨-, none⟩ := push_spoken serde (spoken_assistantMessage _) calls
        · rw [roleOf_assistantMessage] at placed
          obtain ⟨held, holds, returned⟩ := push_toolResults serde placing
          have some : held ≠ [] := fun none => by cases none; cases returned; simp at filled
          rw [placed, foldl_pushResult some] at holds
          refine ⟨⟨"assistant", content⟩ :: ⟨"user", held⟩ :: added, ?_,
            (adds.answered kept filled returned).sent unanswering none⟩
          rw [out, holds]
          simp
        · rw [calls_assistantMessage, turnParts_toolCalls, map_eq_nil_iff, filter_eq_nil_iff] at none
          obtain ⟨block, member, use⟩ := uses
          exact absurd use (none block member)
      · obtain ⟨block, member⟩ := filled
        have given : block ∈ blocksOf answering := blocks ▸ mem_append_left others member
        exact (turnParts_silent serde (ne_nil_of_mem given)).2 (silent ⟨block, given, answers block member⟩)

variable (decodeBase64)

/-- The images that a turn sends are of a type that is taken back. A turn of the
assistant that calls or thinks sends none. -/
def Sendable (message : Value) : Prop :=
  (roleOf message = "assistant" ∧ ∃ block ∈ blocksOf message, isToolUse block = true ∨ thinks block = true) ∨
    ∀ block ∈ blocksOf message, isPicture block = true →
      ∃ sent, imageBlock (imageUrl (block.index "source")) = .ok sent

def PortableContent : Value → Prop
  | .array items => ∀ item ∈ items, Portable item
  | _ => True

/-- The items of a tool result are maps as they are kept. -/
def ContentOrdered : Value → Prop
  | .array items => ∀ item ∈ items, item.KeyOrdered
  | _ => True

def EveryResult (holds : Value → Prop) (messages : List Value) : Prop :=
  ∀ message ∈ messages, ∀ block ∈ blocksOf message, isToolResult block = true →
    holds (toolResultContent block)

theorem everyResult_cons (holds : Value → Prop) (message : Value) (rest : List Value) :
    EveryResult holds (message :: rest) ↔ (∀ block ∈ blocksOf message, isToolResult block = true →
      holds (toolResultContent block)) ∧ EveryResult holds rest :=
  forall_mem_cons

theorem everyResult_iff (holds : Value → Prop) (messages : List Value) : EveryResult holds messages ↔
      ∀ turn ∈ resultTurns (messages.map blocksOf), ∀ result ∈ turn, holds result.2 := by
  unfold EveryResult resultTurns resultsOf
  constructor
  · intro every turn member result found
    obtain ⟨_, mapped, rfl⟩ := mem_map.1 (mem_of_mem_filter member)
    obtain ⟨message, given, rfl⟩ := mem_map.1 mapped
    obtain ⟨block, kept, rfl⟩ := mem_map.1 found
    obtain ⟨block_mem, kind⟩ := mem_filter.1 kept
    exact every message given block block_mem kind
  · intro every message given block member kind
    have kept : held block ∈ ((blocksOf message).filter isToolResult).map held := mem_map_of_mem (mem_filter.2 ⟨member, kind⟩)
    refine every _ (mem_filter.2 ⟨mem_map_of_mem (mem_map_of_mem given), ?_⟩) _ kept
    simpa using ⟨block, member, kind⟩

theorem carry_eq_iff {content : Value} (ordered : ContentOrdered content) :
    carry decodeBase64 content = .ok content ↔ PortableContent content := by
  cases content with
  | array items =>
    have same : carry decodeBase64 (.array items) = .ok (.array items) ↔
        Forall₂ (fun item value =>
          openaiContentToAnthropic decodeBase64 item = .ok value) (items.map toolResultItem) items := by
      rw [← mapM_eq_ok]
      unfold carry toolResultOutput
      rw [map_eq_ok]
      simp
    rw [same, forall₂_map_left_iff, forall₂_same]
    exact forall₂_congr fun item member => converted_eq_iff (ordered item member)
  | _ => exact iff_of_true rfl trivial

theorem accepted_plainMessage (role : String) (parts : TurnParts) :
    Accepted decodeBase64 (plainMessage role parts) ↔ ∀ part ∈ parts.imageParts,
      ∃ block, openaiContentToAnthropic decodeBase64 part = .ok block := by
  constructor
  · intro accepted part member
    have filled : parts.imageParts.isEmpty = false := isEmpty_eq_false_iff_exists_mem.2 ⟨part, member⟩
    refine accepted part ?_
    rw [blocksOf_plainMessage, filled]
    exact mem_append_right _ member
  · intro accepted part member
    obtain rfl | member := mem_blocksOf_plainMessage member
    · exact ⟨_, converted_text _⟩
    · exact accepted part member

theorem accepted_assistantMessage (parts : TurnParts) : Accepted decodeBase64 (assistantMessage parts) := by
  rw [Accepted, blocksOf, content_assistantMessage]
  nofun

theorem accepted_toolResults (results : List Value) : (∀ sent ∈ results.map toolResult, Accepted decodeBase64 sent) ↔
      ∀ block ∈ results, ∃ content, carry decodeBase64 (toolResultContent block) = .ok content := by
  rw [List.forall_mem_map]
  exact forall₂_congr fun block _ => by
    rw [← (exists_content_iff decodeBase64 _).1, resultContent_toolResult]

theorem accepted_plain (untooled : ∀ block ∈ blocksOf message, isToolUse block = false ∧ isToolResult block = false) :
    (∀ sent ∈ turnMessages serde message, Accepted decodeBase64 sent) ↔ Sendable message := by
  have calls : (turnParts serde message).toolCalls.isEmpty = true := by
    rw [turnParts_toolCalls, List.isEmpty_map, List.isEmpty_iff, List.filter_eq_nil_iff]
    exact fun block member => by simp [(untooled block member).1]
  have pictures : (∀ part ∈ (turnParts serde message).imageParts,
      ∃ block, openaiContentToAnthropic decodeBase64 part = .ok block) ↔
        ∀ block ∈ blocksOf message, isPicture block = true →
          ∃ sent, imageBlock (imageUrl (block.index "source")) = .ok sent := by
    rw [turnParts_imageParts, List.forall_mem_map]
    simp only [mem_filter, and_imp, exists_converted_imageUrl]
  rw [turnMessages_plain serde untooled, spokenMessage]
  by_cases thoughtful : roleOf message = "assistant" ∧ (turnParts serde message).Thoughtful
  · obtain ⟨block, member, thinking⟩ := (turnParts_thoughtful serde message).1 thoughtful.2
    rw [if_pos ⟨thoughtful.1, .inr thoughtful.2⟩]
    refine iff_of_true ?_ (.inl ⟨thoughtful.1, block, member, .inr thinking⟩)
    simpa using accepted_assistantMessage decodeBase64 _
  · have quiet : ¬ (roleOf message = "assistant" ∧
        ∃ block ∈ blocksOf message, isToolUse block = true ∨ thinks block = true) := by
      rintro ⟨assistant, block, member, use | thinking⟩
      · simp [(untooled block member).1] at use
      · exact thoughtful ⟨assistant, (turnParts_thoughtful serde message).2 ⟨block, member, thinking⟩⟩
    rw [if_neg fun given => thoughtful ⟨given.1, given.2.resolve_left (by simp [calls])⟩,
      if_neg (by simp [calls]), Sendable, or_iff_right quiet, ← pictures]
    split
    · simpa using accepted_plainMessage decodeBase64 _ _
    next silent =>
      have none : (turnParts serde message).imageParts = [] := by
        simpa using (not_or.1 silent).2
      simp [none]

variable {messages : List Value}

theorem accepted_iff (answered : Answered messages) (quiet : Quiet messages) :
    (∀ sent ∈ messages.flatMap (turnMessages serde), Accepted decodeBase64 sent) ↔
      (∀ message ∈ messages, Sendable message) ∧
        EveryResult (fun content => ∃ got, carry decodeBase64 content = .ok got) messages := by
  induction answered with
  | nil => exact iff_of_true nofun ⟨nofun, nofun⟩
  | @plain message rest role untooled next ih =>
    have later := ((quiet_cons message rest).1 quiet).2
    rw [flatMap_cons, forall_mem_append, accepted_plain decodeBase64 serde untooled,
      ih later, forall_mem_cons, everyResult_cons, and_assoc]
    refine and_congr_right fun _ => and_congr_right fun _ => (and_iff_right ?_).symm
    intro block member kind
    simp [(untooled block member).2] at kind
  | @exchange calling answering results others rest assistant uses unanswering user blocks answers
      behind matched next ih =>
      obtain ⟨-, quiet⟩ := (quiet_cons calling _).1 quiet
      obtain ⟨silent, later⟩ := (quiet_cons answering rest).1 quiet
      obtain ⟨result, found⟩ := exists_result uses matched
      have given : result ∈ blocksOf answering := blocks ▸ mem_append_left others found
      have mute := silent ⟨result, given, answers result found⟩
      have called : Sendable calling := by
        obtain ⟨block, member, use⟩ := uses
        exact .inl ⟨assistant, block, member, .inl use⟩
      have answered : Sendable answering := .inr fun block member picture => by
        have silenced := mute block member
        rw [speaks, picture, Bool.or_true] at silenced
        cases silenced
      have results_iff : (∀ block ∈ blocksOf answering, isToolResult block = true →
          ∃ got, carry decodeBase64 (toolResultContent block) = .ok got) ↔
            ∀ block ∈ results, ∃ got, carry decodeBase64 (toolResultContent block) = .ok got := by
        rw [← filter_isToolResult blocks answers behind]
        simp only [mem_filter, and_imp]
      have none : ∀ block ∈ blocksOf calling, isToolResult block = true →
          ∃ got, carry decodeBase64 (toolResultContent block) = .ok got := by
        intro block member kind
        simp [unanswering block member] at kind
      rw [flatMap_cons, flatMap_cons, forall_mem_append, forall_mem_append,
        turnMessages_calling serde assistant uses unanswering,
        turnMessages_answering serde blocks answers behind user,
        if_pos ((turnParts_silent serde (ne_nil_of_mem given)).2 mute), nil_append,
        forall_mem_singleton, accepted_toolResults, ih later, forall_mem_cons,
        forall_mem_cons, everyResult_cons, everyResult_cons, results_iff,
        and_iff_right (accepted_assistantMessage decodeBase64 _), and_iff_right called,
        and_iff_right answered, and_iff_right none, and_left_comm]

theorem Answered.role (answered : Answered messages) :
    ∀ message ∈ messages, roleOf message = "user" ∨ roleOf message = "assistant" := by
  induction answered with
  | nil => nofun
  | plain role untooled next ih => exact forall_mem_cons.2 ⟨role, ih⟩
  | exchange assistant uses unanswering user blocks answers behind matched next ih =>
    exact forall_mem_cons.2 ⟨.inr assistant, forall_mem_cons.2 ⟨.inl user, ih⟩⟩

theorem role_of_mem_turnMessages {sent : Value}
    (role : roleOf message = "user" ∨ roleOf message = "assistant") (member : sent ∈ turnMessages serde message) :
    roleOf sent ≠ "system" ∧ roleOf sent ≠ "developer" := by
  obtain member | member := mem_append.1 member
  · obtain same | same := roleOf_spokenMessage (mem_toList.1 member)
    · simp [same]
    · obtain given | given := role <;> simp [same, given]
  · rw [turnParts_toolResults] at member
    obtain ⟨block, -, rfl⟩ := mem_map.1 member
    simp

/-- The way back succeeds when every part is of a kind that is taken. -/
theorem exists_return_iff (answered : Answered messages) (quiet : Quiet messages) (start : Translation) :
    (∃ last, (messages.flatMap (turnMessages serde)).foldlM (push decodeBase64 serde) start = .ok last) ↔
      (∀ message ∈ messages, Sendable message) ∧
        EveryResult (fun content => ∃ got, carry decodeBase64 content = .ok got) messages := by
  rw [← accepted_iff decodeBase64 serde answered quiet]
  refine exists_foldlM_eq_ok ?_ start
  intro sent member
  obtain ⟨message, given, spoken⟩ := mem_flatMap.1 member
  exact exists_push_iff decodeBase64 serde (role_of_mem_turnMessages serde (answered.role message given) spoken)

/-- A system text comes first and begins no message. -/
theorem translated_start {body : Value} {openai : List Value}
    (given : (body.get "messages").bind asArray = some messages)
    (translated : anthropicToOpenai serde body = .ok openai) : ∃ start : Translation, start.out = [] ∧
      openaiToAnthropic decodeBase64 serde openai =
        (messages.flatMap (turnMessages serde)).foldlM (push decodeBase64 serde) start ∧
      (Attached none openai ↔ Attached none (messages.flatMap (turnMessages serde))) := by
  unfold anthropicToOpenai at translated
  rw [given] at translated
  split at translated
  · cases translated
  · cases translated
    split
    · split
      · exact ⟨⟨[], []⟩, rfl, rfl, .rfl⟩
      next text _ _ =>
        have role : roleOf (.obj [("role", .string "system"), ("content", .string text)]) = "system" := by simp [roleOf]
        refine ⟨pushSystem ⟨[], []⟩ (.obj [("role", .string "system"), ("content", .string text)]), ?_, ?_, ?_⟩
        · simp [pushSystem, contentText]
        · rw [openaiToAnthropic, singleton_append, foldlM_cons]
          unfold push
          rw [role]
          rfl
        · rw [singleton_append, attached_cons (by rw [role]; decide), role, if_neg (by simp)]
    · exact ⟨⟨[], []⟩, rfl, rfl, .rfl⟩

theorem eq_iff_of_forall₂ {α : Type} {related : α → α → Prop} {keeps : α → Prop}
    (settles : ∀ given got, related given got → (got = given ↔ keeps given)) {givens gots : List α}
    (all : Forall₂ related givens gots) : gots = givens ↔ ∀ given ∈ givens, keeps given := by
  induction all with
  | nil => exact iff_of_true rfl nofun
  | cons first others ih => rw [cons_eq_cons, settles _ _ first, ih, forall_mem_cons]

theorem Adds.results_eq_iff (adds : Adds decodeBase64 messages added) :
    resultTurns (added.map AnthropicMessage.content) = resultTurns (messages.map blocksOf) ↔
      EveryResult (fun content => carry decodeBase64 content = .ok content) messages := by
  rw [everyResult_iff]
  refine eq_iff_of_forall₂ (fun given got => eq_iff_of_forall₂ ?_) adds.results
  rintro ⟨id, content⟩ ⟨got_id, got⟩ ⟨same, carried⟩
  obtain rfl := same
  rw [carried]
  simp

/-- Tool results stay with their calls on both ways exactly when the turns that hold them
say nothing else, the images sent are of a type that is taken back, and the contents are
ones that come back as they were. -/
theorem attached_and_restored_iff {body : Value} {messages openai : List Value}
    (given : (body.get "messages").bind asArray = some messages)
    (translated : anthropicToOpenai serde body = .ok openai) (answered : Answered messages)
    (ordered : EveryResult ContentOrdered messages) : (Attached none openai ∧ ∃ translation,
        openaiToAnthropic decodeBase64 serde openai = .ok translation ∧ Restores messages translation) ↔
      Quiet messages ∧ (∀ message ∈ messages, Sendable message) ∧ EveryResult PortableContent messages := by
  obtain ⟨start, empty, back, attached⟩ := translated_start decodeBase64 serde given translated
  have portable : EveryResult (fun content => carry decodeBase64 content = .ok content) messages ↔
      EveryResult PortableContent messages :=
    forall₂_congr fun message member => forall₂_congr fun block found => forall_congr' fun kind =>
      carry_eq_iff decodeBase64 (ordered message member block found kind)
  rw [attached, attached_flatMap_iff serde answered, back, ← portable]
  refine and_congr_right fun quiet => ?_
  constructor
  · rintro ⟨translation, ran, restores⟩
    obtain ⟨added, out, adds⟩ := run_adds serde answered quiet ran
    rw [empty, nil_append] at out
    exact ⟨((exists_return_iff decodeBase64 serde answered quiet start).1 ⟨translation, ran⟩).1,
      (adds.results_eq_iff decodeBase64).1 (out ▸ restores.results)⟩
  · rintro ⟨sendable, kept⟩
    obtain ⟨translation, ran⟩ := (exists_return_iff decodeBase64 serde answered quiet start).2
      ⟨sendable, fun message member block found kind => ⟨_, kept message member block found kind⟩⟩
    obtain ⟨added, out, adds⟩ := run_adds serde answered quiet ran
    rw [empty, nil_append] at out
    refine ⟨translation, ran, ?_, ?_⟩
    · exact fun message member _ => adds.order message (out ▸ member)
    · rw [out]
      exact (adds.results_eq_iff decodeBase64).2 kept

namespace ReturnSample

def call : Value :=
  .obj [("type", .string "tool_use"), ("id", .string "a"), ("name", .string "f"), ("input", .obj [])]

def result : Value :=
  .obj [("type", .string "tool_result"), ("tool_use_id", .string "a"), ("content", .string "done")]

def turn (role : String) (blocks : List Value) : Value :=
  .obj [("role", .string role), ("content", .array blocks)]

def body (messages : List Value) : Value :=
  .obj [("model", .string "m"), ("messages", .array messages)]

def library : Serde where
  fromSlice := fun _ => .error "not read"
  formatFloat := fun _ => ""

def exchange (others : List Value) : List Value :=
  [turn "assistant" [call], turn "user" (result :: others)]

theorem answered_exchange {others : List Value}
    (behind : ∀ block ∈ others, blockType block = some "text" ∨ blockType block = some "image") :
    Answered (exchange others) := by
  have used : useIds (turn "assistant" [call]) = [result].map toolResultId := by decide
  refine .exchange (by decide) ⟨call, by decide, by decide⟩ (by decide) ?_
    (?_ : _ = [result] ++ others) (by decide) behind (fun id => by rw [used]) .nil
  · simp [roleOf, turn]
  · simp [blocksOf, turn]

theorem translated_exchange (others : List Value) : anthropicToOpenai library (body (exchange others)) =
      .ok ((exchange others).flatMap (turnMessages library)) := by
  simp [anthropicToOpenai, body, asArray]

theorem mem_exchange {others : List Value} (member : message ∈ exchange others) :
    message = turn "assistant" [call] ∨ message = turn "user" (result :: others) := by
  simpa [exchange] using member

theorem everyResult_exchange {holds : Value → Prop} (done : holds (.string "done")) :
    EveryResult holds (exchange []) := by
  intro message member block found kind
  obtain rfl | rfl := mem_exchange member
  · obtain rfl := mem_singleton.1 found
    cases kind
  · obtain rfl := mem_singleton.1 found
    exact done

/-- A result that stands alone stays with its call. -/
theorem lone_result_stays : Attached none ((exchange []).flatMap (turnMessages library)) ∧ ∃ translation,
      openaiToAnthropic (fun _ => none) library ((exchange []).flatMap (turnMessages library)) =
        .ok translation ∧ Restores (exchange []) translation := by
  refine (attached_and_restored_iff (fun _ => none) library rfl (translated_exchange [])
    (answered_exchange nofun) (everyResult_exchange trivial)).2
    ⟨?_, ?_, everyResult_exchange trivial⟩
  · intro message member _
    obtain rfl | rfl := mem_exchange member <;> decide
  · intro message member
    obtain rfl | rfl := mem_exchange member
    · exact .inl ⟨rfl, call, by decide, .inl rfl⟩
    · refine .inr fun block found picture => ?_
      obtain rfl := mem_singleton.1 found
      cases picture

def remark : Value := .obj [("type", .string "text"), ("text", .string "go on")]

/-- A remark behind a result comes between it and its call, and stays there. -/
theorem remark_before_result : Answered (exchange [remark]) ∧
      ∃ openai translation, anthropicToOpenai library (body (exchange [remark])) = .ok openai ∧
        openai.map roleOf = ["assistant", "user", "tool"] ∧ ¬ Attached none openai ∧
        openaiToAnthropic (fun _ => none) library openai = .ok translation ∧
        translation.out.map (fun message => message.content.map blockType) =
          [[some "tool_use"], [some "text", some "tool_result"]] ∧ ¬ Restores (exchange [remark]) translation := by
  have answered : Answered (exchange [remark]) := answered_exchange (by decide)
  refine ⟨answered, _, ⟨[], [⟨"assistant", [.obj [("type", .string "tool_use"),
    ("id", .string "a"), ("name", .string "custom_f"), ("input", .obj [])]]⟩,
    ⟨"user", [remark, result]⟩]⟩, translated_exchange [remark], by decide +kernel, ?_,
    by decide +kernel, by decide +kernel, ?_⟩
  · rw [attached_flatMap_iff library answered]
    intro quiet
    have silent := quiet (turn "user" [result, remark]) (by decide) ⟨result, by decide, by decide⟩ remark (by decide)
    revert silent
    decide
  · intro restores
    have order := restores.order ⟨"user", [remark, result]⟩ (by simp) rfl
    rw [ResultsFirst, pairwise_pair] at order
    exact order (by decide)

end ReturnSample
end Mahoquot.Compat
